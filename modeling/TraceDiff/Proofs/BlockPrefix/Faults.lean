import TraceDiff.Proofs.BlockPrefix
import TraceDiff.Proofs.Client

/-! What a query of a prefix can fail with. It has fetched a balance for every account it follows,
so all that can go wrong besides the client and the traces is an account that is overdrawn. -/
namespace TraceDiff

variable {σ α : Type}

section Replaying

variable {sources : Sources σ} {C : σ → Prop} {Q : List Rpc.Value → Prop}

theorem Replay.aligned_start (root : Address) : (Machine.start root).Aligned := ⟨rfl, rfl⟩

/-- What a transaction moves is worked out by one replay, with the faults of that one. -/
theorem safe_balanceEffects_of_covers {source : BaselineSource σ} {kind : Fault → Prop}
    {tx : Transaction} {trace : Trace} (account : Within (fun _ => True) kind tx.account)
    (idle : Replay.Covers { baseline := some source } C [] kind)
    (covers : Replay.Covers { baseline := some source } C trace.records kind) :
    (balanceEffects source tx trace).Safe C (fun _ => True) kind := by
  refine (Asking.safe_ofExcept account).bind fun target _ => ?_
  have runs : (do
      Replay.seed { baseline := some source } true tx trace.gasUsed.value
      if trace.failed then Replay.replay { baseline := some source } true [] true
      else Replay.replay { baseline := some source } true trace.records false :
        Replay.Run σ Unit).Safe (Both Replay.Machine.Aligned C) (fun _ => True) kind := by
    refine (Replay.safe_seed covers.answer tx _).bind fun _ _ => ?_
    split
    · exact Replay.safe_replay idle true
    · exact Replay.safe_replay covers false
  intro s hs
  obtain ⟨⟨-, kept⟩, within⟩ := runs (.start target, s) ⟨Replay.aligned_start target, hs⟩
  simp only [Asking.outcome_ofOutcome]
  split
  · next f m s' failed =>
    rw [failed] at kept within
    exact ⟨kept, within⟩
  · next m s' done =>
    rw [done] at kept
    exact ⟨kept, trivial⟩

end Replaying

namespace BlockPrefix

/-- A query that follows some accounts through the transactions before a target comes to one that
takes more from an account than it has got there. Only the net change of the account is known. -/
inductive Overdraws (p : BlockPrefix) (client : Client σ) : Underflow → Prop
  | query {tracked : AddressSet} {start balances effects : Balances} {traces : List Trace}
      {earlier later : List (Transaction × Trace)} {tx : Transaction} {trace : Trace} {a : Address}
      {n change : Int} {s s₁ s₂ : σ}
      (told : (client.balances tracked (.number p.parent)).MayGive start)
      (traced : (client.traces p.ids).MayGive traces)
      (next : p.transactions.zip traces = earlier ++ (tx, trace) :: later)
      (reached : (p.advance client tracked earlier start).outcome s = (.ok balances, s₁))
      (made : (balanceEffects (p.running client balances) tx trace).outcome s₁ = (.ok effects, s₂))
      (member : a ∈ tracked) (held : balances[a]? = some n) (changed : effects[a]? = some change)
      (short : n + change < 0) :
      Overdraws p client
        { address := a, pre := .int n, credit := max change 0, debit := max (-change) 0 }

/-- The numbers that a query tells when it finds fault: those of an account that is overdrawn, or how
deep a record is. -/
inductive Tells (p : BlockPrefix) (client : Client σ) : List Rpc.Value → Prop
  | overdraft {u : Underflow} (overdrawn : p.Overdraws client u) : Tells p client u.numbers
  | depth {traces : List Trace} {trace : Trace} {r : Record}
      (traced : (client.traces p.ids).MayGive traces) (listed : trace ∈ traces)
      (replayed : r ∈ trace.records) : Tells p client [.int r.depth]

variable {p : BlockPrefix} {client : Client σ} {tracked : AddressSet} {start balances : Balances}
  {traces : List Trace}

end BlockPrefix

/-- The source fails with faults of a kind, one balance at a time and many at once; many at once are
all that it was asked for. -/
structure BaselineSource.Safe (source : BaselineSource σ) (C : σ → Prop) (kind : Fault → Prop) :
    Prop where
  one : ∀ a, (source.one a).Safe C (fun _ => True) kind
  many : ∃ many, source.many = some many ∧
    ∀ addresses, (many addresses).Safe C (fun known => ∀ a ∈ addresses, a ∈ known) kind

end TraceDiff
