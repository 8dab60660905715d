import TraceDiff.Proofs.Baselines
import TraceDiff.Proofs.BlockPrefix.Faults
import TraceDiff.Proofs.Extraction

/-! What an extraction can fail with, when its client answers with values of the right types or
with faults of the chain. Every partial operation is safe, whatever the trace: a failure is a
report, or a report with a number that is too long to be written. -/
namespace TraceDiff

variable {σ : Type}

namespace Baselines

end Baselines

section Assemble

/-- An account that ends below zero, as its report tells. -/
def Ledger.ShortIn (l : Ledger) (pre : List (Address × Int)) (u : Underflow) : Prop :=
  ∃ a n, (a, n) ∈ pre ∧ n + l.net a < 0 ∧ u = ⟨a, .int n, l.credited a, l.debited a⟩

variable {l : Ledger} {pre : List (Address × Int)}

theorem Journal.resolve_of_solvent (solvent : ∀ e ∈ pre, 0 ≤ e.2 + l.net e.1) :
    Journal.resolve l pre = .ok (pre.map fun e => (e.1, e.2 + l.net e.1)) := by
  induction pre with
  | nil => rfl
  | cons e pre ih =>
    obtain ⟨a, n⟩ := e
    obtain ⟨first, rest⟩ := List.forall_mem_cons.1 solvent
    have after : n + l.credited a + -l.debited a = n + l.net a := by
      rw [Ledger.net]
      omega
    have kept : ¬ decide (n + l.net a < 0) = true := by simpa using first
    simp only [Journal.resolve, Holding.plus_int, ok_bind, Holding.isNegative_int, after,
      if_neg kept, ih rest]
    rfl

/-- The first account that ends below zero is reported. -/
theorem Journal.resolve_of_short {before after : List (Address × Int)} {e : Address × Int}
    (solvent : ∀ e ∈ before, 0 ≤ e.2 + l.net e.1) (short : e.2 + l.net e.1 < 0) :
    Journal.resolve l (before ++ e :: after) =
      .error (.ofUnderflow ⟨e.1, .int e.2, l.credited e.1, l.debited e.1⟩) := by
  have moved (x : Address × Int) : x.2 + l.credited x.1 + -l.debited x.1 = x.2 + l.net x.1 := by
    rw [Ledger.net]
    omega
  induction before with
  | nil =>
    have below : decide (e.2 + l.net e.1 < 0) = true := by simpa using short
    simp only [List.nil_append, Journal.resolve, Holding.plus_int, ok_bind, Holding.isNegative_int,
      Holding.toValue_int, moved, below, if_true]
  | cons x before ih =>
    obtain ⟨first, rest⟩ := List.forall_mem_cons.1 solvent
    have kept : ¬ decide (x.2 + l.net x.1 < 0) = true := by simpa using first
    simp only [List.cons_append, Journal.resolve, Holding.plus_int, ok_bind, Holding.isNegative_int,
      moved, if_neg kept, ih rest]
    rfl

/-- No account ends below zero, or one of them is the first. -/
theorem Ledger.solvent_or_short (l : Ledger) (pre : List (Address × Int)) :
    (∀ e ∈ pre, 0 ≤ e.2 + l.net e.1) ∨
      ∃ before e after, pre = before ++ e :: after ∧ (∀ e ∈ before, 0 ≤ e.2 + l.net e.1) ∧
        e.2 + l.net e.1 < 0 := by
  cases found : pre.find? fun e => e.2 + l.net e.1 < 0 with
  | none => exact .inl fun e he => by simpa using List.find?_eq_none.1 found e he
  | some e =>
    obtain ⟨short, before, after, rfl, solvent⟩ := List.find?_eq_some_iff_append.1 found
    exact .inr ⟨before, e, after, rfl, fun x hx => by simpa using solvent x hx, by simpa using short⟩

namespace Diff

theorem lookupBalance_of_mem {balances : List (Address × Int)} {a : Address}
    (listed : a ∈ balances.map Prod.fst) : ∃ n, lookupBalance balances a = .ok n := by
  obtain ⟨e, member, rfl⟩ := List.mem_map.1 listed
  unfold lookupBalance
  cases found : balances.find? (·.1 = e.1) with
  | some e' => exact ⟨e'.2, rfl⟩
  | none => simpa using List.find?_eq_none.1 found e member

theorem pairBalances_of_mem {post : List (Address × Int)} {accounts : List Address}
    (before : ∀ a ∈ accounts, a ∈ pre.map Prod.fst)
    (after : ∀ a ∈ accounts, a ∈ post.map Prod.fst) :
    ∃ pairs, pairBalances pre post accounts = .ok pairs := by
  induction accounts with
  | nil => exact ⟨[], rfl⟩
  | cons a accounts ih =>
    obtain ⟨first, before⟩ := List.forall_mem_cons.1 before
    obtain ⟨first', after⟩ := List.forall_mem_cons.1 after
    obtain ⟨n, hn⟩ := lookupBalance_of_mem first
    obtain ⟨n', hn'⟩ := lookupBalance_of_mem first'
    obtain ⟨pairs, paired⟩ := ih before after
    exact ⟨(a, n, n') :: pairs, by simp only [pairBalances, hn, hn', paired, ok_bind]; rfl⟩

theorem accountsOf_total (j : Journal) (final : Final) (pairs : List (Address × Int × Int)) :
    ∃ accounts, accountsOf j final pairs = .ok accounts := by
  induction pairs with
  | nil => exact ⟨∅, rfl⟩
  | cons e pairs ih =>
    obtain ⟨a, before, after⟩ := e
    obtain ⟨accounts, gathered⟩ := ih
    exact ⟨accounts.insert a (accountOf j final a before after), by
      simp only [accountsOf, Holding.number_int, gathered]
      rfl⟩

theorem assemble_of_short {j : Journal} (context : Context) (before : List (Address × Int))
    {e : Address × Int} (after : List (Address × Int))
    (solvent : ∀ e ∈ before, 0 ≤ e.2 + j.ledger.net e.1) (short : e.2 + j.ledger.net e.1 < 0) :
    assemble j (before ++ e :: after) context =
      .error (.ofUnderflow ⟨e.1, .int e.2, j.ledger.credited e.1, j.ledger.debited e.1⟩) := by
  simp only [assemble, Journal.resolve_of_short solvent short]
  rfl

/-- From the balances of all its accounts a journal is assembled, or else the first account is
reported that ends below zero. -/
theorem assemble_cases {j : Journal} (context : Context)
    (keys : ∀ a ∈ j.accounts, a ∈ pre.map Prod.fst) :
    (∃ result, assemble j pre context = .ok result ∧ ∀ e ∈ pre, 0 ≤ e.2 + j.ledger.net e.1) ∨
      ∃ before e after, pre = before ++ e :: after ∧ (∀ e ∈ before, 0 ≤ e.2 + j.ledger.net e.1) ∧
        e.2 + j.ledger.net e.1 < 0 ∧ assemble j pre context =
          .error (.ofUnderflow ⟨e.1, .int e.2, j.ledger.credited e.1, j.ledger.debited e.1⟩) := by
  rcases j.ledger.solvent_or_short pre with solvent | ⟨before, e, after, rfl, solvent, short⟩
  · have resolved := Journal.resolve_of_solvent solvent
    have listed : ∀ a ∈ j.accounts.toList, a ∈ pre.map Prod.fst :=
      fun a ha => keys a (Std.ExtTreeSet.mem_toList.1 ha)
    have listed' : ∀ a ∈ j.accounts.toList,
        a ∈ (pre.map fun e => (e.1, e.2 + j.ledger.net e.1)).map Prod.fst := by
      intro a ha
      rw [List.map_map]
      exact listed a ha
    obtain ⟨pairs, paired⟩ := pairBalances_of_mem listed listed'
    obtain ⟨accounts, gathered⟩ := accountsOf_total j (finalOf j) pairs
    exact .inl ⟨_, by simp only [assemble, resolved, ok_bind, paired, gathered]; rfl, solvent⟩
  · exact .inr ⟨before, e, after, rfl, solvent, short,
      assemble_of_short context before after solvent short⟩

end Diff

end Assemble

namespace Extraction

/-- The transaction, its block and its trace are of the right types. -/
structure Subject.Typed (x : Subject) : Prop where
  tx : x.tx.Typed
  block : x.block.Typed
  trace : x.trace.Typed

variable {client : Client σ}

/-- An account pays more than it had and gets: as the transaction is settled, if the client is met
in the state `s`, or in the replay of the block before it. -/
inductive Overdraws (client : Client σ) (x : Subject) (exact : Bool) (s : σ) : Underflow → Prop
  | settled {baseline : BaselineSource (BlockPrefix.Traced σ)} {s₁ s₂ s₃ : BlockPrefix.Traced σ}
      {m₁ m₂ : Replay.Machine} {b : Baselines} {pre : List (Address × Int)} {u : Underflow}
      (chosen : baselineOf client x exact = .ok baseline)
      (seeded : (Replay.seed { code := some (codeOf client x), baseline := some baseline } false
        x.tx x.trace.gasUsed.value).outcome (.start x.target, (none, s)) = (.ok (), (m₁, s₁)))
      (replayed : (Replay.replay { code := some (codeOf client x), baseline := some baseline } false
        x.trace.records x.trace.failed).outcome (m₁, s₁) = (.ok (), (m₂, s₂)))
      (resolved : (Baselines.resolve baseline m₂.journal.accounts).outcome
        (m₂.journal.baselines, s₂) = (.ok pre, (b, s₃)))
      (short : m₂.journal.ledger.ShortIn pre u) : Overdraws client x exact s u
  | before {p : BlockPrefix} {u : Underflow} (asked : exact = true)
      (parted : BlockPrefix.of x.block x.tx = .ok p) (overdrawn : p.Overdraws client u) :
      Overdraws client x exact s u

/-- The numbers that an extraction tells when it finds fault: those of an account that is overdrawn,
the block that does not list the transaction, or how deep a record is, of the transaction or of one
before it. -/
inductive Tells (client : Client σ) (x : Subject) (exact : Bool) (s : σ) : List Rpc.Value → Prop
  | overdraft {u : Underflow} (overdrawn : Overdraws client x exact s u) :
      Tells client x exact s u.numbers
  | unlisted (asked : exact = true)
      (absent : BlockPrefix.before? x.tx.hash x.block.transactions = none) :
      Tells client x exact s [x.block.number.toValue]
  | depth {r : Record} (replayed : r ∈ x.trace.records) : Tells client x exact s [.int r.depth]
  | depthBefore {p : BlockPrefix} {traces : List Trace} {trace : Trace} {r : Record}
      (asked : exact = true) (parted : BlockPrefix.of x.block x.tx = .ok p)
      (traced : (client.traces p.ids).MayGive traces) (listed : trace ∈ traces)
      (replayed : r ∈ trace.records) : Tells client x exact s [.int r.depth]

variable {x : Subject} {exact : Bool} {s : σ}

/-- The lowest price with more digits than are written. -/
def unwritablePrice : Int := (Nat.pow 10 4300 : Nat)

end Extraction

end TraceDiff
