import TraceDiff.Proofs.FrameTree.Records
import TraceDiff.Proofs.Replay.Invariants

/-! The value that calls and creations move. The record right after one tells whether it moves: only
a frame with records of its own is paid. Where the trace goes on at once in the caller, as it does
for an account without code, nothing moves, whatever result the trace shows. -/
namespace TraceDiff

theorem Record.value_arg_of_peek {r : Record} {i : Nat} {n : Int} (h : r.peek i = .ok n) :
    (r.arg i).value = n := by
  have found := Record.peek_eq_ok_iff.1 h
  unfold Record.arg
  rw [List.getD_eq_getElem?_getD]
  cases held : r.stack[i]? with
  | none =>
    rw [held] at found
    nomatch found
  | some word =>
    rw [held] at found
    exact Option.some.inj found

namespace Replay

open FrameTree (sent)

variable {σ : Type} {sources : Sources σ} {balancesOnly : Bool} {r x : Record} {o : Opcode}
  {inside rest : List Record}

/-- A frame started exactly when there are records inside. -/
theorem frameStarted_of_level (deeper : ∀ y ∈ inside, r.depth < y.depth)
    (level : x.depth = r.depth) (rest : List Record) :
    frameStarted r (inside ++ x :: rest) = !inside.isEmpty := by
  cases inside with
  | nil => simp [frameStarted, level]
  | cons y inside =>
    have started := deeper y List.mem_cons_self
    simpa [frameStarted] using started

/-- A creation is looked up in the first record at its own depth. -/
theorem createdAddress_of_level {created : Option Address}
    (deeper : ∀ y ∈ inside, r.depth < y.depth) (level : x.depth = r.depth)
    (looked : createdAddress r (inside ++ x :: rest) = .ok created) :
    created = if Address.ofWord (x.arg 0).value = Address.zero then none
      else some (.ofWord (x.arg 0).value) := by
  rw [createdAddress_append fun y hy => (Int.ne_of_lt (deeper y hy)).symm] at looked
  unfold createdAddress at looked
  rw [if_pos level] at looked
  obtain ⟨word, read, made⟩ := bind_eq_ok.1 looked
  rw [Record.value_arg_of_peek read]
  exact (Except.ok.inj made).symm

namespace Effect

theorem lasting_noteIf {condition : Bool} {entry : Journal.Entry}
    (h : entry.keepsBalances = true) :
    ∀ e ∈ noteIf condition entry, e.Lasting (·.keepsBalances = true) := by
  intro e he
  obtain ⟨-, rfl⟩ := mem_noteIf.1 he
  exact h

/-- A call, or a creation that the trace shows to have succeeded, does nothing to balances before it
pays. -/
theorem payment_of_ofRecord {scope : Scope} {f : Frame} {effects : List Effect} (opens : r.Opens o)
    (pays : o = .call ∨ o.isCreate = true) (deeper : ∀ y ∈ inside, r.depth < y.depth)
    (level : x.depth = r.depth)
    (created : o.isCreate = true → Address.ofWord (x.arg 0).value ≠ Address.zero)
    (read : ofRecord scope f r (inside ++ x :: rest) = .ok effects) :
    ∃ before, effects = before ++
        payment f (o.callee r (x.arg 0)) (sent o r) (!inside.isEmpty) ∧
      ∀ e ∈ before, e.Lasting (·.keepsBalances = true) := by
  rw [ofRecord_of_opens opens] at read
  rcases pays with rfl | isCreate
  · rw [show Opcode.call.isCall = true from rfl, if_pos rfl] at read
    obtain ⟨word, value, hword, hvalue, rfl⟩ := ofCall_eq_ok.1 read
    rw [if_pos rfl] at hvalue
    have callee : Opcode.callee .call r (x.arg 0) = .ofWord word :=
      congrArg Address.ofWord (Record.value_arg_of_peek hword)
    have amount : sent .call r = value := Record.value_arg_of_peek hvalue
    refine ⟨_, by rw [callee, amount, frameStarted_of_level deeper level], ?_⟩
    intro e he
    rcases List.mem_append.1 he with he | he
    · exact lasting_noteIf rfl e he
    · obtain rfl := List.mem_singleton.1 he
      trivial
  · have noCall : o.isCall = false ∧ o ≠ .call := by
      cases o <;> first | exact ⟨rfl, nofun⟩ | nomatch isCreate
    rw [noCall.1, if_neg Bool.false_ne_true] at read
    obtain ⟨value, looked, hvalue, hlooked, rfl⟩ := ofCreate_eq_ok.1 read
    have callee : o.callee r (x.arg 0) = .ofWord (x.arg 0).value := if_pos isCreate
    have amount : sent o r = value := by
      rw [sent, if_neg noCall.2, if_pos isCreate]
      exact Record.value_arg_of_peek hvalue
    rw [createdAddress_of_level deeper level hlooked, if_neg (created isCreate)]
    refine ⟨_, by rw [callee, amount, ← frameStarted_of_level deeper level rest]; rfl, ?_⟩
    intro e he
    rcases List.mem_append.1 he with he | he
    · obtain rfl := List.mem_singleton.1 he
      trivial
    · exact lasting_noteIf rfl e he

end Effect

variable {m m' : Machine} {s s' : σ}

theorem keeps_balances {effects : List Effect}
    (lasting : ∀ e ∈ effects, e.Lasting (·.keepsBalances = true)) (l : Ledger) :
    Keeps (fun m => m.journal.ledger.credits = l.credits ∧ m.journal.ledger.debits = l.debits)
      (performAll sources effects) := by
  refine keeps_lasting lasting ?_ fun _ _ _ _ h => h
  intro e still m j leads h
  obtain ⟨⟨credits, debits⟩, -⟩ := Journal.Entry.balances_of_leads still leads
  exact ⟨credits.trans h.1, debits.trans h.2⟩

/-- A frame that is no placeholder pays when the frame that it opened started. -/
theorem balances_of_payment {f : Frame} (real : f.placeholder = false) {target : Address}
    {value : Int} {started : Bool}
    (done : (performAll sources (Effect.payment f target value started)).outcome (m, s) =
      (.ok (), (m', s'))) :
    let l := m.journal.ledger
    let after := if started then l.transfer f.address target value else l
    m'.journal.ledger.credits = after.credits ∧ m'.journal.ledger.debits = after.debits := by
  intro l after
  by_cases moves : value ≠ 0 ∧ started = true
  · obtain ⟨some_, rfl⟩ := moves
    have paid : Effect.payment f target value true = [.note (.transfer f.address target value)] := by
      simp [Effect.payment, Effect.noteIf, some_, real]
    rw [paid] at done
    obtain ⟨rfl, -⟩ := Prod.mk.inj (Prod.mk.inj done).2
    exact ⟨rfl, rfl⟩
  · have unpaid : Effect.payment f target value started = [] := by
      simp only [Effect.payment, Effect.noteIf, real]
      split
      · next h => exact absurd (by simpa using h) moves
      · rfl
    rw [unpaid] at done
    obtain ⟨rfl, -⟩ := Prod.mk.inj (Prod.mk.inj done).2
    cases started with
    | false => exact ⟨rfl, rfl⟩
    | true =>
      have nothing : value = 0 := by simpa using moves
      simp [after, l, nothing, Ledger.transfer, Ledger.credit, Ledger.debit, Ledger.addTo]

/-- In a trace that is accepted, a call or a creation with records inside moves its value from the
account executing to the one called or created; one without records inside moves nothing. The
record after those inside, which shows the result, is asked for the created address alone. -/
theorem payment_of_replay {passed : List Record} {failed : Bool} {w : Machine × σ}
    (accepted : (replay sources balancesOnly (passed ++ r :: (inside ++ x :: rest)) failed).outcome
      (m, s) = (.ok (), w))
    (opens : r.Opens o) (pays : o = .call ∨ o.isCreate = true)
    (deeper : ∀ y ∈ inside, r.depth < y.depth) (level : x.depth = r.depth)
    (created : o.isCreate = true → Address.ofWord (x.arg 0).value ≠ Address.zero) :
    ∃ m₁ s₁ m₂ m₃ s₃,
      (stepsBefore sources balancesOnly (r :: (inside ++ x :: rest)) 0 passed).outcome
        (anchor m, s) = (.ok (), (m₁, s₁)) ∧
      m₁.arrive r = .ok m₂ ∧
      (step sources balancesOnly passed.length r (inside ++ x :: rest)).outcome (m₁, s₁) =
        (.ok (), (m₃, s₃)) ∧
      (m₂.frames.top.placeholder = false →
        let l := m₂.journal.ledger
        let after := if inside.isEmpty then l
          else l.transfer m₂.frames.current (o.callee r (x.arg 0)) (sent o r)
        m₃.journal.ledger.credits = after.credits ∧ m₃.journal.ledger.debits = after.debits) := by
  obtain ⟨m', ran, -⟩ := replay_eq_ok.1 accepted
  rw [steps_append, Nat.zero_add] at ran
  obtain ⟨_, ⟨m₁, s₁⟩, before, ran⟩ := Asking.outcome_bind_eq_ok.1 ran
  obtain ⟨_, ⟨m₃, s₃⟩, done, -⟩ := Asking.outcome_bind_eq_ok.1 ran
  obtain ⟨m₂, effects, arrived, read, performed⟩ := step_eq_ok.1 done
  refine ⟨m₁, s₁, m₂, m₃, s₃, before, arrived, done, ?_⟩
  intro real l after
  obtain ⟨still, rfl, keeps⟩ :=
    Effect.payment_of_ofRecord opens pays deeper level created read
  rw [performAll_append] at performed
  obtain ⟨_, ⟨m₄, s₄⟩, first, paid⟩ := Asking.outcome_bind_eq_ok.1 performed
  obtain ⟨credits, debits⟩ := (keeps_balances keeps l).after first ⟨rfl, rfl⟩
  obtain ⟨received, given⟩ := balances_of_payment real paid
  cases empty : inside.isEmpty with
  | true =>
    simp only [empty, Bool.not_true, Bool.false_eq_true, if_false] at received given
    simp only [after, empty, if_true]
    exact ⟨received.trans credits, given.trans debits⟩
  | false =>
    simp only [empty, Bool.not_false, if_true] at received given
    simp only [after, empty, Bool.false_eq_true, if_false]
    exact ⟨received.trans (congrArg (Ledger.addTo · _ _) credits),
      given.trans (congrArg (Ledger.addTo · _ _) debits)⟩

theorem opens_named {o : Opcode} (h : o.opensFrame = true) (depth : Int) (stack : List Int) :
    (Record.named o depth stack).Opens o :=
  ⟨rfl, by simp [Record.named, Rpc.Value.opcode], h⟩

/-- Sends five. -/
def payingCall : Record := .named .call 1 [0, 3, 5]

theorem payment_of_replay_calleeWrites :
    let start := anchor (.start (.ofNat 1))
    let stepped := (step ({} : Sources Unit) false 0 payingCall
      [.named .sstore 2 [1, 2], .idle 1 [1]]).outcome (start, ())
    stepped.1 = .ok () ∧ stepped.2.1.journal.ledger.credited (.ofNat 3) = 5 ∧
      stepped.2.1.journal.ledger.debited (.ofNat 1) = 5 := by
  intro start stepped
  let trace : List Record := [payingCall, .named .sstore 2 [1, 2], .idle 1 [1]]
  have through : ((replay ({} : Sources Unit) false trace false).outcome
      (.start (.ofNat 1), ())).1 = .ok () := eq_ok_of_toOption (by decide +kernel)
  have accepted : (replay ({} : Sources Unit) false ([] ++ payingCall ::
      ([.named .sstore 2 [1, 2]] ++ .idle 1 [1] :: [])) false).outcome (.start (.ofNat 1), ()) =
        (.ok (), ((replay ({} : Sources Unit) false trace false).outcome
          (.start (.ofNat 1), ())).2) := by
    rw [← through]
    rfl
  obtain ⟨m₁, s₁, m₂, m₃, s₃, before, arrived, done, pays⟩ :=
    payment_of_replay accepted (opens_named rfl 1 _) (.inl rfl) (by decide) rfl nofun
  obtain ⟨rfl, -⟩ := Prod.mk.inj (Prod.mk.inj before).2
  rw [Machine.arrive_of_depth_eq rfl] at arrived
  obtain rfl := Except.ok.inj arrived
  obtain ⟨credits, debits⟩ := pays rfl
  have stepped_eq : stepped = (.ok (), (m₃, s₃)) := done
  refine ⟨by rw [stepped_eq], ?_, ?_⟩
  · rw [stepped_eq, Ledger.credited, credits]
    decide +kernel
  · rw [stepped_eq, Ledger.debited, debits]
    decide +kernel

/-- An account without code has no records. The call pays nothing, although its flag shows
success. -/
theorem unpaid_calleeWithoutCode :
    let start := anchor (.start (.ofNat 1))
    let after := .idle 1 [1]
    let stepped := (step ({} : Sources Unit) false 0 payingCall [after]).outcome (start, ())
    ((replay ({} : Sources Unit) false [payingCall, after] false).outcome
        (.start (.ofNat 1), ())).1 = .ok () ∧
      payingCall.Opens .call ∧ sent .call payingCall = 5 ∧ start.frames.top.placeholder = false ∧
      after.depth = payingCall.depth ∧ (after.arg 0).value = 1 ∧
      stepped.1 = .ok () ∧ stepped.2.1.journal.ledger.credited (.ofNat 3) = 0 ∧
        stepped.2.1.journal.ledger.debited (.ofNat 1) = 0 := by
  refine ⟨eq_ok_of_toOption ?_, opens_named rfl 1 _, rfl, rfl, rfl, rfl, eq_ok_of_toOption ?_,
    ?_, ?_⟩ <;> decide +kernel

end Replay

end TraceDiff
