import TraceDiff.Proofs.Journal
import TraceDiff.Replay

/-! The parts of a replay: how a transaction is seeded, how the machine gets ready for a record,
what it performs, and how a replay goes on after a record that came through. -/
namespace TraceDiff

variable {σ : Type}

/-- The counts after so many more frames were opened and settled. -/
def Snapshots.settled (s : Snapshots) (kept undone : Nat) : Snapshots :=
  { s with
    pushes := s.pushes + (kept + undone)
    pops := s.pops + kept
    rollbacks := s.rollbacks + undone }

theorem Snapshots.settled_settled (s : Snapshots) (k u k' u' : Nat) :
    (s.settled k u).settled k' u' = s.settled (k + k') (u + u') := by
  simp only [settled, mk.injEq, true_and]
  omega

theorem Snapshots.pop_push_settled (s : Snapshots) (l : Ledger) (k u : Nat) :
    ((s.push l).settled k u).pop = .ok (l, s.settled (1 + k) u) := by
  simp only [settled, push, pop, Except.ok.injEq, Prod.mk.injEq, mk.injEq, true_and, and_true]
  omega

theorem Snapshots.rollback_push_settled (s : Snapshots) (l : Ledger) (k u : Nat) :
    ((s.push l).settled k u).rollback = .ok (l, s.settled k (1 + u)) := by
  simp only [settled, push, rollback, Except.ok.injEq, Prod.mk.injEq, mk.injEq, true_and]
  omega

namespace Journal

theorem pop_withSnapshots (j : Journal) (s : Snapshots) (l : Ledger) (k u : Nat) :
    (j.withSnapshots ((s.push l).settled k u)).pop =
      .ok (l, j.withSnapshots (s.settled (1 + k) u)) := by
  have popped := Snapshots.pop_push_settled s l k u
  simp [withSnapshots, pop, popped]

theorem rollback_withSnapshots (j : Journal) (s : Snapshots) (l : Ledger) (k u : Nat) :
    (j.withSnapshots ((s.push l).settled k u)).rollback =
      .ok ({ j with ledger := l }.withSnapshots (s.settled k (1 + u))) := by
  have rolledBack := Snapshots.rollback_push_settled s l k u
  simp [withSnapshots, rollback, rolledBack]

/-- Debits the sender, if there is one. -/
def debitBy (j : Journal) (sender : Option Address) (amount : Int) : Journal :=
  sender.elim j fun a => j.debit a amount

end Journal

namespace Replay

namespace Machine

/-- The machine with the account executing noted for one more record. -/
def visit (m : Machine) : Machine := { m with visited := m.frames.current :: m.visited }

theorem arrive_of_depth_eq {m : Machine} {r : Record} (h : r.depth = m.depth) :
    m.arrive r = .ok m.visit := by
  simp only [arrive, h, Int.lt_irrefl, if_false]
  rfl

theorem unwind_of_depth_eq {s t : CallStack} {f : Frame} (hs : s = { t with inner := f :: t.inner })
    {depth : Int} (h : depth = t.depth) : s.unwind depth = ([f], t) := by
  subst hs
  have above : CallStack.above { t with inner := f :: t.inner } depth = 1 := by
    simp only [CallStack.above, CallStack.depth, h, List.length_cons]
    omega
  simp [CallStack.unwind, above]

/-- A record one level below the innermost frame finds that frame returned. -/
theorem arrive_of_returned {m : Machine} {base : CallStack} {f : Frame} {j : Journal} {r : Record}
    (hf : m.frames = { base with inner := f :: base.inner }) (hr : r.depth = base.depth)
    (hs : settle m.journal [f] = .ok j) :
    m.arrive r = .ok ({ m with frames := base, journal := j } : Machine).visit := by
  have deeper : m.depth = base.depth + 1 := by simp [depth, CallStack.depth, hf]
  have jump : ¬ (m.depth : Int) < r.depth := by omega
  have less : r.depth < m.depth := by omega
  simp only [arrive, if_neg jump, if_pos less, returnTo, unwind_of_depth_eq hf hr, hs]
  rfl

theorem returnTo_of_depth_eq {m : Machine} {depth : Int} (h : depth = m.depth) :
    m.returnTo depth = .ok m := by
  have above : m.frames.above depth = 0 := by
    have := m.frames.depth_pos
    simp only [CallStack.above, h, Machine.depth]
    omega
  simp only [returnTo, CallStack.unwind, above, List.take_zero, List.drop_zero, settle]
  rfl

/-- A frame that returns drops the ledger it was opened with, one of a failed creation goes back
to it. -/
theorem settle_withSnapshots (j : Journal) (s : Snapshots) (l : Ledger) (k u : Nat) (f : Frame) :
    settle (j.withSnapshots ((s.push l).settled k u)) [f] = .ok
      ({ j with ledger := if f.isFailedCreation then l else j.ledger }.withSnapshots
        (s.settled ((!f.isFailedCreation).toNat + k) (f.isFailedCreation.toNat + u))) := by
  cases hf : f.isFailedCreation with
  | true =>
    simp only [settle, hf, Journal.rollback_withSnapshots, Bool.not_true, Bool.toNat_false,
      Bool.toNat_true, Nat.zero_add]
    rfl
  | false =>
    simp only [settle, hf, Journal.pop_withSnapshots, Bool.not_false, Bool.toNat_false,
      Bool.toNat_true, Nat.zero_add]
    rfl

end Machine

theorem anchor_eq (m : Machine) :
    anchor m = { m with rootLedger := some (m.rootLedger.getD m.journal.ledger) } := by
  unfold anchor
  cases m.rootLedger <;> rfl

/-- The root frame cannot be left: the whole transaction is aborted. -/
theorem Machine.abort_of_root {m : Machine} (root : m.frames.inner = []) :
    m.abort = .ok m.abortRoot := by
  simp [Machine.abort, CallStack.leave, root]

theorem Machine.frames_abortRoot (m : Machine) : m.abortRoot.frames = m.frames := by
  unfold Machine.abortRoot
  split <;> rfl

theorem Machine.visited_abortRoot (m : Machine) : m.abortRoot.visited = m.visited := by
  unfold Machine.abortRoot
  split <;> rfl

theorem Machine.snapshots_abortRoot (m : Machine) :
    m.abortRoot.journal.snapshots = m.journal.snapshots := by
  unfold Machine.abortRoot
  split <;> rfl

theorem finish_of_root (failed : Bool) {m : Machine} (root : m.frames.inner = []) :
    finish failed m = .ok (if failed then m.abortRoot else m) := by
  have depth : (1 : Int) = m.depth := by simp [Machine.depth, CallStack.depth, root]
  rw [finish, Machine.returnTo_of_depth_eq depth]
  rfl

theorem performAll_notes {sources : Sources σ} {entries : List Journal.Entry} {m : Machine}
    {j : Journal} {s s' : σ}
    (h : (Journal.noteAll sources entries m.journal).outcome s = (.ok j, s'))
    (more : List Effect) :
    (performAll sources (entries.map .note ++ more)).outcome (m, s) =
      (performAll sources more).outcome ({ m with journal := j }, s') := by
  induction entries generalizing m s with
  | nil =>
    obtain ⟨hj, rfl⟩ := Prod.mk.inj h
    obtain rfl := Except.ok.inj hj
    rfl
  | cons e entries ih =>
    obtain ⟨j₁, s₁, he, hrest⟩ := Asking.outcome_bind_eq_ok.1 h
    have noted : (perform sources (.note e)).outcome (m, s) =
        (.ok (), ({ m with journal := j₁ }, s₁)) := by
      simp [perform, Machine.apply, Asking.outcome_map, he, Except.map]
    simp only [List.map_cons, List.cons_append, performAll, Asking.outcome_bind, noted]
    exact ih hrest

theorem performAll_enter (sources : Sources σ) (o : Opcode) (a : Address) (p : Bool) (m : Machine)
    (s : σ) (more : List Effect) :
    (performAll sources (.enter o a p :: more)).outcome (m, s) =
      (performAll sources more).outcome (m.enter o a p, s) := by
  simp [performAll, Asking.outcome_bind, perform, Machine.apply]

theorem performAll_abort {sources : Sources σ} {m m' : Machine} (h : m.abort = .ok m') (s : σ) :
    (performAll sources [.abort]).outcome (m, s) = (.ok (), (m', s)) := by
  simp [performAll, perform, Machine.apply, h]

theorem performAll_abort_eq_ok {sources : Sources σ} {m m' : Machine} {s s' : σ}
    (h : (performAll sources [.abort]).outcome (m, s) = (.ok (), (m', s'))) :
    m.abort = .ok m' ∧ s' = s := by
  cases aborted : m.abort with
  | error e => simp [performAll, perform, Machine.apply, aborted] at h
  | ok m₁ =>
    rw [performAll_abort aborted s] at h
    obtain ⟨rfl, rfl⟩ := Prod.mk.inj (Prod.mk.inj h).2
    exact ⟨rfl, rfl⟩

/-- A record is replayed exactly when the machine gets ready for it, its effects can be read off,
and all of them come through. -/
theorem step_eq_ok {sources : Sources σ} {balancesOnly : Bool} {i : Nat} {m : Machine} {r : Record}
    {later : List Record} {s : σ} {w : Machine × σ} :
    (step sources balancesOnly i r later).outcome (m, s) = (.ok (), w) ↔
      ∃ m₁ effects, m.arrive r = .ok m₁ ∧
        Effect.ofRecord (scopeOf sources balancesOnly) m₁.frames.top r later = .ok effects ∧
        (performAll sources effects).outcome (m₁, s) = (.ok (), w) := by
  have got (x : Machine × σ) : (get : Run σ (Machine × σ)).outcome x = (.ok x, x) := rfl
  simp only [step, Asking.mapFault, Asking.outcome_ofOutcome, Asking.outcome_bind, change]
  cases m.arrive r with
  | error f => simp
  | ok m₁ =>
    simp only [got, Asking.outcome_ofExcept]
    cases read : Effect.ofRecord (scopeOf sources balancesOnly) m₁.frames.top r later with
    | error f => simp [read]
    | ok effects =>
      rcases done : (performAll sources effects).outcome (m₁, s) with ⟨_ | _, w'⟩ <;>
        simp [read, done]

/-- Otherwise one of the three parts fails, and the fault tells at which record. -/
theorem step_eq_error {sources : Sources σ} {balancesOnly : Bool} {i : Nat} {m : Machine}
    {r : Record} {later : List Record} {s : σ} {f : Fault} {w : Machine × σ} :
    (step sources balancesOnly i r later).outcome (m, s) = (.error f, w) ↔
      ∃ f₀,
        (m.arrive r = .error f₀ ∧ w = (m, s) ∨
          ∃ m₁, m.arrive r = .ok m₁ ∧
            (Effect.ofRecord (scopeOf sources balancesOnly) m₁.frames.top r later = .error f₀ ∧
                w = (m₁, s) ∨
              ∃ effects,
                Effect.ofRecord (scopeOf sources balancesOnly) m₁.frames.top r later =
                  .ok effects ∧
                (performAll sources effects).outcome (m₁, s) = (.error f₀, w))) ∧
        f = locate i r f₀ := by
  have got (x : Machine × σ) : (get : Run σ (Machine × σ)).outcome x = (.ok x, x) := rfl
  simp only [step, Asking.mapFault, Asking.outcome_ofOutcome, Asking.outcome_bind, change]
  cases m.arrive r with
  | error f₀ => simp [and_assoc, and_comm, eq_comm]
  | ok m₁ =>
    simp only [got, Asking.outcome_ofExcept]
    cases read : Effect.ofRecord (scopeOf sources balancesOnly) m₁.frames.top r later with
    | error f₀ => simp [read, and_assoc, and_comm, eq_comm]
    | ok effects =>
      rcases done : (performAll sources effects).outcome (m₁, s) with ⟨_ | _, w'⟩ <;>
        simp [read, done, and_assoc, and_comm, eq_comm]

/-- A record that the machine gets ready for, and whose effects come through, is replayed. -/
theorem steps_cons {sources : Sources σ} {balancesOnly : Bool} {m m₁ : Machine} {r : Record}
    {later : List Record} {effects : List Effect} {s : σ} {w : Machine × σ}
    (ready : m.arrive r = .ok m₁)
    (read : Effect.ofRecord (scopeOf sources balancesOnly) m₁.frames.top r later = .ok effects)
    (done : (performAll sources effects).outcome (m₁, s) = (.ok (), w)) (i : Nat) :
    (steps sources balancesOnly i (r :: later)).outcome (m, s) =
      (steps sources balancesOnly (i + 1) later).outcome w := by
  rw [steps, Asking.outcome_bind, step_eq_ok.2 ⟨m₁, effects, ready, read, done⟩]

theorem change_eq_ok {f : Machine → Except Fault Machine} {m m' : Machine} {s s' : σ} :
    (change f : Run σ Unit).outcome (m, s) = (.ok (), (m', s')) ↔ f m = .ok m' ∧ s' = s := by
  simp only [change, Asking.outcome_ofOutcome]
  cases f m with
  | error e => simp
  | ok m₁ => simp [eq_comm]

theorem finish_eq_ok {failed : Bool} {m m' : Machine} :
    finish failed m = .ok m' ↔
      ∃ m₁, m.returnTo 1 = .ok m₁ ∧ m' = if failed then m₁.abortRoot else m₁ := by
  unfold finish
  cases m.returnTo 1 with
  | error e => simp [Functor.map, Except.map]
  | ok m₁ => simp [Functor.map, Except.map, eq_comm]

/-- A replay comes through exactly when its records do and what they leave open can be settled. -/
theorem replay_eq_ok {sources : Sources σ} {balancesOnly : Bool} {records : List Record}
    {failed : Bool} {m m' : Machine} {s s' : σ} :
    (replay sources balancesOnly records failed).outcome (m, s) = (.ok (), (m', s')) ↔
      ∃ m₁, (steps sources balancesOnly 0 records).outcome (anchor m, s) = (.ok (), (m₁, s')) ∧
        finish failed m₁ = .ok m' := by
  have anchored : (change fun m => .ok (anchor m) : Run σ Unit).outcome (m, s) =
      (.ok (), (anchor m, s)) := rfl
  simp only [replay, Asking.outcome_bind, anchored]
  rcases (steps sources balancesOnly 0 records).outcome (anchor m, s) with ⟨_ | _, m₁, s₁⟩
  · simp
  · simp only [change_eq_ok]
    constructor
    · rintro ⟨finished, rfl⟩
      exact ⟨m₁, rfl, finished⟩
    · rintro ⟨_, ⟨⟩, finished⟩
      exact ⟨finished, rfl⟩

/-- What comes through does so part by part. -/
theorem performAll_append (sources : Sources σ) (xs ys : List Effect) :
    performAll sources (xs ++ ys) = performAll sources xs >>= fun _ => performAll sources ys := by
  induction xs with
  | nil => rfl
  | cons e xs ih => simp only [List.cons_append, performAll, ih, bind_assoc]

/-- Replays records that `later` comes after. -/
def stepsBefore (sources : Sources σ) (balancesOnly : Bool) (later : List Record) :
    (index : Nat) → List Record → Run σ Unit
  | _, [] => pure ()
  | index, r :: passed => do
    step sources balancesOnly index r (passed ++ later)
    stepsBefore sources balancesOnly later (index + 1) passed

theorem steps_append (sources : Sources σ) (balancesOnly : Bool) (index : Nat)
    (passed later : List Record) :
    steps sources balancesOnly index (passed ++ later) =
      stepsBefore sources balancesOnly later index passed >>= fun _ =>
        steps sources balancesOnly (index + passed.length) later := by
  induction passed generalizing index with
  | nil => rfl
  | cons r passed ih =>
    have place : index + 1 + passed.length = index + (r :: passed).length := by
      simp only [List.length_cons]
      omega
    simp only [List.cons_append, steps, stepsBefore, ih, bind_assoc, place]

/-- What seeding asks for: the code that the transaction creates or calls. -/
def seeding (scope : Scope) (tx : Transaction) (target : Address) : List Journal.Entry :=
  if scope.code then [if tx.isCreation then .deploy target else .reference target] else []

theorem of_mem_seeding {scope : Scope} {tx : Transaction} {target : Address} {e : Journal.Entry}
    (he : e ∈ seeding scope tx target) : e = .deploy target ∨ e = .reference target := by
  unfold seeding at he
  split at he
  · rw [List.mem_singleton.1 he]
    split
    · exact .inl rfl
    · exact .inr rfl
  · simp at he

theorem canApply_seeding (sources : Sources σ) (scope : Scope) (tx : Transaction)
    (target : Address) : ∀ e ∈ seeding scope tx target, e.CanApply sources := by
  intro e he
  rcases of_mem_seeding he with rfl | rfl <;> rfl

theorem charge_eq (tx : Transaction) (gasUsed : Int) (m : Machine) :
    charge tx gasUsed m =
      let target := m.frames.root.address
      let charged := (m.journal.debitBy tx.sender (gasUsed * tx.gasPrice)).touch target
      { m with
        rootLedger := some charged.ledger
        journal := (charged.debitBy tx.sender tx.value).credit target tx.value } := by
  unfold charge
  cases tx.sender <;> rfl

theorem snapshots_charge (tx : Transaction) (gasUsed : Int) (m : Machine) :
    (charge tx gasUsed m).journal.snapshots = m.journal.snapshots := by
  unfold charge
  cases tx.sender <;> rfl

/-- Seeding charges the transaction and then makes its entries. -/
theorem outcome_seed (sources : Sources σ) (balancesOnly : Bool) (tx : Transaction) (gasUsed : Int)
    (m : Machine) (s : σ) :
    (seed sources balancesOnly tx gasUsed).outcome (m, s) =
      (performAll sources ((seeding (scopeOf sources balancesOnly) tx m.frames.root.address).map
        .note)).outcome (charge tx gasUsed m, s) := by
  have charged : (change fun m => .ok (charge tx gasUsed m) : Run σ Unit).outcome (m, s) =
      (.ok (), (charge tx gasUsed m, s)) := rfl
  have got : (get : Run σ (Machine × σ)).outcome (charge tx gasUsed m, s) =
      (.ok (charge tx gasUsed m, s), (charge tx gasUsed m, s)) := rfl
  have root : (charge tx gasUsed m).frames = m.frames := rfl
  simp only [seed, Asking.outcome_bind, charged, got, root, seeding]
  split
  · simp only [List.map_cons, List.map_nil, performAll, bind_pure_unit]
  · rfl

theorem seed_notes {sources : Sources σ} {balancesOnly : Bool} {tx : Transaction} {gasUsed : Int}
    {m : Machine} {j : Journal} {s s' : σ}
    (noted : (Journal.noteAll sources (seeding (scopeOf sources balancesOnly) tx
      m.frames.root.address) (charge tx gasUsed m).journal).outcome s = (.ok j, s')) :
    (seed sources balancesOnly tx gasUsed).outcome (m, s) =
      (.ok (), ({ charge tx gasUsed m with journal := j }, s')) := by
  have done := performAll_notes (m := charge tx gasUsed m) noted []
  rw [List.append_nil] at done
  rw [outcome_seed, done]
  rfl

/-- A transaction can be seeded in any machine if all sources answer. -/
theorem answers_seed {sources : Sources σ} (total : sources.Total) (balancesOnly : Bool)
    (tx : Transaction) (gasUsed : Int) (m : Machine) (s : σ) :
    ∃ j s',
      (Journal.noteAll sources (seeding (scopeOf sources balancesOnly) tx m.frames.root.address)
        (charge tx gasUsed m).journal).outcome s = (.ok j, s') ∧
      (seed sources balancesOnly tx gasUsed).outcome (m, s) =
        (.ok (), ({ charge tx gasUsed m with journal := j }, s')) := by
  have can := canApply_seeding sources (scopeOf sources balancesOnly) tx m.frames.root.address
  obtain ⟨j, s', noted⟩ := Journal.answers_noteAll total can (charge tx gasUsed m).journal s
  exact ⟨j, s', noted, seed_notes noted⟩

end Replay

end TraceDiff
