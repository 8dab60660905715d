import TraceDiff.Proofs.FrameTree.Records
import TraceDiff.Proofs.Replay.Invariants

/-! What a failed transaction leaves behind. The first abort of the root frame goes back to the
ledger right after the fee. Records after it are replayed like any others, and nothing undoes what
they do: neither a further abort of the root frame nor the end of a transaction that failed. -/
namespace TraceDiff

/-- The record neither opens a frame nor changes the ledger in its own. -/
def Record.Calm (r : Record) : Prop := ¬ r.Changes ∧ ∀ o, ¬ r.Opens o

namespace Replay

variable {σ : Type} {sources : Sources σ} {balancesOnly : Bool}

/-- What a failed transaction should leave: its fee, or without one what was there at the start. -/
def Machine.fallback (m : Machine) : Option (Transaction × Int) → Ledger
  | some (tx, gasUsed) =>
    tx.sender.elim m.journal.ledger fun a => m.journal.ledger.debit a (gasUsed * tx.gasPrice)
  | none => m.rootBase

/-- Some record aborts while no frame but the root frame is open. -/
def AbortsRoot (sources : Sources σ) (balancesOnly : Bool) (records : List Record)
    (w : Machine × σ) : Prop :=
  ∃ passed r later m s m', records = passed ++ r :: later ∧
    (stepsBefore sources balancesOnly (r :: later) 0 passed).outcome w = (.ok (), (m, s)) ∧
      m.arrive r = .ok m' ∧ m'.depth = 1 ∧ r.Aborts

/-- The records after the first that aborts the root frame, if there is one. -/
def afterRootAbort (sources : Sources σ) (balancesOnly : Bool) :
    (index : Nat) → List Record → Machine × σ → List Record
  | _, [], _ => []
  | index, r :: later, w =>
    match (step sources balancesOnly index r later).outcome w with
    | (.ok _, w') =>
      if w'.1.rootAborted then later else afterRootAbort sources balancesOnly (index + 1) later w'
    | (.error _, _) => []

/-- The root frame did not abort so far; `base` is kept for when it does. -/
structure Machine.Live (base : Ledger) (m : Machine) : Prop where
  running : m.rootAborted = false
  kept : m.rootLedger = some base

/-- The root frame aborted, and nothing happened since. -/
structure Machine.Fallen (base : Ledger) (m : Machine) : Prop where
  aborted : m.rootAborted = true
  root : m.frames.inner = []
  ledger : m.journal.ledger = base

section Steps

variable {base : Ledger} {m m' : Machine} {s s' : σ} {i : Nat} {r : Record}
  {later records : List Record} {effects : List Effect}

theorem Machine.abortRoot_of_aborted (h : m.rootAborted = true) : m.abortRoot = m := by
  unfold abortRoot
  rw [if_pos h]

theorem Machine.Live.fall (root : m.frames.inner = []) (h : m.Live base) :
    m.abortRoot.Fallen base := by
  have fell : m.abortRoot =
      { m with rootAborted := true, journal := { m.journal with ledger := base } } := by
    unfold Machine.abortRoot
    simp [h.running, h.kept]
  rw [fell]
  exact ⟨rfl, root, rfl⟩

theorem Machine.Live.returnTo {depth : Int} (returned : m.returnTo depth = .ok m')
    (h : m.Live base) : m'.Live base := by
  obtain ⟨j, -, rfl⟩ := Machine.returnTo_eq_ok returned
  exact ⟨h.running, h.kept⟩

theorem Machine.Live.arrive (arrived : m.arrive r = .ok m') (h : m.Live base) : m'.Live base := by
  obtain ⟨-, m₁, returned, rfl⟩ := Machine.arrive_eq_ok arrived
  have h₁ := h.returnTo returned
  exact ⟨h₁.running, h₁.kept⟩

/-- Nothing but an abort tells that the root frame aborted. -/
theorem Machine.Live.performAll {kind : Journal.Entry → Prop}
    (lasting : ∀ e ∈ effects, e.Lasting kind)
    (done : (Replay.performAll sources effects).outcome (m, s) = (.ok (), (m', s')))
    (h : m.Live base) : m'.Live base := by
  have keeps : Keeps (Machine.Live base) (Replay.performAll sources effects) := by
    refine keeps_lasting lasting ?_ ?_
    · intro e _ m j _ h
      exact ⟨h.running, h.kept⟩
    · intro m o a p h
      exact ⟨h.running, h.kept⟩
  exact keeps.after done h

/-- A record leaves the root frame running, or its abort leaves the ledger kept for it. -/
theorem Machine.Live.step
    (done : (Replay.step sources balancesOnly i r later).outcome (m, s) = (.ok (), (m', s')))
    (h : m.Live base) : m'.Live base ∨ (m'.Fallen base ∧ r.Aborts ∧ r.level = 1) := by
  obtain ⟨m₁, effects, arrived, read, performed⟩ := step_eq_ok.1 done
  have h₁ := h.arrive arrived
  rcases Effect.abort_or_lasting read with ⟨aborts, rfl⟩ | lasting
  · obtain ⟨aborted, rfl⟩ := performAll_abort_eq_ok performed
    rcases Machine.abort_eq_ok aborted with ⟨root, rfl⟩ | ⟨f, outer, l, older, -, -, rfl⟩
    · refine .inr ⟨h₁.fall root, aborts, ?_⟩
      rw [Machine.level_of_arrive arrived, root]
      rfl
    · exact .inl ⟨h₁.running, h₁.kept⟩
  · exact .inl (h₁.performAll lasting performed)

/-- Over a whole trace the root frame keeps running, or the trace goes on after its first abort
from the ledger kept for it. -/
theorem Machine.Live.steps
    (ran : (Replay.steps sources balancesOnly i records).outcome (m, s) = (.ok (), (m', s')))
    (h : m.Live base) :
    (m'.Live base ∧ afterRootAbort sources balancesOnly i records (m, s) = []) ∨
      ∃ m₁ s₁ k, m₁.Fallen base ∧
        (Replay.steps sources balancesOnly k
          (afterRootAbort sources balancesOnly i records (m, s))).outcome (m₁, s₁) =
            (.ok (), (m', s')) := by
  induction records generalizing i m s with
  | nil =>
    obtain ⟨rfl, -⟩ := Prod.mk.inj (Prod.mk.inj ran).2
    exact .inl ⟨h, rfl⟩
  | cons r later ih =>
    obtain ⟨_, ⟨m₁, s₁⟩, done, ran⟩ := Asking.outcome_bind_eq_ok.1 ran
    simp only [afterRootAbort, done]
    rcases h.step done with live | ⟨fallen, -⟩
    · rw [live.running]
      exact ih ran live
    · rw [fallen.aborted]
      exact .inr ⟨m₁, s₁, i + 1, fallen, ran⟩

/-- No record comes after an abort of the root frame. -/
def AbortsLast (records : List Record) : Prop :=
  ∀ passed r later, records = passed ++ r :: later → r.Aborts → r.level = 1 → later = []

theorem AbortsLast.tail (h : AbortsLast (r :: later)) : AbortsLast later := by
  intro passed x more split
  exact h (r :: passed) x more (congrArg (r :: ·) split)

theorem Machine.Live.steps_of_abortsLast (last : AbortsLast records)
    (ran : (Replay.steps sources balancesOnly i records).outcome (m, s) = (.ok (), (m', s')))
    (h : m.Live base) : m'.Live base ∨ m'.Fallen base := by
  induction records generalizing i m s with
  | nil =>
    obtain ⟨rfl, -⟩ := Prod.mk.inj (Prod.mk.inj ran).2
    exact .inl h
  | cons r later ih =>
    obtain ⟨_, ⟨m₁, s₁⟩, done, ran⟩ := Asking.outcome_bind_eq_ok.1 ran
    rcases h.step done with live | ⟨fallen, aborts, level⟩
    · exact ih last.tail ran live
    · obtain rfl := last [] r later rfl aborts level
      obtain ⟨rfl, -⟩ := Prod.mk.inj (Prod.mk.inj ran).2
      exact .inr fallen

/-- Once the root frame aborted, records that open no frame and change no ledger change nothing. -/
theorem Machine.Fallen.step (calm : r.Calm)
    (done : (Replay.step sources balancesOnly i r later).outcome (m, s) = (.ok (), (m', s')))
    (h : m.Fallen base) : m'.Fallen base := by
  obtain ⟨m₁, effects, arrived, read, performed⟩ := step_eq_ok.1 done
  have h₁ : m₁.Fallen base := by
    obtain ⟨-, m₂, returned, rfl⟩ := Machine.arrive_eq_ok arrived
    rw [Machine.returnTo_of_root h.root] at returned
    obtain rfl := Except.ok.inj returned
    exact ⟨h.aborted, h.root, h.ledger⟩
  rcases Effect.ofRecord_cases read with ⟨-, rfl⟩ | ⟨o, opens⟩ | notes
  · obtain ⟨aborted, rfl⟩ := performAll_abort_eq_ok performed
    rw [Machine.abort_of_root h₁.root, Machine.abortRoot_of_aborted h₁.aborted] at aborted
    obtain rfl := Except.ok.inj aborted
    exact h₁
  · exact absurd opens (calm.2 o)
  · have keeps : Keeps (Machine.Fallen base) (Replay.performAll sources effects) := by
      refine keeps_notes notes ?_
      rintro e ⟨-, observes⟩ m j leads h
      have same := Journal.Entry.ledger_of_observes (observes calm.1) leads
      exact ⟨h.aborted, h.root, same.trans h.ledger⟩
    exact keeps.after performed h₁

theorem Machine.Fallen.steps (calm : ∀ x ∈ records, x.Calm)
    (ran : (Replay.steps sources balancesOnly i records).outcome (m, s) = (.ok (), (m', s')))
    (h : m.Fallen base) : m'.Fallen base := by
  induction records generalizing i m s with
  | nil =>
    obtain ⟨rfl, -⟩ := Prod.mk.inj (Prod.mk.inj ran).2
    exact h
  | cons r later ih =>
    obtain ⟨first, rest⟩ := List.forall_mem_cons.1 calm
    obtain ⟨_, ⟨m₁, s₁⟩, done, ran⟩ := Asking.outcome_bind_eq_ok.1 ran
    exact ih rest ran (h.step first done)

end Steps

/-- No effect takes back that the root frame aborted. -/
theorem aborted_invariant : Invariant sources (fun m => m.rootAborted = true) where
  anchor _ h := h
  visit _ h := h
  returnTo m depth m' returned h := by
    obtain ⟨j, -, rfl⟩ := Machine.returnTo_eq_ok returned
    exact h
  abortRoot m h := by
    rw [Machine.abortRoot_of_aborted h]
    exact h
  apply e _ m s m' s' applied h := by
    cases e with
    | note entry =>
      obtain ⟨j, -, rfl⟩ := Machine.apply_note_eq_ok.1 applied
      exact h
    | enter o a p =>
      obtain rfl := Except.ok.inj (Prod.mk.inj applied).1
      exact h
    | abort =>
      rcases Machine.abort_eq_ok (Prod.mk.inj applied).1 with ⟨-, rfl⟩ | ⟨_, _, _, _, -, -, rfl⟩
      · rw [Machine.abortRoot_of_aborted h]
        exact h
      · exact h

section Failing

variable {m m₁ m' : Machine} {s s₁ s' : σ} {paid : Option (Transaction × Int)}
  {records : List Record} {failed : Bool}

/-- A replay starts with the ledger right after the fee kept for the root frame. -/
theorem live_of_prepare (fresh : m.rootAborted = false)
    (prepared : (prepare sources balancesOnly paid).outcome (m, s) = (.ok (), (m₁, s₁))) :
    (anchor m₁).Live (m.fallback paid) := by
  rw [anchor_eq]
  cases paid with
  | none =>
    obtain ⟨rfl, -⟩ := Prod.mk.inj (Prod.mk.inj prepared).2
    exact ⟨fresh, rfl⟩
  | some paid =>
    obtain ⟨tx, gasUsed⟩ := paid
    have charged : (charge tx gasUsed m).Live (m.fallback (some (tx, gasUsed))) := by
      refine ⟨fresh, ?_⟩
      simp only [charge, Machine.fallback]
      cases tx.sender <;> rfl
    have seeded : m₁.Live (m.fallback (some (tx, gasUsed))) :=
      after_seed prepared (fun _ _ _ _ _ _ h => ⟨h.running, h.kept⟩) charged
    exact ⟨seeded.running, by rw [seeded.kept]; rfl⟩

/-- Where some record aborts the root frame, a replay ends with the root frame aborted. -/
theorem aborted_of_abortsRoot (aborts : AbortsRoot sources balancesOnly records (m, s))
    (ran : (steps sources balancesOnly 0 records).outcome (m, s) = (.ok (), (m', s'))) :
    m'.rootAborted = true := by
  obtain ⟨passed, r, later, m₁, s₁, m₂, rfl, before, arrived, bottom, aborting⟩ := aborts
  rw [steps_append] at ran
  obtain ⟨_, w, before', ran⟩ := Asking.outcome_bind_eq_ok.1 ran
  obtain rfl := (Prod.mk.inj (before.symm.trans before')).2
  obtain ⟨_, ⟨m₃, s₃⟩, done, ran⟩ := Asking.outcome_bind_eq_ok.1 ran
  obtain ⟨m₄, effects, arrived', read, performed⟩ := step_eq_ok.1 done
  obtain rfl := Except.ok.inj (arrived.symm.trans arrived')
  rw [Effect.ofRecord_of_aborts aborting] at read
  obtain rfl := Except.ok.inj read
  obtain ⟨aborted, rfl⟩ := performAll_abort_eq_ok performed
  have root : m₂.frames.inner = [] := by
    simp only [Machine.depth, CallStack.depth] at bottom
    exact List.length_eq_zero_iff.1 (Nat.succ.inj bottom)
  rw [Machine.abort_of_root root] at aborted
  obtain rfl := Except.ok.inj aborted
  have fell : m₂.abortRoot.rootAborted = true := by
    unfold Machine.abortRoot
    split
    · assumption
    · rfl
  exact (aborted_invariant.keeps_steps _ later).after ran fell

/-- A transaction that fails goes back to its fee, if nothing comes after the abort. -/
theorem ledger_of_abortsLast (fresh : m.rootAborted = false) (last : AbortsLast records)
    (prepared : (prepare sources balancesOnly paid).outcome (m, s) = (.ok (), (m₁, s₁)))
    (done : (replay sources balancesOnly records true).outcome (m₁, s₁) = (.ok (), (m', s'))) :
    m'.journal.ledger = m.fallback paid := by
  have live := live_of_prepare fresh prepared
  obtain ⟨m₂, ran, finished⟩ := replay_eq_ok.1 done
  obtain ⟨m₃, returned, rfl⟩ := finish_eq_ok.1 finished
  rw [if_pos rfl]
  rcases live.steps_of_abortsLast last ran with live | fallen
  · exact ((live.returnTo returned).fall (Machine.root_of_returnTo returned)).ledger
  · rw [Machine.returnTo_of_root fallen.root] at returned
    obtain rfl := Except.ok.inj returned
    rw [Machine.abortRoot_of_aborted fallen.aborted]
    exact fallen.ledger

/-- A transaction that fails goes back to its fee alone, and then on through the records after the
first that aborted the root frame. What it leaves is its fee if none of these opens a frame or
changes the ledger: in particular if there are none. -/
theorem ledger_of_failed (fresh : m.rootAborted = false)
    (prepared : (prepare sources balancesOnly paid).outcome (m, s) = (.ok (), (m₁, s₁)))
    (done : (replay sources balancesOnly records failed).outcome (m₁, s₁) = (.ok (), (m', s')))
    (fails : failed = true ∨ AbortsRoot sources balancesOnly records (anchor m₁, s₁)) :
    ∃ m₂ s₂ m₃ k, m₂.Fallen (m.fallback paid) ∧
      (steps sources balancesOnly k
        (afterRootAbort sources balancesOnly 0 records (anchor m₁, s₁))).outcome (m₂, s₂) =
          (.ok (), (m₃, s')) ∧
      m₃.returnTo 1 = .ok m' ∧
      ((∀ x ∈ afterRootAbort sources balancesOnly 0 records (anchor m₁, s₁), x.Calm) →
        m'.journal.ledger = m.fallback paid) := by
  have live := live_of_prepare fresh prepared
  obtain ⟨m₂, ran, finished⟩ := replay_eq_ok.1 done
  obtain ⟨m₃, returned, rfl⟩ := finish_eq_ok.1 finished
  rcases live.steps ran with ⟨live, none⟩ | ⟨m₄, s₄, k, fallen, rest⟩
  -- without an abort among the records, the end of the trace is where the root frame aborts
  · have failed : failed = true := by
      rcases fails with failed | aborts
      · exact failed
      · have aborted := aborted_of_abortsRoot aborts ran
        rw [live.running] at aborted
        nomatch aborted
    have fallen := (live.returnTo returned).fall (Machine.root_of_returnTo returned)
    rw [if_pos failed, none]
    exact ⟨_, s', _, 0, fallen, rfl, Machine.returnTo_of_root fallen.root 1,
      fun _ => fallen.ledger⟩
  -- after one, the end of the trace finds the root frame aborted and changes nothing
  · have inv : Invariant sources (fun m => m.rootAborted = true) := aborted_invariant
    have aborted : m₂.rootAborted = true := (inv.keeps_steps _ _).after rest fallen.aborted
    have unchanged : (if failed then m₃.abortRoot else m₃) = m₃ := by
      rw [Machine.abortRoot_of_aborted (inv.returnTo m₂ 1 m₃ returned aborted), ite_self]
    rw [unchanged]
    refine ⟨m₄, s₄, m₂, k, fallen, rest, returned, ?_⟩
    intro calm
    have still := fallen.steps calm rest
    rw [Machine.returnTo_of_root still.root] at returned
    obtain rfl := Except.ok.inj returned
    exact still.ledger

end Failing

/-- Sends four for a fee of six. -/
def payer : Transaction :=
  { hash := [], sender := some (.ofNat 5), target := some (.ofNat 1), nonce := .ofInt 0
    value := 4, input := [], gas := .ofInt 3, gasPrice := 2 }

theorem ledger_of_failed_writeThenRevert :
    let start := Machine.start (.ofNat 1)
    let paid := (prepare ({} : Sources Unit) false (some (payer, 3))).outcome (start, ())
    let ran := (replay ({} : Sources Unit) false
      [.named .sstore 1 [1, 2], .named .revert 1 []] true).outcome paid.2
    paid.1 = .ok () ∧ ran.1 = .ok () ∧
      ran.2.1.journal.ledger = start.fallback (some (payer, 3)) ∧
        ran.2.1.journal.ledger.debited (.ofNat 5) = 6 := by
  intro start paid ran
  have prepared : paid.1 = .ok () := eq_ok_of_toOption (by decide +kernel)
  have done : ran.1 = .ok () := eq_ok_of_toOption (by decide +kernel)
  have ended : (afterRootAbort ({} : Sources Unit) false 0
      [.named .sstore 1 [1, 2], .named .revert 1 []] (anchor paid.2.1, paid.2.2)).length = 0 := by
    decide +kernel
  have paidUp : paid = (.ok (), (paid.2.1, paid.2.2)) := by rw [← prepared]
  have through : ran = (.ok (), (ran.2.1, ran.2.2)) := by rw [← done]
  obtain ⟨-, -, -, -, -, -, -, calm⟩ := ledger_of_failed rfl paidUp through (.inl rfl)
  have left : ran.2.1.journal.ledger = start.fallback (some (payer, 3)) := by
    refine calm ?_
    rw [List.length_eq_zero_iff.1 ended]
    exact List.forall_mem_nil _
  exact ⟨prepared, done, left, by rw [left]; decide +kernel⟩

/-- A write after the abort of the root frame stays, although the transaction failed. -/
theorem ledger_ne_fallback_revertThenWrite :
    let start := Machine.start (.ofNat 1)
    let paid := (prepare ({} : Sources Unit) false (some (payer, 3))).outcome (start, ())
    let ran := (replay ({} : Sources Unit) false
      [.named .revert 1 [], .named .sstore 1 [1, 2]] true).outcome paid.2
    paid.1 = .ok () ∧ ran.1 = .ok () ∧
      ran.2.1.journal.ledger.storage.get? (.ofNat 1) 1 = some (.ofInt 2) ∧
        ran.2.1.journal.ledger ≠ start.fallback (some (payer, 3)) := by
  intro start paid ran
  have prepared : paid.1 = .ok () := eq_ok_of_toOption (by decide +kernel)
  have done : ran.1 = .ok () := eq_ok_of_toOption (by decide +kernel)
  have written : ran.2.1.journal.ledger.storage.get? (.ofNat 1) 1 = some (.ofInt 2) := by
    decide +kernel
  refine ⟨prepared, done, written, ?_⟩
  intro same
  rw [same] at written
  have none : (start.fallback (some (payer, 3))).storage.get? (.ofNat 1) 1 = none := by
    decide +kernel
  rw [none] at written
  nomatch written

end Replay

end TraceDiff
