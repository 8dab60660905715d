import TraceDiff.Proofs.FrameTree.Steps

/-! A whole transaction: its trace is a tree of frames, and replaying it comes to an end in the
state that the tree means. -/
namespace TraceDiff

open Replay (Machine scopeOf steps replay)

variable {σ : Type} {sources : Sources σ} {balancesOnly : Bool}

namespace FrameTree

/-- The machine `m` after a transaction whose root frame executed the tree and left the journal `j`.
Every frame was settled once, and a transaction that failed goes back to its fee alone. -/
def concluded (t : FrameTree) (failed : Bool) (m : Machine) (j : Journal) : Machine :=
  let base := m.rootLedger.getD m.journal.ledger
  let aborted := t.aborts || failed
  { journal :=
      { j with
        ledger := if aborted then base else j.ledger
        snapshots := m.journal.snapshots.settled t.kept t.undone }
    frames := m.frames
    rootLedger := some base
    rootAborted := aborted
    visited := (t.contexts m.frames.root).reverse ++ m.visited }

theorem left_of_root (t : FrameTree) {m : Machine} (root : m.frames.inner = []) (j : Journal) :
    t.left m j = .ok (if t.aborts then (t.executed m j).abortRoot else t.executed m j) := by
  have inRoot : (t.executed m j).frames.inner = [] := root
  unfold left
  cases t.aborts with
  | true => exact Machine.abort_of_root inRoot
  | false => rfl

/-- The end of the trace fails the transaction if the root frame did not. -/
theorem finish_executed (t : FrameTree) (failed : Bool) {m : Machine} (root : m.frames.inner = [])
    (live : m.rootAborted = false) (j : Journal) :
    let m₁ := t.executed (Replay.anchor m) j
    Replay.finish failed (if t.aborts then m₁.abortRoot else m₁) =
      .ok (t.concluded failed m j) := by
  intro m₁
  have top : m.frames.top = m.frames.root := by simp [CallStack.top, root]
  have inRoot : (if t.aborts then m₁.abortRoot else m₁).frames.inner = [] := by
    split
    · rw [Machine.frames_abortRoot]
      exact root
    · exact root
  rw [Replay.finish_of_root failed inRoot]
  simp only [m₁, executed, concluded, Replay.anchor_eq, Machine.abortRoot, Machine.onward, live,
    top]
  cases t.aborts <;> cases failed <;> simp [Journal.withSnapshots]

theorem replay_records {t : FrameTree} (wf : t.WellFormed 1) (failed : Bool) {m : Machine}
    (root : m.frames.inner = []) (live : m.rootAborted = false) {j : Journal} {s s' : σ}
    (means : (t.meaning sources (scopeOf sources balancesOnly) m.frames.root m.journal).outcome s =
      (.ok j, s')) :
    (replay sources balancesOnly t.records failed).outcome (m, s) =
      (.ok (), (t.concluded failed m j, s')) := by
  have depth : ((Replay.anchor m).depth : Int) = 1 := by
    simp [Replay.anchor, Machine.depth, CallStack.depth, root]
  have top : (Replay.anchor m).frames.top = m.frames.root := by
    simp [Replay.anchor, CallStack.top, root]
  have replayed := steps_records wf (Machine.arrivesAs_self depth) depth rfl
    (by rw [top]; exact means) (t.left_of_root (m := Replay.anchor m) root j) 0 []
  rw [List.append_nil] at replayed
  simp only [replay, Asking.outcome_bind, Replay.change, Asking.outcome_ofOutcome, replayed, steps,
    Asking.outcome_pure, finish_executed t failed root live]

/-- From any state with the root frame alone, the replay of a tree of frames comes to an end if all
sources answer, and it ends in the state that the tree means. -/
theorem replay_eq_meaning (total : sources.Total) {t : FrameTree} (wf : t.WellFormed 1)
    (failed : Bool) {m : Machine} (root : m.frames.inner = []) (live : m.rootAborted = false)
    (s : σ) :
    ∃ j s',
      (t.meaning sources (scopeOf sources balancesOnly) m.frames.root m.journal).outcome s =
        (.ok j, s') ∧
      (replay sources balancesOnly t.records failed).outcome (m, s) =
        (.ok (), (t.concluded failed m j, s')) := by
  obtain ⟨j, s', means⟩ := answers_meaning total balancesOnly wf m.frames.root m.journal s
  exact ⟨j, s', means, replay_records wf failed root live means⟩

/-- A call that writes a slot, attempts a creation that reverts, and returns. -/
def callWithFailedCreation : FrameTree :=
  nested .call (.named .call 1 [0, 7, 3])
    (plain (some .sstore) (.named .sstore 2 [5, 9])
      (nested .create (.named .create 2 [1]) (close .abort (.named .revert 3 []))
        (close .stop (.idle 2 [0]))))
    (close .stop (.idle 1 [1]))

theorem wellFormed_callWithFailedCreation : callWithFailedCreation.WellFormed 1 := by
  refine ⟨rfl, Record.executes_named (by decide) 1, rfl, ?_, ?_, rfl, Record.executes_idle 1 _⟩
  · exact ⟨fun h => absurd h (by decide), fun h => absurd h (by decide)⟩
  refine ⟨rfl, Record.executes_named (by decide) 2, ?_, rfl, Record.executes_named (by decide) 2,
    rfl, ?_, ⟨rfl, Record.aborts_named rfl 3 []⟩, rfl, Record.executes_idle 2 _⟩
  · rintro _ ⟨⟩
    exact ⟨rfl, fun h => absurd h (by decide)⟩
  · exact ⟨fun _ => by decide, fun _ _ => rfl⟩

theorem replay_callWithFailedCreation :
    let sources : Sources Unit := .constant [] [1] 10
    let m := Machine.start (.ofNat 1)
    ∃ j s',
      (callWithFailedCreation.meaning sources (scopeOf sources false) m.frames.root
        m.journal).outcome () = (.ok j, s') ∧
      (replay sources false callWithFailedCreation.records false).outcome (m, ()) =
        (.ok (), (callWithFailedCreation.concluded false m j, s')) :=
  replay_eq_meaning (Sources.total_constant [] [1] 10) wellFormed_callWithFailedCreation false rfl
    rfl ()

end FrameTree

end TraceDiff
