import TraceDiff.Proofs.FrameTree.Records

/-! Replaying the records of a tree of frames, by induction on the tree. A frame that returns stays
open until the next record of its caller, so that a machine may have a frame more than the record
after it. -/
namespace TraceDiff

open Replay (Scope Machine scopeOf steps)
open Rpc (Quantity)

variable {σ : Type}

theorem Frame.isFailedCreation_child (f : Frame) (o : Opcode) (r : Record) (result : Quantity) :
    (f.child o r result).isFailedCreation = o.createsNothing result := by
  unfold Frame.child Frame.isFailedCreation Opcode.createsNothing
  cases o <;> simp [Opcode.keepsContext, Opcode.isCreate]

variable {sources : Sources σ} {balancesOnly : Bool}

namespace FrameTree

theorem canApply_observed {o : Option Opcode} {rest : FrameTree}
    (ho : ∀ x ∈ o, x.staysInFrame = true ∧ rest.ShowsResult x) (scope : Scope) (f : Frame)
    (r : Record) : ∀ e ∈ observed scope f o r rest.result, e.CanApply sources := by
  intro e he
  rcases of_mem_observed he with ⟨-, rfl⟩ | ⟨-, rfl⟩ | ⟨rfl, rfl⟩ | ⟨a, rfl | rfl⟩
  · rfl
  · rfl
  · exact (ho _ rfl).2.2
  · rfl
  · rfl

theorem canApply_closing (f : Frame) (ending : Ending) (r : Record) :
    ∀ e ∈ closing (scopeOf sources balancesOnly) f ending r, e.CanApply sources := by
  intro e he
  rcases of_mem_closing he with ⟨known, a, b, rfl⟩ | ⟨a, rfl | rfl⟩
  · exact known
  · rfl
  · rfl

theorem canApply_called (scope : Scope) (o : Opcode) (r : Record) :
    ∀ e ∈ called scope o r, e.CanApply sources := by
  intro e he
  obtain ⟨a, rfl⟩ := of_mem_called he
  rfl

theorem canApply_started (scope : Scope) (f : Frame) (o : Opcode) (r : Record)
    (result : Quantity) : ∀ e ∈ started scope f o r result, e.CanApply sources := by
  intro e he
  rcases of_mem_started he with ⟨a, rfl⟩ | ⟨a, b, n, rfl⟩ <;> rfl

/-- A tree of frames comes to an end whenever all sources answer. -/
theorem answers_meaning (total : sources.Total) (balancesOnly : Bool) {t : FrameTree} {d : Int}
    (wf : t.WellFormed d) (f : Frame) (j : Journal) :
    (t.meaning sources (scopeOf sources balancesOnly) f j).Answers := by
  induction t generalizing d f j with
  | close ending r => exact Journal.answers_noteAll total (canApply_closing f ending r) j
  | plain o r rest ih =>
    obtain ⟨-, -, ho, hrest⟩ := wf
    exact (Journal.answers_noteAll total (canApply_observed ho _ f r) j).bind (ih hrest f)
  | unstarted o r rest ih =>
    obtain ⟨-, -, -, -, hrest⟩ := wf
    exact (Journal.answers_noteAll total (canApply_called _ o r) j).bind (ih hrest f)
  | nested o r child rest ihc ih =>
    obtain ⟨-, -, -, -, hchild, hrest⟩ := wf
    refine (Journal.answers_noteAll total (canApply_called _ o r) j).bind fun before => ?_
    refine (Journal.answers_noteAll total (canApply_started _ f o r _) before).bind fun inside => ?_
    exact (ihc hchild _ inside).bind fun after => ih hrest f _

end FrameTree

namespace Replay.Machine

/-- A record at the depth makes the machine `m` go on as `m₀`. -/
def ArrivesAs (m : Machine) (depth : Int) (m₀ : Machine) : Prop :=
  ∀ r : Record, r.depth = depth → m.arrive r = .ok m₀.visit

theorem arrivesAs_self {m : Machine} {depth : Int} (h : (m.depth : Int) = depth) :
    m.ArrivesAs depth m := fun _ hr => arrive_of_depth_eq (hr.trans h.symm)

/-- The machine in the same frame, with a new journal, after some records and the frames that were
opened and settled at them. -/
def onward (m : Machine) (j : Journal) (kept undone : Nat) (passed : List Address) : Machine :=
  { m with
    journal := j.withSnapshots (m.journal.snapshots.settled kept undone)
    visited := passed.reverse ++ m.visited }

theorem onward_onward (m : Machine) (j j' : Journal) (k u k' u' : Nat) (p p' : List Address) :
    (m.onward j k u p).onward j' k' u' p' = m.onward j' (k + k') (u + u') (p ++ p') := by
  unfold onward
  rw [List.reverse_append, List.append_assoc, ← Snapshots.settled_settled]
  rfl

theorem onward_cons (m : Machine) (j : Journal) (k u : Nat) (a : Address) (passed : List Address) :
    m.onward j k u (a :: passed) =
      { m with
        journal := j.withSnapshots (m.journal.snapshots.settled k u)
        visited := passed.reverse ++ a :: m.visited } := by
  rw [onward, List.reverse_cons, List.append_assoc, List.singleton_append]

theorem arrivesAs_onward {m : Machine} {depth : Int} (h : (m.depth : Int) = depth) (j : Journal)
    (k u : Nat) (passed : List Address) :
    (m.onward j k u passed).ArrivesAs depth (m.onward j k u passed) := arrivesAs_self h

/-- The machine in a frame that the next record opened over the ledger `l`. -/
def within (m : Machine) (f : Frame) (l : Ledger) (j : Journal) : Machine :=
  { m.visit with
    frames := { m.frames with inner := f :: m.frames.inner }
    journal := j.withSnapshots (m.journal.snapshots.push l) }

theorem depth_within (m : Machine) (f : Frame) (l : Ledger) (j : Journal) :
    ((m.within f l j).depth : Int) = m.depth + 1 := by
  simp [within, depth, CallStack.depth]

/-- A frame that is still open when its caller goes on has returned: its snapshot is dropped, or
gone back to if it is a creation that failed. -/
theorem arrivesAs_of_returned (m : Machine) (f : Frame) (l : Ledger) (j j' : Journal) (k u : Nat)
    (passed : List Address) :
    ((m.within f l j).onward j' k u passed).ArrivesAs m.depth
      (m.onward { j' with ledger := if f.isFailedCreation then l else j'.ledger }
        ((!f.isFailedCreation).toNat + k) (f.isFailedCreation.toNat + u)
        (m.frames.top.address :: passed)) := by
  intro r hr
  have settled := settle_withSnapshots j' m.journal.snapshots l k u f
  have arrived := arrive_of_returned (m := (m.within f l j).onward j' k u passed) rfl hr settled
  rw [arrived, onward_cons]
  rfl

/-- A frame that aborts goes back to the ledger that it was opened with. -/
theorem abort_within (m : Machine) (f : Frame) (l : Ledger) (j j' : Journal) (k u : Nat)
    (passed : List Address) :
    ((m.within f l j).onward j' k u passed).abort = .ok
      (m.onward { j' with ledger := l } k (1 + u) (m.frames.top.address :: passed)) := by
  have rolledBack := Journal.rollback_withSnapshots j' m.journal.snapshots l k u
  have closed : ((m.within f l j).onward j' k u passed).abort =
      (fun journal =>
          { (m.within f l j).onward j' k u passed with frames := m.frames, journal }) <$>
        (j'.withSnapshots ((m.journal.snapshots.push l).settled k u)).rollback := rfl
  rw [closed, rolledBack, onward_cons]
  rfl

end Replay.Machine

namespace FrameTree

/-- The machine after the tree was executed in its innermost frame and left the journal `j`, before
that frame is settled. -/
def executed (t : FrameTree) (m : Machine) (j : Journal) : Machine :=
  m.onward j t.kept t.undone (t.contexts m.frames.top)

/-- The machine that the last record of the tree leaves: an abort closes the frame at once, one
that returns is still open. -/
def left (t : FrameTree) (m : Machine) (j : Journal) : Except Fault Machine :=
  if t.aborts then (t.executed m j).abort else .ok (t.executed m j)

theorem executed_close (ending : Ending) (r : Record) (m : Machine) (j : Journal) :
    (close ending r).executed m j =
      { m.visit with journal := j.withSnapshots m.journal.snapshots } := rfl

/-- What a tree leaves is what its rest leaves, after the records and frames before the rest. -/
theorem left_eq_left (t rest : FrameTree) (m : Machine) (k u : Nat) (passed : List Address)
    (aborts : t.aborts = rest.aborts) (kept : t.kept = k + rest.kept)
    (undone : t.undone = u + rest.undone)
    (contexts : t.contexts m.frames.top = passed ++ rest.contexts m.frames.top) (j₁ j : Journal) :
    t.left m j = rest.left (m.onward j₁ k u passed) j := by
  have same : t.executed m j = rest.executed (m.onward j₁ k u passed) j := by
    rw [executed, executed, Machine.onward_onward, kept, undone, contexts]
    rfl
  rw [left, left, aborts, same]

/-- The caller of a frame goes on with nothing of the frame if it is undone. -/
theorem left_within (child : FrameTree) (m : Machine) (o : Opcode) (r : Record)
    (result : Quantity) (l : Ledger) (j j' : Journal) :
    let f := m.frames.top.child o r result
    let isUndone := child.isUndone o result
    ∃ m', child.left (m.within f l j) j' = .ok m' ∧ m'.ArrivesAs m.depth
      (m.onward { j' with ledger := if isUndone then l else j'.ledger }
        ((!isUndone).toNat + child.kept) (isUndone.toNat + child.undone)
        (m.frames.top.address :: child.contexts f)) := by
  intro f isUndone
  cases ha : child.aborts with
  | true =>
    have undone : isUndone = true := by simp [isUndone, FrameTree.isUndone, ha]
    refine ⟨_, ?_, Machine.arrivesAs_self rfl⟩
    rw [left, if_pos ha, undone, Bool.not_true, Bool.toNat_false, Bool.toNat_true, Nat.zero_add]
    exact m.abort_within f l j j' child.kept child.undone (child.contexts f)
  | false =>
    have undone : isUndone = f.isFailedCreation := by
      simp [isUndone, FrameTree.isUndone, ha, f, Frame.isFailedCreation_child]
    refine ⟨_, by rw [left, ha]; rfl, ?_⟩
    rw [undone]
    exact m.arrivesAs_of_returned f l j j' child.kept child.undone (child.contexts f)

theorem noteAll_at {entries : List Journal.Entry} (h : ∀ e ∈ entries, e.CanApply sources)
    {j j' : Journal} {s s' : σ}
    (noted : (Journal.noteAll sources entries j).outcome s = (.ok j', s')) (snapshots : Snapshots) :
    (Journal.noteAll sources entries (j.withSnapshots snapshots)).outcome s =
      (.ok (j'.withSnapshots snapshots), s') := by
  rw [Journal.noteAll_withSnapshots (fun e he => (h e he).isFlat), Asking.outcome_map, noted]
  rfl

theorem ShowsResult.stack_of_isCreate {rest : FrameTree} {o : Opcode} (shows : rest.ShowsResult o)
    (hc : o.isCreate = true) : rest.first.stack ≠ [] := by
  cases o <;> first | exact shows hc | simp [Opcode.isCreate] at hc

/-- A record that only notes entries. -/
theorem steps_noted {m m₀ : Machine} {d : Int} {r : Record} {later : List Record}
    {entries : List Journal.Entry} {j j' : Journal} {s s' : σ}
    (arrives : m.ArrivesAs d m₀) (depth : r.depth = d)
    (same : m₀.journal = j.withSnapshots m₀.journal.snapshots)
    (read : Replay.Effect.ofRecord (scopeOf sources balancesOnly) m₀.frames.top r later =
      .ok (entries.map .note))
    (can : ∀ e ∈ entries, e.CanApply sources)
    (noted : (Journal.noteAll sources entries j).outcome s = (.ok j', s')) (i : Nat) :
    (steps sources balancesOnly i (r :: later)).outcome (m, s) =
      (steps sources balancesOnly (i + 1) later).outcome
        (m₀.onward j' 0 0 [m₀.frames.top.address], s') := by
  have inside := noteAll_at can noted m₀.journal.snapshots
  rw [← same] at inside
  have done := Replay.performAll_notes (m := m₀.visit) inside []
  rw [List.append_nil] at done
  exact Replay.steps_cons (arrives r depth) read done i

/-- A record that opens a frame. -/
theorem steps_opening {m m₀ : Machine} {d : Int} {r : Record} {later : List Record} {o : Opcode}
    {result : Quantity} {outside inside : List Journal.Entry} {j before j' : Journal}
    {s s₁ s' : σ} (arrives : m.ArrivesAs d m₀) (depth : r.depth = d)
    (same : m₀.journal = j.withSnapshots m₀.journal.snapshots)
    (read : Replay.Effect.ofRecord (scopeOf sources balancesOnly) m₀.frames.top r later =
      .ok (outside.map .note ++
        (.enter o (o.callee r result) (o.createsNothing result) :: inside.map .note)))
    (canOutside : ∀ e ∈ outside, e.CanApply sources) (canInside : ∀ e ∈ inside, e.CanApply sources)
    (called : (Journal.noteAll sources outside j).outcome s = (.ok before, s₁))
    (started : (Journal.noteAll sources inside before).outcome s₁ = (.ok j', s')) (i : Nat) :
    (steps sources balancesOnly i (r :: later)).outcome (m, s) =
      (steps sources balancesOnly (i + 1) later).outcome
        (m₀.within (m₀.frames.top.child o r result) before.ledger j', s') := by
  have first := noteAll_at canOutside called m₀.journal.snapshots
  rw [← same] at first
  have second := noteAll_at canInside started (m₀.journal.snapshots.push before.ledger)
  refine Replay.steps_cons (arrives r depth) read ?_ i
  rw [Replay.performAll_notes (m := m₀.visit) first, Replay.performAll_enter]
  have done := Replay.performAll_notes (m := m₀.within (m₀.frames.top.child o r result)
    before.ledger before) second []
  rw [List.append_nil] at done
  exact done

/-- Replaying the records of a tree of frames does what the tree means. The machine is about to
execute the frame in `m₀`; in `m` a frame that returned before may still be open. -/
theorem steps_records {t : FrameTree} {d : Int} (wf : t.WellFormed d) {m m₀ m' : Machine}
    {j j' : Journal} {s s' : σ} (arrives : m.ArrivesAs d m₀) (depth : (m₀.depth : Int) = d)
    (same : m₀.journal = j.withSnapshots m₀.journal.snapshots)
    (means : (t.meaning sources (scopeOf sources balancesOnly) m₀.frames.top j).outcome s =
      (.ok j', s'))
    (leaves : t.left m₀ j' = .ok m') (i : Nat) (later : List Record) :
    (steps sources balancesOnly i (t.records ++ later)).outcome (m, s) =
      (steps sources balancesOnly (i + t.records.length) later).outcome (m', s') := by
  induction t generalizing d m m₀ m' j j' s s' i later with
  | close ending r =>
    obtain ⟨hd, fits⟩ := wf
    by_cases ha : ending = .abort
    · subst ha
      obtain ⟨hj, rfl⟩ := Prod.mk.inj means
      obtain rfl := Except.ok.inj hj
      have read := Replay.Effect.ofRecord_of_aborts fits (scopeOf sources balancesOnly)
        m₀.frames.top later
      have closes : ((close .abort r).executed m₀ j).abort = .ok m' := by
        simpa [left, aborts] using leaves
      rw [executed_close, ← same] at closes
      exact Replay.steps_cons (arrives r hd) read (Replay.performAll_abort closes s) i
    · have read := Replay.Effect.ofRecord_closing fits ha (scopeOf sources balancesOnly)
        m₀.frames.top later
      have stays : (close ending r).executed m₀ j' = m' := by
        simpa [left, aborts, ha] using leaves
      rw [← stays]
      exact steps_noted arrives hd same read (canApply_closing _ _ r) means i
  | plain o r rest ih =>
    obtain ⟨hd, hx, ho, hrest⟩ := wf
    obtain ⟨j₁, s₁, noted, means⟩ := Asking.outcome_bind_eq_ok.1 means
    have read := Replay.Effect.ofRecord_observed hx ho (scopeOf sources balancesOnly)
      m₀.frames.top later
    have first := steps_noted arrives hd same read (canApply_observed ho _ _ r) noted i
    rw [left_eq_left (plain o r rest) rest m₀ 0 0 [m₀.frames.top.address] rfl
      (Nat.zero_add _).symm (Nat.zero_add _).symm rfl j₁] at leaves
    have again := Machine.arrivesAs_onward depth j₁ 0 0 [m₀.frames.top.address]
    have second := ih hrest again depth rfl means leaves (i + 1) later
    rw [records, List.cons_append, List.length_cons, ← Nat.add_assoc, Nat.add_right_comm]
    exact first.trans second
  | unstarted o r rest ih =>
    obtain ⟨hd, hx, ho, ⟨shows, failed⟩, hrest⟩ := wf
    obtain ⟨before, s₁, called, means⟩ := Asking.outcome_bind_eq_ok.1 means
    have begun : Replay.frameStarted r (rest.records ++ later) = false := by
      simp [Replay.frameStarted_records, hrest.depth_first, hd]
    have zero : Address.ofWord rest.result.value = .zero := by rw [failed]; rfl
    have look (hc : o.isCreate = true) := Replay.createdAddress_of_result
      (hrest.depth_first.trans hd.symm) (shows.stack_of_isCreate hc) later
    have read := Replay.Effect.ofRecord_opening hx ho begun look (fun _ _ => zero)
      (scopeOf sources balancesOnly) m₀.frames.top
    -- the replay opens a frame all the same, which the record after it finds returned
    have first := steps_opening arrives hd same read (canApply_called _ o r) (by simp) called rfl i
    have returned := m₀.arrivesAs_of_returned (m₀.frames.top.child o r rest.result) before.ledger
      before before 0 0 []
    simp only [Frame.isFailedCreation_child, ite_self, Nat.add_zero, depth] at returned
    rw [left_eq_left (unstarted o r rest) rest m₀ _ _ [m₀.frames.top.address] rfl rfl rfl rfl
      before] at leaves
    have second := ih hrest returned depth rfl means leaves (i + 1) later
    rw [records, List.cons_append, List.length_cons, ← Nat.add_assoc, Nat.add_right_comm]
    exact first.trans second
  | nested o r child rest ihc ih =>
    obtain ⟨hd, hx, ho, ⟨shows, failed⟩, hchild, hrest⟩ := wf
    obtain ⟨before, s₁, called, means⟩ := Asking.outcome_bind_eq_ok.1 means
    obtain ⟨inside, s₂, started, means⟩ := Asking.outcome_bind_eq_ok.1 means
    obtain ⟨after, s₃, meansChild, means⟩ := Asking.outcome_bind_eq_ok.1 means
    have begun : Replay.frameStarted r (child.records ++ (rest.records ++ later)) = true := by
      rw [Replay.frameStarted_records, hchild.depth_first, hd]
      exact decide_eq_true (Int.lt_succ d)
    have deeper : ∀ x ∈ child.records, x.depth ≠ r.depth := by
      intro x hx
      have := hchild.le_depth x hx
      omega
    -- the search for a created address passes over everything inside the child
    have look (hc : o.isCreate = true) := (Replay.createdAddress_append deeper _).trans
      (Replay.createdAddress_of_result (hrest.depth_first.trans hd.symm)
        (shows.stack_of_isCreate hc) later)
    have read := Replay.Effect.ofRecord_opening hx ho begun look (by simp)
      (scopeOf sources balancesOnly) m₀.frames.top
    have first := steps_opening arrives hd same read (canApply_called _ o r)
      (canApply_started _ _ o r _) called started i
    -- the child leaves a machine that the rest arrives in, whether it returned or aborted
    obtain ⟨m₁, leavesChild, returned⟩ := child.left_within m₀ o r rest.result before.ledger inside
      after
    have deep := m₀.depth_within (m₀.frames.top.child o r rest.result) before.ledger inside
    rw [depth] at deep
    have second := ihc hchild (Machine.arrivesAs_self deep) deep rfl meansChild leavesChild (i + 1)
      (rest.records ++ later)
    rw [depth] at returned
    rw [left_eq_left (nested o r child rest) rest m₀ _ _
      (m₀.frames.top.address :: child.contexts (m₀.frames.top.child o r rest.result)) rfl rfl rfl
      rfl
      { after with ledger := if child.isUndone o rest.result then before.ledger else after.ledger }]
      at leaves
    have third := ih hrest returned depth rfl means leaves (i + 1 + child.records.length) later
    have length : i + (nested o r child rest).records.length =
        i + 1 + child.records.length + rest.records.length := by
      simp only [records, List.length_cons, List.length_append]
      omega
    rw [length, records, List.cons_append, List.append_assoc]
    exact first.trans (second.trans third)

end FrameTree

end TraceDiff
