import TraceDiff.Proofs.Replay.Alignment

/-! Which traces a replay rejects. How deep a record may be is told by the record before it, and
what it needs by its own stack and by the records after it. A replay stops at the first record that
is at fault. -/
namespace TraceDiff

section Reading

variable {α β : Type}

end Reading

/-- The greatest depth that the record after this one may have. -/
def Record.allows (r : Record) : Int :=
  if r.opens then r.level + 1 else if r.aborts then max (r.depth - 1) 1 else r.level

theorem Record.allows_of_opens {r : Record} {o : Opcode} (opens : r.Opens o) :
    r.allows = r.level + 1 := if_pos (opens_iff.2 ⟨o, opens⟩)

theorem Record.allows_of_aborts {r : Record} (aborts : r.Aborts) :
    r.allows = max (r.depth - 1) 1 := by
  have closed : ¬ r.opens = true := fun h => (opens_iff.1 h).elim fun _ opens =>
    opens.not_aborts aborts
  rw [allows, if_neg closed, if_pos (aborts_iff.2 aborts)]

theorem Record.allows_of_stays {r : Record} (calm : ¬ r.Aborts) (closed : ∀ o, ¬ r.Opens o) :
    r.allows = r.level := by
  have closed : ¬ r.opens = true := fun h => (opens_iff.1 h).elim closed
  rw [allows, if_neg closed, if_neg (mt aborts_iff.1 calm)]

namespace Replay

/-- The greatest depth of a record that comes after `passed`, which has the last record first. -/
def allowed (passed : List Record) : Int := passed.head?.elim 1 Record.allows

/-- Whether the frame at a depth is that of a failed creation, or runs as such a frame. -/
def isPlaceholder (depth : Int) : (passed later : List Record) → Bool
  | [], _ => false
  | r :: passed, later =>
    if r.level < depth then
      if r.opcode?.any Opcode.keepsContext then isPlaceholder r.level passed (r :: later)
      else failsToCreate r later
    else isPlaceholder depth passed (r :: later)

/-- Whether the trace lacks what the effects of an opcode are read off. -/
def lacks (placeholder : Bool) (o : Opcode) (r : Record) (later : List Record) : Bool :=
  match o with
  | .selfdestruct => !placeholder && r.stack.isEmpty
  | .sload | .blockhash => r.stack.isEmpty || later.head?.all fun x => x.stack.isEmpty
  | .create | .create2 =>
    r.stack.isEmpty || (later.find? fun x => x.depth = r.depth).any fun x => x.stack.isEmpty
  | o => r.stack.length < o.operands

/-- Whether a record is at fault after `passed`, and before `later`. -/
def isDefective (passed : List Record) (r : Record) (later : List Record) : Bool :=
  decide (allowed passed < r.depth) ||
    r.error.isNone && r.opcode?.any fun o =>
      lacks (isPlaceholder r.level passed (r :: later)) o r later

/-- Record `i` of those that come after `passed` is at fault. -/
def Defective (passed records : List Record) (i : Nat) : Prop :=
  ∃ r, records[i]? = some r ∧
    isDefective ((records.take i).reverse ++ passed) r (records.drop (i + 1)) = true

/-- Record `i` of those that come after `passed` is the first one at fault. -/
structure FirstDefective (passed records : List Record) (i : Nat) : Prop where
  defective : Defective passed records i
  before : ∀ j < i, ¬ Defective passed records j

section Defective

variable {passed later : List Record} {r : Record} {i : Nat}

theorem defective_zero : Defective passed (r :: later) 0 ↔ isDefective passed r later = true := by
  simp [Defective]

theorem defective_succ :
    Defective passed (r :: later) (i + 1) ↔ Defective (r :: passed) later i := by
  simp [Defective]

theorem FirstDefective.succ (sound : isDefective passed r later = false)
    (h : FirstDefective (r :: passed) later i) : FirstDefective passed (r :: later) (i + 1) := by
  refine ⟨defective_succ.2 h.defective, fun j hj => ?_⟩
  cases j with
  | zero => rw [defective_zero, sound]; exact Bool.false_ne_true
  | succ j => exact mt defective_succ.1 (h.before j (Nat.lt_of_succ_lt_succ hj))

/-- No two records are the first one at fault. -/
theorem FirstDefective.eq {j : Nat} {records : List Record} (h : FirstDefective passed records i)
    (h' : FirstDefective passed records j) : i = j := by
  rcases Nat.lt_trichotomy i j with less | same | more
  · exact absurd h.defective (h'.before i less)
  · exact same
  · exact absurd h'.defective (h.before j more)

end Defective

section Lacking

variable {scope : Scope} {f : Frame} {o : Opcode} {r : Record} {later : List Record}

end Lacking

/-- The frames that are open are placeholders as the trace says. -/
def Marked (passed later : List Record) : List Frame → Prop
  | [] => True
  | f :: outer => f.placeholder = isPlaceholder (outer.length + 2) passed later ∧
      Marked passed later outer

/-- What is known of a machine that replayed `passed`, with `later` to come. -/
structure Machine.Reached (passed later : List Record) (m : Machine) : Prop where
  aligned : m.Aligned
  depth : (m.depth : Int) = allowed passed
  root : m.frames.root.placeholder = false
  marked : Marked passed later m.frames.inner

section Reached

variable {σ : Type} {sources : Sources σ} {balancesOnly : Bool} {m m₁ m' : Machine} {s s' : σ}
  {i : Nat} {r : Record} {passed later records : List Record} {frames : List Frame}

theorem Marked.drop (h : Marked passed later frames) (n : Nat) :
    Marked passed later (frames.drop n) := by
  induction n generalizing frames with
  | zero => exact h
  | succ n ih =>
    cases frames with
    | nil => exact h
    | cons f outer => exact ih h.2

/-- A record says nothing about the frames that are no deeper than it is. -/
theorem Marked.cons (level : frames.length + 1 ≤ r.level) (h : Marked passed (r :: later) frames) :
    Marked (r :: passed) later frames := by
  induction frames with
  | nil => trivial
  | cons f outer ih =>
    rw [List.length_cons] at level
    have below : ¬ r.level < outer.length + 2 := by omega
    refine ⟨?_, ih (by omega) h.2⟩
    rw [isPlaceholder, if_neg below]
    exact h.1

theorem isPlaceholder_root : (passed later : List Record) → isPlaceholder 1 passed later = false
  | [], _ => rfl
  | r :: passed, later => by
    have below : ¬ r.level < 1 := Int.not_lt.2 (Int.le_max_right _ _)
    rw [isPlaceholder, if_neg below]
    exact isPlaceholder_root passed (r :: later)

theorem placeholder_top {stack : CallStack} (root : stack.root.placeholder = false)
    (h : Marked passed later stack.inner) :
    stack.top.placeholder = isPlaceholder (stack.inner.length + 1) passed later := by
  unfold CallStack.top
  cases inner : stack.inner with
  | nil => exact root.trans (isPlaceholder_root passed later).symm
  | cons f outer =>
    rw [inner] at h
    exact h.1

theorem Machine.Reached.arrive (arrived : m.arrive r = .ok m₁) (h : m.Reached passed later) :
    m₁.Aligned ∧ m₁.frames.root.placeholder = false ∧ Marked passed later m₁.frames.inner := by
  have aligned := (aligned_invariant ({} : Sources Unit)).arrive arrived h.aligned
  obtain ⟨-, m₂, returned, rfl⟩ := Machine.arrive_eq_ok arrived
  obtain ⟨j, -, rfl⟩ := Machine.returnTo_eq_ok returned
  exact ⟨aligned, h.root, h.marked.drop _⟩

/-- The record after this one may go into the frame that is executing now, but no deeper. -/
theorem depth_of_step
    (done : (step sources balancesOnly i r later).outcome (m, s) = (.ok (), (m', s'))) :
    (m'.depth : Int) = r.allows := by
  obtain ⟨m₁, arrived, cases⟩ := frames_of_step done
  have level := Machine.level_of_arrive arrived
  rcases cases with ⟨aborts, aborted⟩ | ⟨o, target, placeholder, l, opens, -, frames, -, -⟩ |
    ⟨calm, closed, j, rfl, -⟩
  · rw [Record.allows_of_aborts aborts]
    rw [Record.level] at level
    rcases Machine.abort_eq_ok aborted with ⟨bottom, rfl⟩ | ⟨f, outer, l, older, inner, -, rfl⟩
    · rw [bottom, List.length_nil] at level
      rw [Machine.depth, m₁.frames_abortRoot, CallStack.depth, bottom, List.length_nil]
      omega
    · rw [inner, List.length_cons] at level
      simp only [Machine.depth, CallStack.depth]
      omega
  · rw [Record.allows_of_opens opens, level, Machine.depth, frames, CallStack.depth_enter]
    simp [CallStack.depth]
  · rw [Record.allows_of_stays calm closed, level]
    simp [Machine.depth, CallStack.depth]

theorem marked_of_step
    (done : (step sources balancesOnly i r later).outcome (m, s) = (.ok (), (m', s')))
    (h : m.Reached passed (r :: later)) :
    m'.frames.root.placeholder = false ∧ Marked (r :: passed) later m'.frames.inner := by
  obtain ⟨m₁, arrived, cases⟩ := frames_of_step done
  have level := Machine.level_of_arrive arrived
  obtain ⟨-, root, marked⟩ := h.arrive arrived
  have kept := marked.cons (Int.le_of_eq level.symm)
  rcases cases with ⟨-, aborted⟩ | ⟨o, target, placeholder, l, opens, failing, frames, -, -⟩ |
    ⟨-, -, j, rfl, -⟩
  · rcases Machine.abort_eq_ok aborted with ⟨-, rfl⟩ | ⟨f, outer, l, older, inner, -, rfl⟩
    · rw [m₁.frames_abortRoot]
      exact ⟨root, kept⟩
    · rw [inner] at kept
      exact ⟨root, kept.2⟩
  · rw [frames]
    refine ⟨root, ?_, kept⟩
    have named := Record.opcode?_eq_some_iff.2 opens.2.1
    have below : r.level < m₁.frames.inner.length + 2 := by omega
    rw [isPlaceholder, if_pos below, named, Option.any_some, CallStack.opened]
    split
    · rw [level]
      exact placeholder_top root marked
    · rw [Bool.eq_iff_iff, failing, failsToCreate_eq opens]
  · exact ⟨root, kept⟩

theorem Machine.Reached.step
    (done : (step sources balancesOnly i r later).outcome (m, s) = (.ok (), (m', s')))
    (h : m.Reached passed (r :: later)) : m'.Reached (r :: passed) later where
  aligned := ((aligned_invariant sources).keeps_step i r later).after done h.aligned
  depth := depth_of_step done
  root := (marked_of_step done h).1
  marked := (marked_of_step done h).2

end Reached

section Rejecting

variable {σ : Type} {sources : Sources σ} {m m₁ : Machine} {s : σ} {i : Nat} {r : Record}
  {passed later records : List Record} {f : Fault} {w : Machine × σ}

theorem Machine.Unused.reached {root : Address} (h : m.Unused root) (records : List Record) :
    (anchor m).Reached [] records := by
  refine ⟨(aligned_invariant ({} : Sources Unit)).anchor m h.aligned, ?_, ?_, ?_⟩
  · show (m.frames.depth : Int) = 1
    rw [h.frames]
    rfl
  · show m.frames.root.placeholder = false
    rw [h.frames]
    rfl
  · show Marked [] records m.frames.inner
    rw [h.frames]
    trivial

end Rejecting

end Replay

end TraceDiff
