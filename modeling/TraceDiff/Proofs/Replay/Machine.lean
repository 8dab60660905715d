import TraceDiff.Proofs.Replay

/-! How the machine leaves its frames: what one frame does to the ledger and the snapshots as it
returns or aborts, and what the machine is afterwards. -/
namespace TraceDiff

namespace Journal

/-- The journal after the newest snapshot is gone back to, with the older ones held. -/
def undone (j : Journal) (l : Ledger) (older : List Ledger) : Journal :=
  { j with
    ledger := l
    snapshots := { j.snapshots with held := older, rollbacks := j.snapshots.rollbacks + 1 } }

/-- The journal after the newest snapshot is dropped, with the older ones held. -/
def kept (j : Journal) (older : List Ledger) : Journal :=
  { j with snapshots := { j.snapshots with held := older, pops := j.snapshots.pops + 1 } }

/-- The journal once a frame returned that was opened over the ledger `l`. -/
def returned (j : Journal) (f : Frame) (l : Ledger) (older : List Ledger) : Journal :=
  if f.isFailedCreation then j.undone l older else j.kept older

variable {j j' : Journal} {f : Frame} {l : Ledger} {older : List Ledger}

@[simp] theorem held_returned : (j.returned f l older).snapshots.held = older := by
  unfold returned
  split <;> rfl

theorem ledger_returned :
    (j.returned f l older).ledger = if f.isFailedCreation then l else j.ledger := by
  unfold returned
  split <;> rfl

theorem rollback_of_held (h : j.snapshots.held = l :: older) :
    j.rollback = .ok (j.undone l older) := by
  simp only [rollback, Snapshots.rollback, h]
  rfl

theorem pop_of_held (h : j.snapshots.held = l :: older) : j.pop = .ok (l, j.kept older) := by
  simp only [pop, Snapshots.pop, h]
  rfl

theorem rollback_eq_ok (h : j.rollback = .ok j') :
    ∃ l older, j.snapshots.held = l :: older ∧ j' = j.undone l older := by
  cases held : j.snapshots.held with
  | nil => simp [rollback, Snapshots.rollback, held] at h
  | cons l older =>
    rw [rollback_of_held held] at h
    exact ⟨l, older, rfl, (Except.ok.inj h).symm⟩

end Journal

/-- Only a creation opens the frame of a failed creation. -/
theorem CallStack.isFailedCreation_opened (s : CallStack) (o : Opcode) (a : Address) (p : Bool) :
    (s.opened o a p).isFailedCreation = (p && o.isCreate) := by
  cases o <;> simp [opened, Frame.isFailedCreation, Opcode.keepsContext, Opcode.isCreate]

namespace Replay.Machine

open Journal (returned)

variable {m m' : Machine} {j j' : Journal} {f : Frame} {closed : List Frame} {l : Ledger}
  {older : List Ledger}

theorem settle_cons_of_held (h : j.snapshots.held = l :: older) (f : Frame) (closed : List Frame) :
    settle j (f :: closed) = settle (j.returned f l older) closed := by
  simp only [settle, returned]
  split
  · rw [Journal.rollback_of_held h]
    rfl
  · rw [Journal.pop_of_held h]
    rfl

theorem settle_cons_eq_ok (h : settle j (f :: closed) = .ok j') :
    ∃ l older, j.snapshots.held = l :: older ∧ settle (j.returned f l older) closed = .ok j' := by
  cases held : j.snapshots.held with
  | nil =>
    simp only [settle, Journal.rollback, Snapshots.rollback, Journal.pop, Snapshots.pop,
      held] at h
    split at h <;> cases h
  | cons l older =>
    rw [settle_cons_of_held held] at h
    exact ⟨l, older, rfl, h⟩

/-- Frames settle one after another. -/
theorem settle_append (j : Journal) (xs ys : List Frame) :
    settle j (xs ++ ys) = settle j xs >>= fun j => settle j ys := by
  induction xs generalizing j with
  | nil => rfl
  | cons f xs ih =>
    cases held : j.snapshots.held with
    | nil =>
      simp only [List.cons_append, settle, Journal.rollback, Snapshots.rollback, Journal.pop,
        Snapshots.pop, held]
      split <;> rfl
    | cons l older =>
      rw [List.cons_append, settle_cons_of_held held, settle_cons_of_held held, ih]

/-- Frames with a snapshot each can settle, and give up these snapshots. -/
theorem settle_of_held {saved : List Ledger} (h : j.snapshots.held = saved ++ older)
    (aligned : closed.length = saved.length) :
    ∃ j', settle j closed = .ok j' ∧ j'.snapshots.held = older := by
  induction closed generalizing j saved with
  | nil =>
    obtain rfl := List.length_eq_zero_iff.1 aligned.symm
    exact ⟨j, rfl, h⟩
  | cons f closed ih =>
    cases saved with
    | nil => simp at aligned
    | cons l saved =>
      rw [settle_cons_of_held h]
      exact ih (j := j.returned f l (saved ++ older)) (by simp) (Nat.succ.inj aligned)

theorem returnTo_eq_ok {depth : Int} (h : m.returnTo depth = .ok m') :
    ∃ j, settle m.journal (m.frames.unwind depth).1 = .ok j ∧
      m' = { m with frames := (m.frames.unwind depth).2, journal := j } := by
  cases settled : settle m.journal (m.frames.unwind depth).1 with
  | error e =>
    simp only [returnTo, settled] at h
    cases h
  | ok j =>
    simp only [returnTo, settled] at h
    exact ⟨j, rfl, (Except.ok.inj h).symm⟩

/-- A record that is no deeper than the machine finds the frames above it returned. -/
theorem arrive_of_le {r : Record} (h : r.depth ≤ m.depth) :
    m.arrive r = visit <$> m.returnTo r.depth := by
  unfold arrive
  rw [if_neg (Int.not_lt.2 h)]
  split
  · rfl
  · next deep =>
    have depth : r.depth = m.depth := by omega
    rw [returnTo_of_depth_eq depth]
    rfl

theorem root_of_returnTo (h : m.returnTo 1 = .ok m') : m'.frames.inner = [] := by
  obtain ⟨j, -, rfl⟩ := returnTo_eq_ok h
  have pos := m.frames.depth_pos
  have unwound := m.frames.depth_unwind 1
  have none : ((m.frames.unwind 1).2.inner.length : Int) = 0 := by
    simp only [CallStack.depth] at *
    omega
  exact List.length_eq_zero_iff.1 (Int.ofNat.inj none)

theorem returnTo_of_root (h : m.frames.inner = []) (depth : Int) : m.returnTo depth = .ok m := by
  have frames : m.frames = { m.frames with inner := [] } := by rw [← h]
  simp only [returnTo, CallStack.unwind, h, List.take_nil, List.drop_nil, settle, ← frames]
  rfl

theorem arrive_eq_ok {r : Record} (h : m.arrive r = .ok m') :
    r.depth ≤ m.depth ∧ ∃ m₁, m.returnTo r.depth = .ok m₁ ∧ m' = m₁.visit := by
  by_cases jump : (m.depth : Int) < r.depth
  · simp [arrive, jump] at h
  · have le := Int.not_lt.1 jump
    rw [arrive_of_le le] at h
    cases returns : m.returnTo r.depth with
    | error e =>
      rw [returns] at h
      cases h
    | ok m₁ =>
      rw [returns] at h
      exact ⟨le, m₁, rfl, (Except.ok.inj h).symm⟩

theorem depth_of_arrive {r : Record} (h : m.arrive r = .ok m') :
    (m'.depth : Int) = max r.depth 1 := by
  obtain ⟨le, m₁, returned, rfl⟩ := arrive_eq_ok h
  obtain ⟨j, -, rfl⟩ := returnTo_eq_ok returned
  have pos := m.frames.depth_pos
  have unwound := m.frames.depth_unwind r.depth
  simp only [depth, visit] at *
  omega

theorem apply_note_eq_ok {σ : Type} {sources : Sources σ} {e : Journal.Entry} {s s' : σ} :
    (m.apply sources (.note e)).outcome s = (.ok m', s') ↔
      ∃ j, (e.apply sources m.journal).outcome s = (.ok j, s') ∧ m' = { m with journal := j } := by
  simp only [apply, Asking.outcome_map]
  rcases (e.apply sources m.journal).outcome s with ⟨_ | j, s₁⟩
  · simp [Except.map]
  · constructor
    · rintro ⟨⟩
      exact ⟨j, rfl, rfl⟩
    · rintro ⟨_, ⟨⟩, rfl⟩
      rfl

theorem abort_eq_ok (h : m.abort = .ok m') :
    (m.frames.inner = [] ∧ m' = m.abortRoot) ∨
      ∃ f outer l older, m.frames.inner = f :: outer ∧ m.journal.snapshots.held = l :: older ∧
        m' = { m with
          frames := { m.frames with inner := outer }, journal := m.journal.undone l older } := by
  unfold abort CallStack.leave at h
  cases inner : m.frames.inner with
  | nil =>
    simp only [inner] at h
    exact .inl ⟨rfl, (Except.ok.inj h).symm⟩
  | cons f outer =>
    simp only [inner] at h
    cases rolledBack : m.journal.rollback with
    | error e =>
      rw [rolledBack] at h
      cases h
    | ok j =>
      rw [rolledBack] at h
      obtain ⟨l, older, held, rfl⟩ := Journal.rollback_eq_ok rolledBack
      exact .inr ⟨f, outer, l, older, rfl, held, (Except.ok.inj h).symm⟩

end Replay.Machine

end TraceDiff
