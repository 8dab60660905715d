import TraceDiff.Proofs.FrameTree.Records
import TraceDiff.Proofs.Replay.Invariants

/-! What is left of a frame that aborts, or that a failed creation opened: the ledger goes back to
what it was when the frame opened, whatever happened inside. Nothing is asked of the trace; frames
may open, return and abort at all levels above. -/
namespace TraceDiff

/-- Unwinding to a depth of `base` or less closes everything above it first. -/
theorem CallStack.unwind_of_le_depth (base : CallStack) (above : List Frame) {depth : Int}
    (h : depth ≤ base.depth) :
    ({ base with inner := above ++ base.inner } : CallStack).unwind depth =
      (above ++ (base.unwind depth).1, (base.unwind depth).2) := by
  have pos := base.depth_pos
  have count : CallStack.above { base with inner := above ++ base.inner } depth =
      above.length + base.above depth := by
    simp only [CallStack.above, CallStack.depth, List.length_append] at *
    omega
  simp only [CallStack.unwind, count, List.take_length_add_append, List.drop_length_add_append]

/-- Unwinding to a depth of `base` or more leaves it alone. -/
theorem CallStack.unwind_of_depth_le (base : CallStack) (above : List Frame) {depth : Int}
    (h : base.depth ≤ depth) :
    ∃ k, ({ base with inner := above ++ base.inner } : CallStack).unwind depth =
      (above.take k, { base with inner := above.drop k ++ base.inner }) := by
  have few : CallStack.above { base with inner := above ++ base.inner } depth ≤ above.length := by
    simp only [CallStack.above, CallStack.depth, List.length_append] at *
    omega
  refine ⟨CallStack.above { base with inner := above ++ base.inner } depth, ?_⟩
  simp only [CallStack.unwind, List.take_append_of_le_length few,
    List.drop_append_of_le_length few]

namespace Replay

variable {σ : Type} {sources : Sources σ} {balancesOnly : Bool}

/-- The frame `f` is open over `base`, and the ledger `l` is held for it. Each frame above has its
own ledger held. -/
def Machine.Inside (base : CallStack) (f : Frame) (l : Ledger) (m : Machine) : Prop :=
  ∃ above saved older,
    m.frames = { base with inner := above ++ f :: base.inner } ∧
      m.journal.snapshots.held = saved ++ l :: older ∧ above.length = saved.length

namespace Machine.Inside

variable {base : CallStack} {f : Frame} {l : Ledger} {m m' : Machine} {s s' : σ} {i : Nat}
  {r : Record} {later : List Record}

theorem lt_depth (h : m.Inside base f l) : base.depth < m.depth := by
  obtain ⟨above, saved, older, frames, -, -⟩ := h
  simp only [Machine.depth, CallStack.depth, frames, List.length_append, List.length_cons]
  omega

theorem note {e : Journal.Entry} (flat : e.isFlat = true) {j : Journal}
    (leads : e.Leads sources m.journal j) (h : m.Inside base f l) :
    ({ m with journal := j } : Machine).Inside base f l := by
  obtain ⟨above, saved, older, frames, held, aligned⟩ := h
  refine ⟨above, saved, older, frames, ?_, aligned⟩
  simp only [Journal.snapshots_of_leads flat leads]
  exact held

theorem enter (o : Opcode) (a : Address) (p : Bool) (h : m.Inside base f l) :
    (m.enter o a p).Inside base f l := by
  obtain ⟨above, saved, older, frames, held, aligned⟩ := h
  refine ⟨m.frames.opened o a p :: above, m.journal.ledger :: saved, older, ?_, ?_, ?_⟩
  · simp only [Machine.enter, CallStack.enter, frames, List.cons_append]
  · show m.journal.ledger :: m.journal.snapshots.held = _
    rw [held, List.cons_append]
  · simp only [List.length_cons, aligned]

/-- Returning to a frame that is inside too leaves `f` open. -/
theorem returnTo {depth : Int} (deep : base.depth < depth) (h : m.Inside base f l) :
    ∃ m', m.returnTo depth = .ok m' ∧ m'.Inside base f l := by
  obtain ⟨above, saved, older, frames, held, aligned⟩ := h
  let atFrame : CallStack := { base with inner := f :: base.inner }
  have inner : m.frames = { atFrame with inner := above ++ atFrame.inner } := frames
  have deep : (atFrame.depth : Int) ≤ depth := by
    show ((f :: base.inner).length + 1 : Int) ≤ depth
    simp only [CallStack.depth] at deep
    simp only [List.length_cons]
    omega
  obtain ⟨k, unwound⟩ := CallStack.unwind_of_depth_le atFrame above deep
  rw [← inner] at unwound
  have split : m.journal.snapshots.held = saved.take k ++ (saved.drop k ++ l :: older) := by
    rw [← List.append_assoc, List.take_append_drop, held]
  have each : (above.take k).length = (saved.take k).length := by simp [aligned]
  obtain ⟨j, settled, rest⟩ := settle_of_held split each
  refine ⟨{ m with frames := { atFrame with inner := above.drop k ++ atFrame.inner }, journal := j },
    ?_, above.drop k, saved.drop k, older, rfl, rest, by simp [aligned]⟩
  simp only [Machine.returnTo, unwound, settled]
  rfl

/-- An abort closes one of the frames above, or `f` itself. -/
theorem abort (h : m.Inside base f l) :
    ∃ m', m.abort = .ok m' ∧ m'.depth + 1 = m.depth ∧
      (m'.Inside base f l ∨ m'.frames = base ∧ m'.journal.ledger = l) := by
  obtain ⟨above, saved, older, frames, held, aligned⟩ := h
  cases above with
  | nil =>
    obtain rfl := List.length_eq_zero_iff.1 aligned.symm
    have undone := Journal.rollback_of_held held
    refine ⟨{ m with frames := base, journal := m.journal.undone l older }, ?_, ?_, ?_⟩
    · simp only [Machine.abort, CallStack.leave, frames, List.nil_append, undone]
      rfl
    · simp [Machine.depth, CallStack.depth, frames]
    · exact .inr ⟨rfl, rfl⟩
  | cons g above =>
    cases saved with
    | nil => simp at aligned
    | cons k saved =>
      have undone := Journal.rollback_of_held held
      refine ⟨{ m with
        frames := { base with inner := above ++ f :: base.inner }
        journal := m.journal.undone k (saved ++ l :: older) }, ?_, ?_, .inl ?_⟩
      · simp only [Machine.abort, CallStack.leave, frames, List.cons_append]
        rw [undone]
        rfl
      · simp [Machine.depth, CallStack.depth, frames]
      · exact ⟨above, saved, older, rfl, rfl, Nat.succ.inj aligned⟩

/-- Once `f`, the frame of a failed creation, returned, the ledger is `l`. The machine in that state
goes on like the one that still has to get there. -/
theorem leave (failed : f.isFailedCreation = true) (h : m.Inside base f l) :
    ∃ m' : Machine, m'.frames = base ∧ m'.journal.ledger = l ∧
      ∀ depth : Int, depth ≤ base.depth → m.returnTo depth = m'.returnTo depth := by
  obtain ⟨above, saved, older, frames, held, aligned⟩ := h
  obtain ⟨j, settled, rest⟩ := settle_of_held held aligned
  have undone : (j.returned f l older).ledger = l := by
    rw [Journal.ledger_returned, if_pos failed]
  refine ⟨{ m with frames := base, journal := j.returned f l older }, rfl, undone, ?_⟩
  intro depth shallow
  have inner : m.frames = { base with inner := (above ++ [f]) ++ base.inner } := by
    rw [frames, List.append_assoc, List.singleton_append]
  have closing (outer : List Frame) :
      settle m.journal (above ++ [f] ++ outer) = settle (j.returned f l older) outer := by
    rw [List.append_assoc, settle_append, settled]
    exact settle_cons_of_held rest f outer
  simp only [Machine.returnTo, inner, CallStack.unwind_of_le_depth base (above ++ [f]) shallow,
    closing]

theorem arrive (bounded : r.depth ≤ m.depth) (deep : base.depth < r.depth)
    (h : m.Inside base f l) : ∃ m', m.arrive r = .ok m' ∧ m'.Inside base f l := by
  obtain ⟨m', returned, h'⟩ := h.returnTo deep
  refine ⟨m'.visit, ?_, h'⟩
  rw [arrive_of_le bounded, returned]
  rfl

theorem performAll {effects : List Effect}
    (lasting : ∀ e ∈ effects, e.Lasting (·.isRecorded = true))
    (done : (Replay.performAll sources effects).outcome (m, s) = (.ok (), (m', s')))
    (h : m.Inside base f l) : m'.Inside base f l := by
  have keeps : Keeps (Machine.Inside base f l) (Replay.performAll sources effects) := by
    refine keeps_lasting lasting ?_ fun m o a p h => h.enter o a p
    intro e recorded m j leads h
    exact h.note (Journal.Entry.isFlat_of_isRecorded recorded) leads
  exact keeps.after done h

/-- A record inside leaves `f` open, or it closes `f` by aborting in it. -/
theorem step (deep : base.depth < r.depth)
    (done : (Replay.step sources balancesOnly i r later).outcome (m, s) = (.ok (), (m', s')))
    (h : m.Inside base f l) : m'.Inside base f l ∨ m'.frames = base ∧ m'.journal.ledger = l := by
  obtain ⟨m₁, effects, arrived, read, performed⟩ := step_eq_ok.1 done
  obtain ⟨_, ready, h₁⟩ := h.arrive (arrive_eq_ok arrived).1 deep
  obtain rfl := Except.ok.inj (ready.symm.trans arrived)
  rcases Effect.abort_or_lasting read with ⟨-, rfl⟩ | lasting
  · obtain ⟨m₂, aborted, -, closed⟩ := h₁.abort
    rw [performAll_abort aborted s] at performed
    obtain ⟨rfl, rfl⟩ := Prod.mk.inj (Prod.mk.inj performed).2
    exact closed
  · exact .inl (h₁.performAll lasting performed)

/-- While all records are inside, `f` is open, or it was closed by the last of them: nothing could
open a frame at its depth again. -/
theorem stepsBefore {between : List Record} (deeper : ∀ x ∈ between, (base.depth : Int) < x.depth)
    (ran : (Replay.stepsBefore sources balancesOnly later i between).outcome (m, s) =
      (.ok (), (m', s')))
    (h : m.Inside base f l) : m'.Inside base f l ∨ m'.frames = base := by
  induction between generalizing i m s with
  | nil =>
    obtain ⟨rfl, -⟩ := Prod.mk.inj (Prod.mk.inj ran).2
    exact .inl h
  | cons x between ih =>
    obtain ⟨deep, deeper⟩ := List.forall_mem_cons.1 deeper
    obtain ⟨_, ⟨m₁, s₁⟩, done, ran⟩ := Asking.outcome_bind_eq_ok.1 ran
    rcases h.step deep done with h₁ | ⟨closed, -⟩
    · exact ih deeper ran h₁
    -- a record inside that came after the one that closed `f` would be deeper than the machine
    · cases between with
      | nil =>
        obtain ⟨rfl, -⟩ := Prod.mk.inj (Prod.mk.inj ran).2
        exact .inr closed
      | cons y between =>
        obtain ⟨_, ⟨m₂, s₂⟩, done, -⟩ := Asking.outcome_bind_eq_ok.1 ran
        obtain ⟨m₂, effects, arrived, -, -⟩ := step_eq_ok.1 done
        have bounded := (arrive_eq_ok arrived).1
        have deep := deeper y List.mem_cons_self
        simp only [Machine.depth, closed] at bounded
        omega

/-- An abort in `f` itself comes through, and goes back to the ledger held for `f`. -/
theorem step_of_aborts (bounded : r.depth ≤ m.depth) (level : r.depth = base.depth + 1)
    (aborts : r.Aborts) (h : m.Inside base f l) :
    ∃ m' : Machine, (Replay.step sources balancesOnly i r later).outcome (m, s) =
        (.ok (), (m', s)) ∧
      m'.frames = base ∧ m'.journal.ledger = l := by
  obtain ⟨m₁, ready, inside⟩ := h.arrive bounded (by omega)
  obtain ⟨m₂, aborted, shallower, closed⟩ := inside.abort
  refine ⟨m₂, ?_, ?_⟩
  · exact step_eq_ok.2 ⟨m₁, [.abort], ready, Effect.ofRecord_of_aborts aborts _ _ _,
      performAll_abort aborted s⟩
  · refine closed.resolve_left fun still => ?_
    have top := depth_of_arrive ready
    have above := still.lt_depth
    omega

end Machine.Inside

section Opening

variable {m m₁ m' : Machine} {s s' : σ} {i : Nat} {r : Record} {o : Opcode}
  {between later : List Record}

/-- A call or creation opens a frame over the machine that is ready for it, with the ledger of that
machine held. -/
theorem inside_of_opens (arrived : m.arrive r = .ok m₁) (opens : r.Opens o)
    (done : (step sources balancesOnly i r later).outcome (m, s) = (.ok (), (m', s'))) :
    ∃ f, m'.Inside m₁.frames f m₁.journal.ledger ∧
      (o.isCreate = true → createdAddress r later = .ok none → f.isFailedCreation = true) := by
  obtain ⟨m₂, effects, ready, read, performed⟩ := step_eq_ok.1 done
  obtain rfl := Except.ok.inj (ready.symm.trans arrived)
  obtain ⟨target, placeholder, outside, inside, rfl, looking, paying, failing⟩ :=
    Effect.opening_of_ofRecord opens read
  rw [performAll_append] at performed
  obtain ⟨_, ⟨m₃, s₃⟩, looked, performed⟩ := Asking.outcome_bind_eq_ok.1 performed
  rw [performAll_enter] at performed
  have still : m₃.frames = m₂.frames ∧ m₃.journal.ledger = m₂.journal.ledger := by
    have keeps : Keeps (fun m => m.frames = m₂.frames ∧ m.journal.ledger = m₂.journal.ledger)
        (performAll sources outside) := by
      refine keeps_notes looking ?_
      rintro _ ⟨a, rfl⟩ m j leads ⟨frames, ledger⟩
      exact ⟨frames, (Journal.Entry.ledger_of_observes rfl leads).trans ledger⟩
    exact keeps.after looked ⟨rfl, rfl⟩
  refine ⟨m₂.frames.opened o target placeholder, ?_, ?_⟩
  · have entered : (m₃.enter o target placeholder).Inside m₂.frames
        (m₂.frames.opened o target placeholder) m₂.journal.ledger := by
      refine ⟨[], [], m₃.journal.snapshots.held, ?_, ?_, rfl⟩
      · simp only [Machine.enter, CallStack.enter, still.1, List.nil_append]
      · show m₃.journal.ledger :: _ = _
        rw [still.2, List.nil_append]
    refine entered.performAll (paying.lasting ?_) performed
    rintro _ (⟨a, rfl⟩ | ⟨a, b, n, rfl⟩) <;> rfl
  · intro isCreate failed
    rw [CallStack.isFailedCreation_opened, failing.2 ⟨isCreate, failed⟩, isCreate]
    rfl

/-- From the record `r` on, which opens a frame, the frame is left with the ledger that `r` found:
if an abort in the frame leaves it, and in every way to leave it if `r` is a creation that failed.
These ways are to return to any lesser depth, as a record arrives or the trace ends; all of them
pass through one machine with that ledger, in which just the frame of `r` and those inside it are
closed. -/
theorem ledger_of_exit (arrived : m.arrive r = .ok m₁) (opens : r.Opens o)
    (ran : (stepsBefore sources balancesOnly later i (r :: between)).outcome (m, s) =
      (.ok (), (m', s')))
    (deeper : ∀ x ∈ between, (m₁.depth : Int) < x.depth) (still : m₁.depth < m'.depth) :
    (∀ (x : Record) (rest : List Record) (k : Nat), x.depth = m₁.depth + 1 → x.Aborts →
      ∃ m₂ : Machine,
        (step sources balancesOnly k x rest).outcome (m', s') = (.ok (), (m₂, s')) ∧
          m₂.frames = m₁.frames ∧ m₂.journal.ledger = m₁.journal.ledger) ∧
    (o.isCreate = true → createdAddress r (between ++ later) = .ok none →
      ∃ m₂ : Machine, m₂.frames = m₁.frames ∧ m₂.journal.ledger = m₁.journal.ledger ∧
        m'.returnTo m₁.depth = .ok m₂ ∧
        (∀ depth : Int, depth ≤ m₁.depth → m'.returnTo depth = m₂.returnTo depth) ∧
        (∀ x : Record, x.depth ≤ m₁.depth → m'.arrive x = m₂.arrive x) ∧
        ∀ failed, finish failed m' = finish failed m₂) := by
  obtain ⟨_, ⟨m₂, s₂⟩, opened, ran⟩ := Asking.outcome_bind_eq_ok.1 ran
  obtain ⟨f, entered, failing⟩ := inside_of_opens arrived opens opened
  have inside : m'.Inside m₁.frames f m₁.journal.ledger := by
    rcases entered.stepsBefore deeper ran with inside | closed
    · exact inside
    · simp only [Machine.depth, closed] at still
      omega
  constructor
  · intro x rest k level aborts
    exact inside.step_of_aborts (by omega) level aborts
  · intro isCreate failed
    obtain ⟨m₃, frames, ledger, leaves⟩ := inside.leave (failing isCreate failed)
    have level : m₁.depth = m₃.depth := by
      simp only [Machine.depth, frames]
    refine ⟨m₃, frames, ledger, ?_, leaves, ?_, ?_⟩
    · rw [leaves m₁.depth (Int.le_refl _)]
      exact Machine.returnTo_of_depth_eq (congrArg Int.ofNat level)
    · intro x shallow
      rw [Machine.arrive_of_le (by omega), Machine.arrive_of_le (by omega), leaves x.depth shallow]
    · intro failed
      have pos := m₁.frames.depth_pos
      simp only [finish, leaves 1 (by omega)]

end Opening

/-- A creation that failed, and what it did: a call inside pays on. -/
def failedCreation : Record := .named .create 1 [7, 0, 0]

def insideCreation : List Record :=
  [.named .sstore 2 [1, 2], .named .call 2 [0, 3, 5], .named .call 3 [0, 4, 6],
    .named .sstore 4 [1, 9]]

theorem ledger_of_exit_failedCreation :
    let m := Machine.start (.ofNat 1)
    let ran := (stepsBefore ({} : Sources Unit) false [.idle 1 [0]] 0
      (failedCreation :: insideCreation)).outcome (m, ())
    ran.1 = .ok () ∧ ran.2.1.depth = 4 ∧ ran.2.1.journal.ledger.credited (.ofNat 4) = 6 ∧
      (∃ m₂ : Machine, ran.2.1.returnTo 1 = .ok m₂ ∧ m₂.journal.ledger = m.journal.ledger) ∧
      ∃ m₂ : Machine, (step ({} : Sources Unit) false 5 (.named .revert 2 []) []).outcome ran.2 =
        (.ok (), (m₂, ())) ∧ m₂.journal.ledger = m.journal.ledger := by
  intro m ran
  have through : ran.1 = .ok () := eq_ok_of_toOption (by decide +kernel)
  have depth : ran.2.1.depth = 4 := by decide +kernel
  have paid : ran.2.1.journal.ledger.credited (.ofNat 4) = 6 := by decide +kernel
  have ready : m.arrive failedCreation = .ok m.visit := Machine.arrive_of_depth_eq rfl
  have opens : failedCreation.Opens .create :=
    ⟨rfl, by simp [failedCreation, Record.named, Rpc.Value.opcode], rfl⟩
  have deeper : ∀ x ∈ insideCreation, (m.visit.depth : Int) < x.depth := by decide
  have still : m.visit.depth < ran.2.1.depth := by rw [depth]; decide
  have failed : createdAddress failedCreation (insideCreation ++ [.idle 1 [0]]) = .ok none :=
    eq_ok_of_toOption (by decide +kernel)
  have run : ran = (.ok (), (ran.2.1, ran.2.2)) := by rw [← through]
  obtain ⟨aborted, left⟩ := ledger_of_exit ready opens run deeper still
  refine ⟨through, depth, paid, ?_, ?_⟩
  · obtain ⟨m₂, -, ledger, returned, -⟩ := left rfl failed
    exact ⟨m₂, returned, ledger⟩
  · obtain ⟨m₂, done, -, ledger⟩ := aborted (.named .revert 2 []) [] 5 rfl
      (Record.aborts_named rfl 2 [])
    exact ⟨m₂, done, ledger⟩

end Replay

end TraceDiff
