import TraceDiff.Proofs.Replay.Alignment

/-! How often a replay keeps and undoes frames. A frame that is open waits for the record that
closes it, and the records that are left tell which one that is; so each frame can be counted as it
opens, long before it is settled. -/
namespace TraceDiff

namespace Replay

/-- Whether an abort in it closes the frame right above `depth`. -/
def closedByAbort (depth : Int) : List Record → Bool
  | [] => false
  | r :: later =>
    if r.level ≤ depth then false
    else if r.level = depth + 1 ∧ r.aborts then true
    else closedByAbort depth later

/-- Aborts of frames other than the root frame. -/
def countAborts (records : List Record) : Nat :=
  records.countP fun r => r.aborts && decide (1 < r.level)

/-- Failed creations whose frames are not closed by an abort. -/
def countFailedCreations : List Record → Nat
  | [] => 0
  | r :: later =>
    (failsToCreate r later && !closedByAbort r.level later).toNat + countFailedCreations later

/-- Of the frames that are open, those that will be undone as they return. -/
def waiting (later : List Record) : List Frame → Nat
  | [] => 0
  | f :: outer =>
    (f.isFailedCreation && !closedByAbort (outer.length + 1) later).toNat + waiting later outer

section Waiting

variable {later more : List Record} {closed frames outer : List Frame} {r : Record}

theorem waiting_congr
    (h : ∀ n : Nat, n < frames.length → closedByAbort (n + 1) later = closedByAbort (n + 1) more) :
    waiting later frames = waiting more frames := by
  induction frames with
  | nil => rfl
  | cons f outer ih =>
    have first := h outer.length (Nat.lt_succ_self _)
    have rest := ih fun n hn => h n (Nat.lt_succ_of_lt hn)
    simp only [waiting, first, rest]

/-- Frames that return at once are undone exactly if they are those of failed creations. -/
theorem waiting_append
    (h : ∀ n : Nat, outer.length ≤ n → closedByAbort (n + 1) later = false) :
    waiting later (closed ++ outer) =
      closed.countP Frame.isFailedCreation + waiting later outer := by
  induction closed with
  | nil => simp
  | cons f closed ih =>
    have returns := h (closed ++ outer).length (by simp)
    rw [List.cons_append, waiting, returns, ih, List.countP_cons]
    cases f.isFailedCreation <;> simp; omega

/-- A record closes no frame below its own. -/
theorem closedByAbort_cons_of_lt {depth : Int} (h : depth + 1 < r.level) :
    closedByAbort depth (r :: later) = closedByAbort depth later := by
  have above : ¬ r.level ≤ depth := by omega
  have apart : ¬ (r.level = depth + 1 ∧ r.aborts = true) := by omega
  rw [closedByAbort, if_neg above, if_neg apart]

theorem closedByAbort_cons_of_calm {depth : Int} (h : depth < r.level) (calm : r.aborts = false) :
    closedByAbort depth (r :: later) = closedByAbort depth later := by
  have above : ¬ r.level ≤ depth := by omega
  rw [closedByAbort, if_neg above, calm]
  simp

theorem closedByAbort_cons_of_le {depth : Int} (h : r.level ≤ depth) :
    closedByAbort depth (r :: later) = false := if_pos h

end Waiting

/-- How often the machine will have undone a frame once those that are open are settled. -/
def Machine.undoes (m : Machine) (later : List Record) : Nat :=
  m.journal.snapshots.rollbacks + waiting later m.frames.inner

section Counts

variable {σ : Type} {sources : Sources σ} {balancesOnly : Bool} {m m₁ m' : Machine} {s s' : σ}
  {i : Nat} {r : Record} {later records : List Record}

theorem counts_of_settle {j j' : Journal} {closed : List Frame}
    (settled : Machine.settle j closed = .ok j') :
    j'.snapshots.pushes = j.snapshots.pushes ∧
      j'.snapshots.rollbacks = j.snapshots.rollbacks + closed.countP Frame.isFailedCreation := by
  induction closed generalizing j with
  | nil =>
    obtain rfl := Except.ok.inj settled
    exact ⟨rfl, rfl⟩
  | cons f closed ih =>
    obtain ⟨l, older, -, settled⟩ := Machine.settle_cons_eq_ok settled
    obtain ⟨pushes, rollbacks⟩ := ih settled
    rw [pushes, rollbacks, List.countP_cons]
    unfold Journal.returned
    split
    · exact ⟨rfl, by simp only [Journal.undone]; omega⟩
    · exact ⟨rfl, rfl⟩

/-- Returning settles the frames as they were counted before, if nothing aborts in them. -/
theorem counts_of_returnTo {depth : Int} (returned : m.returnTo depth = .ok m')
    (h : ∀ n : Nat, m'.frames.inner.length ≤ n → closedByAbort (n + 1) later = false) :
    m'.visited = m.visited ∧ m'.journal.snapshots.pushes = m.journal.snapshots.pushes ∧
      m'.undoes later = m.undoes later := by
  obtain ⟨j, settled, rfl⟩ := Machine.returnTo_eq_ok returned
  obtain ⟨pushes, rollbacks⟩ := counts_of_settle settled
  refine ⟨rfl, pushes, ?_⟩
  have whole : (m.frames.unwind depth).1 ++ (m.frames.unwind depth).2.inner = m.frames.inner :=
    List.take_append_drop _ _
  have closing : waiting later m.frames.inner =
      (m.frames.unwind depth).1.countP Frame.isFailedCreation +
        waiting later (m.frames.unwind depth).2.inner := by
    rw [← whole]
    exact waiting_append h
  simp only [Machine.undoes, rollbacks, closing]
  omega

theorem counts_of_arrive (arrived : m.arrive r = .ok m') (later : List Record) :
    m'.visited.length = m.visited.length + 1 ∧
      m'.journal.snapshots.pushes = m.journal.snapshots.pushes ∧
      m'.undoes (r :: later) = m.undoes (r :: later) := by
  have level := Machine.depth_of_arrive arrived
  obtain ⟨-, m₁, returned, rfl⟩ := Machine.arrive_eq_ok arrived
  have above (n : Nat) (hn : m₁.frames.inner.length ≤ n) :
      closedByAbort (n + 1) (r :: later) = false := by
    refine closedByAbort_cons_of_le ?_
    simp only [Machine.depth, Machine.visit, CallStack.depth] at level
    rw [Record.level]
    omega
  obtain ⟨visited, pushes, undoes⟩ := counts_of_returnTo returned above
  exact ⟨congrArg (List.length · + 1) visited, pushes, undoes⟩

/-- A record that does not abort closes none of the frames that are open once it is reached. -/
theorem waiting_of_calm (level : r.level = m.frames.inner.length + 1) (calm : r.aborts = false) :
    waiting (r :: later) m.frames.inner = waiting later m.frames.inner :=
  waiting_congr fun n hn => closedByAbort_cons_of_calm (by omega) calm

theorem counts_of_abort (aborts : r.Aborts) (level : r.level = m.frames.inner.length + 1)
    (aborted : m.abort = .ok m') :
    m'.visited = m.visited ∧ m'.journal.snapshots.pushes = m.journal.snapshots.pushes ∧
      m'.undoes later = m.undoes (r :: later) + (decide (1 < r.level)).toNat := by
  rcases Machine.abort_eq_ok aborted with ⟨root, rfl⟩ | ⟨f, outer, l, older, inner, -, rfl⟩
  · have bottom : ¬ 1 < r.level := by simp [level, root]
    refine ⟨m.visited_abortRoot, by rw [m.snapshots_abortRoot], ?_⟩
    simp [Machine.undoes, m.frames_abortRoot, m.snapshots_abortRoot, root, waiting, bottom]
  · rw [inner, List.length_cons] at level
    have closes : closedByAbort (outer.length + 1) (r :: later) = true := by
      have above : ¬ r.level ≤ outer.length + 1 := by omega
      have here : r.level = outer.length + 1 + 1 ∧ r.aborts = true :=
        ⟨by omega, Record.aborts_iff.2 aborts⟩
      rw [closedByAbort, if_neg above, if_pos here]
    have below : waiting (r :: later) outer = waiting later outer :=
      waiting_congr fun n hn => closedByAbort_cons_of_lt (by omega)
    have deep : 1 < r.level := by omega
    refine ⟨rfl, rfl, ?_⟩
    simp only [Machine.undoes, Journal.undone, inner, waiting, closes, below, deep]
    simp
    omega

theorem failsToCreate_of_closed (closed : r.opens = false) : failsToCreate r later = false := by
  rw [Bool.eq_false_iff]
  exact fun fails => Bool.false_ne_true (closed.symm.trans (opens_of_failsToCreate fails))

/-- A record opens a frame if it is a call or creation, and it undoes a frame if it aborts one; the
frame of a failed creation is counted as undone unless it will abort. -/
theorem counts_of_step
    (done : (step sources balancesOnly i r later).outcome (m, s) = (.ok (), (m', s'))) :
    m'.visited.length = m.visited.length + 1 ∧
      m'.journal.snapshots.pushes = m.journal.snapshots.pushes + r.opens.toNat ∧
      m'.undoes later = m.undoes (r :: later) + (r.aborts && decide (1 < r.level)).toNat +
        (failsToCreate r later && !closedByAbort r.level later).toNat := by
  obtain ⟨m₁, arrived, cases⟩ := frames_of_step done
  have level := Machine.level_of_arrive arrived
  obtain ⟨visited, pushes, undoes⟩ := counts_of_arrive arrived later
  rw [← visited, ← pushes, ← undoes]
  rcases cases with ⟨aborts, aborted⟩ | ⟨o, target, placeholder, l, opens, failing, frames, same,
    snapshots⟩ | ⟨calm, closed, j, rfl, snapshots⟩
  · obtain ⟨same, pushes, undone⟩ := counts_of_abort aborts level aborted
    have closed : r.opens = false := by
      rw [Bool.eq_false_iff, ne_eq, Record.opens_iff]
      exact fun ⟨o, opens⟩ => opens.not_aborts aborts
    rw [same, pushes, undone, closed, failsToCreate_of_closed closed, Record.aborts_iff.2 aborts]
    simp
  · have calm : r.aborts = false := by
      rw [Bool.eq_false_iff, ne_eq, Record.aborts_iff]
      exact opens.not_aborts
    have failed : (m₁.frames.opened o target placeholder).isFailedCreation =
        failsToCreate r later := by
      rw [Bool.eq_iff_iff, failsToCreate_eq opens, CallStack.isFailedCreation_opened,
        Bool.and_eq_true, failing]
      exact and_iff_left_of_imp And.left
    have inner : m'.frames.inner = m₁.frames.opened o target placeholder :: m₁.frames.inner := by
      rw [frames]
      rfl
    have opening : r.opens = true := Record.opens_iff.2 ⟨o, opens⟩
    rw [same, snapshots, opening, calm]
    refine ⟨rfl, rfl, ?_⟩
    simp only [Machine.undoes, inner, snapshots, waiting, failed, waiting_of_calm level calm, level,
      Snapshots.push]
    simp
    omega
  · have closed : r.opens = false := by
      rw [Bool.eq_false_iff, ne_eq, Record.opens_iff]
      exact fun ⟨o, opens⟩ => closed o opens
    have calm : r.aborts = false := by
      rw [Bool.eq_false_iff, ne_eq, Record.aborts_iff]
      exact calm
    refine ⟨rfl, by simp [snapshots, closed], ?_⟩
    simp [Machine.undoes, snapshots, waiting_of_calm level calm, calm,
      failsToCreate_of_closed closed]

theorem counts_of_steps
    (ran : (steps sources balancesOnly i records).outcome (m, s) = (.ok (), (m', s'))) :
    m'.visited.length = m.visited.length + records.length ∧
      m'.journal.snapshots.pushes = m.journal.snapshots.pushes + records.countP Record.opens ∧
      m'.undoes [] = m.undoes records + countAborts records + countFailedCreations records := by
  induction records generalizing i m s with
  | nil =>
    obtain ⟨rfl, -⟩ := Prod.mk.inj (Prod.mk.inj ran).2
    exact ⟨rfl, rfl, rfl⟩
  | cons r later ih =>
    obtain ⟨_, ⟨m₁, s₁⟩, done, ran⟩ := Asking.outcome_bind_eq_ok.1 ran
    obtain ⟨visited, pushes, undoes⟩ := counts_of_step done
    obtain ⟨visited', pushes', undoes'⟩ := ih ran
    refine ⟨?_, ?_, ?_⟩
    · rw [visited', visited, List.length_cons]
      omega
    · rw [pushes', pushes, List.countP_cons]
      cases r.opens <;> simp; omega
    · rw [undoes', undoes, countFailedCreations, countAborts, countAborts, List.countP_cons]
      cases r.aborts && decide (1 < r.level) <;> simp <;> omega

end Counts

section Replaying

variable {σ : Type} {sources : Sources σ} {balancesOnly : Bool} {m m' : Machine} {s s' : σ}
  {records : List Record} {failed : Bool}

/-- Once a replay is complete, all frames are settled, and the trace tells how. -/
theorem counts_of_replay {root : Address} (unused : m.Unused root)
    (done : (replay sources balancesOnly records failed).outcome (m, s) = (.ok (), (m', s'))) :
    m'.depth = 1 ∧ m'.journal.snapshots.held = [] ∧ m'.contexts.length = records.length ∧
      m'.journal.snapshots.pushes = records.countP Record.opens ∧
      m'.journal.snapshots.rollbacks = countAborts records + countFailedCreations records ∧
      m'.journal.snapshots.pops =
        m'.journal.snapshots.pushes - m'.journal.snapshots.rollbacks := by
  obtain ⟨m₁, ran, finished⟩ := replay_eq_ok.1 done
  obtain ⟨m₂, returned, rfl⟩ := finish_eq_ok.1 finished
  have frames : (if failed then m₂.abortRoot else m₂).frames = m₂.frames := by
    split
    · exact m₂.frames_abortRoot
    · rfl
  have same : (if failed then m₂.abortRoot else m₂).visited = m₂.visited ∧
      (if failed then m₂.abortRoot else m₂).journal.snapshots = m₂.journal.snapshots := by
    split
    · exact ⟨m₂.visited_abortRoot, m₂.snapshots_abortRoot⟩
    · exact ⟨rfl, rfl⟩
  have inner := Machine.root_of_returnTo returned
  have aligned : m₂.Aligned := by
    have ran_aligned := ((aligned_invariant sources).keeps_steps 0 records).after ran
      ((aligned_invariant sources).anchor m unused.aligned)
    exact (aligned_invariant sources).returnTo m₁ 1 m₂ returned ran_aligned
  have depth : m₂.depth = 1 := by simp [Machine.depth, CallStack.depth, inner]
  have held : m₂.journal.snapshots.held = [] := by
    have level := aligned.level
    rw [depth] at level
    exact List.length_eq_zero_iff.1 (Nat.succ.inj level)
  obtain ⟨visited, pushes, undoes⟩ := counts_of_steps ran
  have none (n : Nat) (_ : m₂.frames.inner.length ≤ n) : closedByAbort (n + 1) [] = false := rfl
  obtain ⟨visited', pushes', undoes'⟩ := counts_of_returnTo returned none
  have fresh : (anchor m).journal.snapshots = {} ∧ (anchor m).visited = [] ∧
      (anchor m).frames.inner = [] :=
    ⟨unused.snapshots, unused.visited, congrArg CallStack.inner unused.frames⟩
  have rollbacks : m₂.journal.snapshots.rollbacks =
      countAborts records + countFailedCreations records := by
    rw [← undoes', Machine.undoes, Machine.undoes, inner, fresh.1, fresh.2.2] at undoes
    simpa [waiting] using undoes
  have balanced := aligned.balanced
  simp only [Snapshots.Balanced, held, List.length_nil] at balanced
  rw [Machine.contexts, List.length_reverse, same.1, same.2, visited', visited, fresh.2.1]
  refine ⟨?_, held, by simp, ?_, rollbacks, by omega⟩
  · rw [Machine.depth, frames]
    exact depth
  · rw [pushes', pushes, fresh.1]
    simp

/-- Unless an answer says so, no replay fails for frames and snapshots that do not match. -/
theorem covers_aligned (answer : sources.FailWith (·.isMisaligned = false))
    (records : List Record) :
    Covers sources (fun _ => True) records (·.isMisaligned = false) where
  lack f lack := by
    rcases lack with ⟨-, defect, op, -, aligned⟩ | ⟨-, rfl⟩
    · exact aligned
    · rfl
  long := .inr rfl
  name r _ _ f misnamed := by rcases opcode_eq_error misnamed with rfl | rfl <;> rfl
  word := .inr rfl
  answer := answer.safe
  located f i r h := by
    cases f with
    | malformed trace =>
      simp only [locate]
      split <;> exact h
    | _ => exact h

/-- After every record, and however the replay ends, each frame but the root frame has its snapshot,
and every push is held or was settled once; so frames and snapshots are never found not to match.
When the replay completes, just the root frame is left. Then every call or creation opened a frame,
an abort undid the frame it was in, a failed creation was undone as its frame returned, and all
other frames were kept. -/
theorem snapshots_of_replay (sources : Sources σ) (balancesOnly : Bool) (root : Address)
    (paid : Option (Transaction × Int)) (records : List Record) (failed : Bool) (s : σ) :
    let start := ((prepare sources balancesOnly paid).outcome (.start root, s)).2
    let ended := (replay sources balancesOnly records failed).outcome start
    start.1.Aligned ∧
      (∀ w ∈ trail sources balancesOnly 0 records (anchor start.1, start.2), w.1.Aligned) ∧
      ended.2.1.Aligned ∧
      (sources.FailWith (·.isMisaligned = false) →
        ∀ f, ended.1 = .error f → f.isMisaligned = false) ∧
      (ended.1 = .ok () →
        ended.2.1.depth = 1 ∧ ended.2.1.journal.snapshots.held = [] ∧
          ended.2.1.contexts.length = records.length ∧
          ended.2.1.journal.snapshots.pushes = records.countP Record.opens ∧
          ended.2.1.journal.snapshots.rollbacks =
            countAborts records + countFailedCreations records ∧
          ended.2.1.journal.snapshots.pops =
            ended.2.1.journal.snapshots.pushes - ended.2.1.journal.snapshots.rollbacks) := by
  intro start ended
  have unused : start.1.Unused root := Machine.unused_prepare (Prod.eta _).symm
  have inv := aligned_invariant sources
  refine ⟨unused.aligned, ?_, ?_, ?_, ?_⟩
  · exact inv.trail 0 records (inv.anchor _ unused.aligned)
  · exact inv.keeps_replay records failed _ _ unused.aligned
  · intro answer f ends
    exact fails_replay (covers_aligned answer records) failed _ _ f _ unused.aligned
      (Prod.ext ends rfl)
  · intro ends
    exact counts_of_replay unused (Prod.ext ends rfl)

end Replaying

/-- A creation that fails after a call in it returned and another one aborted. -/
def callsInFailedCreation : List Record :=
  [.named .create 1 [7, 0, 0], .named .call 2 [0, 3, 0], .idle 3 [], .named .call 2 [0, 4, 0],
    .named .revert 3 [], .idle 2 [0], .idle 1 [0]]

theorem snapshots_of_replay_callsInFailedCreation :
    let ended := (replay ({} : Sources Unit) false callsInFailedCreation false).outcome
      (.start (.ofNat 1), ())
    let cut := (replay ({} : Sources Unit) false [.named .create 1 [7], .named .sload 2 []]
      false).outcome (.start (.ofNat 1), ())
    ended.1 = .ok () ∧ ended.2.1.depth = 1 ∧ ended.2.1.journal.snapshots.pushes = 3 ∧
      ended.2.1.journal.snapshots.rollbacks = 2 ∧ ended.2.1.journal.snapshots.pops = 1 ∧
      cut.2.1.depth = 2 ∧ cut.2.1.Aligned ∧ ∃ f, cut.1 = .error f ∧ f.isMisaligned = false := by
  intro ended cut
  have quiet : ({} : Sources Unit).FailWith (·.isMisaligned = false) := ⟨nofun, nofun, nofun⟩
  have done : ended.1 = .ok () := eq_ok_of_toOption (by decide +kernel)
  obtain ⟨-, -, -, -, counts⟩ :=
    snapshots_of_replay ({} : Sources Unit) false (.ofNat 1) none callsInFailedCreation false ()
  obtain ⟨depth, -, -, pushes, rollbacks, pops⟩ := counts done
  have opened : callsInFailedCreation.countP Record.opens = 3 := by decide +kernel
  have undone : countAborts callsInFailedCreation +
      countFailedCreations callsInFailedCreation = 2 := by decide +kernel
  rw [pushes, rollbacks, opened, undone] at pops
  obtain ⟨-, -, aligned, fails, -⟩ := snapshots_of_replay ({} : Sources Unit) false (.ofNat 1) none
    [.named .create 1 [7], .named .sload 2 []] false ()
  have short : cut.1.toOption = none := by decide +kernel
  refine ⟨done, depth, pushes.trans opened, rollbacks.trans undone, pops, by decide +kernel,
    aligned, ?_⟩
  cases stops : cut.1 with
  | ok _ => simp [stops, Except.toOption] at short
  | error f => exact ⟨f, rfl, fails quiet f stops⟩

end Replay

end TraceDiff
