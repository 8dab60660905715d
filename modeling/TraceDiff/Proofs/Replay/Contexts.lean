import TraceDiff.Proofs.Replay.Payments
import TraceDiff.Proofs.Replay.Rejection

/-! Which account executes a record. The record that opened its frame tells, and that is the last
record before it that is less deep. What was opened between the two was left before it came. -/
namespace TraceDiff

/-- Only a call or creation lets the next record be deeper. -/
theorem Record.opens_of_lt_allows {r : Record} (h : r.level < r.allows) : ∃ o, r.Opens o := by
  unfold allows at h
  split at h
  · next opens => exact opens_iff.1 opens
  · split at h
    · simp only [level] at h
      omega
    · exact absurd h (Int.lt_irrefl _)

namespace Replay

/-- The account that a call or creation goes to. A creation that failed goes to the zero address. -/
def target (r : Record) (later : List Record) : Address :=
  if r.opcode?.any Opcode.isCreate then
    (createdAddress r later).toOption.join.getD Address.zero
  else .ofWord (r.arg 1).value

/-- The account that executes at a depth, after `passed`, which has the last record first. A call
that keeps its context runs as the frame it is made from. -/
def executing (root : Address) (depth : Int) : (passed later : List Record) → Address
  | [], _ => root
  | r :: passed, later =>
    if r.level < depth then
      if r.opcode?.any Opcode.keepsContext then executing root r.level passed (r :: later)
      else target r later
    else executing root depth passed (r :: later)

/-- The accounts that execute the records after `passed`. -/
def contextsAfter (root : Address) : (passed later : List Record) → List Address
  | _, [] => []
  | passed, r :: later =>
    executing root r.level passed (r :: later) :: contextsAfter root (r :: passed) later

/-- The effects of a record can be read off, and it is no deeper than the records before allow. -/
def Sound : (passed later : List Record) → Prop
  | [], _ => True
  | r :: passed, later =>
    r.level ≤ allowed passed ∧ (∃ scope f effects, Effect.ofRecord scope f r later = .ok effects) ∧
      Sound passed (r :: later)

/-- Record `j` is the last one before record `i` that is less deep. -/
def Opener (records : List Record) (j i : Nat) : Prop :=
  ∃ x r, records[j]? = some x ∧ records[i]? = some r ∧ j < i ∧ x.depth < r.depth ∧
    ∀ k y, j < k → k < i → records[k]? = some y → r.depth ≤ y.depth

section Trace

variable {root : Address} {passed later records before between after : List Record}
  {r x : Record} {o : Opcode} {depth : Int} {i : Nat}

theorem executing_root (root : Address) :
    (passed later : List Record) → executing root 1 passed later = root
  | [], _ => rfl
  | r :: passed, later => by
    have below : ¬ r.level < 1 := Int.not_lt.2 (Int.le_max_right _ _)
    rw [executing, if_neg below]
    exact executing_root root passed (r :: later)

theorem length_contextsAfter :
    (contextsAfter root passed later).length = later.length := by
  induction later generalizing passed with
  | nil => rfl
  | cons r later ih => rw [contextsAfter, List.length_cons, ih, List.length_cons]

theorem getElem?_contextsAfter (hr : later[i]? = some r) : (contextsAfter root passed later)[i]? =
    some (executing root r.level ((later.take i).reverse ++ passed) (later.drop i)) := by
  induction later generalizing passed i with
  | nil => simp at hr
  | cons x later ih =>
    cases i with
    | zero =>
      obtain rfl := Option.some.inj hr
      rfl
    | succ i => simpa [contextsAfter] using @ih (x :: passed) i hr

theorem Sound.append (h : Sound (between ++ passed) later) :
    Sound passed (between.reverse ++ later) := by
  induction between generalizing later with
  | nil => exact h
  | cons x between ih => simpa using ih h.2.2

/-- A depth that the records allow was opened by the last of them that is less deep, one level
below. -/
theorem opener_of_sound (root : Address) (sound : Sound passed later) (deep : 1 < depth)
    (bounded : depth ≤ allowed passed) :
    ∃ between x before o, passed = between ++ x :: before ∧ (∀ y ∈ between, depth ≤ y.level) ∧
      x.level + 1 = depth ∧ x.Opens o ∧
        executing root depth passed later =
          if o.keepsContext then executing root x.level before (x :: (between.reverse ++ later))
          else target x (between.reverse ++ later) := by
  induction passed generalizing later with
  | nil => exact absurd bounded (Int.not_le.2 deep)
  | cons r passed ih =>
    obtain ⟨level, -, sound⟩ := sound
    by_cases less : r.level < depth
    · have bounded : depth ≤ r.allows := bounded
      obtain ⟨o, opens⟩ := Record.opens_of_lt_allows (Int.lt_of_lt_of_le less bounded)
      rw [Record.allows_of_opens opens] at bounded
      refine ⟨[], r, passed, o, rfl, nofun, by omega, opens, ?_⟩
      rw [executing, if_pos less, Record.opcode?_eq_some_iff.2 opens.2.1]
      rfl
    · obtain ⟨between, x, before, o, rfl, above, below, opens, found⟩ :=
        ih sound (Int.le_trans (Int.not_lt.1 less) level)
      refine ⟨r :: between, x, before, o, rfl, ?_, below, opens, ?_⟩
      · exact List.forall_mem_cons.2 ⟨Int.not_lt.1 less, above⟩
      · rw [executing, if_neg less, found, List.reverse_cons, List.append_assoc]
        rfl

theorem drop_of_getElem? (hr : records[i]? = some r) :
    records.drop i = r :: records.drop (i + 1) := by
  obtain ⟨lt, rfl⟩ := List.getElem?_eq_some_iff.1 hr
  exact List.drop_eq_getElem_cons lt

theorem Sound.record (sound : Sound records.reverse []) (hr : records[i]? = some r) :
    r.level ≤ allowed (records.take i).reverse ∧
      (∃ scope f effects, Effect.ofRecord scope f r (records.drop (i + 1)) = .ok effects) ∧
        Sound (records.take i).reverse (records.drop i) := by
  have next := drop_of_getElem? hr
  have reversed : records.reverse =
      (records.drop (i + 1)).reverse ++ r :: (records.take i).reverse := by
    conv => lhs; rw [← List.take_append_drop i records, next]
    simp
  rw [reversed] at sound
  have here := sound.append
  rw [List.reverse_reverse, List.append_nil] at here
  rwa [next]

/-- A record among the first `i`, with those between. -/
theorem records_of_take (taken : (records.take i).reverse = between ++ x :: before)
    (le : i ≤ records.length) :
    ∃ j < i, records[j]? = some x ∧ records.take j = before.reverse ∧
      records.drop (j + 1) = between.reverse ++ records.drop i ∧
        ∀ k y, j < k → k < i → records[k]? = some y → y ∈ between := by
  have front : records.take i = before.reverse ++ x :: between.reverse := by
    rw [← List.reverse_reverse (records.take i), taken]
    simp
  have whole : records = before.reverse ++ x :: (between.reverse ++ records.drop i) := by
    conv => lhs; rw [← List.take_append_drop i records, front]
    simp
  have place : i = before.length + 1 + between.length := by
    have length := congrArg List.length front
    simp at length
    omega
  have rest : records.drop before.length = x :: (between.reverse ++ records.drop i) := by
    conv => lhs; rw [whole]
    simp
  refine ⟨before.length, by omega, ?_, ?_, ?_, ?_⟩
  · rw [← List.head?_drop, rest, List.head?_cons]
  · rw [whole]
    simp
  · rw [← List.drop_drop, rest, List.drop_one, List.tail_cons]
  · intro k y low high hy
    rw [← List.getElem?_take_of_lt high, front, List.getElem?_append_right (by simp; omega),
      List.length_reverse] at hy
    obtain ⟨n, rfl⟩ := Nat.exists_eq_add_of_lt low
    rw [Nat.add_assoc, Nat.add_sub_cancel_left, List.getElem?_cons_succ] at hy
    exact List.mem_reverse.1 (List.mem_of_getElem? hy)

theorem Opener.unique {j k : Nat} (hj : Opener records j i) (hk : Opener records k i) : j = k := by
  obtain ⟨x, r, hx, hr, low, less, inside⟩ := hj
  obtain ⟨y, r', hy, hr', low', less', inside'⟩ := hk
  obtain rfl := Option.some.inj (hr.symm.trans hr')
  rcases Nat.lt_trichotomy j k with before | same | after
  · have := inside k y before low' hy
    omega
  · exact same
  · have := inside' j x after low hx
    omega

/-- The record that opened the frame of another one tells which account executes it. -/
theorem opener_of_getElem? (root : Address) (sound : Sound records.reverse [])
    (deep : ∀ y ∈ records, 1 ≤ y.depth) (hr : records[i]? = some r) (inner : r.depth ≠ 1) :
    ∃ j x o, Opener records j i ∧ records[j]? = some x ∧ x.depth = r.depth - 1 ∧ x.Opens o ∧
      (contextsAfter root [] records)[i]? =
        if o.keepsContext then (contextsAfter root [] records)[j]?
        else some (target x (records.drop (j + 1))) := by
  have level (y : Record) (k : Nat) (hy : records[k]? = some y) : y.level = y.depth :=
    Int.max_eq_left (deep y (List.mem_of_getElem? hy))
  have deeper : 1 < r.level := by
    have := deep r (List.mem_of_getElem? hr)
    rw [level r i hr]
    omega
  obtain ⟨bounded, -, here⟩ := sound.record hr
  obtain ⟨between, x, before, o, taken, above, below, opens, found⟩ :=
    opener_of_sound root here deeper bounded
  obtain ⟨j, lt, hx, passed, rest, inside⟩ :=
    records_of_take taken (Nat.le_of_lt (List.getElem?_eq_some_iff.1 hr).1)
  rw [level x j hx, level r i hr] at below
  refine ⟨j, x, o, ⟨x, r, hx, hr, lt, by omega, ?_⟩, hx, by omega, opens, ?_⟩
  · intro k y low high hy
    rw [← level r i hr, ← level y k hy]
    exact above y (inside k y low high hy)
  · rw [getElem?_contextsAfter hr, getElem?_contextsAfter hx, List.append_nil, found, passed,
      List.reverse_reverse, List.append_nil, drop_of_getElem? hx, rest]
    split <;> rfl

end Trace

/-- The frames that are open run as the trace says. -/
structure Owned (root : Address) (passed later : List Record) (stack : CallStack) : Prop where
  bottom : stack.root.address = root
  inner : ∀ above f outer, stack.inner = above ++ f :: outer →
    f.address = executing root (outer.length + 2) passed later

section Owned

variable {σ : Type} {sources : Sources σ} {balancesOnly : Bool} {m m₁ m' : Machine} {s s' : σ}
  {i : Nat} {root : Address} {r : Record} {passed later records : List Record} {o : Opcode}
  {stack : CallStack} {scope : Scope} {f : Frame} {effects : List Effect}

theorem Owned.current (h : Owned root passed later stack) :
    stack.current = executing root stack.depth passed later := by
  unfold CallStack.current CallStack.top CallStack.depth
  cases inner : stack.inner with
  | nil => exact h.bottom.trans (executing_root root passed later).symm
  | cons f outer => exact h.inner [] f outer inner

theorem Owned.unwind (h : Owned root passed later stack) (depth : Int) :
    Owned root passed later (stack.unwind depth).2 where
  bottom := h.bottom
  inner above f outer inner := by
    refine h.inner (stack.inner.take (stack.above depth) ++ above) f outer ?_
    rw [List.append_assoc, ← inner]
    exact (List.take_append_drop _ _).symm

/-- A record says nothing about the frames that are no deeper than it is. -/
theorem Owned.cons (level : (stack.depth : Int) ≤ r.level)
    (h : Owned root passed (r :: later) stack) :
    Owned root (r :: passed) later stack where
  bottom := h.bottom
  inner above f outer inner := by
    have below : ¬ r.level < outer.length + 2 := by
      rw [CallStack.depth, inner, List.length_append, List.length_cons] at level
      omega
    rw [executing, if_neg below]
    exact h.inner above f outer inner

theorem Owned.leave (h : Owned root passed later stack) {outer : List Frame}
    (inner : stack.inner = f :: outer) : Owned root passed later { stack with inner := outer } where
  bottom := h.bottom
  inner above g rest held := h.inner (f :: above) g rest (inner.trans (congrArg (f :: ·) held))

theorem Owned.enter (level : r.level = stack.depth) (opens : r.Opens o)
    (h : Owned root passed (r :: later) stack) (p : Bool) :
    Owned root (r :: passed) later (stack.enter o (target r later) p) where
  bottom := h.bottom
  inner above f outer inner := by
    cases above with
    | nil =>
      obtain ⟨rfl, rfl⟩ := List.cons.inj inner
      have below : r.level < stack.inner.length + 2 := by
        rw [level, CallStack.depth]
        omega
      rw [executing, if_pos below, Record.opcode?_eq_some_iff.2 opens.2.1, Option.any_some,
        CallStack.opened]
      split
      · rw [level]
        exact h.current
      · rfl
    | cons g above =>
      exact (h.cons (Int.le_of_eq level.symm)).inner above f outer (List.cons.inj inner).2

/-- The frame that opens is that of the target. -/
theorem target_of_ofRecord (opens : r.Opens o)
    (read : Effect.ofRecord scope f r later = .ok effects) {o' : Opcode} {a : Address} {p : Bool}
    (entered : Effect.enter o' a p ∈ effects) : a = target r later := by
  have named := Record.opcode?_eq_some_iff.2 opens.2.1
  rw [Effect.ofRecord_of_opens opens] at read
  unfold target
  rw [named, Option.any_some]
  split at read
  · next isCall =>
    obtain ⟨word, value, hword, -, rfl⟩ := Effect.ofCall_eq_ok.1 read
    rw [if_neg (by simp [Opcode.isCreate_of_isCall isCall]), Record.value_arg_of_peek hword]
    have made : o' = o ∧ a = .ofWord word ∧ p = false := by
      simpa [Effect.mem_noteIf, Effect.payment] using entered
    exact made.2.1
  · next noCall =>
    have isCreate : o.isCreate = true := by simpa [Opcode.opensFrame, noCall] using opens.2.2
    obtain ⟨value, created, -, looked, rfl⟩ := Effect.ofCreate_eq_ok.1 read
    rw [if_pos isCreate, looked]
    have made : o' = o ∧ a = created.getD Address.zero ∧ p = created.isNone := by
      cases created <;> simpa [Effect.mem_noteIf, Effect.payment] using entered
    exact made.2.1

theorem frames_of_opens (opens : r.Opens o) (arrived : m.arrive r = .ok m₁)
    (done : (step sources balancesOnly i r later).outcome (m, s) = (.ok (), (m', s'))) :
    ∃ p, m'.frames = m₁.frames.enter o (target r later) p := by
  obtain ⟨m₂, effects, ready, read, performed⟩ := step_eq_ok.1 done
  obtain rfl := Except.ok.inj (ready.symm.trans arrived)
  obtain ⟨a, p, outside, inside, rfl, looking, paying, -⟩ := Effect.opening_of_ofRecord opens read
  obtain rfl := target_of_ofRecord opens read
    (List.mem_append_right outside List.mem_cons_self : Effect.enter o a p ∈ _)
  rw [performAll_append] at performed
  obtain ⟨_, ⟨m₃, s₃⟩, looked, performed⟩ := Asking.outcome_bind_eq_ok.1 performed
  rw [performAll_enter] at performed
  obtain ⟨j₃, rfl, -⟩ := journal_of_notes looking (by rintro _ ⟨a, rfl⟩; rfl) looked
  obtain ⟨j₄, rfl, -⟩ := journal_of_notes paying
    (by rintro _ (⟨a, rfl⟩ | ⟨a, b, n, rfl⟩) <;> rfl) performed
  exact ⟨p, rfl⟩

theorem owned_of_arrive (arrived : m.arrive r = .ok m₁) (h : Owned root passed later m.frames) :
    Owned root passed later m₁.frames := by
  obtain ⟨-, m₂, returned, rfl⟩ := Machine.arrive_eq_ok arrived
  obtain ⟨j, -, rfl⟩ := Machine.returnTo_eq_ok returned
  exact h.unwind r.depth

theorem owned_of_step
    (done : (step sources balancesOnly i r later).outcome (m, s) = (.ok (), (m', s')))
    (h : Owned root passed (r :: later) m.frames) : Owned root (r :: passed) later m'.frames := by
  obtain ⟨m₁, arrived, cases⟩ := frames_of_step done
  have level : r.level = m₁.frames.depth := Machine.level_of_arrive arrived
  have ready := owned_of_arrive arrived h
  have kept := ready.cons (Int.le_of_eq level.symm)
  rcases cases with ⟨-, aborted⟩ | ⟨o, -, -, -, opens, -⟩ | ⟨-, -, j, rfl, -⟩
  · rcases Machine.abort_eq_ok aborted with ⟨-, rfl⟩ | ⟨f, outer, l, older, inner, -, rfl⟩
    · rw [m₁.frames_abortRoot]
      exact kept
    · exact kept.leave inner
  · obtain ⟨p, frames⟩ := frames_of_opens opens arrived done
    rw [frames]
    exact ready.enter level opens p
  · exact kept

/-- Each record notes the account that executes it. -/
theorem visited_of_step
    (done : (step sources balancesOnly i r later).outcome (m, s) = (.ok (), (m', s')))
    (h : Owned root passed (r :: later) m.frames) :
    m'.visited = executing root r.level passed (r :: later) :: m.visited := by
  obtain ⟨m₁, arrived, cases⟩ := frames_of_step done
  have level : r.level = m₁.frames.depth := Machine.level_of_arrive arrived
  have noted : m₁.visited = executing root r.level passed (r :: later) :: m.visited := by
    rw [level, ← (owned_of_arrive arrived h).current]
    obtain ⟨-, m₂, returned, rfl⟩ := Machine.arrive_eq_ok arrived
    obtain ⟨j, -, rfl⟩ := Machine.returnTo_eq_ok returned
    rfl
  rcases cases with ⟨-, aborted⟩ | ⟨o, a, p, l, -, -, -, visited, -⟩ | ⟨-, -, j, rfl, -⟩
  · rcases Machine.abort_eq_ok aborted with ⟨-, rfl⟩ | ⟨f, outer, l, older, inner, -, rfl⟩
    · exact (m₁.visited_abortRoot).trans noted
    · exact noted
  · exact visited.trans noted
  · exact noted

end Owned

/-- What is known of a machine that replayed `passed`, with `later` to come, and of the trace. -/
structure Machine.Attributed (root : Address) (passed later : List Record) (m : Machine) :
    Prop where
  reached : m.Reached passed later
  owned : Owned root passed later m.frames
  sound : Sound passed later

section Attributed

variable {σ : Type} {sources : Sources σ} {balancesOnly failed : Bool} {m m' : Machine} {s s' : σ}
  {i : Nat} {root : Address} {r : Record} {passed later records : List Record}

theorem Machine.Attributed.step
    (done : (step sources balancesOnly i r later).outcome (m, s) = (.ok (), (m', s')))
    (h : m.Attributed root passed (r :: later)) : m'.Attributed root (r :: passed) later where
  reached := h.reached.step done
  owned := owned_of_step done h.owned
  sound := by
    obtain ⟨m₁, effects, arrived, read, -⟩ := step_eq_ok.1 done
    have bounded := (Machine.arrive_eq_ok arrived).1
    have level := Machine.level_of_arrive arrived
    refine ⟨?_, ⟨_, _, effects, read⟩, h.sound⟩
    rw [← h.reached.depth, Record.level]
    have pos := m.frames.depth_pos
    simp only [Machine.depth] at *
    omega

theorem Machine.Attributed.steps
    (ran : (steps sources balancesOnly i records).outcome (m, s) = (.ok (), (m', s')))
    (h : m.Attributed root passed records) :
    m'.Attributed root (records.reverse ++ passed) [] ∧
      m'.visited = (contextsAfter root passed records).reverse ++ m.visited := by
  induction records generalizing i m s passed with
  | nil =>
    obtain ⟨rfl, -⟩ := Prod.mk.inj (Prod.mk.inj ran).2
    exact ⟨h, rfl⟩
  | cons r later ih =>
    obtain ⟨_, ⟨m₁, s₁⟩, done, ran⟩ := Asking.outcome_bind_eq_ok.1 ran
    obtain ⟨attributed, visited⟩ := ih ran (h.step done)
    constructor
    · simpa using attributed
    · rw [visited, visited_of_step done h.owned, contextsAfter, List.reverse_cons,
        List.append_assoc]
      rfl

theorem Machine.Unused.attributed (h : m.Unused root) (records : List Record) :
    (anchor m).Attributed root [] records where
  reached := h.reached records
  owned := by
    show Owned root [] records m.frames
    rw [h.frames]
    exact ⟨rfl, fun above f outer inner => by simp [CallStack.ofRoot] at inner⟩
  sound := trivial

theorem visited_finish (finished : finish failed m = .ok m') : m'.visited = m.visited := by
  obtain ⟨m₁, returned, rfl⟩ := finish_eq_ok.1 finished
  obtain ⟨j, -, rfl⟩ := Machine.returnTo_eq_ok returned
  split
  · exact Machine.visited_abortRoot _
  · rfl

theorem contexts_of_replay (unused : m.Unused root)
    (ran : (replay sources balancesOnly records failed).outcome (m, s) = (.ok (), (m', s'))) :
    m'.contexts = contextsAfter root [] records ∧ Sound records.reverse [] := by
  obtain ⟨m₁, stepped, finished⟩ := replay_eq_ok.1 ran
  obtain ⟨attributed, visited⟩ := (unused.attributed records).steps stepped
  have fresh : (anchor m).visited = [] := unused.visited
  rw [fresh, List.append_nil] at visited
  constructor
  · rw [Machine.contexts, visited_finish finished, visited, List.reverse_reverse]
  · simpa using attributed.sound

/-- Which account executes a record is told by its opener alone, the last record before it that is
less deep: one level less deep, without an error, and a call or creation. -/
theorem context_of_opener {paid : Option (Transaction × Int)} {x : Except Fault Unit} {s₁ : σ}
    (prepared : (prepare sources balancesOnly paid).outcome (.start root, s) = (x, (m, s₁)))
    (ran : (replay sources balancesOnly records failed).outcome (m, s₁) = (.ok (), (m', s')))
    (deep : ∀ r ∈ records, 1 ≤ r.depth) :
    m'.contexts.length = records.length ∧ ∀ i r, records[i]? = some r →
      (r.depth = 1 → m'.contexts[i]? = some root) ∧
      (r.depth ≠ 1 → ∃ j opener o, Opener records j i ∧ records[j]? = some opener ∧
        opener.depth = r.depth - 1 ∧ opener.Opens o ∧
        (o = .call ∨ o = .staticcall → ∃ word, opener.peek 1 = .ok word ∧
          m'.contexts[i]? = some (.ofWord word)) ∧
        (o = .create ∨ o = .create2 → ∃ created,
          createdAddress opener (records.drop (j + 1)) = .ok created ∧
            m'.contexts[i]? = some (created.getD Address.zero)) ∧
        (o = .delegatecall ∨ o = .callcode → m'.contexts[i]? = m'.contexts[j]?)) := by
  obtain ⟨contexts, sound⟩ := contexts_of_replay (Machine.unused_prepare prepared) ran
  rw [contexts]
  refine ⟨length_contextsAfter, fun i r hr => ⟨fun bottom => ?_, fun inner => ?_⟩⟩
  · have level : r.level = 1 := by simp [Record.level, bottom]
    rw [getElem?_contextsAfter hr, level, executing_root]
  · obtain ⟨j, opener, o, before, hj, depth, opens, context⟩ :=
      opener_of_getElem? root sound deep hr inner
    obtain ⟨-, ⟨scope, f, effects, read⟩, -⟩ := sound.record hj
    have named := Record.opcode?_eq_some_iff.2 opens.2.1
    rw [Effect.ofRecord_of_opens opens] at read
    refine ⟨j, opener, o, before, hj, depth, opens, fun calls => ?_, fun creates => ?_,
      fun keeps => ?_⟩
    · have isCall : o.isCall = true ∧ o.isCreate = false ∧ o.keepsContext = false := by
        rcases calls with rfl | rfl <;> exact ⟨rfl, rfl, rfl⟩
      rw [if_pos isCall.1] at read
      obtain ⟨word, value, hword, -, -⟩ := Effect.ofCall_eq_ok.1 read
      refine ⟨word, hword, ?_⟩
      simp [context, target, named, isCall, Record.value_arg_of_peek hword]
    · have isCreate : o.isCall = false ∧ o.isCreate = true ∧ o.keepsContext = false := by
        rcases creates with rfl | rfl <;> exact ⟨rfl, rfl, rfl⟩
      rw [isCreate.1, if_neg Bool.false_ne_true] at read
      obtain ⟨value, created, -, looked, -⟩ := Effect.ofCreate_eq_ok.1 read
      refine ⟨created, looked, ?_⟩
      cases created <;> simp [context, target, named, isCreate, looked, Except.toOption]
    · have keepsContext : o.keepsContext = true := by rcases keeps with rfl | rfl <;> rfl
      rw [context, if_pos keepsContext]

end Attributed

/-- Code that is run in the context of account 3 creates in vain, and goes on. -/
def createdInContext : List Record :=
  [.named .call 1 [0, 3, 0], .named .delegatecall 2 [0, 4], .named .create 3 [7], .idle 4 [],
    .idle 3 [0], .idle 1 []]

theorem context_of_opener_createdInContext :
    let ran := (replay ({} : Sources Unit) false createdInContext false).outcome
      (.start (.ofNat 1), ())
    ran.1 = .ok () ∧ ran.2.1.contexts.length = 6 ∧
      ran.2.1.contexts[3]? = some Address.zero ∧
        ran.2.1.contexts[4]? = ran.2.1.contexts[1]? := by
  intro ran
  have through : ran.1 = .ok () := eq_ok_of_toOption (by decide +kernel)
  have run : ran = (.ok (), (ran.2.1, ran.2.2)) := by rw [← through]
  have prepared : (prepare ({} : Sources Unit) false none).outcome (.start (.ofNat 1), ()) =
      (.ok (), (.start (.ofNat 1), ())) := rfl
  obtain ⟨length, told⟩ := context_of_opener prepared run (by decide)
  have opcode {o o' : Opcode} {depth : Int} {stack : List Int}
      (opens : (Record.named o depth stack).Opens o') : o' = o := by
    simpa [Record.named, Rpc.Value.opcode, eq_comm] using opens.2.1
  have third : ∀ j < 3, createdInContext[j]?.map Record.depth = some 3 → j = 2 := by decide
  have second : ∀ j < 4, createdInContext[j]?.map Record.depth = some 2 → j = 1 := by decide
  refine ⟨through, length, ?_, ?_⟩
  · obtain ⟨j, opener, o, ⟨-, -, -, -, lt, -⟩, hj, depth, opens, -, creates, -⟩ :=
      (told 3 _ rfl).2 (by decide)
    obtain rfl := third j lt (by rw [hj]; exact congrArg some depth)
    obtain rfl := Option.some.inj hj
    obtain rfl := opcode opens
    obtain ⟨created, looked, context⟩ := creates (.inl rfl)
    have failed : createdAddress (.named .create 3 [7]) (createdInContext.drop 3) = .ok none :=
      eq_ok_of_toOption (by decide +kernel)
    obtain rfl := Except.ok.inj (failed.symm.trans looked)
    exact context
  · obtain ⟨j, opener, o, ⟨-, -, -, -, lt, -⟩, hj, depth, opens, -, -, keeps⟩ :=
      (told 4 _ rfl).2 (by decide)
    obtain rfl := second j lt (by rw [hj]; exact congrArg some depth)
    obtain rfl := Option.some.inj hj
    obtain rfl := opcode opens
    exact keeps (.inl rfl)

end Replay

end TraceDiff
