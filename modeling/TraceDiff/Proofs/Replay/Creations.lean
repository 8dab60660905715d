import TraceDiff.Proofs.Replay.Contexts

/-! Whose record the address of a creation is read from. It is the first later record at the depth
of the creation. If the creator goes on, it goes on there. If it was left for good, the record may
belong to a frame that something else opened at that depth, and then its stack says nothing about
the creation. -/
namespace TraceDiff.Replay

/-- Record `k` is the first one after record `i` that is as deep. -/
def FirstBack (records : List Record) (i k : Nat) : Prop :=
  ∃ r x, records[i]? = some r ∧ records[k]? = some x ∧ i < k ∧ x.depth = r.depth ∧
    ∀ j y, i < j → j < k → records[j]? = some y → y.depth ≠ r.depth

/-- Nothing else opened the frame of the one record than opened that of the other. -/
def SameFrame (records : List Record) (i k : Nat) : Prop :=
  ∀ j, Opener records j i ↔ Opener records j k

section Trace

variable {root : Address} {passed later between records : List Record} {r x : Record}
  {depth : Int} {i k n : Nat}

/-- Records that are no less deep do not change who executes. -/
theorem executing_append (above : ∀ y ∈ between, depth ≤ y.level) :
    executing root depth (between ++ passed) later =
      executing root depth passed (between.reverse ++ later) := by
  induction between generalizing later with
  | nil => rfl
  | cons y between ih =>
    obtain ⟨first, rest⟩ := List.forall_mem_cons.1 above
    rw [List.cons_append, executing, if_neg (Int.not_lt.2 first), ih rest]
    simp

theorem place_of_mem {y : Record} (hy : y ∈ (records.drop i).take n) :
    ∃ j, i ≤ j ∧ j < i + n ∧ records[j]? = some y := by
  obtain ⟨place, hplace⟩ := List.mem_iff_getElem?.1 hy
  have low : place < n := by
    have inside := (List.getElem?_eq_some_iff.1 hplace).1
    rw [List.length_take] at inside
    omega
  rw [List.getElem?_take_of_lt low, List.getElem?_drop] at hplace
  exact ⟨i + place, by omega, by omega, hplace⟩

/-- After a record that is less deep, something opened the frame of a deeper one. -/
theorem exists_opener {j : Nat} {y : Record} (hx : records[k]? = some x)
    (hy : records[j]? = some y) (lt : j < k) (less : y.depth < x.depth) :
    ∃ l, j ≤ l ∧ Opener records l k := by
  by_cases later : ∃ l z, j < l ∧ l < k ∧ records[l]? = some z ∧ z.depth < x.depth
  · obtain ⟨l, z, low, high, hz, less⟩ := later
    obtain ⟨n, le, opener⟩ := exists_opener hx hz high less
    exact ⟨n, by omega, opener⟩
  · refine ⟨j, Nat.le_refl j, y, x, hy, hx, lt, less, fun l z low high hz => ?_⟩
    exact Int.not_lt.1 fun less => later ⟨l, z, low, high, hz, less⟩
termination_by k - j

theorem opener_of_shallow {j : Nat} {y : Record} (back : FirstBack records i k)
    (hr : records[i]? = some r) (hy : records[j]? = some y) (low : i < j) (high : j < k)
    (shallow : y.depth ≤ r.depth) : ∃ l, i < l ∧ Opener records l k := by
  obtain ⟨r', x, hr', hx, lt, level, apart⟩ := back
  obtain rfl := Option.some.inj (hr.symm.trans hr')
  have less : y.depth < x.depth := by
    have := apart j y low high hy
    omega
  obtain ⟨l, le, opener⟩ := exists_opener hx hy high less
  exact ⟨l, by omega, opener⟩

/-- The creator goes on unless a record in between is less deep. -/
theorem sameFrame_iff (back : FirstBack records i k) (hr : records[i]? = some r) :
    SameFrame records i k ↔
      ∀ j y, i < j → j < k → records[j]? = some y → r.depth < y.depth := by
  constructor
  · intro same j y low high hy
    refine Int.not_le.1 fun shallow => ?_
    obtain ⟨l, le, opener⟩ := opener_of_shallow back hr hy low high shallow
    obtain ⟨-, -, -, -, before, -⟩ := (same l).2 opener
    omega
  · obtain ⟨r', x, hr', hx, lt, level, -⟩ := back
    obtain rfl := Option.some.inj (hr.symm.trans hr')
    intro deeper j
    constructor
    · rintro ⟨y, r', hy, hr', before, less, inside⟩
      obtain rfl := Option.some.inj (hr.symm.trans hr')
      refine ⟨y, x, hy, hx, by omega, by omega, fun l z low high hz => ?_⟩
      rw [level]
      rcases Nat.lt_trichotomy l i with first | rfl | last
      · exact inside l z low first hz
      · obtain rfl := Option.some.inj (hr.symm.trans hz)
        exact Int.le_refl _
      · exact Int.le_of_lt (deeper l z last high hz)
    · rintro ⟨y, x', hy, hx', before, less, inside⟩
      obtain rfl := Option.some.inj (hx.symm.trans hx')
      have first : j < i := by
        rcases Nat.lt_trichotomy j i with first | rfl | last
        · exact first
        · obtain rfl := Option.some.inj (hr.symm.trans hy)
          omega
        · have := deeper j y last before hy
          omega
      refine ⟨y, r, hy, hr, first, by omega, fun l z low high hz => ?_⟩
      rw [← level]
      exact inside l z low (by omega) hz

theorem createdAddress_of_nobody (nobody : ∀ x ∈ later, x.depth ≠ r.depth) :
    createdAddress r later = .ok none := by
  rw [← List.append_nil later, createdAddress_append nobody]
  rfl

/-- The address is that on top of the stack of the record that it is read from. -/
theorem createdAddress_of_firstBack (back : FirstBack records i k) (hr : records[i]? = some r)
    (hx : records[k]? = some x) {created : Option Address}
    (looked : createdAddress r (records.drop (i + 1)) = .ok created) :
    ∃ word, x.peek 0 = .ok word ∧
      created = if Address.ofWord word = Address.zero then none else some (.ofWord word) := by
  obtain ⟨r', x', hr', hx', lt, level, apart⟩ := back
  obtain rfl := Option.some.inj (hr.symm.trans hr')
  obtain rfl := Option.some.inj (hx.symm.trans hx')
  have split : records.drop (i + 1) =
      (records.drop (i + 1)).take (k - (i + 1)) ++ x :: records.drop (k + 1) := by
    rw [← drop_of_getElem? hx]
    conv => lhs; rw [← List.take_append_drop (k - (i + 1)) (records.drop (i + 1))]
    rw [List.drop_drop, show i + 1 + (k - (i + 1)) = k by omega]
  have between : ∀ y ∈ (records.drop (i + 1)).take (k - (i + 1)), y.depth ≠ r.depth := by
    intro y hy
    obtain ⟨j, low, high, hj⟩ := place_of_mem hy
    exact apart j y (by omega) (by omega) hj
  rw [split, createdAddress_append between, createdAddress, if_pos level] at looked
  obtain ⟨word, read, made⟩ := bind_eq_ok.1 looked
  exact ⟨word, read, (Except.ok.inj made).symm⟩

theorem opens_of_opener {j : Nat} (sound : Sound records.reverse [])
    (deep : ∀ y ∈ records, 1 ≤ y.depth) (opener : Opener records j k) :
    ∃ y o, records[j]? = some y ∧ y.Opens o := by
  obtain ⟨y, x, hy, hx, -, less, -⟩ := id opener
  have inner : x.depth ≠ 1 := by
    have := deep y (List.mem_of_getElem? hy)
    omega
  obtain ⟨j', y', o, opener', hy', -, opens, -⟩ :=
    opener_of_getElem? Address.zero sound deep hx inner
  obtain rfl := opener.unique opener'
  exact ⟨y', o, hy', opens⟩

theorem context_of_resumed (back : FirstBack records i k) (hr : records[i]? = some r)
    (deeper : ∀ j y, i < j → j < k → records[j]? = some y → r.depth < y.depth) :
    (contextsAfter root [] records)[k]? = (contextsAfter root [] records)[i]? := by
  obtain ⟨r', x, hr', hx, lt, level, -⟩ := back
  obtain rfl := Option.some.inj (hr.symm.trans hr')
  obtain ⟨n, rfl⟩ := Nat.exists_eq_add_of_le (Nat.le_of_lt lt)
  have levels : x.level = r.level := by rw [Record.level, level, Record.level]
  have above : ∀ y ∈ ((records.drop i).take n).reverse, r.level ≤ y.level := by
    intro y hy
    obtain ⟨j, low, high, hj⟩ := place_of_mem (List.mem_reverse.1 hy)
    have depths : r.depth ≤ y.depth := by
      rcases Nat.eq_or_lt_of_le low with rfl | low
      · obtain rfl := Option.some.inj (hr.symm.trans hj)
        exact Int.le_refl _
      · exact Int.le_of_lt (deeper j y low high hj)
    simp only [Record.level]
    omega
  rw [getElem?_contextsAfter hx, getElem?_contextsAfter hr, levels, List.append_nil,
    List.append_nil, List.take_add, List.reverse_append, executing_append above,
    List.reverse_reverse, ← List.drop_drop, List.take_append_drop]

end Trace

section Replaying

variable {σ : Type} {sources : Sources σ} {balancesOnly failed : Bool} {m m' : Machine} {s s' : σ}
  {i : Nat} {r : Record} {records : List Record} {o : Opcode}

/-- The frame of a creation is one of a creation that failed exactly if no address was found. -/
theorem isFailedCreation_of_step {later : List Record} {created : Option Address}
    (opens : r.Opens o) (creates : o.isCreate = true)
    (looked : createdAddress r later = .ok created)
    (done : (step sources balancesOnly i r later).outcome (m, s) = (.ok (), (m', s'))) :
    m'.frames.top.isFailedCreation = true ↔ created = none := by
  obtain ⟨m₁, -, ⟨aborts, -⟩ | ⟨o', target, placeholder, l, opens', failing, frames, -⟩ |
    ⟨-, closed, -⟩⟩ := frames_of_step done
  · exact absurd aborts opens.not_aborts
  · obtain rfl : o = o' := by simpa [opens.2.1] using opens'.2.1
    rw [frames, CallStack.top_enter, CallStack.isFailedCreation_opened, creates, Bool.and_true,
      failing, looked]
    simp [creates]
  · exact absurd opens (closed o)

/-- The address of a creation is read from the first later record at its depth, if there is one. The
creator executes that record unless a record in between is less deep. Then it was left for good, and
something else opened the frame of that record. -/
theorem created_of_replay {root : Address} {paid : Option (Transaction × Int)}
    {began : Except Fault Unit} {s₁ : σ}
    (prepared : (prepare sources balancesOnly paid).outcome (.start root, s) = (began, (m, s₁)))
    (ran : (replay sources balancesOnly records failed).outcome (m, s₁) = (.ok (), (m', s')))
    (hr : records[i]? = some r) (opens : r.Opens o) (creates : o.isCreate = true) :
    ∃ created w, createdAddress r (records.drop (i + 1)) = .ok created ∧
      (trail sources balancesOnly 0 records (anchor m, s₁))[i]? = some w ∧
      (w.1.frames.top.isFailedCreation = true ↔ created = none) ∧
      ((∀ x ∈ records.drop (i + 1), x.depth ≠ r.depth) → created = none) ∧
      ∀ k x, FirstBack records i k → records[k]? = some x →
        (∃ word, x.peek 0 = .ok word ∧
          created = if Address.ofWord word = Address.zero then none else some (.ofWord word)) ∧
        (SameFrame records i k ↔
          ∀ j y, i < j → j < k → records[j]? = some y → r.depth < y.depth) ∧
        (SameFrame records i k → m'.contexts[k]? = m'.contexts[i]?) ∧
        (¬ SameFrame records i k → ∃ j, i < j ∧ Opener records j k ∧
          ((∀ y ∈ records, 1 ≤ y.depth) → ∃ y o', records[j]? = some y ∧ y.Opens o')) := by
  obtain ⟨contexts, sound⟩ := contexts_of_replay (Machine.unused_prepare prepared) ran
  obtain ⟨m₁, stepped, -⟩ := replay_eq_ok.1 ran
  obtain ⟨-, ⟨scope, f, effects, read⟩, -⟩ := sound.record hr
  have noCall : ¬ o.isCall = true := by
    intro isCall
    rw [Opcode.isCreate_of_isCall isCall] at creates
    exact Bool.false_ne_true creates
  rw [Effect.ofRecord_of_opens opens, if_neg noCall] at read
  obtain ⟨-, created, -, looked, -⟩ := Effect.ofCreate_eq_ok.1 read
  have inside : i < records.length := (List.getElem?_eq_some_iff.1 hr).1
  rw [← length_trail stepped] at inside
  have after := List.getElem?_eq_getElem inside
  obtain ⟨w₀, before⟩ : ∃ w₀, ((anchor m, s₁) ::
      trail sources balancesOnly 0 records (anchor m, s₁))[i]? = some w₀ :=
    ⟨_, List.getElem?_eq_getElem (by simp; omega)⟩
  obtain ⟨r', hr', done⟩ := step_of_trail before after
  obtain rfl := Option.some.inj (hr.symm.trans hr')
  refine ⟨created, _, looked, after, isFailedCreation_of_step opens creates looked done, ?_, ?_⟩
  · intro nobody
    exact Except.ok.inj (looked.symm.trans (createdAddress_of_nobody nobody))
  · intro k x back hx
    have iff := sameFrame_iff back hr
    refine ⟨createdAddress_of_firstBack back hr hx looked, iff, fun same => ?_, fun other => ?_⟩
    · rw [contexts]
      exact context_of_resumed back hr (iff.1 same)
    · have opened : ∃ j, i < j ∧ Opener records j k := by
        refine Classical.byContradiction fun none => other (iff.2 fun j y low high hy => ?_)
        exact Int.not_le.1 fun shallow => none (opener_of_shallow back hr hy low high shallow)
      obtain ⟨j, low, opener⟩ := opened
      exact ⟨j, low, opener, fun deep => opens_of_opener sound deep opener⟩

end Replaying

/-- A creation with a call inside, and then its creator goes on. -/
def resumed : List Record :=
  [.named .call 1 [0, 3, 0], .named .create 2 [5], .named .call 3 [0, 8, 0], .idle 4 [],
    .idle 3 [1], .idle 2 [9], .idle 1 [1]]

theorem created_of_replay_resumed :
    let ran := (replay ({} : Sources Unit) false resumed false).outcome (.start (.ofNat 1), ())
    ran.1 = .ok () ∧
      createdAddress (.named .create 2 [5]) (resumed.drop 2) = .ok (some (.ofNat 9)) ∧
      SameFrame resumed 1 5 ∧ ran.2.1.contexts[5]? = ran.2.1.contexts[1]? := by
  intro ran
  have through : ran.1 = .ok () := eq_ok_of_toOption (by decide +kernel)
  have run : ran = (.ok (), (ran.2.1, ran.2.2)) := by rw [← through]
  have prepared : (prepare ({} : Sources Unit) false none).outcome (.start (.ofNat 1), ()) =
      (.ok (), (.start (.ofNat 1), ())) := rfl
  obtain ⟨created, -, looked, -, -, -, back⟩ :=
    created_of_replay prepared run (i := 1) rfl (opens_named rfl 2 [5]) rfl
  have deeper : ∀ j < 5, 1 < j → ∀ y ∈ resumed[j]?, 2 < y.depth := by decide
  have first : FirstBack resumed 1 5 :=
    ⟨_, _, rfl, rfl, by decide, rfl, fun j y low high hy => Int.ne_of_gt (deeper j high low y hy)⟩
  obtain ⟨⟨word, read, made⟩, iff, context, -⟩ := back 5 _ first rfl
  have same := iff.2 fun j y low high hy => deeper j high low y hy
  refine ⟨through, ?_, same, context same⟩
  rw [looked, made, ← Except.ok.inj read]
  exact congrArg Except.ok (by decide +kernel)

/-- A creator that does not go on after its creation; then another frame opens at its depth. -/
def leftForGood : List Record :=
  [.named .call 1 [0, 3, 0], .named .create 2 [0], .named .sstore 3 [1, 2], .idle 1 [1],
    .named .call 1 [0, 7, 0], .idle 2 [9], .idle 1 [1]]

/-- The stack of the other frame is taken for the result of the creation, which then counts as one
that came through: what was written in it stays. -/
theorem created_of_otherFrame :
    let ran := (replay ({} : Sources Unit) false leftForGood false).outcome
      (.start (.ofNat 1), ())
    let states := trail ({} : Sources Unit) false 0 leftForGood (anchor (.start (.ofNat 1)), ())
    ran.1 = .ok () ∧ leftForGood[1]? = some (.named .create 2 [0]) ∧
      createdAddress (.named .create 2 [0]) (leftForGood.drop 2) = .ok (some (.ofNat 9)) ∧
      states[1]?.map (fun w => w.1.frames.top) = some ⟨.ofNat 9, some .create, false⟩ ∧
      leftForGood[3]? = some (.idle 1 [1]) ∧
      FirstBack leftForGood 1 5 ∧ ¬ SameFrame leftForGood 1 5 ∧
      ran.2.1.contexts[1]? = some (.ofNat 3) ∧ ran.2.1.contexts[5]? = some (.ofNat 7) ∧
      (ran.2.1.journal.ledger.storage.get? (.ofNat 9) 1).map Rpc.Quantity.value = some 2 := by
  intro ran states
  have apart : ∀ j < 5, 1 < j → ∀ y ∈ leftForGood[j]?, y.depth ≠ 2 := by decide
  have first : FirstBack leftForGood 1 5 :=
    ⟨_, _, rfl, rfl, by decide, rfl, fun j y low high hy => apart j high low y hy⟩
  refine ⟨eq_ok_of_toOption (by decide +kernel), rfl, eq_ok_of_toOption (by decide +kernel),
    by decide +kernel, rfl, first, ?_, by decide +kernel, by decide +kernel, by decide +kernel⟩
  intro same
  have deeper := (sameFrame_iff first rfl).1 same 3 _ (by decide) (by decide) rfl
  exact absurd deeper (by decide)

end TraceDiff.Replay
