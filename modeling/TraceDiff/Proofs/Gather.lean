import TraceDiff.Gather
import TraceDiff.Proofs.Journal

/-! Requests that are made together and all come through: every answer stands at the place of its
request, whatever order the requests complete in. -/
namespace TraceDiff.Gather

variable {σ α β : Type}

/-- A place whose request has completed holds its answer, and any other is left as it was. -/
theorem places_of_collect {outcomes : List (Except Fault β)} {completed : List Nat}
    {places places' : List (Option β)} (h : collect outcomes completed places = .ok places') :
    places'.length = places.length ∧
      ∀ i, i < places.length →
        (i ∈ completed →
          ∀ r, outcomes[i]? = some r → ∃ b, r = .ok b ∧ places'[i]? = some (some b)) ∧
        (i ∉ completed → places'[i]? = places[i]?) := by
  induction completed generalizing places with
  | nil =>
    obtain rfl := Except.ok.inj h
    exact ⟨rfl, fun i _ => ⟨fun hi => absurd hi List.not_mem_nil, fun _ => rfl⟩⟩
  | cons k completed ih =>
    cases hk : outcomes[k]? with
    | none =>
      simp only [collect, hk] at h
      obtain ⟨length, rest⟩ := ih h
      refine ⟨length, fun i hi => ⟨fun hmem r hr => ?_, fun hmem => ?_⟩⟩
      · rcases List.mem_cons.1 hmem with rfl | hmem
        · simp [hk] at hr
        · exact (rest i hi).1 hmem r hr
      · exact (rest i hi).2 fun later => hmem (List.mem_cons_of_mem k later)
    | some r =>
      cases r with
      | error f => simp [collect, hk] at h
      | ok b =>
        simp only [collect, hk] at h
        obtain ⟨length, rest⟩ := ih h
        rw [List.length_set] at length rest
        refine ⟨length, fun i hi => ⟨fun hmem r hr => ?_, fun hmem => ?_⟩⟩
        · by_cases later : i ∈ completed
          · exact (rest i hi).1 later r hr
          · obtain rfl : i = k := (List.mem_cons.1 hmem).resolve_right later
            obtain rfl := Option.some.inj (hk.symm.trans hr)
            refine ⟨b, rfl, ?_⟩
            rw [(rest i hi).2 later, List.getElem?_set_self hi]
        · obtain ⟨other, later⟩ := not_or.1 (fun h => hmem (List.mem_cons.2 h))
          rw [(rest i hi).2 later, List.getElem?_set_ne fun same => other same.symm]

/-- If every request has completed, the answers are all the outcomes, in their order. -/
theorem outcomes_of_collect {outcomes : List (Except Fault β)} {completed : List Nat}
    (complete : ∀ i, i < outcomes.length → i ∈ completed) {places : List (Option β)}
    (h : collect outcomes completed (List.replicate outcomes.length none) = .ok places) :
    outcomes = (places.filterMap id).map .ok := by
  obtain ⟨length, filled⟩ := places_of_collect h
  rw [List.length_replicate] at length filled
  have both : ∀ i, i < outcomes.length →
      ∃ b, outcomes[i]? = some (.ok b) ∧ places[i]? = some (some b) := by
    intro i hi
    have outcome := List.getElem?_eq_getElem hi
    obtain ⟨b, ok, place⟩ := (filled i hi).1 (complete i hi) _ outcome
    exact ⟨b, by rw [outcome, ok], place⟩
  clear h filled complete
  induction outcomes generalizing places with
  | nil =>
    obtain rfl := List.length_eq_zero_iff.1 length
    rfl
  | cons r outcomes ih =>
    cases places with
    | nil => simp at length
    | cons place places =>
      obtain ⟨b, outcome, filled⟩ := both 0 (Nat.zero_lt_succ _)
      obtain rfl : r = .ok b := Option.some.inj outcome
      obtain rfl : place = some b := Option.some.inj filled
      have rest := ih (Nat.succ.inj length) fun i hi => both (i + 1) (Nat.succ_lt_succ hi)
      exact congrArg (Except.ok b :: ·) rest

theorem length_outcomes (request : α → Asking σ β) (items : List α) (s : σ) :
    (outcomes request items s).1.length = items.length := by
  induction items generalizing s with
  | nil => rfl
  | cons a items ih => simp [outcomes, ih]

/-- Requests whose answers are fixed all got the fixed answers, if they came through. -/
theorem map_of_outcomes {request : α → Asking σ β} {answer : α → Except Fault β} {items : List α}
    (fixed : ∀ a ∈ items, ∀ s b s', (request a).outcome s = (.ok b, s') → answer a = .ok b)
    {bs : List β} {s : σ} (h : (outcomes request items s).1 = bs.map .ok) :
    items.map answer = bs.map .ok := by
  induction items generalizing bs s with
  | nil => exact h
  | cons a items ih =>
    obtain ⟨first, rest⟩ := List.forall_mem_cons.1 fixed
    cases bs with
    | nil => simp [outcomes] at h
    | cons b bs =>
      rw [outcomes, List.map_cons] at h
      obtain ⟨head, tail⟩ := List.cons.inj h
      rw [List.map_cons, List.map_cons, ih rest tail, first s b _ (Prod.ext head rfl)]

/-- What every request keeps of the outside is kept by all of them together. -/
theorem keeps_outcomes {P : σ → Prop} {request : α → Asking σ β} {items : List α}
    (kept : ∀ a ∈ items, ∀ s, P s → P ((request a).outcome s).2) {s : σ} (h : P s) :
    P (outcomes request items s).2 := by
  induction items generalizing s with
  | nil => exact h
  | cons a items ih =>
    obtain ⟨first, rest⟩ := List.forall_mem_cons.1 kept
    exact ih rest (first s h)

/-- What is so of the outside after a request has failed, and is kept by the others, is so after
all of them. -/
theorem of_error_mem_outcomes {E : Fault → σ → Prop} {request : α → Asking σ β} {items : List α}
    (failed : ∀ a ∈ items, ∀ s f s', (request a).outcome s = (.error f, s') → E f s')
    (kept : ∀ a ∈ items, ∀ f s, E f s → E f ((request a).outcome s).2) {f : Fault} {s : σ}
    (member : .error f ∈ (outcomes request items s).1) : E f (outcomes request items s).2 := by
  induction items generalizing s with
  | nil => nomatch member
  | cons a items ih =>
    obtain ⟨first, rest⟩ := List.forall_mem_cons.1 failed
    obtain ⟨-, later⟩ := List.forall_mem_cons.1 kept
    rcases List.mem_cons.1 member with here | there
    · exact keeps_outcomes (fun a ha => later a ha f) (first s f _ (Prod.ext here.symm rfl))
    · exact ih rest later there

theorem error_mem_of_collect {outcomes : List (Except Fault β)} {completed : List Nat}
    {places : List (Option β)} {f : Fault} (h : collect outcomes completed places = .error f) :
    .error f ∈ outcomes := by
  induction completed generalizing places with
  | nil => nomatch h
  | cons i completed ih =>
    cases hi : outcomes[i]? with
    | none =>
      simp only [collect, hi] at h
      exact ih h
    | some r =>
      cases r with
      | ok b =>
        simp only [collect, hi] at h
        exact ih h
      | error e =>
        simp only [collect, hi] at h
        obtain rfl := Except.error.inj h
        exact List.mem_of_getElem? hi

/-- Whatever order the requests complete in, either all of them came through, and their answers
stand in the order of the requests, or the fault is that of one which failed. -/
theorem all_cases (completion : Completion σ) (request : α → Asking σ β) (items : List α) (s : σ) :
    (∃ bs s', outcomes request items s = (bs.map .ok, s') ∧
      (all completion request items).outcome s = (.ok bs, s')) ∨
    ∃ f, .error f ∈ (outcomes request items s).1 ∧
      (all completion request items).outcome s = (.error f, (outcomes request items s).2) := by
  have length := length_outcomes request items s
  rcases made : outcomes request items s with ⟨rs, s'⟩
  rw [made] at length
  have complete : ∀ i, i < rs.length → i ∈ completion.order s rs.length := fun i hi =>
    (completion.perm s rs.length).mem_iff.2 (List.mem_range.2 hi)
  simp only [all, completedIn, Asking.outcome_ofOutcome, made, ← length]
  cases collected : collect rs (completion.order s rs.length) (List.replicate rs.length none) with
  | error f => exact .inr ⟨f, error_mem_of_collect collected, rfl⟩
  | ok places => exact .inl ⟨_, s', by rw [← outcomes_of_collect complete collected], rfl⟩

/-- Requests that all come through are answered as they are when made one after the other. -/
theorem outcomes_eq_ok_iff {request : α → Asking σ β} {items : List α} {bs : List β} {s s' : σ} :
    outcomes request items s = (bs.map .ok, s') ↔
      (items.mapM request).outcome s = (.ok bs, s') := by
  induction items generalizing bs s with
  | nil => cases bs <;> simp [outcomes]
  | cons a items ih =>
    rw [List.mapM_cons, Asking.outcome_bind_eq_ok]
    constructor
    · intro h
      cases bs with
      | nil => simp [outcomes] at h
      | cons b bs =>
        simp only [outcomes, List.map_cons, Prod.mk.injEq, List.cons.injEq] at h
        obtain ⟨⟨head, tail⟩, rfl⟩ := h
        refine ⟨b, _, Prod.ext head rfl, ?_⟩
        exact Asking.outcome_bind_eq_ok.2 ⟨bs, _, ih.1 (Prod.ext tail rfl), rfl⟩
    · rintro ⟨b, s₁, head, h⟩
      obtain ⟨tail, s₂, rest, last⟩ := Asking.outcome_bind_eq_ok.1 h
      obtain ⟨same, rfl⟩ := Prod.mk.inj last
      obtain rfl := Except.ok.inj same
      simp only [outcomes, head, ih.2 rest, List.map_cons]

end TraceDiff.Gather
