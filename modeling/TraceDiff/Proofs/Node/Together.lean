import TraceDiff.Proofs.Node

/-! Balances and traces that are requested together. They are those that the same requests bring one
after the other, whatever order they complete in; and if one request fails, all that comes of it is
a fault of one that failed. -/
namespace TraceDiff.Node

variable {σ α β γ : Type}

/-- Requests made together either all come through, with their answers in the order of the requests,
or bring the fault of one that failed. -/
theorem gather_cases {workers : Rpc.Value} (valid : checkWorkers workers = .ok ())
    (completion : Gather.Completion σ) (request : α → Asking σ β) (items : List α) (s : σ) :
    (∃ bs s', Gather.outcomes request items s = (bs.map .ok, s') ∧
      (gather workers request items completion).outcome s = (.ok bs, s')) ∨
    ∃ f, .error f ∈ (Gather.outcomes request items s).1 ∧
      (gather workers request items completion).outcome s =
        (.error f, (Gather.outcomes request items s).2) := by
  unfold gather
  split
  · next empty =>
    rw [List.isEmpty_iff.1 empty]
    exact .inl ⟨[], s, rfl, rfl⟩
  · rw [valid]
    exact Gather.all_cases completion request items s

/-- What comes of requests made together, by what comes of them one after the other, each made
whether or not an earlier one failed. -/
structure Agrees (together : Except Fault γ × σ) (request : α → Asking σ β) (items : List α) (s : σ)
    (result : List β → γ → Prop) : Prop where
  /-- There is a result exactly if all requests come through, and it is that of their answers. -/
  ok_iff : ∀ c s', together = (.ok c, s') ↔
    ∃ bs, (items.mapM request).outcome s = (.ok bs, s') ∧ result bs c
  /-- A fault is that of a request which failed. -/
  fault : ∀ f, together.1 = .error f → .error f ∈ (Gather.outcomes request items s).1
  /-- If a request failed, there is a fault. -/
  fails : ∀ f, .error f ∈ (Gather.outcomes request items s).1 → ∃ e, together.1 = .error e

theorem Agrees.of_cases {together : Except Fault γ × σ} {request : α → Asking σ β} {items : List α}
    {s : σ} {result : List β → γ → Prop}
    (cases : (∃ bs s' c, Gather.outcomes request items s = (bs.map .ok, s') ∧
        together = (.ok c, s') ∧ ∀ c', result bs c' ↔ c' = c) ∨
      ∃ f s', .error f ∈ (Gather.outcomes request items s).1 ∧ together = (.error f, s')) :
    Agrees together request items s result := by
  have some_fail {bs : List β} {t : σ} {f : Fault}
      (made : Gather.outcomes request items s = (bs.map .ok, t)) :
      .error f ∉ (Gather.outcomes request items s).1 := by
    simp [made]
  rcases cases with ⟨bs, t, c, made, rfl, unique⟩ | ⟨f, t, failed, rfl⟩
  · refine ⟨fun c' s' => ⟨fun h => ?_, ?_⟩, fun f h => (nomatch h), fun f h => ?_⟩
    · obtain ⟨same, rfl⟩ := Prod.mk.inj h
      obtain rfl := Except.ok.inj same
      exact ⟨bs, Gather.outcomes_eq_ok_iff.1 made, (unique c).2 rfl⟩
    · rintro ⟨bs', came, told⟩
      obtain ⟨same, rfl⟩ := Prod.mk.inj ((Gather.outcomes_eq_ok_iff.1 made).symm.trans came)
      obtain rfl := Except.ok.inj same
      rw [(unique c').1 told]
    · exact absurd h (some_fail made)
  · refine ⟨fun c' s' => ⟨fun h => (nomatch (Prod.mk.inj h).1), ?_⟩, fun e h => ?_,
      fun _ _ => ⟨f, rfl⟩⟩
    · rintro ⟨bs, came, -⟩
      exact absurd failed (some_fail (Gather.outcomes_eq_ok_iff.2 came))
    · obtain rfl := Except.error.inj h
      exact failed

/-- Each request with its item beside its answer. -/
theorem outcomes_pairs (request : α → Asking σ β) (items : List α) (s : σ) :
    Gather.outcomes (fun a => (fun b => (a, b)) <$> request a) items s =
      (List.zipWith (fun a (r : Except Fault β) => r.map (a, ·)) items
        (Gather.outcomes request items s).1, (Gather.outcomes request items s).2) := by
  induction items generalizing s with
  | nil => rfl
  | cons a items ih => simp only [Gather.outcomes, Asking.outcome_map, ih, List.zipWith_cons_cons]

theorem error_of_mem_zipWith {items : List α} {rs : List (Except Fault β)} {f : Fault}
    (h : .error f ∈ List.zipWith (fun a (r : Except Fault β) => r.map (a, ·)) items rs) :
    .error f ∈ rs := by
  induction items generalizing rs with
  | nil => simp at h
  | cons a items ih =>
    cases rs with
    | nil => simp at h
    | cons r rs =>
      rcases List.mem_cons.1 h with head | tail
      · cases r with
        | ok b => nomatch head
        | error e =>
          obtain rfl := Except.error.inj head
          exact List.mem_cons_self
      · exact List.mem_cons_of_mem r (ih tail)

theorem zip_of_zipWith {items : List α} {rs : List (Except Fault β)} {pairs : List (α × β)}
    (length : rs.length = items.length)
    (h : List.zipWith (fun a (r : Except Fault β) => r.map (a, ·)) items rs = pairs.map .ok) :
    ∃ bs, rs = bs.map .ok ∧ pairs = items.zip bs := by
  induction items generalizing rs pairs with
  | nil =>
    obtain rfl := List.length_eq_zero_iff.1 length
    exact ⟨[], rfl, List.map_eq_nil_iff.1 h.symm⟩
  | cons a items ih =>
    cases rs with
    | nil => simp at length
    | cons r rs =>
      cases pairs with
      | nil => simp at h
      | cons pair pairs =>
        obtain ⟨head, tail⟩ := List.cons.inj h
        obtain ⟨bs, rfl, rfl⟩ := ih (Nat.succ.inj length) tail
        cases r with
        | error e => nomatch head
        | ok b =>
          obtain rfl : (a, b) = pair := Except.ok.inj head
          exact ⟨b :: bs, rfl, rfl⟩

/-- A map made of accounts, each of which is there once, and their amounts. -/
theorem getElem?_ofList_zip {addresses : AddressSet} {amounts : List Int}
    (length : amounts.length = addresses.toList.length) (a : Address) (n : Int) :
    (Std.ExtTreeMap.ofList (addresses.toList.zip amounts) : Balances)[a]? = some n ↔
      (a, n) ∈ addresses.toList.zip amounts := by
  have names : (addresses.toList.zip amounts).map Prod.fst = addresses.toList :=
    List.map_fst_zip (Nat.le_of_eq length.symm)
  have distinct : (addresses.toList.zip amounts).Pairwise fun a b => ¬ compare a.1 b.1 = .eq := by
    refine List.pairwise_map (f := Prod.fst) (R := fun a b => ¬ compare a b = .eq) |>.1 ?_
    rw [names]
    exact Std.ExtTreeSet.distinct_toList
  have found {a : Address} {n : Int} (member : (a, n) ∈ addresses.toList.zip amounts) :
      (Std.ExtTreeMap.ofList (addresses.toList.zip amounts) : Balances)[a]? = some n :=
    Std.ExtTreeMap.getElem?_ofList_of_mem Std.ReflCmp.compare_self distinct member
  refine ⟨fun h => ?_, found⟩
  have listed : a ∈ addresses.toList := by
    have member : a ∈ (Std.ExtTreeMap.ofList (addresses.toList.zip amounts) : Balances) :=
      Std.ExtTreeMap.mem_iff_isSome_getElem?.2 (by rw [h]; rfl)
    rwa [Std.ExtTreeMap.mem_ofList, names, List.contains_iff_mem] at member
  rw [← names] at listed
  obtain ⟨⟨b, m⟩, member, rfl⟩ := List.mem_map.1 listed
  rwa [← Option.some.inj ((found member).symm.trans h)]

/-- Traces and balances that are requested together, by any number of workers and whatever order the
requests complete in: the traces stand in the order of the hashes, one for each, and the balances
are one for each account. -/
theorem together_agrees (node : Node σ) (workers : Int) (completion : Gather.Completion σ) (s : σ) :
    (∀ ids : List TxId,
      Agrees ((node.fetchTraces ids (.int workers) completion).outcome s) node.fetchTrace ids s
        fun traces result => result = traces) ∧
    ∀ (addresses : AddressSet) (id : BlockId),
      Agrees ((node.fetchBalances addresses id (.int workers) completion).outcome s)
        (fun a => node.fetchBalance (.text a.text) id) addresses.toList s
        fun amounts known => ∀ a n, known[a]? = some n ↔ (a, n) ∈ addresses.toList.zip amounts := by
  have valid : checkWorkers (.int workers) = .ok () := rfl
  refine ⟨fun ids => Agrees.of_cases ?_, fun addresses id => Agrees.of_cases ?_⟩
  · rcases gather_cases valid completion node.fetchTrace ids s with ⟨ts, s', made, came⟩ | failed
    · exact .inl ⟨ts, s', ts, made, came, fun _ => Iff.rfl⟩
    · obtain ⟨f, failed, came⟩ := failed
      exact .inr ⟨f, _, failed, came⟩
  -- An amount is gathered together with its account, so the outcomes of the requests are not those
  -- of the balances themselves: `outcomes_pairs` leads from the ones to the others.
  · have length := Gather.length_outcomes (fun a => node.fetchBalance (.text a.text) id)
      addresses.toList s
    have pairs := outcomes_pairs (fun a => node.fetchBalance (.text a.text) id) addresses.toList s
    rcases gather_cases valid completion
      (fun a => (fun n => (a, n)) <$> node.fetchBalance (.text a.text) id) addresses.toList s
      with ⟨_, s', made, came⟩ | ⟨f, failed, came⟩
    · obtain ⟨paired, rfl⟩ := Prod.mk.inj (pairs.symm.trans made)
      obtain ⟨amounts, answered, rfl⟩ := zip_of_zipWith length paired
      rw [answered, List.length_map] at length
      refine .inl ⟨amounts, _, Std.ExtTreeMap.ofList (addresses.toList.zip amounts),
        Prod.ext answered rfl, ?_, fun known => ⟨fun told => ?_, ?_⟩⟩
      · exact Asking.outcome_bind_eq_ok.2 ⟨_, _, came, rfl⟩
      · refine Std.ExtTreeMap.ext_getElem? fun a => Option.ext fun n => ?_
        rw [told, getElem?_ofList_zip length]
      · rintro rfl
        exact getElem?_ofList_zip length
    · rw [pairs] at failed
      exact .inr ⟨f, _, error_of_mem_zipWith failed, Asking.outcome_bind_eq_error.2 (.inl came)⟩

end TraceDiff.Node
