import TraceDiff.Proofs.BalanceEffects
import TraceDiff.Proofs.Node

/-! The balances that a query sees. It follows the accounts that it tracks through the prefix; all
others stay for it as they were at the parent block, so that an account that destroys itself may be
worth different amounts to different queries. -/
namespace TraceDiff

variable {σ α : Type}

/-- A source that gives some balances, and fails for the others. -/
def BaselineSource.known (v : Address → Option Int) : BaselineSource Unit where
  one a :=
    match v a with
    | some balance => pure balance
    | none => .fail .noBaseline

/-- The net changes of a transaction that finds the balances `v`. -/
def effectsFrom (v : Address → Option Int) (tx : Transaction) (trace : Trace) :
    Except Fault Balances :=
  ((balanceEffects (.known v) tx trace).outcome ()).1

theorem effectsFrom_of_source {source : BaselineSource σ} {v : Address → Option Int}
    (gives : ∀ a s n s', (source.one a).outcome s = (.ok n, s') → v a = some n) {tx : Transaction}
    {trace : Trace} {effects : Balances} {s s' : σ}
    (made : (balanceEffects source tx trace).outcome s = (.ok effects, s')) :
    effectsFrom v tx trace = .ok effects := by
  have below : source.Below (.known v) := by
    intro a s n s' given t
    refine ⟨t, ?_⟩
    simp only [BaselineSource.known, gives a s n s' given]
    rfl
  obtain ⟨t, answered⟩ := below_balanceEffects below tx trace s effects s' made ()
  rw [effectsFrom, answered]

/-- More known balances make no difference. -/
theorem effectsFrom_mono {v w : Address → Option Int} (h : ∀ a n, v a = some n → w a = some n)
    {tx : Transaction} {trace : Trace} {effects : Balances}
    (made : effectsFrom v tx trace = .ok effects) : effectsFrom w tx trace = .ok effects := by
  have answered : (balanceEffects (.known v) tx trace).outcome () = (.ok effects, ()) :=
    Prod.ext made rfl
  refine effectsFrom_of_source ?_ answered
  intro a s n s' given
  apply h
  cases known : v a with
  | none => simp [BaselineSource.known, known] at given
  | some balance =>
    simp only [BaselineSource.known, known] at given
    rw [Except.ok.inj (Prod.mk.inj given).1]

namespace BlockPrefix

/-- What stands before the first transaction with a hash. -/
theorem before?_eq_some_iff {hash : Bytes} {listed earlier : List Transaction} :
    before? hash listed = some earlier ↔
      hash ∉ earlier.map (·.hash) ∧
        ∃ tx later, listed = earlier ++ tx :: later ∧ tx.hash = hash := by
  induction listed generalizing earlier with
  | nil => simp [before?]
  | cons x listed ih =>
    rw [before?]
    split
    · next here =>
      constructor
      · intro found
        obtain rfl := Option.some.inj found
        exact ⟨by simp, x, listed, rfl, here⟩
      · rintro ⟨new, tx, later, places, -⟩
        cases earlier with
        | nil => rfl
        | cons y earlier =>
          obtain rfl := (List.cons.inj places).1
          exact absurd (List.mem_cons.2 (.inl here.symm)) new
    · next other =>
      constructor
      · intro found
        obtain ⟨more, rest, rfl⟩ := Option.map_eq_some_iff.1 found
        obtain ⟨new, tx, later, rfl, same⟩ := ih.1 rest
        refine ⟨?_, tx, later, rfl, same⟩
        rw [List.map_cons, List.mem_cons, not_or]
        exact ⟨fun here => other here.symm, new⟩
      · rintro ⟨new, tx, later, places, same⟩
        cases earlier with
        | nil =>
          obtain rfl := (List.cons.inj places).1
          exact absurd same other
        | cons y earlier =>
          obtain ⟨rfl, rfl⟩ := List.cons.inj places
          rw [List.map_cons, List.mem_cons, not_or] at new
          rw [ih.2 ⟨new.2, tx, later, rfl, same⟩]
          rfl

/-- The balances after a transaction, for a query that tracks some accounts. -/
def applied (tracked : AddressSet) (effects : Balances) (v : Address → Int) : Address → Int :=
  fun a => if a ∈ tracked then v a + effects.getD a 0 else v a

/-- The balances after some transactions, as a query sees them. -/
def view (tracked : AddressSet) :
    List (Transaction × Trace) → (Address → Int) → Except Fault (Address → Int)
  | [], v => .ok v
  | (tx, trace) :: rest, v => do
    let effects ← effectsFrom (fun a => some (v a)) tx trace
    view tracked rest (applied tracked effects v)

/-- The running balances stand for what the query sees. -/
structure Shows (tracked : AddressSet) (parent : Address → Int) (balances : Balances)
    (v : Address → Int) : Prop where
  seen : ∀ a, v a = (balances[a]?).getD (parent a)
  tracked : ∀ a, a ∈ balances ↔ a ∈ tracked

variable {tracked : AddressSet} {parent : Address → Int} {balances balances' : Balances}
  {v : Address → Int}

theorem applyChanges_cons {b : Address} {change : Int} {changes : List (Address × Int)}
    (h : applyChanges tracked balances ((b, change) :: changes) = .ok balances') :
    ∃ next, applyChanges tracked next changes = .ok balances' ∧
      ∀ a, next[a]? =
        if a = b ∧ a ∈ tracked then (balances[a]?).map (· + change) else balances[a]? := by
  unfold applyChanges at h
  split at h
  · next nothing =>
    refine ⟨balances, h, fun a => ?_⟩
    split
    · next both =>
      obtain ⟨rfl, htracked⟩ := both
      have contained : tracked.contains a = true := Std.ExtTreeSet.contains_iff_mem.2 htracked
      have zero : change = 0 := by simpa [contained] using nothing
      simp [zero]
    · rfl
  · next something =>
    obtain ⟨htracked, -⟩ : b ∈ tracked ∧ ¬ change = 0 := by simpa using something
    cases held : balances[b]? with
    | none => simp [held] at h
    | some n =>
      simp only [held, Holding.plus_int, bind, Except.bind, Holding.isNegative_int] at h
      split at h
      · simp at h
      · refine ⟨_, h, fun a => ?_⟩
        rw [Std.ExtTreeMap.getElem?_insert]
        by_cases same : b = a
        · subst same
          simp [htracked, held]
        · have other : compare b a ≠ .eq := fun h => same (Std.LawfulEqCmp.eq_of_compare h)
          have apart : ¬ (a = b ∧ a ∈ tracked) := fun h => same h.1.symm
          rw [if_neg other, if_neg apart]

/-- Every tracked account changes as the list says, which names it at most once. -/
theorem getElem?_of_applyChanges {changes : List (Address × Int)} {c : Address → Int}
    (values : ∀ e ∈ changes, e.2 = c e.1)
    (distinct : changes.Pairwise fun x y => ¬ compare x.1 y.1 = .eq)
    (h : applyChanges tracked balances changes = .ok balances') (a : Address) :
    balances'[a]? =
      if a ∈ tracked ∧ a ∈ changes.map Prod.fst then (balances[a]?).map (· + c a)
      else balances[a]? := by
  induction changes generalizing balances with
  | nil =>
    obtain rfl := Except.ok.inj h
    simp
  | cons e changes ih =>
    obtain ⟨b, change⟩ := e
    obtain ⟨first, values⟩ := List.forall_mem_cons.1 values
    obtain ⟨apart, distinct⟩ := List.pairwise_cons.1 distinct
    obtain ⟨next, rest, changed⟩ := applyChanges_cons h
    rw [ih values distinct rest, changed]
    simp only [List.map_cons, List.mem_cons]
    -- the account of the first change is changed by no later one
    by_cases same : a = b
    · subst same
      have once : a ∉ changes.map Prod.fst := by
        intro later
        obtain ⟨e, he, rfl⟩ := List.mem_map.1 later
        exact apart e he Std.ReflCmp.compare_self
      have amount : change = c a := first
      simp [once, amount]
    · by_cases later : a ∈ changes.map Prod.fst <;> simp [same, later]

theorem getD_of_mem_toList {effects : Balances} : ∀ e ∈ effects.toList, e.2 = effects.getD e.1 0 := by
  intro e he
  have found := Std.ExtTreeMap.mem_toList_iff_getElem?_eq_some.1 he
  simp [Std.ExtTreeMap.getD_eq_getD_getElem?, found]

/-- An account with a change is one of those that are listed. -/
theorem getElem?_of_getD_ne {effects : Balances} {a : Address} (h : effects.getD a 0 ≠ 0) :
    effects[a]? = some (effects.getD a 0) := by
  rw [Std.ExtTreeMap.getD_eq_getD_getElem?] at h ⊢
  cases found : effects[a]? with
  | none =>
    rw [found] at h
    exact absurd rfl h
  | some n => rfl

/-- What a transaction moves is added to every tracked balance. -/
theorem getElem?_of_effects {effects : Balances}
    (h : applyChanges tracked balances effects.toList = .ok balances') (a : Address) :
    balances'[a]? =
      if a ∈ tracked then (balances[a]?).map (· + effects.getD a 0) else balances[a]? := by
  have distinct : effects.toList.Pairwise fun x y => ¬ compare x.1 y.1 = .eq :=
    Std.ExtTreeMap.distinct_keys_toList
  rw [getElem?_of_applyChanges (c := fun a => effects.getD a 0) getD_of_mem_toList distinct h]
  by_cases named : a ∈ effects
  · have member : a ∈ effects.toList.map Prod.fst := by
      rw [Std.ExtTreeMap.map_fst_toList_eq_keys]
      exact Std.ExtTreeMap.mem_keys.2 named
    by_cases htracked : a ∈ tracked
    · rw [if_pos htracked, if_pos ⟨htracked, member⟩]
    · rw [if_neg htracked, if_neg fun h => htracked h.1]
  · have absent : effects.getD a 0 = 0 := Std.ExtTreeMap.getD_eq_fallback named
    simp [absent]

/-- The change moves a tracked account below zero. -/
def sinks (tracked : AddressSet) (v : Address → Int) (e : Address × Int) : Bool :=
  tracked.contains e.1 && e.2 != 0 && decide (v e.1 + e.2 < 0)

/-- Changes of distinct accounts fail at the first of them that moves a tracked account below
zero. -/
theorem applyChanges_eq_error_iff {changes : List (Address × Int)} {f : Fault}
    (distinct : changes.Pairwise fun x y => ¬ compare x.1 y.1 = .eq)
    (held : ∀ e ∈ changes, e.1 ∈ tracked → balances[e.1]? = some (v e.1)) :
    applyChanges tracked balances changes = .error f ↔
      ∃ e, changes.find? (sinks tracked v) = some e ∧
        f = .ofUnderflow ⟨e.1, .int (v e.1), max e.2 0, max (-e.2) 0⟩ := by
  induction changes generalizing balances with
  | nil => simp [applyChanges]
  | cons e changes ih =>
    obtain ⟨b, change⟩ := e
    obtain ⟨apart, distinct⟩ := List.pairwise_cons.1 distinct
    obtain ⟨here, later⟩ := List.forall_mem_cons.1 held
    unfold applyChanges
    split
    · next still =>
      have passed : sinks tracked v (b, change) = false := by
        simp only [Bool.or_eq_true, Bool.not_eq_true', decide_eq_true_eq] at still
        rcases still with untracked | zero <;> simp [sinks, *]
      rw [List.find?_cons, passed]
      exact ih distinct later
    · next moving =>
      obtain ⟨member, nonzero⟩ : b ∈ tracked ∧ ¬ change = 0 := by simpa using moving
      have tracks : tracked.contains b = true := Std.ExtTreeSet.contains_iff_mem.2 member
      simp only [here member, Holding.plus_int, ok_bind, Holding.isNegative_int,
        Holding.toValue_int]
      by_cases short : v b + change < 0
      · have sunk : sinks tracked v (b, change) = true := by simp [sinks, tracks, nonzero, short]
        simp [sunk, short, eq_comm]
      · have passed : sinks tracked v (b, change) = false := by simp [sinks, short]
        simp only [short, decide_false, Bool.false_eq_true, if_false, List.find?_cons, passed]
        refine ih distinct fun e he member => ?_
        rw [Std.ExtTreeMap.getElem?_insert, if_neg (apart e he)]
        exact later e he member

/-- What a transaction moves is added to the tracked balances, or leaves one of them below zero. -/
theorem applyChanges_cases (effects : Balances) (held : ∀ a ∈ tracked, balances[a]? = some (v a)) :
    (∃ balances', applyChanges tracked balances effects.toList = .ok balances' ∧
      (∀ a ∈ tracked, balances'[a]? = some (v a + effects.getD a 0)) ∧
      ∀ a ∈ tracked, effects.getD a 0 ≠ 0 → ¬ v a + effects.getD a 0 < 0) ∨
    ∃ a ∈ tracked, effects.getD a 0 ≠ 0 ∧ v a + effects.getD a 0 < 0 ∧
      applyChanges tracked balances effects.toList =
        .error (.ofUnderflow ⟨a, .int (v a), max (effects.getD a 0) 0, max (-effects.getD a 0) 0⟩) := by
  have distinct : effects.toList.Pairwise fun x y => ¬ compare x.1 y.1 = .eq :=
    Std.ExtTreeMap.distinct_keys_toList
  have fails (f : Fault) := applyChanges_eq_error_iff (f := f) distinct fun e _ => held e.1
  cases first : effects.toList.find? (sinks tracked v) with
  | some e =>
    have sunk := List.find?_some first
    have amount := getD_of_mem_toList e (List.mem_of_find?_eq_some first)
    obtain ⟨⟨member, nonzero⟩, short⟩ : (e.1 ∈ tracked ∧ ¬ e.2 = 0) ∧ v e.1 + e.2 < 0 := by
      simpa [sinks] using sunk
    have failed := (fails _).2 ⟨e, first, rfl⟩
    rw [amount] at nonzero short failed
    exact .inr ⟨e.1, member, nonzero, short, failed⟩
  | none =>
    cases applied : applyChanges tracked balances effects.toList with
    | error f =>
      obtain ⟨e, found, -⟩ := (fails f).1 applied
      rw [first] at found
      nomatch found
    | ok balances' =>
      refine .inl ⟨balances', rfl, fun a ha => ?_, fun a ha nonzero short => ?_⟩
      · rw [getElem?_of_effects applied, if_pos ha, held a ha]
        rfl
      · refine List.find?_eq_none.1 first (a, effects.getD a 0)
          (Std.ExtTreeMap.mem_toList_iff_getElem?_eq_some.2 (getElem?_of_getD_ne nonzero)) ?_
        simpa [sinks] using ⟨⟨ha, nonzero⟩, short⟩

/-- What a transaction changes for a query is what it changes in its view. -/
theorem Shows.apply {effects : Balances} (shows : Shows tracked parent balances v)
    (h : applyChanges tracked balances effects.toList = .ok balances') :
    Shows tracked parent balances' (applied tracked effects v) := by
  have changed := getElem?_of_effects h
  constructor
  · intro a
    have seen := shows.seen a
    unfold applied
    rw [changed]
    split
    · next htracked =>
      have held := Std.ExtTreeMap.mem_iff_isSome_getElem?.1 ((shows.tracked a).2 htracked)
      obtain ⟨n, found⟩ := Option.isSome_iff_exists.1 held
      rw [seen, found]
      rfl
    · exact seen
  · intro a
    rw [← shows.tracked a, Std.ExtTreeMap.mem_iff_isSome_getElem?,
      Std.ExtTreeMap.mem_iff_isSome_getElem?, changed]
    split <;> simp

variable {p : BlockPrefix} {client : Client σ} {holding : BlockId → Address → Int}
  {tracesOf : List TxId → Except Fault (List Trace)}

/-- A transaction of the prefix finds the balances that the query sees. -/
theorem running_gives (steady : client.Steady holding tracesOf)
    (shows : Shows tracked (holding (.number p.parent)) balances v) (a : Address) (s : σ) (n : Int)
    (s' : σ) (given : ((p.running client balances).one a).outcome s = (.ok n, s')) :
    some (v a) = some n := by
  rw [shows.seen a]
  unfold running at given
  cases held : balances[a]? with
  | some balance =>
    simp only [held] at given
    rw [← Except.ok.inj (Prod.mk.inj given).1]
    rfl
  | none =>
    simp only [held] at given
    rw [steady.balance a _ s n s' given]
    rfl

theorem view_of_advance (steady : client.Steady holding tracesOf)
    {items : List (Transaction × Trace)}
    (shows : Shows tracked (holding (.number p.parent)) balances v) {s s' : σ}
    (advanced : (p.advance client tracked items balances).outcome s = (.ok balances', s')) :
    ∃ v', view tracked items v = .ok v' ∧
      Shows tracked (holding (.number p.parent)) balances' v' := by
  induction items generalizing balances v s with
  | nil =>
    obtain rfl := Except.ok.inj (Prod.mk.inj advanced).1
    exact ⟨v, rfl, shows⟩
  | cons item rest ih =>
    obtain ⟨tx, trace⟩ := item
    obtain ⟨effects, s₁, made, advanced⟩ := Asking.outcome_bind_eq_ok.1 advanced
    obtain ⟨next, s₂, changed, advanced⟩ := Asking.outcome_bind_eq_ok.1 advanced
    have found := effectsFrom_of_source (running_gives steady shows) made
    obtain ⟨v', seen, shown⟩ := ih (shows.apply (Prod.mk.inj changed).1) advanced
    exact ⟨v', by rw [view, found]; exact seen, shown⟩

theorem select_eq_ok {balances : Balances} {addresses : List Address}
    (held : ∀ a ∈ addresses, a ∈ balances) :
    ∃ result, select balances addresses = .ok result ∧
      ∀ a, result[a]? = if a ∈ addresses then balances[a]? else none := by
  induction addresses with
  | nil => exact ⟨∅, rfl, by simp⟩
  | cons b addresses ih =>
    obtain ⟨first, rest⟩ := List.forall_mem_cons.1 held
    obtain ⟨n, hn⟩ := Option.isSome_iff_exists.1 (Std.ExtTreeMap.mem_iff_isSome_getElem?.1 first)
    obtain ⟨result, selected, found⟩ := ih rest
    refine ⟨result.insert b n, by simp only [select, hn, selected]; rfl, fun a => ?_⟩
    rw [Std.ExtTreeMap.getElem?_insert, found]
    by_cases same : b = a
    · subst same
      simp [hn]
    · have other : compare b a ≠ .eq := fun h => same (Std.LawfulEqCmp.eq_of_compare h)
      simp [other, Ne.symm same]

theorem held_of_select {addresses : List Address} {result : Balances}
    (h : select balances addresses = .ok result) : ∀ a ∈ addresses, a ∈ balances := by
  induction addresses generalizing result with
  | nil => exact List.forall_mem_nil _
  | cons b addresses ih =>
    unfold select at h
    cases held : balances[b]? with
    | none => simp [held] at h
    | some n =>
      simp only [held] at h
      obtain ⟨rest, selected, -⟩ := bind_eq_ok.1 h
      refine List.forall_mem_cons.2 ⟨?_, ih selected⟩
      exact Std.ExtTreeMap.mem_iff_isSome_getElem?.2 (by rw [held]; rfl)

theorem getElem?_of_select {addresses : List Address} {result : Balances}
    (h : select balances addresses = .ok result) (a : Address) :
    result[a]? = if a ∈ addresses then balances[a]? else none := by
  obtain ⟨result', selected, found⟩ := select_eq_ok (held_of_select h)
  obtain rfl := Except.ok.inj (selected.symm.trans h)
  exact found a

def ids (p : BlockPrefix) : List TxId := p.transactions.map fun tx => .ofBytes tx.hash

/-- The traces that were fetched before, if any, are those that the node has. -/
def Cached (p : BlockPrefix) (tracesOf : List TxId → Except Fault (List Trace)) (w : Traced σ) :
    Prop := ∀ traces, w.1 = some traces → tracesOf p.ids = .ok traces

theorem traces_eq_ok (steady : client.Steady holding tracesOf) {w w' : Traced σ}
    (cached : p.Cached tracesOf w) {traces : List Trace}
    (h : (p.traces client).outcome w = (.ok traces, w')) : tracesOf p.ids = .ok traces := by
  obtain ⟨known, s⟩ := w
  simp only [BlockPrefix.traces, Asking.outcome_ofOutcome] at h
  cases known with
  | some traces' =>
    obtain rfl := Except.ok.inj (Prod.mk.inj h).1
    exact cached traces' rfl
  | none =>
    simp only at h
    split at h
    · next s₁ fetched =>
      obtain rfl := Except.ok.inj (Prod.mk.inj h).1
      exact steady.traces _ s _ s₁ fetched
    · simp at h

theorem eq_empty_of_isEmpty {tracked : AddressSet} (empty : tracked.toList.isEmpty = true) :
    tracked = ∅ := Std.ExtTreeSet.toList_eq_nil_iff.1 (List.isEmpty_iff.1 empty)

/-- The balances of the tracked accounts at the parent block, fetched at once if there are any. -/
def fetch (p : BlockPrefix) (client : Client σ) (tracked : AddressSet) :
    Asking (Traced σ) Balances :=
  if tracked.toList.isEmpty then pure ∅
  else Asking.beside (client.balances tracked (.number p.parent))

/-- Takes balances through the prefix and selects those of the tracked accounts. -/
def follow (p : BlockPrefix) (client : Client σ) (tracked : AddressSet) (fetched : Balances) :
    Asking (Traced σ) Balances := do
  let traces ← p.traces client
  let balances ← Asking.beside (p.advance client tracked (p.transactions.zip traces) fetched)
  .ofExcept (select balances tracked.toList)

/-- The tracked accounts whose balances at the parent block are not known yet. -/
def unsupplied (tracked : AddressSet) (known : Balances) : AddressSet :=
  Std.ExtTreeSet.ofList (unknown tracked known)

theorem mem_unsupplied {known : Balances} {a : Address} :
    a ∈ unsupplied tracked known ↔ a ∈ tracked ∧ a ∉ known := by
  simp [unsupplied, unknown, ← Std.ExtTreeMap.contains_iff_mem]

/-- A query fetches the balances that it lacks, and goes on with these and the known ones. -/
theorem preBalances_eq_of_known (p : BlockPrefix) (client : Client σ) (tracked : AddressSet)
    (known : Balances) : p.preBalances client tracked known =
      p.fetch client (unsupplied tracked known) >>= fun fetched =>
        p.follow client tracked (known ∪ fetched) := by
  have same (fetched : Balances) : (fetched.map fun _ n => (Holding.ofInt n : Int)) = fetched :=
    Std.ExtTreeMap.ext_getElem? fun a => by simp
  have empty : (unknown tracked known).isEmpty = (unsupplied tracked known).toList.isEmpty := by
    rw [Bool.eq_iff_iff]
    simp [List.isEmpty_iff, List.eq_nil_iff_forall_not_mem, unsupplied]
  simp only [preBalances, fetch, follow, same, empty]
  split <;> rfl

theorem preBalances_eq (p : BlockPrefix) (client : Client σ) (tracked : AddressSet) :
    p.preBalances client tracked = p.fetch client tracked >>= p.follow client tracked := by
  have all : unsupplied tracked ∅ = tracked :=
    Std.ExtTreeSet.ext_mem fun a => by simp [mem_unsupplied]
  have alone (fetched : Balances) : ∅ ∪ fetched = fetched :=
    Std.ExtTreeMap.ext_getElem? fun a => by simp [Std.ExtTreeMap.getElem?_union]
  simp only [preBalances_eq_of_known, all, alone]

/-- A query fetches the balances of the accounts it tracks, and no others. -/
theorem fetch_eq_ok (steady : client.Steady holding tracesOf) {w w' : Traced σ}
    {fetched : Balances} (h : (p.fetch client tracked).outcome w = (.ok fetched, w')) :
    w'.1 = w.1 ∧ ∀ a,
      fetched[a]? = if a ∈ tracked then some (holding (.number p.parent) a) else none := by
  unfold fetch at h
  split at h
  · next empty =>
    obtain rfl := eq_empty_of_isEmpty empty
    obtain ⟨came, rfl⟩ := Prod.mk.inj h
    obtain rfl := Except.ok.inj came
    exact ⟨rfl, fun a => by simp⟩
  · rw [Asking.outcome_beside] at h
    obtain ⟨made, rfl⟩ := Prod.mk.inj h
    exact ⟨rfl, steady.balances _ _ w.2 fetched _ (Prod.ext made rfl)⟩

theorem shows_start {fetched : Balances}
    (known : ∀ a, fetched[a]? = if a ∈ tracked then some (parent a) else none) :
    Shows tracked parent fetched parent := by
  constructor
  · intro a
    rw [known]
    split <;> rfl
  · intro a
    rw [Std.ExtTreeMap.mem_iff_isSome_getElem?, known]
    split <;> simp [*]

/-- A query starts from the balances of the parent block, takes them through the prefix and selects
the tracked ones; all that it keeps is the traces. -/
theorem preBalances_eq_ok (steady : client.Steady holding tracesOf) {w w' : Traced σ}
    {result : Balances} (h : (p.preBalances client tracked).outcome w = (.ok result, w')) :
    ∃ start traces balances w₁ w₂ s, w₁.1 = w.1 ∧ w'.1 = w₂.1 ∧
      Shows tracked (holding (.number p.parent)) start (holding (.number p.parent)) ∧
      (p.traces client).outcome w₁ = (.ok traces, w₂) ∧
      (p.advance client tracked (p.transactions.zip traces) start).outcome w₂.2 =
        (.ok balances, s) ∧ select balances tracked.toList = .ok result := by
  rw [preBalances_eq] at h
  obtain ⟨fetched, w₁, came, h⟩ := Asking.outcome_bind_eq_ok.1 h
  obtain ⟨kept, known⟩ := fetch_eq_ok steady came
  obtain ⟨traces, w₂, traced, h⟩ := Asking.outcome_bind_eq_ok.1 h
  obtain ⟨balances, w₃, advanced, h⟩ := Asking.outcome_bind_eq_ok.1 h
  rw [Asking.outcome_beside] at advanced
  obtain ⟨came, rfl⟩ := Prod.mk.inj advanced
  obtain ⟨selected, rfl⟩ := Prod.mk.inj h
  exact ⟨_, traces, balances, w₁, w₂, _, kept, rfl, shows_start known, traced, Prod.ext came rfl,
    selected⟩

/-- A query reports what it sees. -/
theorem view_of_preBalances (steady : client.Steady holding tracesOf) {w w' : Traced σ}
    (cached : p.Cached tracesOf w) {result : Balances}
    (h : (p.preBalances client tracked).outcome w = (.ok result, w')) :
    ∃ traces v, tracesOf p.ids = .ok traces ∧
      view tracked (p.transactions.zip traces) (holding (.number p.parent)) = .ok v ∧
      ∀ a ∈ tracked, result[a]? = some (v a) := by
  obtain ⟨start, traces, balances, w₁, w₂, s, kept, -, shown, traced, advanced, selected⟩ :=
    preBalances_eq_ok steady h
  have read : tracesOf p.ids = .ok traces := by
    refine traces_eq_ok steady ?_ traced
    intro ts hts
    exact cached ts (kept ▸ hts)
  obtain ⟨v, seen, shows⟩ := view_of_advance steady shown advanced
  refine ⟨traces, v, read, seen, fun a ha => ?_⟩
  have reported := getElem?_of_select selected a
  have held := Std.ExtTreeMap.mem_iff_isSome_getElem?.1 ((shows.tracked a).2 ha)
  obtain ⟨n, found⟩ := Option.isSome_iff_exists.1 held
  rw [reported, if_pos (Std.ExtTreeSet.mem_toList.2 ha), shows.seen a, found]
  rfl

variable {inner outer : AddressSet} {w : Address → Int}

/-- The balances that two queries value alike: all but those of accounts that the larger query alone
follows and that are no longer what they were at the parent block. -/
def common (inner outer : AddressSet) (parent v : Address → Int) : Address → Option Int :=
  fun a => if a ∈ outer ∧ a ∉ inner ∧ v a ≠ parent a then none else some (v a)

/-- No transaction asks for a balance that the two queries may value in two ways. -/
def undisturbed (inner outer : AddressSet) (parent : Address → Int) :
    List (Transaction × Trace) → (Address → Int) → Bool
  | [], _ => true
  | (tx, trace) :: rest, v =>
    match effectsFrom (common inner outer parent v) tx trace with
    | .ok effects => undisturbed inner outer parent rest (applied outer effects v)
    | .error _ => false

/-- Two queries see the same balances of the accounts that both follow. -/
structure Agree (inner outer : AddressSet) (parent v w : Address → Int) : Prop where
  both : ∀ a ∈ inner, v a = w a
  inner : ∀ a, a ∉ inner → v a = parent a
  outer : ∀ a, a ∉ outer → w a = parent a

theorem Agree.gives_inner (agree : Agree inner outer parent v w) (a : Address) (n : Int)
    (given : common inner outer parent w a = some n) : some (v a) = some n := by
  unfold common at given
  split at given
  · nomatch given
  · next alike =>
    rw [← given]
    by_cases hinner : a ∈ inner
    · rw [agree.both a hinner]
    · rw [agree.inner a hinner]
      by_cases houter : a ∈ outer
      · by_cases same : w a = parent a
        · rw [same]
        · exact absurd ⟨houter, hinner, same⟩ alike
      · rw [agree.outer a houter]

theorem Agree.gives_outer (a : Address) (n : Int)
    (given : common inner outer parent w a = some n) : some (w a) = some n := by
  unfold common at given
  split at given
  · nomatch given
  · exact given

theorem Agree.applied (sub : ∀ a ∈ inner, a ∈ outer) (agree : Agree inner outer parent v w)
    (effects : Balances) :
    Agree inner outer parent (applied inner effects v) (applied outer effects w) where
  both a ha := by
    unfold BlockPrefix.applied
    rw [if_pos ha, if_pos (sub a ha), agree.both a ha]
  inner a ha := by
    unfold BlockPrefix.applied
    rw [if_neg ha, agree.inner a ha]
  outer a ha := by
    unfold BlockPrefix.applied
    rw [if_neg ha, agree.outer a ha]

theorem agree_of_undisturbed (sub : ∀ a ∈ inner, a ∈ outer) {items : List (Transaction × Trace)}
    (agree : Agree inner outer parent v w)
    (calm : undisturbed inner outer parent items w = true) {v' w' : Address → Int}
    (hv : view inner items v = .ok v') (hw : view outer items w = .ok w') :
    Agree inner outer parent v' w' := by
  induction items generalizing v w with
  | nil =>
    obtain rfl := Except.ok.inj hv
    obtain rfl := Except.ok.inj hw
    exact agree
  | cons item rest ih =>
    obtain ⟨tx, trace⟩ := item
    unfold undisturbed at calm
    split at calm
    · next effects made =>
      -- both views give every balance that is asked for, hence the same effects
      rw [view, effectsFrom_mono agree.gives_inner made] at hv
      rw [view, effectsFrom_mono Agree.gives_outer made] at hw
      exact ih (agree.applied sub effects) calm hv hw
    · nomatch calm

/-- Two queries of one prefix, the second of which follows more accounts, report the same balance of
an account exactly when they see it so. They do for all accounts of the first one when no
transaction of the prefix asks for the changed balance of an account that the second one adds. -/
theorem preBalances_eq_iff {node : Node σ} {answers : Node.Answers} (steady : node.Steady answers)
    (workers : Rpc.Value) (sub : ∀ a ∈ inner, a ∈ outer) {s s' t t' : Traced σ}
    (cached : p.Cached answers.tracesOf s) (cached' : p.Cached answers.tracesOf t)
    {few many : Balances}
    (hfew : (p.preBalances (node.client workers) inner).outcome s = (.ok few, s'))
    (hmany : (p.preBalances (node.client workers) outer).outcome t = (.ok many, t')) :
    ∃ traces v w, answers.tracesOf p.ids = .ok traces ∧
      view inner (p.transactions.zip traces) (answers.holding (.number p.parent)) = .ok v ∧
      view outer (p.transactions.zip traces) (answers.holding (.number p.parent)) = .ok w ∧
      (∀ a ∈ inner, few[a]? = some (v a) ∧ many[a]? = some (w a)) ∧
      (∀ a ∈ inner, few[a]? = many[a]? ↔ v a = w a) ∧
      (undisturbed inner outer (answers.holding (.number p.parent)) (p.transactions.zip traces)
          (answers.holding (.number p.parent)) = true →
        ∀ a ∈ inner, few[a]? = many[a]?) := by
  have client := Node.steady_client steady workers
  obtain ⟨traces, v, read, hv, reportsFew⟩ := view_of_preBalances client cached hfew
  obtain ⟨traces', w, read', hw, reportsMany⟩ := view_of_preBalances client cached' hmany
  obtain rfl : traces = traces' := Except.ok.inj (read.symm.trans read')
  have reports (a : Address) (ha : a ∈ inner) : few[a]? = some (v a) ∧ many[a]? = some (w a) :=
    ⟨reportsFew a ha, reportsMany a (sub a ha)⟩
  have same (a : Address) (ha : a ∈ inner) : few[a]? = many[a]? ↔ v a = w a := by
    rw [(reports a ha).1, (reports a ha).2, Option.some_inj]
  refine ⟨traces, v, w, read, hv, hw, reports, same, ?_⟩
  intro calm a ha
  have start : Agree inner outer (answers.holding (.number p.parent))
      (answers.holding (.number p.parent)) (answers.holding (.number p.parent)) :=
    ⟨fun _ _ => rfl, fun _ _ => rfl, fun _ _ => rfl⟩
  exact (same a ha).2 ((agree_of_undisturbed sub start calm hv hw).both a ha)

theorem cached_empty (tracesOf : List TxId → Except Fault (List Trace)) (s : σ) :
    p.Cached tracesOf (none, s) := fun _ h => nomatch h

def destroyed : Address := .ofNat 0xc0de

def beneficiary : Address := .ofNat 0x11b

def payment (nonce : Nat) (value : Int) : Transaction :=
  { hash := List.replicate 31 0 ++ [(nonce + 1).toUInt8], sender := some (.ofNat 0xa11ce)
    target := some destroyed, nonce := .ofInt nonce, value := value, input := []
    gas := .ofInt 100000, gasPrice := 10 }

def paidThenDestroyed : BlockPrefix := { parent := 99, transactions := [payment 0 50, payment 1 0] }

/-- All accounts hold a million at the parent block; the second transaction destroys the account
that the first one pays. -/
def destruction : Node.Answers where
  balance _ _ := .int 1000000
  trace hash :=
    let destroy : Rpc.Value :=
      .object [("op", .text "SELFDESTRUCT"), ("depth", .int 1), ("stack", .list [.text "0x11b"])]
    let records := if hash = (TxId.ofBytes (payment 1 0).hash).hex then [destroy] else []
    .object [("result",
      .object [("gas", .int 21000), ("failed", .bool false), ("structLogs", .list records)])]

def reported (accounts : AddressSet) : Except Fault Balances × Traced Unit :=
  (paidThenDestroyed.preBalances (Node.answering destruction).client accounts).outcome (none, ())

def alone : AddressSet := Std.ExtTreeSet.ofList [beneficiary]

def withIdle : AddressSet := Std.ExtTreeSet.ofList [beneficiary, .ofNat 9]

def withDestroyed : AddressSet := Std.ExtTreeSet.ofList [beneficiary, destroyed]

theorem reported_of_balance {accounts : AddressSet} {a : Address} {n : Int}
    (h : (reported accounts).1.toOption.bind (·[a]?) = some n) :
    ∃ result, reported accounts = (.ok result, (reported accounts).2) ∧ result[a]? = some n := by
  rcases made : reported accounts with ⟨_ | result, s⟩
  · simp [made, Except.toOption] at h
  · rw [made] at h
    exact ⟨result, rfl, h⟩

theorem reported_alone : (reported alone).1.toOption.bind (·[beneficiary]?) = some 2000000 := by
  decide +kernel

/-- The beneficiary is worth the same to a query that follows an idle account as well. -/
theorem preBalances_eq_paidThenDestroyed :
    ∃ few many, (reported alone).1 = .ok few ∧ (reported withIdle).1 = .ok many ∧
      few[beneficiary]? = many[beneficiary]? := by
  have idle : (reported withIdle).1.toOption.bind (·[beneficiary]?) = some 2000000 := by
    decide +kernel
  obtain ⟨few, hfew, -⟩ := reported_of_balance reported_alone
  obtain ⟨many, hmany, -⟩ := reported_of_balance idle
  have sub : ∀ a ∈ alone, a ∈ withIdle := by simp [alone, withIdle]
  have calm : (destruction.tracesOf paidThenDestroyed.ids).toOption.map (fun traces =>
      undisturbed alone withIdle (destruction.holding (.number 99))
        (paidThenDestroyed.transactions.zip traces) (destruction.holding (.number 99))) =
      some true := by
    decide +kernel
  obtain ⟨traces, v, w, read, hv, hw, reports, same, agree⟩ :=
    preBalances_eq_iff (Node.steady_answering destruction) (.int 8) sub (cached_empty _ _)
      (cached_empty _ _) hfew hmany
  rw [read] at calm
  refine ⟨few, many, by rw [hfew], by rw [hmany], agree (Option.some.inj calm) _ ?_⟩
  simp [alone]

/-- It is worth more to a query that follows the destroyed account as well. -/
theorem preBalances_ne_paidThenDestroyed :
    beneficiary ∈ alone ∧ (∀ a ∈ alone, a ∈ withDestroyed) ∧
      ∃ few many, (reported alone).1 = .ok few ∧ (reported withDestroyed).1 = .ok many ∧
        few[beneficiary]? = some 2000000 ∧ many[beneficiary]? = some 2000050 := by
  have followed : (reported withDestroyed).1.toOption.bind (·[beneficiary]?) = some 2000050 := by
    decide +kernel
  obtain ⟨few, hfew, lower⟩ := reported_of_balance reported_alone
  obtain ⟨many, hmany, higher⟩ := reported_of_balance followed
  refine ⟨by simp [alone], by simp [alone, withDestroyed], few, many, ?_, ?_, lower, higher⟩
  · rw [hfew]
  · rw [hmany]

end BlockPrefix

end TraceDiff
