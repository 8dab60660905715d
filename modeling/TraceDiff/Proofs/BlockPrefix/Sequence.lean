import TraceDiff.Proofs.BlockPrefix.Destroyed
import TraceDiff.Proofs.Client

/-! A query of a prefix, beside the transactions executed one after another on all balances. It
knows the balances of the accounts that it follows; if those that are destroyed are among them, it
needs no others, and reports what comes of the sequence. -/
namespace TraceDiff.BlockPrefix

variable {σ : Type}

/-- The balances after some transactions, each of which finds those that the ones before it left. -/
def balancesAfter :
    List (Transaction × Trace) → (Address → Int) → Except Fault (Address → Int)
  | [], v => .ok v
  | (tx, trace) :: rest, v => do
    let effects ← effectsFrom (fun a => some (v a)) tx trace
    balancesAfter rest fun a => v a + effects.getD a 0

/-- Transaction `k` changes the balance of a tracked account, and leaves it below zero. -/
inductive Overdraft (tracked : AddressSet) (v : Address → Int) (items : List (Transaction × Trace))
    (k : Nat) : Underflow → Prop
  | sunk {tx : Transaction} {trace : Trace} {found : Address → Int} {effects : Balances}
      {a : Address} (next : items[k]? = some (tx, trace))
      (before : balancesAfter (items.take k) v = .ok found)
      (made : effectsFrom (fun a => some (found a)) tx trace = .ok effects) (member : a ∈ tracked)
      (changed : effects.getD a 0 ≠ 0) (short : found a + effects.getD a 0 < 0) :
      Overdraft tracked v items k
        { address := a, pre := .int (found a), credit := max (effects.getD a 0) 0
          debit := max (-effects.getD a 0) 0 }

/-- No transaction before that one does. -/
def FirstOverdraft (tracked : AddressSet) (v : Address → Int) (items : List (Transaction × Trace))
    (k : Nat) (u : Underflow) : Prop :=
  Overdraft tracked v items k u ∧ ∀ j < k, ∀ u', ¬ Overdraft tracked v items j u'

variable {tracked : AddressSet} {balances balances' known fetched effects : Balances}
  {v v' : Address → Int} {tx : Transaction} {trace : Trace} {items : List (Transaction × Trace)}
  {k : Nat} {u : Underflow}

theorem balancesAfter_cons (made : effectsFrom (fun a => some (v a)) tx trace = .ok effects) :
    balancesAfter ((tx, trace) :: items) v =
      balancesAfter items fun a => v a + effects.getD a 0 := by
  rw [balancesAfter, made, ok_bind]

theorem balancesAfter_append (xs ys : List (Transaction × Trace)) :
    balancesAfter (xs ++ ys) v = balancesAfter xs v >>= balancesAfter ys := by
  induction xs generalizing v with
  | nil => rfl
  | cons x xs ih =>
    simp only [List.cons_append, balancesAfter, bind_assoc]
    exact bind_congr fun effects => ih

theorem overdraft_succ (made : effectsFrom (fun a => some (v a)) tx trace = .ok effects) :
    Overdraft tracked v ((tx, trace) :: items) (k + 1) u ↔
      Overdraft tracked (fun a => v a + effects.getD a 0) items k u := by
  constructor
  · rintro ⟨next, before, made', member, changed, short⟩
    rw [List.take_succ_cons, balancesAfter_cons made] at before
    exact ⟨next, before, made', member, changed, short⟩
  · rintro ⟨next, before, made', member, changed, short⟩
    refine ⟨next, ?_, made', member, changed, short⟩
    rw [List.take_succ_cons, balancesAfter_cons made]
    exact before

/-- The account is below zero afterwards. -/
theorem Overdraft.negative (h : Overdraft tracked v items k u) :
    u.address ∈ tracked ∧ k < items.length ∧
      ∃ v', balancesAfter (items.take (k + 1)) v = .ok v' ∧ v' u.address < 0 := by
  obtain @⟨tx, trace, found, effects, a, next, before, made, member, changed, short⟩ := h
  refine ⟨member, (List.getElem?_eq_some_iff.1 next).1, fun a => found a + effects.getD a 0, ?_,
    short⟩
  rw [List.take_add_one, next, balancesAfter_append, before, ok_bind]
  exact balancesAfter_cons made

section Advancing

variable {p : BlockPrefix} {client : Client σ}

/-- A transaction that destroys tracked accounts alone moves what it moves in the sequence. -/
theorem effects_of_running (held : ∀ a ∈ tracked, balances[a]? = some (v a))
    (covered : ∀ a ∈ destroyedBy tx trace, a ∈ tracked)
    (made : effectsFrom (fun a => some (v a)) tx trace = .ok effects) (s : σ) :
    ∃ s', (balanceEffects (p.running client balances) tx trace).outcome s = (.ok effects, s') := by
  have below : (BaselineSource.known (balances[·]?)).Below (p.running client balances) := by
    intro a t n t' given s
    refine ⟨s, ?_⟩
    cases told : balances[a]? with
    | none => simp [BaselineSource.known, told] at given
    | some m =>
      simp only [BaselineSource.known, told] at given
      obtain rfl := Except.ok.inj (Prod.mk.inj given).1
      simp only [running, told]
      rfl
  have restricted : effectsFrom (balances[·]?) tx trace = .ok effects :=
    effectsFrom_of_destroyed (fun a ha => (held a (covered a ha)).symm) made
  have answered : (balanceEffects (.known (balances[·]?)) tx trace).outcome () =
      (.ok effects, ()) := Prod.ext restricted rfl
  exact below_balanceEffects below tx trace () effects () answered s

/-- The tracked balances go the way of the sequence, up to the first transaction that leaves one of
them below zero. -/
theorem advance_cases (held : ∀ a ∈ tracked, balances[a]? = some (v a))
    (covered : ∀ item ∈ items, ∀ a ∈ destroyedBy item.1 item.2, a ∈ tracked)
    (replayed : balancesAfter items v = .ok v') (s : σ) :
    (∃ balances' s', (p.advance client tracked items balances).outcome s = (.ok balances', s') ∧
      (∀ a ∈ tracked, balances'[a]? = some (v' a)) ∧ ∀ k u, ¬ Overdraft tracked v items k u) ∨
    ∃ k u, FirstOverdraft tracked v items k u ∧
      ((p.advance client tracked items balances).outcome s).1 = .error (.ofUnderflow u) := by
  induction items generalizing balances v s with
  | nil =>
    obtain rfl := Except.ok.inj replayed
    refine .inl ⟨balances, s, rfl, held, ?_⟩
    rintro k u ⟨next⟩
    nomatch next
  | cons item rest ih =>
    obtain ⟨tx, trace⟩ := item
    obtain ⟨first, later⟩ := List.forall_mem_cons.1 covered
    obtain ⟨effects, made, replayed⟩ := bind_eq_ok.1 replayed
    obtain ⟨s₁, moved⟩ : ∃ s₁, (balanceEffects (p.running client balances) tx trace).outcome s =
      (.ok effects, s₁) := effects_of_running held first made s
    have goesOn : (p.advance client tracked ((tx, trace) :: rest) balances).outcome s =
        (Asking.ofExcept (applyChanges tracked balances effects.toList) >>=
          p.advance client tracked rest).outcome s₁ := by
      rw [advance, Asking.outcome_bind, moved]
    rw [goesOn, Asking.outcome_bind, Asking.outcome_ofExcept]
    rcases applyChanges_cases effects held with
      ⟨balances', applied, held', solvent⟩ | ⟨a, member, changed, short, failed⟩
    · rw [applied]
      have sound : ∀ u, ¬ Overdraft tracked v ((tx, trace) :: rest) 0 u := by
        rintro u ⟨next, before, made', member, changed, short⟩
        obtain ⟨rfl, rfl⟩ := Prod.mk.inj (Option.some.inj next)
        obtain rfl := Except.ok.inj before
        obtain rfl := Except.ok.inj (made.symm.trans made')
        exact solvent _ member changed short
      rcases ih held' later replayed s₁ with ⟨balances₂, s₂, ended, told, none⟩ |
        ⟨k, u, ⟨overdrawn, before⟩, failed⟩
      · refine .inl ⟨balances₂, s₂, ended, told, fun k u => ?_⟩
        cases k with
        | zero => exact sound u
        | succ k => exact mt (overdraft_succ made).1 (none k u)
      · refine .inr ⟨k + 1, u, ⟨(overdraft_succ made).2 overdrawn, fun j lt u => ?_⟩, failed⟩
        cases j with
        | zero => exact sound u
        | succ j => exact mt (overdraft_succ made).1 (before j (Nat.lt_of_succ_lt_succ lt) u)
    · rw [failed]
      exact .inr ⟨0, _, ⟨⟨rfl, rfl, made, member, changed, short⟩, nofun⟩, rfl⟩

end Advancing

section Query

variable {p : BlockPrefix} {client : Client σ} {holding : BlockId → Address → Int}
  {tracesOf : List TxId → Except Fault (List Trace)} {block : Block} {target : Transaction}
  {w w₁ w₂ : Traced σ} {traces : List Trace}

theorem of_eq_ok (made : BlockPrefix.of block target = .ok p) :
    p.parent = block.number.value - 1 ∧
      p.transactions = block.transactions.takeWhile fun tx => decide (tx.hash ≠ target.hash) := by
  unfold BlockPrefix.of at made
  split at made
  · next earlier found =>
    obtain rfl := Except.ok.inj made
    obtain ⟨new, tx, later, places, same⟩ := before?_eq_some_iff.1 found
    have apart : ∀ x ∈ earlier, decide (x.hash ≠ target.hash) = true := by
      intro x hx
      exact decide_eq_true fun here => new (here ▸ List.mem_map_of_mem hx)
    refine ⟨rfl, ?_⟩
    rw [places, List.takeWhile_append_of_pos apart, List.takeWhile_cons_of_neg (by simp [same]),
      List.append_nil]
  · nomatch made

/-- A query starts with the balances at the parent block of all accounts that it follows. -/
theorem start_of_fetch (steady : client.Steady holding tracesOf)
    (agree : ∀ a n, known[a]? = some n → n = holding (.number p.parent) a)
    (told : (p.fetch client (unsupplied tracked known)).outcome w = (.ok fetched, w₁)) :
    w₁.1 = w.1 ∧ ∀ a ∈ tracked, (known ∪ fetched)[a]? = some (holding (.number p.parent) a) := by
  obtain ⟨kept, supplied⟩ := fetch_eq_ok steady told
  refine ⟨kept, fun a ha => ?_⟩
  rw [Std.ExtTreeMap.getElem?_union, supplied]
  by_cases held : a ∈ known
  · obtain ⟨n, found⟩ := Option.isSome_iff_exists.1 (Std.ExtTreeMap.mem_iff_isSome_getElem?.1 held)
    rw [if_neg fun h => (mem_unsupplied.1 h).2 held, found, agree a n found]
    rfl
  · rw [if_pos (mem_unsupplied.2 ⟨ha, held⟩)]
    rfl

theorem outcome_preBalances
    (told : (p.fetch client (unsupplied tracked known)).outcome w = (.ok fetched, w₁))
    (traced : (p.traces client).outcome w₁ = (.ok traces, w₂)) :
    ((p.preBalances client tracked known).outcome w).1 =
      ((p.advance client tracked (p.transactions.zip traces) (known ∪ fetched)).outcome w₂.2).1 >>=
        fun balances => select balances tracked.toList := by
  rw [preBalances_eq_of_known, Asking.outcome_bind, told]
  simp only [follow, Asking.outcome_bind, traced]
  rw [Asking.outcome_beside]
  rcases (p.advance client tracked (p.transactions.zip traces) (known ∪ fetched)).outcome w₂.2
    with ⟨_ | balances, s⟩ <;> rfl

theorem read_of_traces (steady : client.Steady holding tracesOf)
    (agree : ∀ a n, known[a]? = some n → n = holding (.number p.parent) a)
    (cached : p.Cached tracesOf w)
    (told : (p.fetch client (unsupplied tracked known)).outcome w = (.ok fetched, w₁))
    (traced : (p.traces client).outcome w₁ = (.ok traces, w₂)) : tracesOf p.ids = .ok traces := by
  obtain ⟨kept, -⟩ := start_of_fetch steady agree told
  refine traces_eq_ok steady ?_ traced
  intro ts hts
  exact cached ts (kept ▸ hts)

theorem select_tracked (held : ∀ a ∈ tracked, balances[a]? = some (v a)) :
    ∃ result, select balances tracked.toList = .ok result ∧
      ∀ a, result[a]? = if a ∈ tracked then some (v a) else none := by
  have all : ∀ a ∈ tracked.toList, a ∈ balances := by
    intro a ha
    rw [Std.ExtTreeMap.mem_iff_isSome_getElem?, held a (Std.ExtTreeSet.mem_toList.1 ha)]
    rfl
  obtain ⟨result, selected, found⟩ := select_eq_ok all
  refine ⟨result, selected, fun a => ?_⟩
  rw [found]
  by_cases ha : a ∈ tracked
  · rw [if_pos ha, if_pos (Std.ExtTreeSet.mem_toList.2 ha), held a ha]
  · rw [if_neg ha, if_neg (mt Std.ExtTreeSet.mem_toList.1 ha)]

/-- A query that follows every account that the transactions before a target destroy reports the
balances that these transactions leave one after another, from all balances at the parent block on.
If one of them changes a tracked balance to one below zero, the first that does is reported with
such an account, unless the report would tell a number of too many digits. -/
theorem preBalances_of_sequence {node : Node σ} {answers : Node.Answers}
    (steady : node.Steady answers) (workers : Rpc.Value)
    (made : BlockPrefix.of block target = .ok p)
    (agree : ∀ a n, known[a]? = some n → n = answers.holding (.number p.parent) a)
    (cached : p.Cached answers.tracesOf w)
    (told : (p.fetch (node.client workers) (unsupplied tracked known)).outcome w = (.ok fetched, w₁))
    (traced : (p.traces (node.client workers)).outcome w₁ = (.ok traces, w₂))
    (covered : ∀ item ∈ p.transactions.zip traces, ∀ a ∈ destroyedBy item.1 item.2, a ∈ tracked)
    (replayed : balancesAfter (p.transactions.zip traces) (answers.holding (.number p.parent)) =
      .ok v) :
    p.parent = block.number.value - 1 ∧
      p.transactions = block.transactions.takeWhile (fun tx => decide (tx.hash ≠ target.hash)) ∧
      answers.tracesOf p.ids = .ok traces ∧
      ((∀ k u, ¬ Overdraft tracked (answers.holding (.number p.parent))
          (p.transactions.zip traces) k u) →
        ∃ result, ((p.preBalances (node.client workers) tracked known).outcome w).1 = .ok result ∧
          ∀ a, result[a]? = if a ∈ tracked then some (v a) else none) ∧
      ∀ k u, FirstOverdraft tracked (answers.holding (.number p.parent))
          (p.transactions.zip traces) k u →
        ∃ u', FirstOverdraft tracked (answers.holding (.number p.parent))
            (p.transactions.zip traces) k u' ∧
          ((p.preBalances (node.client workers) tracked known).outcome w).1 =
            .error (if u'.isWritable then .underflow u' else .tooManyDigits none) := by
  have client := Node.steady_client steady workers
  obtain ⟨parent, preceding⟩ := of_eq_ok made
  obtain ⟨-, start⟩ := start_of_fetch client agree told
  refine ⟨parent, preceding, read_of_traces client agree cached told traced, ?_⟩
  rw [outcome_preBalances told traced]
  rcases advance_cases start covered replayed w₂.2 with
    ⟨balances, s, advanced, held, none⟩ | ⟨k, u, ⟨overdrawn, before⟩, failed⟩
  · obtain ⟨result, selected, reports⟩ := select_tracked held
    constructor
    · intro _
      refine ⟨result, ?_, reports⟩
      rw [advanced]
      exact selected
    · rintro k u ⟨overdrawn, -⟩
      exact absurd overdrawn (none k u)
  · constructor
    · intro solvent
      exact absurd overdrawn (solvent k u)
    · rintro k' u' ⟨overdrawn', before'⟩
      obtain rfl : k = k' := Nat.le_antisymm
        (Nat.not_lt.1 fun lt => before k' lt u' overdrawn')
        (Nat.not_lt.1 fun lt => before' k lt u overdrawn)
      refine ⟨u, ⟨overdrawn, before⟩, ?_⟩
      rw [failed]
      rfl

end Query

section Answering

variable {answers : Node.Answers} {p : BlockPrefix} {traces : List Trace} {a : Address} {n : Nat}
  {m : Int}

/-- The balances and the traces that a query asks such a node for come through. -/
def comes (answers : Node.Answers) (p : BlockPrefix) (tracked : AddressSet) (known : Balances) :
    Bool :=
  let fetched :=
    (p.fetch (Node.answering answers).client (unsupplied tracked known)).outcome (none, ())
  fetched.1.toOption.isSome &&
    ((p.traces (Node.answering answers).client).outcome fetched.2).1.toOption.isSome

/-- Only tracked accounts are destroyed, by the traces that a node has. -/
def covers (answers : Node.Answers) (p : BlockPrefix) (tracked : AddressSet) : Bool :=
  (answers.tracesOf p.ids).toOption.all fun traces =>
    (p.transactions.zip traces).all fun item =>
      (destroyedBy item.1 item.2).all fun a => tracked.contains a

/-- The balance of an account after some transactions of a prefix, by the traces that a node has. -/
def balanceIn (answers : Node.Answers) (p : BlockPrefix) (n : Nat) (a : Address) : Option Int :=
  (answers.tracesOf p.ids).toOption.bind fun traces =>
    (balancesAfter ((p.transactions.zip traces).take n)
      (answers.holding (.number p.parent))).toOption.map (· a)

theorem answered_of_comes (agree : ∀ a n, known[a]? = some n →
      n = answers.holding (.number p.parent) a) (h : comes answers p tracked known = true) :
    ∃ fetched traces w₁ w₂,
      (p.fetch (Node.answering answers).client (unsupplied tracked known)).outcome (none, ()) =
        (.ok fetched, w₁) ∧
      (p.traces (Node.answering answers).client).outcome w₁ = (.ok traces, w₂) ∧
      answers.tracesOf p.ids = .ok traces := by
  unfold comes at h
  rcases told : (p.fetch (Node.answering answers).client (unsupplied tracked known)).outcome (none, ())
    with ⟨_ | fetched, w₁⟩
  · simp [told, Except.toOption] at h
  rcases traced : (p.traces (Node.answering answers).client).outcome w₁ with ⟨_ | traces, w₂⟩
  · simp [told, traced, Except.toOption] at h
  have steady := Node.steady_client (Node.steady_answering answers) (.int 8)
  exact ⟨fetched, traces, w₁, w₂, rfl, traced,
    read_of_traces steady agree (cached_empty _ _) told traced⟩

theorem mem_of_covers (h : covers answers p tracked = true)
    (read : answers.tracesOf p.ids = .ok traces) :
    ∀ item ∈ p.transactions.zip traces, ∀ a ∈ destroyedBy item.1 item.2, a ∈ tracked := by
  intro item hitem a ha
  rw [covers, read] at h
  have listed := List.all_eq_true.1 (List.all_eq_true.1 h item hitem) a ha
  exact Std.ExtTreeSet.contains_iff_mem.1 listed

theorem after_of_balanceIn (h : balanceIn answers p n a = some m)
    (read : answers.tracesOf p.ids = .ok traces) :
    ∃ v, balancesAfter ((p.transactions.zip traces).take n)
      (answers.holding (.number p.parent)) = .ok v ∧ v a = m := by
  simp only [balanceIn, read, Except.toOption, Option.bind_some] at h
  obtain ⟨v, after, amount⟩ := Option.map_eq_some_iff.1 h
  exact ⟨v, eq_ok_of_toOption after, amount⟩

end Answering

def destroying : Block :=
  { number := .ofInt 100, hash := [], timestamp := .ofInt 0
    transactions := [payment 0 50, payment 1 0, payment 2 0] }

def supplied : Balances := (∅ : Balances).insert beneficiary 1000000

/-- The beneficiary gets what the destroyed account was paid before. -/
theorem preBalances_of_sequence_destroying :
    BlockPrefix.of destroying (payment 2 0) = .ok paidThenDestroyed ∧
      ∃ result, ((paidThenDestroyed.preBalances (Node.answering destruction).client withDestroyed
        supplied).outcome (none, ())).1 = .ok result ∧ result[beneficiary]? = some 2000050 := by
  have made : BlockPrefix.of destroying (payment 2 0) = .ok paidThenDestroyed :=
    eq_ok_of_toOption (by decide +kernel)
  have agree : ∀ a n, supplied[a]? = some n →
      n = destruction.holding (.number paidThenDestroyed.parent) a := by
    have same : destruction.holding (.number paidThenDestroyed.parent) beneficiary = 1000000 := by
      decide +kernel
    intro a n given
    rw [supplied, Std.ExtTreeMap.getElem?_insert] at given
    split at given
    · next here =>
      obtain rfl := Std.LawfulEqCmp.eq_of_compare here
      rw [same, ← Option.some.inj given]
    · simp at given
  have come : comes destruction paidThenDestroyed withDestroyed supplied = true := by
    decide +kernel
  have covered : covers destruction paidThenDestroyed withDestroyed = true := by decide +kernel
  have paid : balanceIn destruction paidThenDestroyed 2 beneficiary = some 2000050 := by
    decide +kernel
  have above : ∀ k < 3, ∀ a ∈ withDestroyed.toList,
      (balanceIn destruction paidThenDestroyed k a).all (0 ≤ ·) = true := by decide +kernel
  obtain ⟨fetched, traces, w₁, w₂, told, traced, read⟩ := answered_of_comes agree come
  have length : (paidThenDestroyed.transactions.zip traces).length ≤ 2 := by
    rw [List.length_zip]
    exact Nat.min_le_left _ _
  obtain ⟨v, replayed, amount⟩ := after_of_balanceIn paid read
  rw [List.take_of_length_le length] at replayed
  obtain ⟨-, -, -, solvent, -⟩ := preBalances_of_sequence (Node.steady_answering destruction)
    (.int 8) made agree (cached_empty _ _) told traced (mem_of_covers covered read) replayed
  obtain ⟨result, reported, reports⟩ := solvent fun k u overdrawn => by
    obtain ⟨member, lt, v', after, negative⟩ := overdrawn.negative
    have left := above (k + 1) (by omega) u.address (Std.ExtTreeSet.mem_toList.2 member)
    simp [balanceIn, read, after, Except.toOption] at left
    omega
  refine ⟨made, result, reported, ?_⟩
  rw [reports, if_pos (by simp [withDestroyed]), amount]

/-- A prefix in which gas is paid for at the price. -/
def buying (price : Int) : BlockPrefix :=
  { parent := 99, transactions := [{ payment 0 0 with gasPrice := price }] }

def buyer : AddressSet := Std.ExtTreeSet.ofList [Address.ofNat 0xa11ce]

/-- All accounts hold ten at the parent block, and every transaction uses one unit of gas. -/
def tenForGas : Node.Answers where
  balance _ _ := .int 10
  trace _ := .object [("result",
    .object [("gas", .int 1), ("failed", .bool false), ("structLogs", .list [])])]

/-- The lowest price with more digits than are written. -/
def dearest : Int := (Nat.pow 10 4300 : Nat)

/-- The buyer is overdrawn, but the report is not made. -/
theorem not_underflow_dearest :
    BlockPrefix.of
        { destroying with transactions := (buying dearest).transactions ++ [payment 1 0] }
        (payment 1 0) = .ok (buying dearest) ∧
      covers tenForGas (buying dearest) buyer = true ∧
      ∃ traces v k u, tenForGas.tracesOf (buying dearest).ids = .ok traces ∧
        balancesAfter ((buying dearest).transactions.zip traces)
          (tenForGas.holding (.number (buying dearest).parent)) = .ok v ∧
        FirstOverdraft buyer (tenForGas.holding (.number (buying dearest).parent))
          ((buying dearest).transactions.zip traces) k u ∧
        (((buying dearest).preBalances (Node.answering tenForGas).client buyer
          (∅ : Balances)).outcome (none, ())).1 = .error (.tooManyDigits none) := by
  have made : BlockPrefix.of
      { destroying with transactions := (buying dearest).transactions ++ [payment 1 0] }
      (payment 1 0) = .ok (buying dearest) := eq_ok_of_toOption (by decide +kernel)
  have come : comes tenForGas (buying dearest) buyer ∅ = true := by decide +kernel
  have covered : covers tenForGas (buying dearest) buyer = true := by decide +kernel
  have idle : balanceIn tenForGas (buying dearest) 1 (.ofNat 0) = some 10 := by decide +kernel
  have failed : (((buying dearest).preBalances (Node.answering tenForGas).client buyer
      (∅ : Balances)).outcome (none, ())).1 = .error (.tooManyDigits none) :=
    eq_error_of_faultOf (by decide +kernel)
  have agree : ∀ a n, (∅ : Balances)[a]? = some n →
      n = tenForGas.holding (.number (buying dearest).parent) a := by
    intro a n given
    simp at given
  obtain ⟨fetched, traces, w₁, w₂, told, traced, read⟩ := answered_of_comes agree come
  have length : ((buying dearest).transactions.zip traces).length ≤ 1 := by
    rw [List.length_zip]
    exact Nat.min_le_left _ _
  obtain ⟨v, replayed, -⟩ := after_of_balanceIn idle read
  rw [List.take_of_length_le length] at replayed
  obtain ⟨-, start⟩ := start_of_fetch
    (Node.steady_client (Node.steady_answering tenForGas) (.int 8)) agree told
  have ended := outcome_preBalances told traced
  rcases advance_cases start (mem_of_covers covered read) replayed w₂.2 with
    ⟨balances, s, advanced, held, -⟩ | ⟨k, u, first, -⟩
  · obtain ⟨result, selected, -⟩ := select_tracked held
    rw [ended, advanced, ok_bind, selected] at failed
    nomatch failed
  · exact ⟨made, covered, traces, v, k, u, read, replayed, first, failed⟩

end TraceDiff.BlockPrefix
