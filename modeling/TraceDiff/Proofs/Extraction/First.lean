import TraceDiff.Proofs.BalanceEffects
import TraceDiff.Proofs.Extraction.Chain

/-! The first transaction of a block. Nothing of its block is replayed before it, so the balances
right before it are those at the parent block, whichever way they are asked for. -/
namespace TraceDiff

variable {σ τ ρ α β : Type}

namespace Asking

/-- `p` always gives this answer, or never any. -/
def Tells (p : Asking σ α) (answer : Option α) : Prop := ∀ s, (p.outcome s).1.toOption = answer

def Consistent (p : Asking σ α) : Prop := ∃ answer, p.Tells answer

variable {p : Asking σ α} {q : Asking τ α} {answer : Option α}

theorem Tells.ok_iff (h : p.Tells answer) {s : σ} {a : α} :
    (p.outcome s).1 = .ok a ↔ answer = some a := by
  rw [← h s]
  cases (p.outcome s).1 <;> simp [Except.toOption]

theorem Tells.below (h : p.Tells answer) (h' : q.Tells answer) : p.Below q := by
  intro s a s' came t
  exact ⟨_, Prod.ext (h'.ok_iff.2 (h.ok_iff.1 (congrArg Prod.fst came))) rfl⟩

theorem tells_ofExcept (r : Except Fault α) : (ofExcept r : Asking σ α).Tells r.toOption :=
  fun _ => rfl

theorem Tells.bind {f : α → Asking σ β} {next : α → Option β} (h : p.Tells answer)
    (hf : ∀ a, answer = some a → (f a).Tells (next a)) : (p >>= f).Tells (answer.bind next) := by
  intro s
  have first := h s
  rw [outcome_bind]
  rcases made : p.outcome s with ⟨e | a, s₁⟩
  · rw [made] at first
    rw [← first]
    rfl
  · rw [made] at first
    rw [← first]
    exact hf a first.symm s₁

theorem Tells.bind_some {f : α → Asking σ β} {a : α} {answer : Option β}
    (h : p.Tells (some a)) (hf : (f a).Tells answer) : (p >>= f).Tells answer := by
  show (p >>= f).Tells ((some a).bind fun _ => answer)
  exact h.bind fun _ same => Option.some.inj same ▸ hf

/-- What comes after an answer that does not matter. -/
theorem Tells.after {f : α → Asking σ β} {answer : Option β}
    (h : ∀ s, ∃ a, (p.outcome s).1 = .ok a) (hf : ∀ a, (f a).Tells answer) :
    (p >>= f).Tells answer := by
  intro s
  obtain ⟨a, ha⟩ := h s
  rcases made : p.outcome s with ⟨r, s₁⟩
  rw [made] at ha
  obtain rfl : r = .ok a := ha
  rw [outcome_bind, made]
  exact hf a s₁

theorem Tells.map (h : p.Tells answer) (g : α → β) : (g <$> p).Tells (answer.map g) := by
  intro s
  rw [outcome_map, ← h s]
  cases (p.outcome s).1 <;> rfl

theorem Tells.beside (h : p.Tells answer) : (beside p : Asking (ρ × σ) α).Tells answer :=
  fun (_, s) => h s

theorem Tells.mapFault (h : p.Tells answer) (f : Fault → Fault) :
    (p.mapFault f).Tells answer := by
  intro s
  rw [← h s, Asking.mapFault, outcome_ofOutcome]
  split <;> simp [*, Except.toOption]

theorem Consistent.below (h : p.Consistent) : p.Below p :=
  let ⟨_, told⟩ := h
  told.below told

theorem Consistent.tells (h : p.Consistent) {s : σ} {a : α} (came : (p.outcome s).1 = .ok a) :
    p.Tells (some a) := by
  obtain ⟨answer, told⟩ := h
  rwa [told.ok_iff.1 came] at told

theorem consistent_ofExcept (r : Except Fault α) : (ofExcept r : Asking σ α).Consistent :=
  ⟨_, tells_ofExcept r⟩

theorem Consistent.bind {f : α → Asking σ β} (h : p.Consistent) (hf : ∀ a, (f a).Consistent) :
    (p >>= f).Consistent := by
  obtain ⟨_, told⟩ := h
  choose _ next using hf
  exact ⟨_, told.bind fun a _ => next a⟩

theorem Consistent.beside (h : p.Consistent) : (beside p : Asking (ρ × σ) α).Consistent :=
  let ⟨_, told⟩ := h
  ⟨_, told.beside⟩

/-- Both read the state that they share. -/
theorem BelowBeside.get {f : ρ × σ → Asking (ρ × σ) β} {g : ρ × τ → Asking (ρ × τ) β}
    (h : ∀ r s t, (f (r, s)).BelowBeside (g (r, t))) :
    (MonadState.get >>= f).BelowBeside (MonadState.get >>= g) :=
  fun r s b r' s' came t => h r s t r s b r' s' came t

end Asking

theorem mapM_eq_some_iff {f : α → Option β} {items : List α} {bs : List β} :
    items.mapM f = some bs ↔ items.map f = bs.map some := by
  induction items generalizing bs with
  | nil => cases bs <;> simp
  | cons a items ih => cases bs <;> simp [List.mapM_cons, Option.bind_eq_some_iff, ih]

namespace Gather

theorem map_toOption_outcomes {request : α → Asking σ β} {answer : α → Option β} {items : List α}
    (told : ∀ a, (request a).Tells (answer a)) (s : σ) :
    (outcomes request items s).1.map Except.toOption = items.map answer := by
  induction items generalizing s with
  | nil => rfl
  | cons a items ih => rw [outcomes, List.map_cons, List.map_cons, told a s, ih]

theorem tells_all {request : α → Asking σ β} {answer : α → Option β}
    (told : ∀ a, (request a).Tells (answer a)) (completion : Completion σ) (items : List α) :
    (all completion request items).Tells (items.mapM answer) := by
  intro s
  have answers : (outcomes request items s).1.map Except.toOption = items.map answer :=
    map_toOption_outcomes told s
  rcases all_cases completion request items s with ⟨bs, s', made, came⟩ | ⟨f, failed, came⟩
  · rw [came]
    rw [made, List.map_map] at answers
    exact (mapM_eq_some_iff.2 answers.symm).symm
  · rw [came]
    have failed : none ∈ items.map answer := answers ▸ List.mem_map.2 ⟨_, failed, rfl⟩
    cases gathered : items.mapM answer with
    | none => rfl
    | some bs =>
      rw [mapM_eq_some_iff.1 gathered] at failed
      simp at failed

end Gather

/-- The balances of all the addresses, if each of them has one. -/
def table (holding : Address → Option Int) (addresses : AddressSet) : Option Balances := do
  return Std.ExtTreeMap.ofList (← addresses.toList.mapM fun a => (holding a).map fun n => (a, n))

section Table

variable {holding : Address → Option Int} {addresses : AddressSet} {known : Balances}

theorem pairs_iff {items : List Address} {pairs : List (Address × Int)} :
    (items.mapM fun a => (holding a).map fun n => (a, n)) = some pairs ↔
      (∀ a ∈ items, (holding a).isSome) ∧ items.map (fun a => (a, (holding a).getD 0)) = pairs := by
  rw [mapM_eq_some_iff]
  induction items generalizing pairs with
  | nil => cases pairs <;> simp
  | cons a items ih =>
    cases pairs with
    | nil => simp
    | cons e pairs =>
      simp only [List.map_cons, List.cons.injEq, ih, List.forall_mem_cons]
      cases holding a <;> simp [and_left_comm]

theorem table_eq_some_iff : table holding addresses = some known ↔
    (∀ a ∈ addresses, (holding a).isSome) ∧
      Std.ExtTreeMap.ofList (addresses.toList.map fun a => (a, (holding a).getD 0)) = known := by
  simp only [table, Option.bind_eq_bind, Option.bind_eq_some_iff, pairs_iff,
    Std.ExtTreeSet.mem_toList]
  simp

theorem getElem?_of_table (h : table holding addresses = some known) (a : Address) :
    known[a]? = if a ∈ addresses then holding a else none := by
  obtain ⟨all, rfl⟩ := table_eq_some_iff.1 h
  rw [Node.getElem?_ofList_map addresses fun a => (holding a).getD 0]
  split
  · next member =>
    obtain ⟨n, hn⟩ := Option.isSome_iff_exists.1 (all a member)
    rw [hn]
    rfl
  · rfl

end Table

namespace Node

/-- The node always answers a request in the same way, or never answers it. -/
structure Consistent (node : Node σ) : Prop where
  transaction : ∀ hash, (node.transaction hash).Consistent
  block : ∀ id full, (node.block id full).Consistent
  code : ∀ address id, (node.code address id).Consistent
  balance : ∀ address id, (node.balance address id).Consistent
  trace : ∀ hash, (node.trace hash).Consistent

theorem consistent_wrap {f : Fault → Fault} {p : Asking σ α} (h : p.Consistent) :
    (wrap f p).Consistent :=
  let ⟨_, told⟩ := h
  ⟨_, told.mapFault _⟩

theorem tells_gather {workers : Rpc.Value} (valid : checkWorkers workers = .ok ())
    {request : α → Asking σ β} {answer : α → Option β}
    (told : ∀ a, (request a).Tells (answer a)) (items : List α) :
    (gather workers request items).Tells (items.mapM answer) := by
  unfold gather
  split
  · next empty =>
    rw [List.isEmpty_iff.1 empty]
    exact fun _ => rfl
  · rw [valid]
    exact Gather.tells_all told _ items

variable {node : Node σ}

namespace Consistent

theorem fetchTransaction (h : node.Consistent) (id : TxId) :
    (node.fetchTransaction id).Consistent := by
  refine (consistent_wrap (h.transaction _)).bind fun v => ?_
  cases v <;> exact Asking.consistent_ofExcept _

theorem fetchBlock (h : node.Consistent) (id : BlockId) (full : Rpc.Value) :
    (node.fetchBlock id full).Consistent := by
  refine (consistent_wrap (h.block _ _)).bind fun v => ?_
  cases v <;> exact Asking.consistent_ofExcept _

theorem fetchCode (h : node.Consistent) (account : Rpc.Value) (id : BlockId) :
    (node.fetchCode account id).Consistent :=
  (consistent_wrap ((Asking.consistent_ofExcept _).bind fun _ => h.code _ _)).bind fun _ =>
    Asking.consistent_ofExcept _

theorem fetchBalance (h : node.Consistent) (account : Rpc.Value) (id : BlockId) :
    (node.fetchBalance account id).Consistent :=
  consistent_wrap <| (Asking.consistent_ofExcept _).bind fun _ =>
    (h.balance _ _).bind fun _ => Asking.consistent_ofExcept _

theorem fetchTrace (h : node.Consistent) (id : TxId) : (node.fetchTrace id).Consistent :=
  (consistent_wrap (h.trace _)).bind fun _ => Asking.consistent_ofExcept _

end Consistent

end Node

/-- Single balances and those of many accounts at once come from the same holdings, and there is
always a list of no traces. -/
structure Client.Consistent (client : Client σ) (holding : BlockId → Address → Option Int) :
    Prop where
  code : ∀ a id, (client.code a id).Consistent
  trace : ∀ id, (client.trace id).Consistent
  balance : ∀ a id, (client.balance a id).Tells (holding id a)
  balances : ∀ addresses id, (client.balances addresses id).Tells (table (holding id) addresses)
  traces : (client.traces []).Tells (some [])

theorem Node.consistent_client {node : Node σ} (h : node.Consistent) {workers : Rpc.Value}
    (valid : checkWorkers workers = .ok ()) :
    ∃ holding, (node.client workers).Consistent holding := by
  choose holding told using fun id (a : Address) => h.fetchBalance (.text a.text) id
  refine ⟨holding, fun a id => h.fetchCode _ id, h.fetchTrace, fun a id => told id a, ?_, ?_⟩
  · intro addresses id
    exact (tells_gather valid (fun a => (told id a).map _) addresses.toList).bind fun _ _ =>
      Asking.tells_ofExcept (.ok _)
  · exact fun _ => rfl

/-- Balances one at a time and many at once, all from the same holdings. -/
structure BaselineSource.Tells (source : BaselineSource σ) (holding : Address → Option Int) :
    Prop where
  one : ∀ a, (source.one a).Tells (holding a)
  many : ∃ many, source.many = some many ∧
    ∀ addresses, (many addresses).Tells (table holding addresses)

namespace BlockPrefix

variable {client : Client σ} {holding : BlockId → Address → Option Int}

/-- A map that holds the accounts and no others is selected as a whole. -/
theorem select_self {balances : Balances} {addresses : AddressSet}
    (keys : ∀ a, a ∈ balances ↔ a ∈ addresses) :
    select balances addresses.toList = .ok balances := by
  obtain ⟨result, selected, found⟩ :=
    select_eq_ok fun a ha => (keys a).2 (Std.ExtTreeSet.mem_toList.1 ha)
  rw [selected]
  refine congrArg _ (Std.ExtTreeMap.ext_getElem? fun a => ?_)
  rw [found]
  split
  · rfl
  · next absent =>
    rw [Std.ExtTreeSet.mem_toList, ← keys] at absent
    rw [Std.ExtTreeMap.getElem?_eq_none absent]

/-- The prefix of a block's first transaction. -/
def first (parent : Int) : BlockPrefix := { parent, transactions := [] }

/-- No traces have to be there, and none are needed. -/
theorem traces_first (h : client.Consistent holding) (parent : Int) (w : Traced σ) :
    ∃ traces, (((first parent).traces client).outcome w).1 = .ok traces := by
  obtain ⟨known, s⟩ := w
  cases known with
  | some traces => exact ⟨traces, rfl⟩
  | none =>
    refine ⟨[], ?_⟩
    have fetched : ((client.traces []).outcome s).1 = .ok [] := h.traces.ok_iff.2 rfl
    simp only [traces, Asking.outcome_ofOutcome, first, List.map_nil]
    split <;> simp_all

theorem tells_fetch (h : client.Consistent holding) (p : BlockPrefix) (tracked : AddressSet) :
    (p.fetch client tracked).Tells (table (holding (.number p.parent)) tracked) := by
  unfold fetch
  split
  · next empty =>
    obtain rfl := eq_empty_of_isEmpty empty
    exact Asking.tells_ofExcept (.ok ∅)
  · exact (h.balances tracked _).beside

theorem tells_preBalances_first (h : client.Consistent holding) (parent : Int)
    (tracked : AddressSet) :
    ((first parent).preBalances client tracked (∅ : Balances)).Tells
      (table (holding (.number parent)) tracked) := by
  rw [preBalances_eq, ← Option.bind_fun_some (table _ _)]
  refine (tells_fetch h (first parent) tracked).bind fun fetched told => ?_
  obtain ⟨held, -⟩ := table_eq_some_iff.1 told
  have keys (a : Address) : a ∈ fetched ↔ a ∈ tracked := by
    rw [Std.ExtTreeMap.mem_iff_isSome_getElem?, getElem?_of_table told]
    split
    · next member => simpa [member] using held a member
    · next absent => simp [absent]
  refine Asking.Tells.after (traces_first h parent) fun traces w => ?_
  exact congrArg Except.toOption (select_self keys)

theorem table_singleton (holding : Address → Option Int) (a : Address) :
    (table holding (Std.ExtTreeSet.ofList [a])).bind (·[a]?) = holding a := by
  cases told : table holding (Std.ExtTreeSet.ofList [a]) with
  | some known => exact (getElem?_of_table told a).trans (if_pos (by simp))
  | none =>
    cases held : holding a with
    | none => rfl
    | some n =>
      have all : ∀ b ∈ (Std.ExtTreeSet.ofList [a] : AddressSet), (holding b).isSome := by
        simp [held]
      rw [table_eq_some_iff.2 ⟨all, rfl⟩] at told
      nomatch told

theorem tells_baseline_first (h : client.Consistent holding) (parent : Int) :
    ((first parent).baseline client).Tells (holding (.number parent)) where
  one a := by
    rw [← table_singleton (holding (.number parent)) a]
    refine (tells_preBalances_first h parent _).bind fun known _ => ?_
    cases known[a]? <;> exact Asking.tells_ofExcept _
  many := ⟨_, rfl, tells_preBalances_first h parent⟩

end BlockPrefix

namespace Baselines

variable {source : BaselineSource σ} {source' : BaselineSource τ}
  {holding : Address → Option Int}

theorem tells_fetchMissing (h : source.Tells holding) (addresses : List Address) :
    (fetchMissing source addresses).Tells (if addresses.isEmpty then some []
      else (table holding (Std.ExtTreeSet.ofList addresses)).map (·.toList)) := by
  obtain ⟨many, there, told⟩ := h.many
  unfold fetchMissing
  rw [there]
  split
  · exact Asking.tells_ofExcept (.ok [])
  · exact (told _).map _

theorem below_resolve (h : source.Tells holding) (h' : source'.Tells holding)
    (addresses : AddressSet) :
    (resolve source addresses).BelowBeside (resolve source' addresses) := by
  intro b s pairs b' s' got t
  have below := (tells_fetchMissing h (b.missing addresses)).below
    (tells_fetchMissing h' (b.missing addresses))
  simp only [resolve, Asking.outcome_ofOutcome] at got ⊢
  rcases made : (fetchMissing source (b.missing addresses)).outcome s with ⟨_ | fetched, s₁⟩
  · simp [made] at got
  · obtain ⟨t', made'⟩ := below s fetched s₁ made t
    simp only [made, made', Prod.mk.injEq] at got ⊢
    exact ⟨t', got.1, got.2.1, rfl⟩

end Baselines

namespace Extraction

theorem belowBeside_withBaselines {p : Asking (Baselines × σ) α} {q : Asking (Baselines × τ) α}
    (h : p.BelowBeside q) : (withBaselines p).BelowBeside (withBaselines q) := by
  intro m s a m' s' came t
  simp only [withBaselines, Asking.outcome_ofOutcome] at came ⊢
  rcases made : p.outcome (m.journal.baselines, s) with ⟨r, b, s₁⟩
  rw [made] at came
  obtain ⟨rfl, same⟩ := Prod.mk.inj came
  obtain ⟨rfl, -⟩ := Prod.mk.inj same
  obtain ⟨t', made'⟩ := h _ s a b s₁ made t
  exact ⟨t', by rw [made']⟩

section Settle

variable {baseline : BaselineSource (BlockPrefix.Traced σ)}
  {baseline' : BaselineSource (BlockPrefix.Traced τ)} {code : CodeSource (BlockPrefix.Traced σ)}
  {code' : CodeSource (BlockPrefix.Traced τ)} {holding : Address → Option Int}

/-- The transactions that the block lists are not looked at. -/
theorem below_settle (h : baseline.Tells holding) (h' : baseline'.Tells holding)
    (hcode : code.Below code') (tx : Transaction) (block : Block) (listed : List Transaction)
    (trace : Trace) (target : Address) :
    (settle baseline code { tx, block, trace, target }).BelowBeside
      (settle baseline' code'
        { tx, block := { block with transactions := listed }, trace, target }) := by
  have one : baseline.Below baseline' := fun a => (h.one a).below (h'.one a)
  have below : Sources.Below { code := some code, baseline := some baseline }
      { code := some code', baseline := some baseline' } := ⟨.some hcode, .some one⟩
  refine (Replay.below_seed below false tx _).bind fun _ => ?_
  refine (Replay.below_replay below false _ _).bind fun _ => ?_
  refine Asking.BelowBeside.get fun m s t => ?_
  dsimp only
  split
  · exact (Asking.belowBeside_ofExcept (.error _)).bind fun _ =>
      (belowBeside_withBaselines (Baselines.below_resolve h h' _)).bind fun _ =>
        Asking.belowBeside_ofExcept _
  · exact (belowBeside_withBaselines (Baselines.below_resolve h h' _)).bind fun _ =>
      Asking.belowBeside_ofExcept _

end Settle

variable {client : Client σ} {holding : BlockId → Address → Option Int}

theorem tells_baselineOf (h : client.Consistent holding) {x : Subject} (exact : Bool)
    (first : exact = true → x.block.transactions.head?.map (·.hash) = some x.tx.hash) :
    ∃ baseline, baselineOf client x exact = .ok baseline ∧
      baseline.Tells (holding (.number (x.block.number.value - 1))) := by
  cases exact with
  | false =>
    refine ⟨_, rfl, fun a => (h.balance a _).beside, _, rfl, fun addresses => ?_⟩
    exact (h.balances addresses _).beside
  | true =>
    have parted : BlockPrefix.of x.block x.tx = .ok (.first (x.block.number.value - 1)) := by
      obtain ⟨entry, listed, same⟩ := Option.map_eq_some_iff.1 (first rfl)
      obtain ⟨rest, listed⟩ := List.head?_eq_some_iff.1 listed
      simp only [BlockPrefix.of, listed, BlockPrefix.before?, if_pos same]
      rfl
    refine ⟨_, ?_, BlockPrefix.tells_baseline_first h _⟩
    rw [baselineOf, if_pos rfl, parted]
    rfl

variable {id : TxId} {tx : Transaction} {hash : Bytes} {block : Block}

theorem tells_subject {full : Rpc.Value} {answer : Option Trace}
    (told : (client.transaction id).Tells (some tx)) (mined : tx.blockHash = some hash)
    (opened : (client.block (.ofHash hash) full).Tells (some block))
    (traced : (client.trace id).Tells answer) :
    (subject client id full).Tells (answer.bind fun trace =>
      tx.account.toOption.bind fun target => some { tx, block, trace, target }) := by
  refine told.bind_some ?_
  rw [mined]
  refine opened.bind_some ?_
  exact traced.bind fun trace _ => (Asking.tells_ofExcept _).bind fun target _ =>
    Asking.tells_ofExcept (.ok _)

theorem extract_of_parts {exact : Bool} {full : Rpc.Value} {s s₁ : σ} {x : Subject}
    {baseline : BaselineSource (BlockPrefix.Traced σ)} {result : Diff.Result}
    {w : Replay.Machine × BlockPrefix.Traced σ}
    (known : (subject client id full).outcome s = (.ok x, s₁))
    (found : baselineOf client x exact = .ok baseline)
    (settled : (settle baseline (codeOf client x) x).outcome (.start x.target, (none, s₁)) =
      (.ok result, w)) :
    (extract client id exact full).outcome s = (.ok result, w.2.2) := by
  refine Asking.outcome_bind_eq_ok.2 ⟨x, s₁, known, ?_⟩
  refine Asking.outcome_bind_eq_ok.2 ⟨baseline, s₁, by rw [found]; rfl, ?_⟩
  simp only [Asking.outcome_ofOutcome, settled]

/-- Whichever way the balances before the transaction are found, the other way finds them too. -/
theorem below_extract (h : client.Consistent holding) {listed : Bool → List Transaction}
    (told : (client.transaction id).Tells (some tx)) (mined : tx.blockHash = some hash)
    (opened : ∀ full, (client.block (.ofHash hash) (.bool full)).Tells
      (some { block with transactions := listed full }))
    (first : (listed true).head?.map (·.hash) = some tx.hash) (exact exact' : Bool) :
    (extract client id exact).Below (extract client id exact') := by
  intro s result s' made t
  obtain ⟨answer, traced⟩ := h.trace id
  have read (full : Bool) := tells_subject told mined (opened full) traced
  obtain ⟨x, s₁, baseline, m, traced, known, found, settled⟩ := parts_of_extract made
  obtain ⟨trace, rfl, named⟩ := Option.bind_eq_some_iff.1 ((read exact).ok_iff.1
    (congrArg Prod.fst known))
  obtain ⟨target, account, same⟩ := Option.bind_eq_some_iff.1 named
  obtain rfl := Option.some.inj same
  have source (full : Bool) := tells_baselineOf h full
    (x := { tx, block := { block with transactions := listed full }, trace, target }) (by
      rintro rfl
      exact first)
  obtain ⟨_, chosen, tells⟩ := source exact
  obtain rfl := Except.ok.inj (chosen.symm.trans found)
  obtain ⟨baseline', found', tells'⟩ := source exact'
  -- both ways ask for the code of the same two blocks
  have code : (codeOf client
      { tx, block := { block with transactions := listed exact }, trace, target }).Below
        (codeOf client
          { tx, block := { block with transactions := listed exact' }, trace, target }) :=
    ⟨fun a => (h.code a _).beside.below, fun a => (h.code a _).beside.below⟩
  have known' : ((subject client id (.bool exact')).outcome t).1 =
      .ok { tx, block := { block with transactions := listed exact' }, trace, target } :=
    (read exact').ok_iff.2 (by simp [account])
  obtain ⟨u, settled'⟩ := below_settle tells tells' code tx _ (listed exact') trace target _ _ _ _ _
    settled (none, ((subject client id (.bool exact')).outcome t).2)
  exact ⟨_, extract_of_parts (Prod.ext known' rfl) found' settled'⟩

/-- A node that answers consistently gives the first transaction of a block the same result from
exact balances and from those at the parent block, or gives neither. -/
theorem extract_exact_iff_of_first {node : Node σ} (consistent : node.Consistent)
    {workers : Rpc.Value} (valid : Node.checkWorkers workers = .ok ()) {id : TxId}
    {tx : Transaction} {hash : Bytes} {block : Block} {brief : List Transaction} {s₁ s₂ s₃ : σ}
    (told : ((node.fetchTransaction id).outcome s₁).1 = .ok tx)
    (mined : tx.blockHash = some hash)
    (opened : ((node.fetchBlock (.ofHash hash) (.bool true)).outcome s₂).1 = .ok block)
    (openedBrief : ((node.fetchBlock (.ofHash hash) (.bool false)).outcome s₃).1 =
      .ok { block with transactions := brief })
    (first : block.transactions.head?.map (·.hash) = some tx.hash) (s t : σ)
    (result : Diff.Result) :
    ((extract (node.client workers) id true).outcome s).1 = .ok result ↔
      ((extract (node.client workers) id false).outcome t).1 = .ok result := by
  obtain ⟨holding, client⟩ := Node.consistent_client consistent valid
  have listed (full : Bool) :
      ((node.client workers).block (.ofHash hash) (.bool full)).Tells
        (some { block with transactions := if full then block.transactions else brief }) := by
    cases full with
    | true => exact (consistent.fetchBlock _ _).tells opened
    | false => exact (consistent.fetchBlock _ _).tells openedBrief
  have below (exact exact' : Bool) {s t : σ}
      (made : ((extract (node.client workers) id exact).outcome s).1 = .ok result) :
      ((extract (node.client workers) id exact').outcome t).1 = .ok result := by
    obtain ⟨t', came⟩ := below_extract client ((consistent.fetchTransaction id).tells told) mined
      listed first exact exact' s result _ (Prod.ext made rfl) t
    rw [came]
  exact ⟨below true false, below false true⟩

/-- Its target destroys itself for the beneficiary. -/
def destroyer : Transaction := { BlockPrefix.payment 1 0 with blockHash := some [8] }

def blockOfDestroyer (listed : List Transaction) : Block :=
  { number := .ofInt 100, hash := [8], timestamp := .ofInt 0, transactions := listed }

/-- Blocks list their transactions in full only if they are asked for so. -/
def nodeOfDestroyer : Node Unit :=
  { Node.answering BlockPrefix.destruction with
    transaction _ := pure (entry destroyer)
    block _ full :=
      let listed := match full with
        | .bool true => [entry destroyer, entry firstPayment]
        | _ => [.bytes destroyer.hash, .bytes firstPayment.hash]
      pure <| .object [("number", .int 100), ("hash", .bytes [8]), ("timestamp", .int 0),
        ("transactions", .list listed)]
    code _ _ := pure (.bytes []) }

theorem consistent_nodeOfDestroyer : nodeOfDestroyer.Consistent where
  transaction _ := Asking.consistent_ofExcept (.ok _)
  block _ _ := Asking.consistent_ofExcept (.ok _)
  code _ _ := Asking.consistent_ofExcept (.ok _)
  balance _ _ := Asking.consistent_ofExcept (.ok _)
  trace _ := Asking.consistent_ofExcept (.ok _)

/-- The beneficiary gets the million that the destroyed account had at the parent block, in either
way. -/
theorem extract_exact_iff_of_first_destroyer : ∃ result : Diff.Result,
    ((extract nodeOfDestroyer.client (.ofBytes destroyer.hash) true).outcome ()).1 = .ok result ∧
      ((extract nodeOfDestroyer.client (.ofBytes destroyer.hash) false).outcome ()).1 = .ok result ∧
      (result.accounts[BlockPrefix.beneficiary]?).map (·.postBalance) = some 2000000 := by
  have told : ((nodeOfDestroyer.fetchTransaction (.ofBytes destroyer.hash)).outcome ()).1.toOption =
      some destroyer := by
    decide +kernel
  have opened : ((nodeOfDestroyer.fetchBlock (.ofHash [8]) (.bool true)).outcome ()).1.toOption =
      some (blockOfDestroyer [destroyer, firstPayment]) := by
    decide +kernel
  have openedBrief :
      ((nodeOfDestroyer.fetchBlock (.ofHash [8]) (.bool false)).outcome ()).1.toOption =
        some (blockOfDestroyer []) := by
    decide +kernel
  have swept : ((extract nodeOfDestroyer.client (.ofBytes destroyer.hash) true).outcome
      ()).1.toOption.bind (fun result =>
        (result.accounts[BlockPrefix.beneficiary]?).map (·.postBalance)) = some 2000000 := by
    decide +kernel
  obtain ⟨result, made, amount⟩ := Option.bind_eq_some_iff.1 swept
  have valid : Node.checkWorkers (.int 8) = .ok () := rfl
  have iff := extract_exact_iff_of_first consistent_nodeOfDestroyer valid (eq_ok_of_toOption told)
    rfl (eq_ok_of_toOption opened) (eq_ok_of_toOption openedBrief) rfl () () result
  exact ⟨result, eq_ok_of_toOption made, iff.1 (eq_ok_of_toOption made), amount⟩

end Extraction

end TraceDiff
