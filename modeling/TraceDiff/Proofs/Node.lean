import TraceDiff.Node
import TraceDiff.Proofs.Gather
import TraceDiff.Proofs.Journal

/-! A node that never answers the same request in two ways. It may fail now and then; what its
client tells, when it tells anything, depends on the question alone. -/
namespace TraceDiff

variable {σ α β : Type}

/-- A client with fixed balances and traces. -/
structure Client.Steady (client : Client σ) (holding : BlockId → Address → Int)
    (tracesOf : List TxId → Except Fault (List Trace)) : Prop where
  balance : ∀ a id s n s', (client.balance a id).outcome s = (.ok n, s') → n = holding id a
  balances : ∀ addresses id s known s', (client.balances addresses id).outcome s = (.ok known, s') →
    ∀ a, known[a]? = if a ∈ addresses then some (holding id a) else none
  traces : ∀ ids s ts s', (client.traces ids).outcome s = (.ok ts, s') → tracesOf ids = .ok ts

namespace Node

/-- The answers of a node, as it sends them. -/
structure Answers where
  balance : (address : String) → BlockId → Rpc.Value
  trace : (hash : String) → Rpc.Value

/-- Whenever the node answers, it gives these answers. -/
structure Steady (node : Node σ) (answers : Answers) : Prop where
  balance : ∀ address id s v s', (node.balance address id).outcome s = (.ok v, s') →
    v = answers.balance address id
  trace : ∀ hash s v s', (node.trace hash).outcome s = (.ok v, s') → v = answers.trace hash

namespace Answers

def balanceOf (answers : Answers) (id : BlockId) (a : Address) : Except Fault Int := do
  let text ← ((Rpc.Value.text a.text).address >>= Address.checksum).mapError .badAddress
  (answers.balance text id).integer

/-- The balance of an account, zero where the answer is none. -/
def holding (answers : Answers) (id : BlockId) (a : Address) : Int :=
  (answers.balanceOf id a).toOption.getD 0

def traceOf (answers : Answers) (id : TxId) : Except Fault Trace :=
  readTrace id.hex (answers.trace id.hex)

def tracesOf (answers : Answers) (ids : List TxId) : Except Fault (List Trace) :=
  ids.mapM answers.traceOf

end Answers

theorem wrap_eq_ok {f : Fault → Fault} {p : Asking σ α} {a : α} {s s' : σ}
    (h : (wrap f p).outcome s = (.ok a, s')) : p.outcome s = (.ok a, s') := by
  simp only [wrap, Asking.mapFault, Asking.outcome_ofOutcome] at h
  split at h
  · next made => rw [made]; exact h
  · simp at h

/-- Requests made together are answered as they are when made one after the other. -/
theorem mapM_of_gather {workers : Rpc.Value} {request : α → Asking σ β} {items : List α}
    {completion : Gather.Completion σ} {bs : List β} {s s' : σ}
    (h : (gather workers request items completion).outcome s = (.ok bs, s')) :
    (items.mapM request).outcome s = (.ok bs, s') := by
  unfold gather at h
  split at h
  · next empty =>
    rw [List.isEmpty_iff.1 empty]
    exact h
  · obtain ⟨_, s₁, checked, h⟩ := Asking.outcome_bind_eq_ok.1 h
    obtain rfl := (Prod.mk.inj checked).2
    rcases Gather.all_cases completion request items s with ⟨bs', t, made, came⟩ | ⟨f, -, came⟩
    · obtain ⟨same, rfl⟩ := Prod.mk.inj (came.symm.trans h)
      obtain rfl := Except.ok.inj same
      exact Gather.outcomes_eq_ok_iff.1 made
    · nomatch (Prod.mk.inj (came.symm.trans h)).1

theorem gather_eq_ok {workers : Rpc.Value} {request : α → Asking σ β} {answer : α → Except Fault β}
    {items : List α} {completion : Gather.Completion σ}
    (fixed : ∀ a ∈ items, ∀ s b s', (request a).outcome s = (.ok b, s') → answer a = .ok b)
    {bs : List β} {s s' : σ}
    (h : (gather workers request items completion).outcome s = (.ok bs, s')) :
    items.map answer = bs.map .ok :=
  Gather.map_of_outcomes fixed (congrArg Prod.fst (Gather.outcomes_eq_ok_iff.2 (mapM_of_gather h)))

variable {node : Node σ} {answers : Answers}

theorem fetchBalance_eq_ok (steady : node.Steady answers) {a : Address} {id : BlockId} {n : Int}
    {s s' : σ} (h : (node.fetchBalance (.text a.text) id).outcome s = (.ok n, s')) :
    answers.balanceOf id a = .ok n := by
  obtain ⟨text, s₁, checksum, h⟩ := Asking.outcome_bind_eq_ok.1 (wrap_eq_ok h)
  obtain ⟨v, s₂, answered, h⟩ := Asking.outcome_bind_eq_ok.1 h
  obtain rfl := steady.balance text id s₁ v s₂ answered
  have named := (Prod.mk.inj checksum).1
  unfold Answers.balanceOf
  rw [named]
  exact (Prod.mk.inj h).1

theorem fetchTrace_eq_ok (steady : node.Steady answers) {id : TxId} {trace : Trace} {s s' : σ}
    (h : (node.fetchTrace id).outcome s = (.ok trace, s')) : answers.traceOf id = .ok trace := by
  obtain ⟨v, s₁, answered, h⟩ := Asking.outcome_bind_eq_ok.1 h
  obtain rfl := steady.trace id.hex s v s₁ (wrap_eq_ok answered)
  exact (Prod.mk.inj h).1

theorem mapM_of_map {f : α → Except Fault β} {items : List α} {bs : List β}
    (h : items.map f = bs.map .ok) : items.mapM f = .ok bs := by
  induction items generalizing bs with
  | nil =>
    obtain rfl := List.map_eq_nil_iff.1 h.symm
    rfl
  | cons a items ih =>
    cases bs with
    | nil => simp at h
    | cons b bs =>
      obtain ⟨head, tail⟩ := List.cons.inj h
      rw [List.mapM_cons, head, ih tail]
      rfl

/-- The pairs of accounts and fixed balances. -/
theorem pairs_of_map {balanceOf : Address → Except Fault Int} {items : List Address}
    {pairs : List (Address × Int)}
    (h : (items.map fun a => (fun n => (a, n)) <$> balanceOf a) = pairs.map .ok) :
    pairs = items.map fun a => (a, (balanceOf a).toOption.getD 0) := by
  induction items generalizing pairs with
  | nil => exact List.map_eq_nil_iff.1 h.symm
  | cons a items ih =>
    cases pairs with
    | nil => simp at h
    | cons e pairs =>
      obtain ⟨head, tail⟩ := List.cons.inj h
      rw [List.map_cons, ← ih tail]
      cases known : balanceOf a with
      | error f =>
        simp only [known] at head
        nomatch head
      | ok n =>
        simp only [known] at head
        obtain rfl : (a, n) = e := Except.ok.inj head
        rfl

theorem getElem?_ofList_map (addresses : AddressSet) (f : Address → Int) (a : Address) :
    (Std.ExtTreeMap.ofList (addresses.toList.map fun a => (a, f a)) : Balances)[a]? =
      if a ∈ addresses then some (f a) else none := by
  by_cases h : a ∈ addresses
  · rw [if_pos h]
    have member : (a, f a) ∈ addresses.toList.map fun a => (a, f a) :=
      List.mem_map.2 ⟨a, Std.ExtTreeSet.mem_toList.2 h, rfl⟩
    have same : compare a a = .eq := Std.ReflCmp.compare_self
    have distinct : addresses.toList.Pairwise fun a b => ¬ compare a b = .eq :=
      Std.ExtTreeSet.distinct_toList
    exact Std.ExtTreeMap.getElem?_ofList_of_mem same (List.pairwise_map.2 distinct) member
  · rw [if_neg h]
    refine Std.ExtTreeMap.getElem?_ofList_of_contains_eq_false ?_
    simpa using h

/-- The client of a steady node is steady, with any number of workers. -/
theorem steady_client (steady : node.Steady answers) (workers : Rpc.Value) :
    (node.client workers).Steady answers.holding answers.tracesOf where
  balance a id s n s' h := by
    rw [Answers.holding, fetchBalance_eq_ok steady h]
    rfl
  balances addresses id s known s' h a := by
    obtain ⟨pairs, s₁, gathered, h⟩ := Asking.outcome_bind_eq_ok.1 h
    obtain rfl := Except.ok.inj (Prod.mk.inj h).1
    have fixed : ∀ a ∈ addresses.toList, ∀ s e s',
        ((fun n => (a, n)) <$> node.fetchBalance (.text a.text) id).outcome s = (.ok e, s') →
          (fun n => (a, n)) <$> answers.balanceOf id a = .ok e := by
      intro a _ s e s' made
      rw [Asking.outcome_map] at made
      rcases fetched : (node.fetchBalance (.text a.text) id).outcome s with ⟨_ | n, s₂⟩
      · simp [fetched, Except.map] at made
      · rw [fetchBalance_eq_ok steady fetched]
        rw [fetched] at made
        exact (Prod.mk.inj made).1
    rw [pairs_of_map (gather_eq_ok fixed gathered)]
    exact getElem?_ofList_map addresses (answers.holding id) a
  traces ids s ts s' h :=
    mapM_of_map (gather_eq_ok (fun id _ s trace s' => fetchTrace_eq_ok steady) h)

/-- What the requests for a balance keep, a question for one keeps, also one that fails. -/
theorem safe_balance {node : Node σ} {C : σ → Prop} {id : BlockId}
    (kept : ∀ text s, C s → C ((node.balance text id).outcome s).2) (workers : Rpc.Value)
    (completion : Gather.Completion σ) (a : Address) :
    ((node.client workers completion).balance a id).Safe C (fun _ => True) (fun _ => True) := by
  have asked (text : String) : (node.balance text id).Safe C (fun _ => True) (fun _ => True) :=
    fun s h => ⟨kept text s h, Within.any _⟩
  refine Asking.Safe.mapFault ((Asking.safe_ofExcept (Within.any _)).bind fun text _ => ?_)
    fun _ _ => trivial
  exact (asked text).bind fun v _ => Asking.safe_ofExcept (Within.any _)

/-- So it is with the requests for a trace. -/
theorem safe_trace {node : Node σ} {C : σ → Prop} {id : TxId}
    (kept : ∀ s, C s → C ((node.trace id.hex).outcome s).2) (workers : Rpc.Value)
    (completion : Gather.Completion σ) :
    ((node.client workers completion).trace id).Safe C (fun _ => True) (fun _ => True) := by
  have asked : (node.trace id.hex).Safe C (fun _ => True) (fun _ => True) :=
    fun s h => ⟨kept s h, Within.any _⟩
  exact (asked.mapFault fun _ _ => trivial).bind fun v _ => Asking.safe_ofExcept (Within.any _)

/-- A node that only tells balances and traces, and always does. -/
def answering (answers : Answers) : Node Unit where
  transaction _ := .fail .noBaseline
  block _ _ := .fail .noBaseline
  code _ _ := .fail .noBaseline
  balance address id := pure (answers.balance address id)
  trace hash := pure (answers.trace hash)

theorem steady_answering (answers : Answers) : (answering answers).Steady answers where
  balance _ _ _ _ _ h := (Except.ok.inj (Prod.mk.inj h).1).symm
  trace _ _ _ _ h := (Except.ok.inj (Prod.mk.inj h).1).symm

end Node

end TraceDiff
