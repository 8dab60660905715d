import TraceDiff.Node.Recorded
import TraceDiff.Proofs.Address
import TraceDiff.Proofs.Node

/-! What a node is asked, and what comes of it. Its client makes the one request that a question
stands for; accounts are asked for in their checksum form. -/
namespace TraceDiff

variable {σ α β : Type}

/-- A request to a node, and what it came to. -/
structure Exchange where
  request : Request
  result : Except Fault Rpc.Value

namespace Node

/-- The request with its result taken down. -/
def note (request : Request) (p : Asking σ Rpc.Value) :
    Asking (List Exchange × σ) Rpc.Value :=
  .ofOutcome fun (log, s) =>
    let (result, s) := p.outcome s
    (result, (log ++ [⟨request, result⟩], s))

/-- The node with every exchange taken down, the last one at the end. -/
def noting (node : Node σ) : Node (List Exchange × σ) where
  transaction hash := note (.transaction hash) (node.transaction hash)
  block id full := note (.block id full) (node.block id full)
  code address id := note (.code address id) (node.code address id)
  balance address id := note (.balance address id) (node.balance address id)
  trace hash := note (.trace hash) (node.trace hash)

/-- What was asked for, in that order. -/
def requests (log : List Exchange) : List Request := log.map (·.request)

/-- Whenever the computation comes through, it has made these requests. -/
def Makes (p : Asking (List Exchange × σ) α) (made : List Request) : Prop :=
  ∀ w a w', p.outcome w = (.ok a, w') → requests w'.1 = requests w.1 ++ made

section Makes

variable {p : Asking (List Exchange × σ) α} {made more : List Request}

theorem makes_note (request : Request) (p : Asking σ Rpc.Value) :
    Makes (note request p) [request] := by
  rintro ⟨log, s⟩ v w' done
  obtain ⟨-, rfl⟩ := Prod.mk.inj done
  simp [requests]

theorem makes_ofExcept (r : Except Fault α) :
    Makes (.ofExcept r : Asking (List Exchange × σ) α) [] := by
  intro w a w' done
  obtain ⟨-, rfl⟩ := Prod.mk.inj done
  exact (List.append_nil _).symm

theorem Makes.bind {f : α → Asking (List Exchange × σ) β} (hp : Makes p made)
    (hf : ∀ a, Makes (f a) more) : Makes (p >>= f) (made ++ more) := by
  intro w b w' done
  obtain ⟨a, w₁, first, second⟩ := Asking.outcome_bind_eq_ok.1 done
  rw [hf a w₁ b w' second, hp w a w₁ first, List.append_assoc]

/-- What only reads an answer makes no request. -/
theorem Makes.bind_quiet {f : α → Asking (List Exchange × σ) β} (hp : Makes p made)
    (hf : ∀ a, Makes (f a) []) : Makes (p >>= f) made := by
  rw [← List.append_nil made]
  exact hp.bind hf

theorem Makes.map (hp : Makes p made) (g : α → β) : Makes (g <$> p) made := by
  intro w b w' done
  obtain ⟨a, came, -⟩ := Asking.outcome_map_eq_ok.1 done
  exact hp w a w' came

theorem Makes.wrap (hp : Makes p made) (report : Fault → Fault) :
    Makes (wrap report p) made := fun w a w' done => hp w a w' (wrap_eq_ok done)

theorem makes_mapM {request : α → Asking (List Exchange × σ) β} {asked : α → List Request}
    {items : List α} (each : ∀ a ∈ items, Makes (request a) (asked a)) :
    Makes (items.mapM request) (items.flatMap asked) := by
  induction items with
  | nil => exact makes_ofExcept (.ok [])
  | cons a items ih =>
    obtain ⟨first, rest⟩ := List.forall_mem_cons.1 each
    rw [List.mapM_cons, List.flatMap_cons]
    refine first.bind fun b => ?_
    exact (ih rest).bind_quiet fun bs => makes_ofExcept (.ok (b :: bs))

theorem makes_gather {request : α → Asking (List Exchange × σ) β} {asked : α → List Request}
    {items : List α} (each : ∀ a ∈ items, Makes (request a) (asked a)) (workers : Rpc.Value)
    (completion : Gather.Completion (List Exchange × σ)) :
    Makes (gather workers request items completion) (items.flatMap asked) :=
  fun w bs w' done => makes_mapM each w bs w' (mapM_of_gather done)

end Makes

/-- The form that the account is sent in. -/
def sent (a : Address) : String := a.checksum.toOption.getD ""

theorem sent_inj {a b : Address} (ha : a.Canonical) (hb : b.Canonical) (same : sent a = sent b) :
    a = b := by
  obtain ⟨s, hs⟩ := Address.checksum_of_canonical ha
  obtain ⟨t, ht⟩ := Address.checksum_of_canonical hb
  simp only [sent, hs, ht] at same
  obtain rfl : s = t := same
  exact Address.checksum_inj ha hb hs ht

section Client

variable (node : Node σ) (workers : Rpc.Value) (completion : Gather.Completion (List Exchange × σ))

theorem makes_checksum {f : String → Asking (List Exchange × σ) β} {made : String → List Request}
    (hf : ∀ text, Makes (f text) (made text)) (a : Address) :
    Makes (checksum (.text a.text) >>= f) (made (sent a)) := by
  intro w b w' done
  obtain ⟨text, w₁, formed, done⟩ := Asking.outcome_bind_eq_ok.1 done
  obtain rfl : w = w₁ := (Prod.mk.inj formed).2
  have form : a.checksum.mapError Fault.badAddress = .ok text := by
    rw [← Address.bind_ofText_checksum]
    exact (Prod.mk.inj formed).1
  cases held : a.checksum with
  | error e =>
    rw [held] at form
    nomatch form
  | ok text' =>
    rw [held] at form
    obtain rfl : text' = text := Except.ok.inj form
    have same : sent a = text' := by rw [sent, held]; rfl
    rw [same]
    exact hf text' w b w' done

theorem makes_transaction (id : TxId) :
    Makes ((node.noting.client workers completion).transaction id) [.transaction id.hex] := by
  refine ((makes_note _ _).wrap _).bind_quiet fun v => ?_
  split <;> exact makes_ofExcept _

theorem makes_block (id : BlockId) (full : Rpc.Value) :
    Makes ((node.noting.client workers completion).block id full) [.block id full] := by
  refine ((makes_note _ _).wrap _).bind_quiet fun v => ?_
  split <;> exact makes_ofExcept _

theorem makes_code (a : Address) (id : BlockId) :
    Makes ((node.noting.client workers completion).code a id) [.code (sent a) id] :=
  ((makes_checksum (fun _ => makes_note _ _) a).wrap _).bind_quiet fun _ => makes_ofExcept _

theorem makes_balance (a : Address) (id : BlockId) :
    Makes ((node.noting.client workers completion).balance a id) [.balance (sent a) id] :=
  (makes_checksum (fun _ => (makes_note _ _).bind_quiet fun _ => makes_ofExcept _) a).wrap _

theorem makes_balances (addresses : AddressSet) (id : BlockId) :
    Makes ((node.noting.client workers completion).balances addresses id)
      (addresses.toList.map fun a => .balance (sent a) id) := by
  rw [← List.flatMap_singleton' (List.map _ _), List.flatMap_map]
  refine (makes_gather (fun a _ => ?_) workers completion).bind_quiet fun _ =>
    makes_ofExcept (.ok _)
  exact (makes_balance node workers completion a id).map _

theorem makes_trace (id : TxId) :
    Makes ((node.noting.client workers completion).trace id) [.trace id.hex] :=
  ((makes_note _ _).wrap _).bind_quiet fun _ => makes_ofExcept _

theorem makes_traces (ids : List TxId) :
    Makes ((node.noting.client workers completion).traces ids)
      (ids.map fun id => .trace id.hex) := by
  rw [← List.flatMap_singleton' (List.map _ _), List.flatMap_map]
  exact makes_gather (fun id _ => makes_trace node workers completion id) workers completion

/-- All that was asked for since `base` are balances. -/
def OnlyBalances (base : List Request) (w : List Exchange × σ) : Prop :=
  ∃ asked : List (String × BlockId),
    requests w.1 = base ++ asked.map fun q => .balance q.1 q.2

/-- Also a request that fails asks for nothing but a balance. -/
theorem onlyBalances_balance (base : List Request) (a : Address) (id : BlockId) :
    ((node.noting.client workers completion).balance a id).Safe (OnlyBalances base)
      (fun _ => True) (fun _ => True) := by
  refine safe_balance ?_ workers completion a
  rintro text ⟨log, s⟩ ⟨asked, since⟩
  refine ⟨asked ++ [(text, id)], ?_⟩
  simp only [noting, note, requests, Asking.outcome_ofOutcome, List.map_append] at since ⊢
  rw [since, List.append_assoc]
  rfl

/-- A transaction that is told was read from an answer. -/
theorem canonical_transaction {id : TxId} {w w' : List Exchange × σ} {tx : Transaction}
    (told : ((node.noting.client workers completion).transaction id).outcome w = (.ok tx, w'))
    {a : Address} (party : tx.sender = some a ∨ tx.target = some a) : a.Canonical := by
  obtain ⟨v, w₁, -, told⟩ := Asking.outcome_bind_eq_ok.1 told
  cases v with
  | null => nomatch (Prod.mk.inj told).1
  | _ =>
    obtain ⟨v, -, read⟩ := bind_eq_ok.1 (Prod.mk.inj told).1
    exact Transaction.canonical_of_ofValue read party

end Client

end Node

end TraceDiff
