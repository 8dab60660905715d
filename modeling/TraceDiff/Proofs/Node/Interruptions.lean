import TraceDiff.Proofs.Node.Exchanges
import TraceDiff.Proofs.Rpc.Interruptions

/-! What a node raises. Its client reports all of it but interruptions, and an interruption that the
client lets through was raised by a request, be it one of several that are made together. -/
namespace TraceDiff

variable {σ τ α β : Type} {E : Fault → σ → Prop}

/-- `E` tells a fault from what is outside, unless no node raises the fault. -/
def Spares (E : Fault → σ → Prop) : Prop := ∀ f s, f.isNode = false → E f s

namespace Asking

/-- Whatever the computation fails with, `E` holds of the fault and the outside that is left. -/
def Blames (E : Fault → σ → Prop) (p : Asking σ α) : Prop :=
  ∀ s f s', p.outcome s = (.error f, s') → E f s'

variable {p : Asking σ α}

theorem blames_ofExcept (spares : Spares E) {r : Except Fault α} (calm : Calm r) :
    (ofExcept r : Asking σ α).Blames E := by
  intro s f s' failed
  exact spares f s' (calm f (Prod.mk.inj failed).1)

theorem blames_pure (a : α) : (pure a : Asking σ α).Blames E := fun _ _ _ failed =>
  nomatch (Prod.mk.inj failed).1

theorem Blames.bind {f : α → Asking σ β} (hp : p.Blames E) (hf : ∀ a, (f a).Blames E) :
    (p >>= f).Blames E := by
  intro s e s' failed
  rcases outcome_bind_eq_error.1 failed with failed | ⟨a, s₁, -, failed⟩
  · exact hp s e s' failed
  · exact hf a s₁ e s' failed

theorem Blames.map (hp : p.Blames E) (g : α → β) : (g <$> p).Blames E := by
  intro s e s' failed
  rw [outcome_map] at failed
  rcases made : p.outcome s with ⟨f | a, s₁⟩
  · rw [made] at failed
    obtain ⟨same, rfl⟩ := Prod.mk.inj failed
    obtain rfl := Except.error.inj same
    exact hp s f s₁ made
  · rw [made] at failed
    nomatch (Prod.mk.inj failed).1

theorem Blames.mapFault {E' : Fault → σ → Prop} (hp : p.Blames E) {g : Fault → Fault}
    (hg : ∀ f s, E f s → E' (g f) s) : (p.mapFault g).Blames E' := by
  intro s e s' failed
  rw [Asking.mapFault, outcome_ofOutcome] at failed
  rcases made : p.outcome s with ⟨f | a, s₁⟩
  · simp only [made] at failed
    obtain ⟨same, rfl⟩ := Prod.mk.inj failed
    obtain rfl := Except.error.inj same
    exact hg f s₁ (hp s f s₁ made)
  · simp [made] at failed

theorem Blames.beside (hp : p.Blames E) :
    (beside p : Asking (τ × σ) α).Blames fun f w => E f w.2 := by
  rintro ⟨t, s⟩ f w' failed
  obtain ⟨came, rfl⟩ := Prod.mk.inj ((outcome_beside p t s).symm.trans failed)
  exact hp s f _ (Prod.ext came rfl)

end Asking

/-- Whatever the client fails with is as `E` says. -/
structure Client.Blames (client : Client σ) (E : Fault → σ → Prop) : Prop where
  transaction : ∀ id, (client.transaction id).Blames E
  block : ∀ id full, (client.block id full).Blames E
  code : ∀ a id, (client.code a id).Blames E
  balance : ∀ a id, (client.balance a id).Blames E
  balances : ∀ addresses id, (client.balances addresses id).Blames E
  trace : ∀ id, (client.trace id).Blames E
  traces : ∀ ids, (client.traces ids).Blames E

namespace Rpc.Value

@[simp] theorem calm_asPair? (v : Value) : Calm v.asPair? := by
  unfold asPair?
  split <;> try simp [Fault.isNode]
  split <;> simp [Fault.isNode]

@[simp] theorem calm_asObject (v : Value) : Calm v.asObject := by
  unfold asObject
  split
  · exact .ok _
  · exact v.calm_items.bind fun items => (Calm.mapM calm_asPair? items).bind fun _ => .ok _

@[simp] theorem calm_member? (key : String) (v : Value) : Calm (v.member? key) := by
  unfold member?
  split
  · exact .ok _
  · split <;> simp [Fault.isNode]
  · split <;> simp [Fault.isNode]
  · simp [Fault.isNode]

end Rpc.Value

namespace Node

/-- An interruption is as `E` says; of other faults nothing is said. -/
def OnInterruption (E : Fault → σ → Prop) (f : Fault) (s : σ) : Prop :=
  f.isInterruption = true → E f s

theorem spares_onInterruption : Spares (OnInterruption E) := fun _ _ own interruption =>
  nomatch (Fault.isInterruption_of_isNode own).symm.trans interruption

/-- The interruptions by the node are as `E` says, and what `E` says of a fault is not changed by
requests that are made together with the one that failed. -/
structure Interrupts (node : Node σ) (E : Fault → σ → Prop) : Prop where
  transaction : ∀ hash, (node.transaction hash).Blames (OnInterruption E)
  block : ∀ id full, (node.block id full).Blames (OnInterruption E)
  code : ∀ address id, (node.code address id).Blames (OnInterruption E)
  balance : ∀ address id, (node.balance address id).Blames (OnInterruption E)
  trace : ∀ hash, (node.trace hash).Blames (OnInterruption E)
  keptByBalance : ∀ f address id s, E f s → E f ((node.balance address id).outcome s).2
  keptByTrace : ∀ f hash s, E f s → E f ((node.trace hash).outcome s).2

/-- Of what a request fails with, interruptions alone are not reported. -/
theorem blames_wrap {report : Fault → Fault} {p : Asking σ α} (spares : Spares E)
    (hp : p.Blames (OnInterruption E)) (reports : ∀ f, (report f).isNode = false) :
    (wrap report p).Blames E := by
  refine hp.mapFault fun f s interrupts => ?_
  split
  · exact interrupts rfl
  · exact spares _ s (reports f)

@[simp] theorem calm_checkWorkers (workers : Rpc.Value) : Calm (checkWorkers workers) := by
  cases workers <;> simp [checkWorkers, Fault.isNode]

/-- The fault of requests made together is that of one of them. -/
theorem blames_gather {request : α → Asking σ β} {items : List α} (spares : Spares E)
    (each : ∀ a ∈ items, (request a).Blames E)
    (kept : ∀ a ∈ items, ∀ f s, E f s → E f ((request a).outcome s).2) (workers : Rpc.Value)
    (completion : Gather.Completion σ) :
    (gather workers request items completion).Blames E := by
  unfold gather
  split
  · exact Asking.blames_pure []
  · have checks := Asking.blames_ofExcept spares (calm_checkWorkers workers)
    refine checks.bind fun _ s f s' failed => ?_
    rcases Gather.all_cases completion request items s with ⟨bs, t, -, came⟩ | ⟨f', member, came⟩
    · nomatch (Prod.mk.inj (came.symm.trans failed)).1
    · obtain ⟨same, rfl⟩ := Prod.mk.inj (came.symm.trans failed)
      obtain rfl := Except.error.inj same
      exact Gather.of_error_mem_outcomes each kept member

@[simp] theorem calm_readTrace (hash : String) (response : Rpc.Value) :
    Calm (readTrace hash response) := by
  unfold readTrace
  refine (response.calm_member? _).bind fun error => ?_
  cases error with
  | some error =>
    dsimp only
    split
    · exact Calm.error_iff.2 rfl
    · split
      · split <;> exact Calm.error_iff.2 rfl
      all_goals exact Calm.error_iff.2 rfl
  | none =>
    refine (response.calm_member? _).bind fun result => ?_
    cases result with
    | some result => exact Trace.calm_ofValue result
    | none => exact Calm.error_iff.2 rfl

section Client

variable {node : Node σ}

theorem Interrupts.fetchTransaction (spares : Spares E) (interrupts : node.Interrupts E)
    (id : TxId) : (node.fetchTransaction id).Blames E := by
  refine (blames_wrap spares (interrupts.transaction _) fun f => ?_).bind fun v => ?_
  · split <;> rfl
  · split
    · exact Asking.blames_ofExcept spares (Calm.error_iff.2 rfl)
    · exact Asking.blames_ofExcept spares
        ((Rpc.Value.calm_asObject _).bind Transaction.calm_ofValue)

theorem Interrupts.fetchBlock (spares : Spares E) (interrupts : node.Interrupts E) (id : BlockId)
    (full : Rpc.Value) : (node.fetchBlock id full).Blames E := by
  refine (blames_wrap spares (interrupts.block _ _) fun f => ?_).bind fun v => ?_
  · split <;> exact Fault.isNode_spelling rfl
  · split
    · exact Asking.blames_ofExcept spares (Calm.error_iff.2 (Fault.isNode_spelling rfl))
    · exact Asking.blames_ofExcept spares ((Rpc.Value.calm_asObject _).bind Block.calm_ofValue)

theorem blames_checksum {f : String → Asking σ β} (hf : ∀ text, (f text).Blames (OnInterruption E))
    (account : Rpc.Value) : (checksum account >>= f).Blames (OnInterruption E) :=
  (Asking.blames_ofExcept spares_onInterruption (Calm.mapError fun _ => rfl)).bind hf

theorem Interrupts.fetchCode (spares : Spares E) (interrupts : node.Interrupts E)
    (account : Rpc.Value) (id : BlockId) : (node.fetchCode account id).Blames E := by
  have asked := blames_checksum (fun text => interrupts.code text id) account
  exact (blames_wrap spares asked fun f => Fault.isNode_spelling rfl).bind fun v =>
    Asking.blames_ofExcept spares v.calm_data

theorem Interrupts.fetchBalance (spares : Spares E) (interrupts : node.Interrupts E)
    (account : Rpc.Value) (id : BlockId) : (node.fetchBalance account id).Blames E := by
  refine blames_wrap spares (blames_checksum (fun text =>
    (interrupts.balance text id).bind fun v => ?_) account) fun f => Fault.isNode_spelling rfl
  exact Asking.blames_ofExcept spares_onInterruption v.calm_integer

theorem Interrupts.fetchTrace (spares : Spares E) (interrupts : node.Interrupts E) (id : TxId) :
    (node.fetchTrace id).Blames E :=
  (blames_wrap spares (interrupts.trace id.hex) fun _ => rfl).bind fun response =>
    Asking.blames_ofExcept spares (calm_readTrace id.hex response)

/-- Nothing that a node raises gets past its client, but for interruptions. -/
theorem Interrupts.client (spares : Spares E) (interrupts : node.Interrupts E)
    (workers : Rpc.Value) (completion : Gather.Completion σ) :
    (node.client workers completion).Blames E where
  transaction := interrupts.fetchTransaction spares
  block := interrupts.fetchBlock spares
  code a := interrupts.fetchCode spares (.text a.text)
  balance a := interrupts.fetchBalance spares (.text a.text)
  balances addresses id := by
    refine (blames_gather spares (fun a _ => ?_) (fun a _ f s h => ?_) workers completion).bind
      fun _ => Asking.blames_pure _
    · exact (interrupts.fetchBalance spares (.text a.text) id).map _
    · rw [Asking.outcome_map]
      exact (safe_balance (fun text => interrupts.keptByBalance f text id) workers completion a s
        h).1
  trace := interrupts.fetchTrace spares
  traces ids :=
    blames_gather spares (fun id _ => interrupts.fetchTrace spares id) (fun id _ f s h =>
      (safe_trace (interrupts.keptByTrace f id.hex) workers completion s h).1) workers completion

end Client

/-- A request came to the fault. -/
def Failed (f : Fault) (w : List Exchange × σ) : Prop := ∃ e ∈ w.1, e.result = .error f

/-- If a node raises such faults, a request came to this one. -/
def Raised (f : Fault) (w : List Exchange × σ) : Prop := f.isNode = true → Failed f w

/-- What is taken down stays. -/
theorem Raised.note {f : Fault} {w : List Exchange × σ} (h : Raised f w) (request : Request)
    (p : Asking σ Rpc.Value) : Raised f ((note request p).outcome w).2 := by
  intro node
  obtain ⟨e, there, same⟩ := h node
  exact ⟨e, List.mem_append_left _ there, same⟩

end Node

end TraceDiff
