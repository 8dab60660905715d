import TraceDiff.Proofs.BlockPrefix.Faults
import TraceDiff.Proofs.Extraction.Chain
import TraceDiff.Proofs.Node.Exchanges
import TraceDiff.Proofs.Replay.Asked

/-! What a node is asked in one extraction. Code and balances are remembered by account, and the
traces of the block by their presence, so that nothing is asked for twice however often a replay
comes back to it. -/
namespace TraceDiff

open Node (requests sent Makes OnlyBalances)

variable {σ α : Type}

theorem AddressSet.nodup_toList (s : AddressSet) : s.toList.Nodup := by
  refine Std.ExtTreeSet.distinct_toList.imp ?_
  rintro a _ apart rfl
  exact apart Std.ReflCmp.compare_self

namespace Request

/-- The request itself, if it is for a transaction or a block. -/
def ofSubject? : Request → Option Request
  | transaction hash => some (transaction hash)
  | block id full => some (block id full)
  | _ => none

def trace? : Request → Option String
  | trace hash => some hash
  | _ => none

/-- The account whose code at a block is asked for. -/
def codeAt? (block : BlockId) : Request → Option String
  | code address id => if id = block then some address else none
  | _ => none

/-- The account whose balance at a block is asked for. -/
def balanceAt? (block : BlockId) : Request → Option String
  | balance address id => if id = block then some address else none
  | _ => none

end Request

/-- The client of a node that is noted: it makes the requests that its questions stand for, and
tells accounts in lower case. -/
structure Client.Noted (client : Client (List Exchange × σ)) : Prop where
  transaction : ∀ id, Makes (client.transaction id) [.transaction id.hex]
  block : ∀ id full, Makes (client.block id full) [.block id full]
  code : ∀ a id, Makes (client.code a id) [.code (sent a) id]
  balance : ∀ a id, Makes (client.balance a id) [.balance (sent a) id]
  balances : ∀ addresses id, Makes (client.balances addresses id)
    (addresses.toList.map fun a => .balance (sent a) id)
  trace : ∀ id, Makes (client.trace id) [.trace id.hex]
  traces : ∀ ids, Makes (client.traces ids) (ids.map fun id => .trace id.hex)
  onlyBalances : ∀ base a id, (client.balance a id).Safe (OnlyBalances base) (fun _ => True)
    (fun _ => True)
  party : ∀ id w tx w', (client.transaction id).outcome w = (.ok tx, w') →
    ∀ a, tx.sender = some a ∨ tx.target = some a → a.Canonical

theorem Node.noted_client (node : Node σ) (workers : Rpc.Value)
    (completion : Gather.Completion (List Exchange × σ)) :
    (node.noting.client workers completion).Noted where
  transaction := makes_transaction node workers completion
  block := makes_block node workers completion
  code := makes_code node workers completion
  balance := makes_balance node workers completion
  balances := makes_balances node workers completion
  trace := makes_trace node workers completion
  traces := makes_traces node workers completion
  onlyBalances := onlyBalances_balance node workers completion
  party _ _ _ _ told _ := canonical_transaction node workers completion told

theorem Node.Makes.beside {τ : Type} {p : Asking (List Exchange × σ) α} {made : List Request}
    (hp : Makes p made) {w w' : τ × List Exchange × σ} {a : α}
    (told : (Asking.beside p).outcome w = (.ok a, w')) :
    w'.1 = w.1 ∧ requests w'.2.1 = requests w.2.1 ++ made := by
  obtain ⟨came, rfl⟩ := Prod.mk.inj told
  exact ⟨rfl, hp w.2 a _ (Prod.ext came rfl)⟩

/-- A list of balances shows nothing of the other requests. -/
theorem filterMap_balances {view : Request → Option α}
    (blind : ∀ text id, view (.balance text id) = none) (asked : List (String × BlockId)) :
    (asked.map fun q => Request.balance q.1 q.2).filterMap view = [] := by
  simp [List.filterMap_map, blind]

section Prefix

variable {client : Client (List Exchange × σ)} {p : BlockPrefix} {tracked : AddressSet}
  {balances : Balances} {w w' : BlockPrefix.Traced (List Exchange × σ)}

namespace BlockPrefix

/-- Going through the transactions of a prefix asks for balances alone. -/
theorem onlyBalances_advance (noted : client.Noted) (p : BlockPrefix) (tracked : AddressSet)
    (base : List Request) (items : List (Transaction × Trace)) (balances : Balances) :
    (p.advance client tracked items balances).Safe (OnlyBalances base) (fun _ => True)
      (fun _ => True) := by
  induction items generalizing balances with
  | nil => exact Asking.safe_pure trivial
  | cons item items ih =>
    obtain ⟨tx, trace⟩ := item
    have answer : Sources.Safe { baseline := some (p.running client balances) }
        (OnlyBalances base) (fun _ => True) := by
      refine ⟨nofun, nofun, ?_⟩
      rintro _ ⟨⟩ a
      simp only [running]
      cases balances[a]? with
      | some n => exact Asking.safe_ofExcept (Within.any _)
      | none => exact noted.onlyBalances base a _
    have covers (records : List Record) : Replay.Covers
        { baseline := some (p.running client balances) } (OnlyBalances base) records
          (fun _ => True) := {
      lack := fun _ _ => trivial
      long := .inr trivial
      name := fun _ _ _ _ _ => trivial
      word := .inr trivial
      answer := answer
      located := fun _ _ _ _ => trivial }
    refine (safe_balanceEffects_of_covers (Within.any _) (covers []) (covers _)).bind fun _ _ => ?_
    exact (Asking.safe_ofExcept (Within.any _)).bind fun balances' _ => ih balances'

/-- A query asks for the balances of the accounts that it tracks, if there are any. -/
theorem requests_of_fetch (noted : client.Noted)
    (came : (p.fetch client tracked).outcome w = (.ok balances, w')) :
    w'.1 = w.1 ∧ ∃ asked : List (String × BlockId),
      requests w'.2.1 = requests w.2.1 ++ asked.map fun q => .balance q.1 q.2 := by
  unfold fetch at came
  split at came
  · obtain rfl : w = w' := (Prod.mk.inj came).2
    exact ⟨rfl, [], (List.append_nil _).symm⟩
  · obtain ⟨same, made⟩ := (noted.balances tracked (.number p.parent)).beside came
    refine ⟨same, tracked.toList.map fun a => (sent a, .number p.parent), ?_⟩
    rw [made, List.map_map]
    rfl

theorem requests_of_traces (noted : client.Noted) {traces : List Trace}
    (came : (p.traces client).outcome w = (.ok traces, w')) :
    w'.1.isSome ∧ requests w'.2.1 =
      requests w.2.1 ++ if w.1.isSome then [] else p.ids.map fun id => .trace id.hex := by
  obtain ⟨known, outside⟩ := w
  simp only [BlockPrefix.traces, Asking.outcome_ofOutcome] at came
  cases known with
  | some _ =>
    obtain rfl := (Prod.mk.inj came).2
    exact ⟨rfl, (List.append_nil _).symm⟩
  | none =>
    simp only at came
    split at came
    · next _ outside' fetched =>
      obtain rfl := (Prod.mk.inj came).2
      exact ⟨rfl, noted.traces p.ids _ _ _ fetched⟩
    · cases (Prod.mk.inj came).1

/-- Besides balances, a query asks for the traces that are not known yet, each once. -/
theorem requests_of_preBalances (noted : client.Noted) {view : Request → Option α}
    (blind : ∀ text id, view (.balance text id) = none)
    (came : (p.preBalances client tracked).outcome w = (.ok balances, w')) :
    w'.1.isSome ∧ (requests w'.2.1).filterMap view = (requests w.2.1).filterMap view ++
      if w.1.isSome then [] else (p.ids.map fun id => Request.trace id.hex).filterMap view := by
  rw [preBalances_eq] at came
  obtain ⟨fetched, w₁, fetching, came⟩ := Asking.outcome_bind_eq_ok.1 came
  obtain ⟨traces, w₂, traced, came⟩ := Asking.outcome_bind_eq_ok.1 came
  obtain ⟨moved, w₃, advanced, came⟩ := Asking.outcome_bind_eq_ok.1 came
  obtain rfl : w₃ = w' := (Prod.mk.inj came).2
  obtain ⟨same, asked, since⟩ := requests_of_fetch noted fetching
  obtain ⟨there, tracing⟩ := requests_of_traces noted traced
  rw [Asking.outcome_beside] at advanced
  obtain ⟨told, rfl⟩ := Prod.mk.inj advanced
  obtain ⟨asked', since'⟩ := (onlyBalances_advance noted p tracked (requests w₂.2.1) _ _ w₂.2
    ⟨[], (List.append_nil _).symm⟩).1
  refine ⟨there, ?_⟩
  rw [since', List.filterMap_append, filterMap_balances blind, List.append_nil, tracing, since,
    List.filterMap_append, List.filterMap_append, filterMap_balances blind, List.append_nil, same]
  split <;> rfl

end BlockPrefix

end Prefix

namespace Extraction

/-- Distinct accounts of `K`, each asked for by its form. -/
def Once (K : Address → Prop) (texts : List String) : Prop :=
  ∃ asked : List Address, asked.Nodup ∧ (∀ a ∈ asked, a.Canonical ∧ K a) ∧
    texts = asked.map sent

section Once

variable {K K' : Address → Prop} {texts : List String}

theorem Once.nil (K : Address → Prop) : Once K [] := ⟨[], .nil, List.forall_mem_nil _, rfl⟩

theorem Once.mono (h : Once K texts) (more : ∀ a, K a → K' a) : Once K' texts := by
  obtain ⟨asked, once, known, rfl⟩ := h
  exact ⟨asked, once, fun a ha => ⟨(known a ha).1, more a (known a ha).2⟩, rfl⟩

/-- More accounts are asked for, none of which was. -/
theorem Once.append (h : Once K texts) {addresses : List Address} (once : addresses.Nodup)
    (canonical : ∀ a ∈ addresses, a.Canonical) (new : ∀ a ∈ addresses, ¬ K a) :
    Once (fun a => K a ∨ a ∈ addresses) (texts ++ addresses.map sent) := by
  obtain ⟨asked, distinct, known, rfl⟩ := h
  refine ⟨asked ++ addresses, ?_, ?_, by rw [List.map_append]⟩
  · rw [List.nodup_append']
    exact ⟨distinct, once, fun a ha hnew => new a hnew (known a ha).2⟩
  · intro a ha
    rcases List.mem_append.1 ha with ha | ha
    · exact ⟨(known a ha).1, .inl (known a ha).2⟩
    · exact ⟨canonical a ha, .inr ha⟩

/-- No form is asked for twice, and each is that of an account of `K`. -/
theorem Once.forms (h : Once K texts) :
    texts.Nodup ∧ ∀ text ∈ texts, ∃ a, a.checksum = .ok text ∧ K a := by
  obtain ⟨asked, once, known, rfl⟩ := h
  refine ⟨once.map_on fun a ha b hb same => Node.sent_inj (known a ha).1 (known b hb).1 same, ?_⟩
  intro text there
  obtain ⟨a, ha, rfl⟩ := List.mem_map.1 there
  obtain ⟨text, form⟩ := Address.checksum_of_canonical (known a ha).1
  refine ⟨a, ?_, (known a ha).2⟩
  rw [sent, form]
  rfl

end Once

/-- The block before that of the transaction. -/
def Subject.parent (x : Subject) : BlockId := .number (x.block.number.value - 1)

/-- What was asked for in the course of an extraction: code of accounts that it is known for, and
balances of accounts of `K`. -/
structure Asked (x : Subject) (id : TxId) (first : List Request) (exact : Bool)
    (earlier : List TxId) (preCode : AddressMap Bytes) (K : Address → Prop)
    (w : BlockPrefix.Traced (List Exchange × σ)) : Prop where
  subject : (requests w.2.1).filterMap Request.ofSubject? = first
  traces : (requests w.2.1).filterMap Request.trace? =
    id.hex :: if w.1.isSome then earlier.map (·.hex) else []
  codes : Once (· ∈ preCode) ((requests w.2.1).filterMap (Request.codeAt? x.parent))
  balances : exact = false →
    w.1 = none ∧ Once K ((requests w.2.1).filterMap (Request.balanceAt? x.parent))

section Asked

variable {client : Client (List Exchange × σ)} {x : Subject} {id : TxId} {first : List Request}
  {exact : Bool} {earlier : List TxId} {preCode : AddressMap Bytes} {K K' : Address → Prop}
  {baseline : BaselineSource (BlockPrefix.Traced (List Exchange × σ))}
  {w w' : BlockPrefix.Traced (List Exchange × σ)} {a : Address}

theorem Asked.mono (h : Asked x id first exact earlier preCode K w)
    (more : exact = false → ∀ a, K a → K' a) : Asked x id first exact earlier preCode K' w :=
  { h with balances := fun plain => (h.balances plain).imp_right (·.mono (more plain)) }

/-- Before the replay, neither code nor balances were asked for. -/
theorem Asked.of_subject {block : BlockId} {full : Rpc.Value} {s : List Exchange × σ}
    (asked : requests s.1 = [.transaction id.hex, .block block full, .trace id.hex]) :
    Asked x id [.transaction id.hex, .block block full] exact earlier ∅ K (none, s) where
  subject := by
    rw [asked]
    rfl
  traces := by
    rw [asked]
    rfl
  codes := by
    rw [asked]
    exact .nil _
  balances _ := by
    rw [asked]
    exact ⟨rfl, .nil _⟩

/-- One more code is asked for. -/
theorem Asked.of_code {block : BlockId} {preCode' : AddressMap Bytes}
    (h : Asked x id first exact earlier preCode K w) (same : w'.1 = w.1)
    (made : requests w'.2.1 = requests w.2.1 ++ [.code (sent a) block])
    (codes : Once (· ∈ preCode') ((requests w.2.1).filterMap (Request.codeAt? x.parent) ++
      if block = x.parent then [sent a] else [])) :
    Asked x id first exact earlier preCode' K w' where
  subject := by simpa [made, Request.ofSubject?, List.filterMap_cons] using h.subject
  traces := by simpa [made, same, Request.trace?, List.filterMap_cons] using h.traces
  codes := by
    rw [made, List.filterMap_append]
    by_cases here : block = x.parent <;>
      simpa [List.filterMap_cons, Request.codeAt?, here] using codes
  balances plain := by
    simpa [made, same, Request.balanceAt?, List.filterMap_cons] using h.balances plain

theorem Asked.of_before (noted : client.Noted) {code : Bytes} (canonical : a.Canonical)
    (new : a ∉ preCode) (told : ((codeOf client x).before a).outcome w = (.ok code, w'))
    (h : Asked x id first exact earlier preCode K w) :
    Asked x id first exact earlier (preCode.insert a code) K w' := by
  obtain ⟨same, made⟩ := (noted.code a x.parent).beside told
  refine h.of_code same made ?_
  rw [if_pos rfl]
  have more := h.codes.append (List.nodup_singleton a) (by simpa using canonical)
    (by simpa using new)
  refine more.mono fun c hc => ?_
  rw [Std.ExtTreeMap.mem_insert, Std.LawfulEqCmp.compare_eq_iff_eq]
  exact hc.symm.imp_left fun same => (List.mem_singleton.1 same).symm

theorem ofQuantity_ne_parent (x : Subject) : .ofQuantity x.block.number ≠ x.parent := by
  unfold BlockId.ofQuantity Subject.parent
  split
  -- A truth value names its block as it is, even where it counts as the number of the parent.
  · nofun
  · intro same
    have := BlockId.number.inj same
    omega

/-- Code afterwards is asked for at another block. -/
theorem Asked.of_after (noted : client.Noted) {code : Bytes}
    (told : ((codeOf client x).after a).outcome w = (.ok code, w'))
    (h : Asked x id first exact earlier preCode K w) :
    Asked x id first exact earlier preCode K w' := by
  obtain ⟨same, made⟩ := (noted.code a (.ofQuantity x.block.number)).beside told
  refine h.of_code same made ?_
  rw [if_neg (ofQuantity_ne_parent x), List.append_nil]
  exact h.codes

/-- Balances are asked for that were not. -/
theorem Asked.of_balances {addresses : List Address} (distinct : addresses.Nodup)
    (canonical : ∀ a ∈ addresses, a.Canonical) (new : ∀ a ∈ addresses, ¬ K a) (same : w'.1 = w.1)
    (made : requests w'.2.1 =
      requests w.2.1 ++ addresses.map fun a => .balance (sent a) x.parent)
    (h : Asked x id first exact earlier preCode K w) :
    Asked x id first exact earlier preCode (fun a => K a ∨ a ∈ addresses) w' := by
  have pairs : (addresses.map fun a => Request.balance (sent a) x.parent) =
      (addresses.map fun a => (sent a, x.parent)).map fun q => .balance q.1 q.2 := by
    rw [List.map_map]
    rfl
  have seen : (addresses.map fun a => Request.balance (sent a) x.parent).filterMap
      (Request.balanceAt? x.parent) = addresses.map sent := by
    simp [List.filterMap_map, Function.comp_def, Request.balanceAt?]
  have blind {β : Type} {view : Request → Option β}
      (h : ∀ text id, view (.balance text id) = none) :
      (requests w'.2.1).filterMap view = (requests w.2.1).filterMap view := by
    rw [made, List.filterMap_append, pairs, filterMap_balances h, List.append_nil]
  refine ⟨?_, ?_, ?_, ?_⟩
  · rw [blind fun _ _ => rfl]
    exact h.subject
  · rw [blind fun _ _ => rfl, same]
    exact h.traces
  · rw [blind fun _ _ => rfl]
    exact h.codes
  · intro plain
    obtain ⟨untraced, once⟩ := h.balances plain
    rw [made, List.filterMap_append, seen, same]
    exact ⟨untraced, once.append distinct canonical new⟩

/-- The prefix is queried. -/
theorem Asked.of_query (noted : client.Noted) {p : BlockPrefix} {tracked : AddressSet}
    {balances : Balances} (told : (p.preBalances client tracked).outcome w = (.ok balances, w'))
    (h : Asked x id first true p.ids preCode K w) : Asked x id first true p.ids preCode K' w' := by
  have seen {β : Type} (view : Request → Option β)
      (blind : ∀ text id, view (.balance text id) = none) :=
    BlockPrefix.requests_of_preBalances noted blind told
  obtain ⟨-, subject⟩ := seen Request.ofSubject? fun _ _ => rfl
  obtain ⟨there, traces⟩ := seen Request.trace? fun _ _ => rfl
  obtain ⟨-, codes⟩ := seen (Request.codeAt? x.parent) fun _ _ => rfl
  refine ⟨?_, ?_, ?_, nofun⟩
  · rw [subject, h.subject]
    split <;> simp [List.filterMap_map, Function.comp_def, Request.ofSubject?]
  · rw [traces, h.traces, if_pos there]
    split
    · exact List.append_nil _
    · simp [List.filterMap_map, Function.comp_def, Request.trace?]
  · rw [codes]
    have none : (p.ids.map fun id => Request.trace id.hex).filterMap (Request.codeAt? x.parent) =
        [] := by
      simp [List.filterMap_map, Function.comp_def, Request.codeAt?]
    rw [none, ite_self, List.append_nil]
    exact h.codes

theorem prefix_of_baselineOf (chosen : baselineOf client x true = .ok baseline) :
    ∃ p, BlockPrefix.of x.block x.tx = .ok p ∧ baseline = p.baseline client := by
  rw [baselineOf, if_pos rfl] at chosen
  cases found : BlockPrefix.of x.block x.tx with
  | error f =>
    rw [found] at chosen
    cases chosen
  | ok p =>
    rw [found] at chosen
    exact ⟨p, rfl, (Except.ok.inj chosen).symm⟩

/-- The accounts whose balance at the parent block is known and was of use in the replay. -/
def valued (x : Subject) (b : Baselines) (a : Address) : Prop :=
  a ∈ b.known ∧ a ∈ Replay.destroyed x.target [] x.trace.records

/-- The replay of a transaction asks for nothing twice. -/
theorem carried_asked (noted : client.Noted) (chosen : baselineOf client x exact = .ok baseline)
    (listed : exact = true → ∀ p, BlockPrefix.of x.block x.tx = .ok p → earlier = p.ids) :
    Replay.Carried { code := some (codeOf client x), baseline := some baseline } Address.Canonical
      (· ∈ Replay.destroyed x.target [] x.trace.records)
      fun preCode b w => Asked x id first exact earlier preCode (valued x b) w where
  before := by
    rintro _ ⟨⟩ a preCode b w code w' canonical new told h
    exact h.of_before noted canonical new told
  after := by
    rintro _ ⟨⟩ a preCode b w code w' told h
    exact h.of_after noted told
  balance := by
    rintro _ ⟨⟩ a preCode b w n b' w' canonical destroyed got h
    rcases Baselines.get_eq_ok.1 got with ⟨-, rfl, rfl⟩ | ⟨unknown, told, rfl⟩
    · exact h
    cases exact with
    | false =>
      obtain rfl := Except.ok.inj chosen
      obtain ⟨same, made⟩ := (noted.balance a x.parent).beside told
      have fresh : a ∉ b.known := by
        rw [Std.ExtTreeMap.mem_iff_isSome_getElem?, unknown]
        exact Bool.false_ne_true
      have more := h.of_balances (List.nodup_singleton a) (by simpa using canonical)
        (by simpa using fun known => absurd known.1 fresh) same made
      refine more.mono fun _ c hc => ?_
      rw [valued, Baselines.remember, Std.ExtTreeMap.mem_insertIfNew,
        Std.LawfulEqCmp.compare_eq_iff_eq]
      rcases hc with known | same
      · exact ⟨.inr known.1, known.2⟩
      · obtain rfl := List.mem_singleton.1 same
        exact ⟨.inl rfl, destroyed⟩
    | true =>
      obtain ⟨p, found, rfl⟩ := prefix_of_baselineOf chosen
      obtain rfl := listed rfl p found
      obtain ⟨balances, w₁, queried, told⟩ := Asking.outcome_bind_eq_ok.1 told
      have same : w₁ = w' := by
        split at told
        · exact (Prod.mk.inj told).2
        · cases (Prod.mk.inj told).1
      exact same ▸ h.of_query noted queried

/-- Nor do the balances that the result is settled against, all of which are asked for at last. -/
theorem Asked.of_resolve (noted : client.Noted) (chosen : baselineOf client x exact = .ok baseline)
    (listed : exact = true → ∀ p, BlockPrefix.of x.block x.tx = .ok p → earlier = p.ids)
    {b b' : Baselines} {addresses : AddressSet} {pre : List (Address × Int)}
    (canonical : ∀ a ∈ addresses, a.Canonical)
    (resolved : (Baselines.resolve baseline addresses).outcome (b, w) = (.ok pre, (b', w')))
    (h : Asked x id first exact earlier preCode (valued x b) w) :
    Asked x id first exact earlier preCode
      (fun a => valued x b a ∨ a ∈ addresses) w' := by
  simp only [Baselines.resolve, Asking.outcome_ofOutcome] at resolved
  rcases fetched : (Baselines.fetchMissing baseline (b.missing addresses)).outcome w with
    ⟨f | pairs, w₁⟩
  · simp [fetched] at resolved
  simp only [fetched, Prod.mk.injEq] at resolved
  obtain ⟨-, -, rfl⟩ := resolved
  unfold Baselines.fetchMissing at fetched
  split at fetched
  · obtain rfl := (Prod.mk.inj fetched).2
    exact h.mono fun _ _ => .inl
  have lacking (a : Address) (ha : a ∈ (Std.ExtTreeSet.ofList (b.missing addresses)).toList) :
      a ∈ addresses ∧ a ∉ b.known := by
    simpa [Baselines.missing, ← Std.ExtTreeMap.contains_iff_mem] using ha
  cases exact with
  | false =>
    obtain rfl := Except.ok.inj chosen
    obtain ⟨balances, told, -⟩ := Asking.outcome_map_eq_ok.1 fetched
    obtain ⟨same, made⟩ := (noted.balances _ x.parent).beside told
    have more := h.of_balances (AddressSet.nodup_toList _) (fun a ha =>
      canonical a (lacking a ha).1)
      (fun a ha known => (lacking a ha).2 known.1) same made
    exact more.mono fun _ a ha => ha.imp_right fun ha => (lacking a ha).1
  | true =>
    obtain ⟨p, found, rfl⟩ := prefix_of_baselineOf chosen
    obtain rfl := listed rfl p found
    obtain ⟨balances, told, -⟩ := Asking.outcome_map_eq_ok.1 fetched
    exact h.of_query noted told

/-- What is asked for first, and what is told then. -/
theorem requests_of_subject (noted : client.Noted) {full : Rpc.Value}
    {s s' : List Exchange × σ} (known : (subject client id full).outcome s = (.ok x, s')) :
    (∃ hash, x.tx.blockHash = some hash ∧ requests s'.1 = requests s.1 ++
        [.transaction id.hex, .block (.ofHash hash) full, .trace id.hex]) ∧
      x.target.Canonical ∧ ∀ a, x.tx.sender = some a → a.Canonical := by
  obtain ⟨tx, s₁, told, known⟩ := Asking.outcome_bind_eq_ok.1 known
  have party := noted.party id s tx s₁ told
  cases mined : tx.blockHash with
  | none =>
    rw [mined] at known
    obtain ⟨_, _, failed, -⟩ := Asking.outcome_bind_eq_ok.1 known
    nomatch failed
  | some hash =>
    rw [mined] at known
    obtain ⟨_, _, hashed, known⟩ := Asking.outcome_bind_eq_ok.1 known
    obtain ⟨block, s₂, opened, known⟩ := Asking.outcome_bind_eq_ok.1 known
    obtain ⟨trace, s₃, traced, known⟩ := Asking.outcome_bind_eq_ok.1 known
    obtain ⟨target, s₄, account, known⟩ := Asking.outcome_bind_eq_ok.1 known
    cases hashed
    obtain ⟨runs, rfl⟩ := Prod.mk.inj account
    cases known
    refine ⟨⟨hash, mined, ?_⟩, ?_, fun a sent => party a (.inl sent)⟩
    · rw [noted.trace id _ _ _ traced, noted.block _ full _ _ _ opened,
        noted.transaction id _ _ _ told]
      simp
    · exact Transaction.canonical_account (fun a there => party a (.inr there)) runs

variable {full : Rpc.Value} {result : Diff.Result} {s' : List Exchange × σ}

theorem canonical_of_createdAddress {r : Record} {later : List Record}
    (created : Replay.createdAddress r later = .ok (some a)) : a.Canonical := by
  induction later with
  | nil => nomatch created
  | cons next later ih =>
    unfold Replay.createdAddress at created
    split at created
    · obtain ⟨word, -, created⟩ := bind_eq_ok.1 created
      dsimp only at created
      split at created
      · cases created
      · obtain rfl := Option.some.inj (Except.ok.inj created)
        exact Address.canonical_ofWord word
    · exact ih created

/-- The accounts of a replay are written in lower case, if those of its transaction are. -/
theorem canonical_of_known {root : Address} {paid : Option (Transaction × Int)}
    {records : List Record} (target : root.Canonical)
    (sender : ∀ p ∈ paid, ∀ a, p.1.sender = some a → a.Canonical)
    (known : Replay.Known root paid records a) : a.Canonical := by
  cases known with
  | root => exact target
  | sender there sent => exact sender _ there _ sent
  | named _ names =>
    obtain ⟨word, -, rfl⟩ := names
    exact Address.canonical_ofWord word
  | created _ creates => exact canonical_of_createdAddress creates

/-- The ids by which the transactions of a block before another one are traced. -/
def earlierIds (block : Block) (tx : Transaction) : List TxId :=
  ((BlockPrefix.before? tx.hash block.transactions).getD []).map fun tx => .ofBytes tx.hash

theorem ids_of_of {p : BlockPrefix} (found : BlockPrefix.of x.block x.tx = .ok p) :
    p.ids = earlierIds x.block x.tx := by
  unfold BlockPrefix.of at found
  split at found
  · next transactions before =>
    obtain rfl := Except.ok.inj found
    rw [earlierIds, before]
    rfl
  · nomatch found

/-- What an extraction that gives a result has asked for. -/
theorem asked_of_extract (noted : client.Noted) {s : σ}
    (made : (extract client id exact full).outcome ([], s) = (.ok result, s')) :
    ∃ x hash s₁ preCode traced,
      (subject client id full).outcome ([], s) = (.ok x, s₁) ∧ x.tx.blockHash = some hash ∧
      (∀ a ∈ preCode, a ∈ result.accounts) ∧
      Asked x id [.transaction id.hex, .block (.ofHash hash) full] exact
        (earlierIds x.block x.tx) preCode
        (fun a => a ∈ result.accounts ∨ a ∈ Replay.destroyed x.target [] x.trace.records)
        (traced, s') := by
  obtain ⟨x, s₁, baseline, m, traced, known, chosen, settled⟩ := parts_of_extract made
  obtain ⟨w₁, w₂, pre, b, -, seeded, replayed, resolved, assembled⟩ := parts_of_settle settled
  obtain ⟨⟨hash, mined, asked⟩, target, sender⟩ := requests_of_subject noted known
  have listed (_ : exact = true) (p : BlockPrefix) (found : BlockPrefix.of x.block x.tx = .ok p) :=
    (ids_of_of found).symm
  have start : Replay.Held
      (fun preCode b w => Asked x id [.transaction id.hex, .block (.ofHash hash) full] exact
        (earlierIds x.block x.tx) preCode (valued x b) w)
      (.start x.target, (none, s₁)) :=
    .of_subject asked
  have canonical {a : Address} : Replay.Known x.target (some (x.tx, x.trace.gasUsed.value))
      x.trace.records a → a.Canonical :=
    canonical_of_known target (by rintro _ ⟨⟩; exact sender)
  have prepared : (Replay.prepare { code := some (codeOf client x), baseline := some baseline }
      false (some (x.tx, x.trace.gasUsed.value))).outcome (.start x.target, (none, s₁)) =
        (.ok (), w₁) := seeded
  have ran := (carried_asked noted chosen listed).replay (fun _ => canonical) prepared replayed
    start
  have ended := ran.of_resolve noted chosen listed (fun a there =>
    canonical (Replay.known_of_replay prepared replayed a (Journal.mem_accounts.1 there))) resolved
  have held (a : Address) := (Diff.assemble_eq_ok assembled).1 a
  refine ⟨x, hash, s₁, _, traced, known, mined, fun a there => ?_, ended.mono fun _ a ha => ?_⟩
  · rw [held, Journal.mem_accounts]
    exact .inr (.inr (.inr (.inr (.inr (.inl there)))))
  · rcases ha with valued | there
    · exact .inr valued.2
    · exact .inl ((held a).2 there)

end Asked

theorem hex_ofBytes_inj {xs ys : Bytes} (same : (TxId.ofBytes xs).hex = (TxId.ofBytes ys).hex) :
    xs = ys := by
  have digits : Text.Hex.encode xs = Text.Hex.encode ys := by
    simpa [TxId.ofBytes, Text.Hex.toText, String.ext_iff] using same
  have read := congrArg Text.Hex.decode digits
  rw [Text.Hex.decode_encode, Text.Hex.decode_encode] at read
  exact Option.some.inj read

/-- The traces that are asked for besides that of the transaction: none without exact balances, and
else those of transactions before it in its block, each once. -/
structure Backfills (x : Subject) (id : TxId) (exact : Bool) (asked : List String) : Prop where
  absent : exact = false → asked = []
  once : asked.Nodup
  earlier : ∀ before target after, x.block.transactions = before ++ target :: after →
    target.hash = x.tx.hash →
      (∀ hash ∈ asked, ∃ tx ∈ before, hash = (TxId.ofBytes tx.hash).hex) ∧
        ∀ tx ∈ target :: after, (TxId.ofBytes tx.hash).hex ∉ asked
  /-- Where the transaction is asked for by the hash that it has, its trace is not among them. -/
  own : id.hex = (TxId.ofBytes x.tx.hash).hex → id.hex ∉ asked

/-- What a node is asked for in an extraction. -/
structure AsksOnce (x : Subject) (id : TxId) (hash : Bytes) (full : Rpc.Value) (exact : Bool)
    (result : Diff.Result) (made : List Request) : Prop where
  /-- The transaction and its block are asked for once. -/
  subject : made.filterMap Request.ofSubject? =
    [.transaction id.hex, .block (.ofHash hash) full]
  /-- So is the trace, before any others are. -/
  traces : ∃ asked, made.filterMap Request.trace? = id.hex :: asked ∧ Backfills x id exact asked
  /-- No account is asked twice for its code at the parent block, and all are of the result. -/
  codes : let asked := made.filterMap (Request.codeAt? x.parent)
    asked.Nodup ∧ ∀ text ∈ asked, ∃ a, a.checksum = .ok text ∧ a ∈ result.accounts
  /-- Nor for its balance there; it is an account of the result, or one that destroyed itself. -/
  balances : exact = false →
    let asked := made.filterMap (Request.balanceAt? x.parent)
    asked.Nodup ∧ ∀ text ∈ asked, ∃ a, a.checksum = .ok text ∧
      (a ∈ result.accounts ∨ a ∈ Replay.destroyed x.target [] x.trace.records)

section Backfills

variable {x : Subject}

theorem Backfills.nil (x : Subject) (id : TxId) (exact : Bool) : Backfills x id exact [] where
  absent _ := rfl
  once := .nil
  earlier _ _ _ _ _ := ⟨List.forall_mem_nil _, fun _ _ => List.not_mem_nil⟩
  own _ := List.not_mem_nil

/-- The transactions before another one in a block have traces of their own. -/
theorem backfills_of_before (id : TxId) (distinct : (x.block.transactions.map (·.hash)).Nodup)
    {earlier : List Transaction}
    (found : BlockPrefix.before? x.tx.hash x.block.transactions = some earlier) :
    Backfills x id true (earlier.map fun tx => (TxId.ofBytes tx.hash).hex) := by
  have named {hash : Bytes}
      (asked : (TxId.ofBytes hash).hex ∈ earlier.map fun tx => (TxId.ofBytes tx.hash).hex) :
      hash ∈ earlier.map (·.hash) := by
    obtain ⟨tx, there, same⟩ := List.mem_map.1 asked
    exact List.mem_map.2 ⟨tx, there, hex_ofBytes_inj same⟩
  obtain ⟨new, target, after, places, -⟩ := BlockPrefix.before?_eq_some_iff.1 found
  refine ⟨nofun, ?_, ?_, fun same asked => new (named (same ▸ asked))⟩
  · rw [places, List.map_append] at distinct
    have once := distinct.of_append_left.map fun _ _ => hex_ofBytes_inj
    rwa [List.map_map] at once
  · intro before target' after' places' same'
    rw [places', List.map_append, List.nodup_append'] at distinct
    obtain ⟨-, -, apart⟩ := distinct
    have unlike : x.tx.hash ∉ before.map (·.hash) := fun there =>
      apart there (by simp [same'])
    have again := BlockPrefix.before?_eq_some_iff.2 ⟨unlike, target', after', places', same'⟩
    obtain rfl : earlier = before := Option.some.inj (found.symm.trans again)
    refine ⟨fun hash asked => ?_, fun tx there asked => ?_⟩
    · obtain ⟨tx, there, rfl⟩ := List.mem_map.1 asked
      exact ⟨tx, there, rfl⟩
    · exact apart (named asked) (List.mem_map_of_mem there)

theorem backfills_of_traced (id : TxId) (distinct : (x.block.transactions.map (·.hash)).Nodup)
    (traced : Option (List Trace)) {exact : Bool} (untraced : exact = false → traced = none) :
    Backfills x id exact
      (if traced.isSome then (earlierIds x.block x.tx).map (·.hex) else []) := by
  cases traced with
  | none => exact .nil x id exact
  | some traces =>
    cases exact with
    | false => nomatch untraced rfl
    | true =>
      cases found : BlockPrefix.before? x.tx.hash x.block.transactions with
      | none =>
        rw [earlierIds, found]
        exact .nil x id true
      | some earlier =>
        have backfills := backfills_of_before id distinct found
        rwa [earlierIds, found, Option.getD_some, List.map_map]

end Backfills

/-- Nothing is asked for twice. An extraction that gives a result has asked the node once for the
transaction, its block and its trace, and at most once for the code of an account at the parent
block. Without exact balances it has asked at most once for the balance of an account there, and
for those of the result and of accounts that destroyed themselves only; with them it has asked at
most once for the trace of each transaction before its own, and for that of no other, however often
the replay came back for them. -/
theorem asksOnce_of_extract {node : Node σ} {workers : Rpc.Value}
    {completion : Gather.Completion (List Exchange × σ)} {id : TxId} {exact : Bool}
    {full : Rpc.Value} {s s' : σ} {log : List Exchange} {result : Diff.Result}
    (made : (extract (node.noting.client workers completion) id exact full).outcome ([], s) =
      (.ok result, (log, s'))) :
    ∃ x hash w, (subject (node.noting.client workers completion) id full).outcome ([], s) =
        (.ok x, w) ∧ x.tx.blockHash = some hash ∧
      ((x.block.transactions.map (·.hash)).Nodup →
        AsksOnce x id hash full exact result (requests log)) := by
  have noted := node.noted_client workers completion
  obtain ⟨x, hash, w, preCode, traced, known, mined, held, asked⟩ :=
    asked_of_extract noted made
  refine ⟨x, hash, w, known, mined, fun distinct => ?_⟩
  refine ⟨asked.subject, ⟨_, asked.traces, ?_⟩, (asked.codes.mono held).forms, fun plain =>
    (asked.balances plain).2.forms⟩
  exact backfills_of_traced id distinct traced fun plain => (asked.balances plain).1

/-- The second payment destroys two accounts, one in a call of the other. -/
def destroyingTwice : Node.Answers where
  balance := passingOn.balance
  trace hash :=
    let record (op : String) (depth : Int) (stack : List Int) : Rpc.Value :=
      .object [("op", .text op), ("depth", .int depth), ("stack", .list (stack.map .int))]
    if hash = (TxId.ofBytes firstPayment.hash).hex then passingOn.trace hash
    else .object [("result", .object [("gas", .int 21000), ("failed", .bool false),
      ("structLogs", .list [record "CALL" 1 [0, 7, 0], record "SELFDESTRUCT" 2 [9],
        record "SELFDESTRUCT" 1 [1, 9]])])]

def nodeOfDestroyers : Node Unit :=
  { nodeOfPayments with trace := (Node.answering destroyingTwice).trace }

/-- Both valuations come back for the trace of the payment before, which is asked for once. -/
theorem asksOnce_of_extract_destroyingTwice :
    (requests ((extract nodeOfDestroyers.noting.client (.ofBytes secondPayment.hash) true).outcome
        ([], ())).2.1).filterMap Request.trace? =
      [(TxId.ofBytes secondPayment.hash).hex, (TxId.ofBytes firstPayment.hash).hex] ∧
    ∃ x hash result, AsksOnce x (.ofBytes secondPayment.hash) hash (.bool true) true result
      (requests ((extract nodeOfDestroyers.noting.client (.ofBytes secondPayment.hash)
        true).outcome ([], ())).2.1) := by
  refine ⟨by decide +kernel, ?_⟩
  have told : ((extract nodeOfDestroyers.noting.client (.ofBytes secondPayment.hash) true).outcome
      ([], ())).1.toOption.isSome = true := by
    decide +kernel
  have known : ((subject nodeOfDestroyers.noting.client (.ofBytes secondPayment.hash)
      (.bool true)).outcome ([], ())).1.toOption.map (fun x => x.block.transactions.map (·.hash)) =
        some (blockOfPayments.transactions.map (·.hash)) := by
    decide +kernel
  rcases ran : (extract nodeOfDestroyers.noting.client (.ofBytes secondPayment.hash) true).outcome
    ([], ()) with ⟨made, log, u⟩
  rw [ran] at told
  obtain ⟨result, told⟩ := Option.isSome_iff_exists.1 told
  obtain rfl : made = .ok result := eq_ok_of_toOption told
  obtain ⟨x, hash, w, opened, -, asks⟩ := asksOnce_of_extract ran
  rw [opened] at known
  have listed : x.block.transactions.map (·.hash) = blockOfPayments.transactions.map (·.hash) :=
    Option.some.inj known
  exact ⟨x, hash, result, asks (by rw [listed]; decide +kernel)⟩

end Extraction

end TraceDiff
