import TraceDiff.Proofs.BlockPrefix.Spared
import TraceDiff.Proofs.Extraction

/-! Extractions of one block after another. What the first one reports as the balances after its
transaction is worked out by a full replay, what the next one reports as the balances before its own
by replays for balances alone; both are the same. -/
namespace TraceDiff

section Moving

variable {σ : Type} {sources : Sources σ} {C : σ → Prop} {holding : Address → Int}
  {tx : Transaction} {trace : Trace} {target : Address}

/-- The changes that are listed are those of all accounts. -/
theorem Journal.getD_changes (j : Journal) (a : Address) :
    (Std.ExtTreeMap.ofList (j.balanceAccounts.toList.map fun a => (a, j.ledger.net a)) :
      Balances).getD a 0 = j.ledger.net a := by
  rw [Std.ExtTreeMap.getD_eq_getD_getElem?, Node.getElem?_ofList_map]
  split
  · rfl
  · next unlisted =>
    have uncredited : a ∉ j.ledger.credits := fun h => unlisted (mem_balanceAccounts.2 (.inr (.inl h)))
    have undebited : a ∉ j.ledger.debits := fun h => unlisted (mem_balanceAccounts.2 (.inr (.inr h)))
    simp [Ledger.net, Ledger.credited, Ledger.debited,
      Std.ExtTreeMap.getD_eq_fallback uncredited, Std.ExtTreeMap.getD_eq_fallback undebited]

/-- The replay for the balances that a transaction moves. Of one that failed no record counts. -/
def replayOfMoves (v : Address → Option Int) (trace : Trace) : Replay.Run Unit Unit :=
  if trace.failed then Replay.replay { baseline := some (.known v) } true [] true
  else Replay.replay { baseline := some (.known v) } true trace.records false

theorem moved_of_moves (spares : trace.Spares) (account : tx.account = .ok target)
    {v : Address → Option Int} {m : Replay.Machine} {u : Unit}
    (ran : (replayOfMoves v trace).outcome
      (Replay.charge tx trace.gasUsed.value (.start target), ()) = (.ok (), (m, u))) (a : Address) :
    moved tx trace a = m.journal.ledger.net a := by
  have made : (balanceEffects (.known v) tx trace).outcome () =
      (.ok (Std.ExtTreeMap.ofList
        (m.journal.balanceAccounts.toList.map fun a => (a, m.journal.ledger.net a))), ()) := by
    refine Asking.outcome_bind_eq_ok.2 ⟨target, (), by rw [account]; rfl, ?_⟩
    simp only [Asking.outcome_ofOutcome, Replay.seed_balancesOnly]
    unfold replayOfMoves at ran
    rw [Asking.outcome_bind]
    simp only [Replay.change, Asking.outcome_ofOutcome, ran]
  rw [moved_of_effects spares (congrArg Prod.fst made)]
  exact m.journal.getD_changes a

/-- Without records, a transaction that failed leaves its fee. -/
theorem ledger_of_nothing (source : BaselineSource Unit) (tx : Transaction) (gasUsed : Int)
    (target : Address) : ∃ m,
      (Replay.replay { baseline := some source } true [] true).outcome
        (Replay.charge tx gasUsed (.start target), ()) = (.ok (), (m, ())) ∧
      m.journal.ledger = (Replay.Machine.start target).fallback (some (tx, gasUsed)) := by
  have prepared : (Replay.prepare { baseline := some source } true (some (tx, gasUsed))).outcome
      (.start target, ()) = (.ok (), (Replay.charge tx gasUsed (.start target), ())) := by
    rw [Replay.prepare, Replay.seed_balancesOnly]
    rfl
  have none : Replay.AbortsLast [] := fun passed r later split => by simp at split
  have ran : (Replay.replay { baseline := some source } true [] true).outcome
      (Replay.charge tx gasUsed (.start target), ()) = (.ok (), (_, ())) :=
    Replay.replay_eq_ok.2 ⟨Replay.anchor _, rfl, Replay.finish_of_root true rfl⟩
  exact ⟨_, ran, Replay.ledger_of_abortsLast rfl none prepared ran⟩

/-- The full replay of a transaction moves what is reckoned with for the next one, if in a
transaction that failed nothing comes after the abort. -/
theorem moved_of_replay (values : sources.Values C holding)
    (known : sources.baseline.isSome = true) (spares : trace.Spares)
    (last : trace.failed = true → Replay.AbortsLast trace.records)
    (account : tx.account = .ok target) {m₁ m₂ : Replay.Machine} {s s₁ s₂ : σ} (c : C s)
    (seeded : (Replay.seed sources false tx trace.gasUsed.value).outcome (.start target, s) =
      (.ok (), (m₁, s₁)))
    (replayed : (Replay.replay sources false trace.records trace.failed).outcome (m₁, s₁) =
      (.ok (), (m₂, s₂))) (a : Address) : moved tx trace a = m₂.journal.ledger.net a := by
  have gives : (BaselineSource.known fun a => some (holding a)).Gives holding := fun a t => ⟨t, rfl⟩
  obtain ⟨same, c'⟩ := Replay.sameBalances_seed values known tx trace.gasUsed.value
    (Replay.sameBalances_start holding target) c seeded
  cases failed : trace.failed with
  | false =>
    rw [failed] at replayed
    obtain ⟨m, t, ran, same, -⟩ := Replay.sameBalances_replay values known gives same c' replayed ()
    have moves : (replayOfMoves (fun a => some (holding a)) trace).outcome
        (Replay.charge tx trace.gasUsed.value (.start target), ()) = (.ok (), (m, t)) := by
      rw [replayOfMoves, failed]
      exact ran
    rw [moved_of_moves spares account moves, same.journal.ledger, Ledger.net_bare]
  | true =>
    -- both replays go back to what is left once the fee is paid
    rw [failed] at replayed
    have prepared : (Replay.prepare sources false (some (tx, trace.gasUsed.value))).outcome
        (.start target, s) = (.ok (), (m₁, s₁)) := seeded
    have fallen := Replay.ledger_of_abortsLast rfl (last failed) prepared replayed
    obtain ⟨m, ran, fallen'⟩ := ledger_of_nothing (.known fun a => some (holding a)) tx
      trace.gasUsed.value target
    have moves : (replayOfMoves (fun a => some (holding a)) trace).outcome
        (Replay.charge tx trace.gasUsed.value (.start target), ()) = (.ok (), (m, ())) := by
      rw [replayOfMoves, failed]
      exact ran
    rw [moved_of_moves spares account moves, fallen', fallen]

end Moving

namespace Baselines

variable {holding : Address → Int} {b : Baselines} {entries : List (Address × Int)}

theorem KnownBy.rememberAll (told : ∀ e ∈ entries, e.2 = holding e.1) (h : b.KnownBy holding) :
    (b.rememberAll entries).KnownBy holding := by
  induction entries generalizing b with
  | nil => exact h
  | cons e entries ih =>
    obtain ⟨first, rest⟩ := List.forall_mem_cons.1 told
    have once := h.remember e.1
    rw [← first] at once
    exact ih rest once

theorem KnownBy.select {addresses : List Address} (h : b.KnownBy holding)
    (selected : b.select addresses = .ok entries) : ∀ e ∈ entries, e.2 = holding e.1 := by
  induction addresses generalizing entries with
  | nil =>
    obtain rfl := Except.ok.inj selected
    exact List.forall_mem_nil _
  | cons a addresses ih =>
    unfold Baselines.select at selected
    cases found : b.known[a]? with
    | none => simp [found] at selected
    | some n =>
      simp only [found] at selected
      cases more : b.select addresses with
      | error f =>
        rw [more] at selected
        nomatch selected
      | ok rest =>
        rw [more] at selected
        obtain rfl := Except.ok.inj selected
        exact List.forall_mem_cons.2 ⟨h a n found, ih more⟩

end Baselines

namespace BlockPrefix

variable {σ : Type} {p : BlockPrefix} {client : Client σ} {answers : Node.Answers} {w w' : Traced σ}

/-- The balances that a result is settled against are exact. -/
theorem resolve_of_spare (steady : client.Steady answers.holding answers.tracesOf)
    (spare : answers.Spare p.transactions) (cached : p.Cached answers.tracesOf w) {b b' : Baselines}
    (known : b.KnownBy (answers.balanceAfter p.parent p.transactions)) {accounts : AddressSet}
    {pre : List (Address × Int)}
    (resolved : (Baselines.resolve (p.baseline client) accounts).outcome (b, w) =
      (.ok pre, (b', w'))) :
    ∀ e ∈ pre, e.2 = answers.balanceAfter p.parent p.transactions e.1 := by
  simp only [Baselines.resolve, Asking.outcome_ofOutcome] at resolved
  rcases made : (Baselines.fetchMissing (p.baseline client) (b.missing accounts)).outcome w with
    ⟨f | fetched, w₁⟩
  · simp [made] at resolved
  · simp only [made, Prod.mk.injEq] at resolved
    have told : ∀ e ∈ fetched, e.2 = answers.balanceAfter p.parent p.transactions e.1 := by
      unfold Baselines.fetchMissing at made
      split at made
      · obtain rfl := Except.ok.inj (Prod.mk.inj made).1
        exact List.forall_mem_nil _
      · simp only [baseline, Asking.outcome_map] at made
        rcases queried : (p.preBalances client (Std.ExtTreeSet.ofList (b.missing accounts)) :
          Asking (Traced σ) Balances).outcome w with ⟨f | balances, w₂⟩
        · simp [queried, Except.map] at made
        · simp only [queried, Except.map, Prod.mk.injEq, Except.ok.injEq] at made
          obtain ⟨rfl, -⟩ := made
          intro e he
          exact preBalances_of_spare steady spare cached queried
            (Std.ExtTreeMap.mem_toList_iff_getElem?_eq_some.1 he)
    exact (known.rememberAll told).select resolved.1

end BlockPrefix

/-- What the node tells of a transaction: the entry of the block that it is in, that block, and the
trace that it has under the hash of the transaction. -/
structure Node.Places {σ : Type} (node : Node σ) (answers : Node.Answers) (block : Block)
    (full : Rpc.Value) (id : TxId) (tx : Transaction) : Prop where
  transaction : ∀ s t s', (node.fetchTransaction id).outcome s = (.ok t, s') → t = tx
  block : ∀ hash ∈ tx.blockHash, ∀ s b s',
    (node.fetchBlock (.ofHash hash) full).outcome s = (.ok b, s') → b = block
  trace : ∀ trace, answers.traceOf id = .ok trace → answers.traceOf (.ofBytes tx.hash) = .ok trace

namespace Extraction

variable {σ : Type} {node : Node σ} {answers : Node.Answers} {workers full : Rpc.Value}
  {block : Block} {earlier later : List Transaction} {tx : Transaction} {id : TxId} {s s' : σ}
  {x : Subject} {result : Diff.Result} {a : Address} {d : Diff.Account}

theorem subject_of_places (steady : node.Steady answers)
    (places : node.Places answers block full id tx)
    (known : (subject (node.client workers) id full).outcome s = (.ok x, s')) :
    x.tx = tx ∧ x.block = block ∧ answers.traceOf (.ofBytes tx.hash) = .ok x.trace ∧
      tx.account = .ok x.target := by
  obtain ⟨t, s₁, told, known⟩ := Asking.outcome_bind_eq_ok.1 known
  obtain rfl := places.transaction s t s₁ told
  cases mined : t.blockHash with
  | none =>
    simp only [mined] at known
    obtain ⟨_, _, failed, -⟩ := Asking.outcome_bind_eq_ok.1 known
    nomatch failed
  | some hash =>
    simp only [mined] at known
    obtain ⟨_, _, named, known⟩ := Asking.outcome_bind_eq_ok.1 known
    obtain rfl := Except.ok.inj (Prod.mk.inj named).1
    obtain ⟨b, s₃, read, known⟩ := Asking.outcome_bind_eq_ok.1 known
    obtain ⟨trace, s₄, traced, known⟩ := Asking.outcome_bind_eq_ok.1 known
    obtain ⟨target, s₅, account, known⟩ := Asking.outcome_bind_eq_ok.1 known
    obtain rfl := Except.ok.inj (Prod.mk.inj known).1
    exact ⟨rfl, places.block hash mined _ b s₃ read,
      places.trace trace (Node.fetchTrace_eq_ok steady traced), (Prod.mk.inj account).1⟩

theorem values_of_spare {client : Client σ} {p : BlockPrefix}
    (steady : client.Steady answers.holding answers.tracesOf)
    (spare : answers.Spare p.transactions) (x : Subject) :
    ({ code := some (codeOf client x), baseline := some (p.baseline client) } :
      Sources (BlockPrefix.Traced σ)).Values (p.Cached answers.tracesOf)
        (answers.balanceAfter p.parent p.transactions) where
  before source hs a w code w' cached fetched := by
    obtain rfl := Option.some.inj hs
    exact (Prod.mk.inj fetched).2 ▸ cached
  after source hs a w code w' cached fetched := by
    obtain rfl := Option.some.inj hs
    exact (Prod.mk.inj fetched).2 ▸ cached
  balance source hs a w n w' cached told := by
    obtain rfl := Option.some.inj hs
    exact BlockPrefix.baseline_of_spare steady spare cached told

/-- A result that is settled against the balances that a prefix leaves starts from these, and adds
to them what its transaction moves. -/
theorem balances_of_settle {client : Client σ} {p : BlockPrefix}
    (steady : client.Steady answers.holding answers.tracesOf)
    (spare : answers.Spare p.transactions) (account : x.tx.account = .ok x.target)
    {w : Replay.Machine × BlockPrefix.Traced σ}
    (settled : (settle (p.baseline client) (codeOf client x) x).outcome
      (.start x.target, (none, s)) = (.ok result, w))
    (held : result.accounts[a]? = some d) :
    d.preBalance = answers.balanceAfter p.parent p.transactions a ∧
      (x.trace.Spares → (x.trace.failed = true → Replay.AbortsLast x.trace.records) →
        d.postBalance = d.preBalance + moved x.tx x.trace a) := by
  obtain ⟨⟨m₁, w₁⟩, ⟨m₂, w₂⟩, pre, b, -, seeded, replayed, resolved, assembled⟩ :=
    parts_of_settle settled
  have values := values_of_spare (p := p) steady spare x
  have start : p.Cached answers.tracesOf (none, s) := BlockPrefix.cached_empty _ s
  have gives : (BaselineSource.known fun a =>
      some (answers.balanceAfter p.parent p.transactions a)).Gives
        (answers.balanceAfter p.parent p.transactions) := fun a t => ⟨t, rfl⟩
  obtain ⟨same, cached⟩ := Replay.sameBalances_seed values rfl x.tx x.trace.gasUsed.value
    (Replay.sameBalances_start _ x.target) start seeded
  obtain ⟨m', t, -, ended, cached'⟩ :=
    Replay.sameBalances_replay values rfl gives same cached replayed ()
  have exact := BlockPrefix.resolve_of_spare steady spare cached' ended.journal.known resolved
  refine ⟨exact _ (Diff.preBalance_of_assemble assembled held), fun spares last => ?_⟩
  rw [((Diff.assemble_eq_ok assembled).2 a d held).1,
    moved_of_replay values rfl spares last account start seeded replayed]

/-- What is reported before a transaction is what the transactions before it leave, and what is
reported after it is what it leaves itself. -/
theorem balances_of_extract (steady : node.Steady answers)
    (places : node.Places answers block full id tx)
    (listed : block.transactions = earlier ++ tx :: later)
    (new : tx.hash ∉ earlier.map (·.hash)) (spare : answers.Spare earlier)
    (made : (extract (node.client workers) id true full).outcome s = (.ok result, s'))
    (held : result.accounts[a]? = some d) :
    d.preBalance = answers.balanceAfter (block.number.value - 1) earlier a ∧
      (answers.Spare [tx] →
        (∀ trace, answers.traceOf (.ofBytes tx.hash) = .ok trace → trace.failed = true →
          Replay.AbortsLast trace.records) →
        d.postBalance = answers.balanceAfter (block.number.value - 1) (earlier ++ [tx]) a) := by
  obtain ⟨x, s₁, baseline, m, cached, known, chosen, settled⟩ := parts_of_extract made
  obtain ⟨rfl, rfl, traced, account⟩ := subject_of_places steady places known
  have found : BlockPrefix.of x.block x.tx =
      .ok { parent := x.block.number.value - 1, transactions := earlier } := by
    rw [BlockPrefix.of, listed, BlockPrefix.before?_eq_some_iff.2 ⟨new, _, _, rfl, rfl⟩]
  rw [baselineOf, if_pos rfl, found] at chosen
  obtain rfl := Except.ok.inj chosen
  obtain ⟨before, after⟩ :=
    balances_of_settle (Node.steady_client steady workers) spare account settled held
  refine ⟨before, fun spares last => ?_⟩
  rw [after (spares x.tx (List.mem_singleton_self _) x.trace traced) (last x.trace traced), before,
    Node.Answers.balanceAfter_append, Node.Answers.movedBy, traced]

/-- Extractions chain up. For two transactions of a block that follow each other, any account that
both results show ends the first with the balance that it has before the second, unless one of the
transactions up to the first destroys an account, or the first fails and something comes after the
abort. -/
theorem postBalance_eq_preBalance (steady : node.Steady answers) {tx' : Transaction}
    {id' : TxId} {workers' : Rpc.Value}
    (listed : block.transactions = earlier ++ tx :: tx' :: later)
    (distinct : (block.transactions.map (·.hash)).Nodup)
    (places : node.Places answers block full id tx)
    (places' : node.Places answers block full id' tx') (spare : answers.Spare (earlier ++ [tx]))
    (last : ∀ trace, answers.traceOf (.ofBytes tx.hash) = .ok trace → trace.failed = true →
      Replay.AbortsLast trace.records) {t t' : σ} {result' : Diff.Result}
    (made : (extract (node.client workers) id true full).outcome s = (.ok result, s'))
    (made' : (extract (node.client workers') id' true full).outcome t = (.ok result', t'))
    {d' : Diff.Account} (held : result.accounts[a]? = some d)
    (held' : result'.accounts[a]? = some d') : d.postBalance = d'.preBalance := by
  have listed' : block.transactions = (earlier ++ [tx]) ++ tx' :: later := by simp [listed]
  have new : tx.hash ∉ earlier.map (·.hash) := by
    rw [listed, List.map_append] at distinct
    exact fun h => (List.disjoint_of_nodup_append distinct) h List.mem_cons_self
  have new' : tx'.hash ∉ (earlier ++ [tx]).map (·.hash) := by
    rw [listed', List.map_append] at distinct
    exact fun h => (List.disjoint_of_nodup_append distinct) h List.mem_cons_self
  obtain ⟨spareEarlier, spareLast⟩ := List.forall_mem_append.1 spare
  obtain ⟨-, after⟩ := balances_of_extract steady places listed new spareEarlier made held
  obtain ⟨before, -⟩ := balances_of_extract steady places' listed' new' spare made' held'
  rw [after spareLast last, before]

/-- The entry of a block for a payment, as the node sends it. -/
def entry (tx : Transaction) : Rpc.Value :=
  .object [("hash", .bytes tx.hash), ("from", .text (Address.ofNat 0xa11ce).text),
    ("to", .text BlockPrefix.destroyed.text), ("nonce", .int tx.nonce.value),
    ("value", .int tx.value), ("gas", .int 100000), ("gasPrice", .int 10),
    ("blockHash", .bytes [8])]

def firstPayment : Transaction := { BlockPrefix.payment 0 50 with blockHash := some [8] }

def secondPayment : Transaction := { BlockPrefix.payment 1 7 with blockHash := some [8] }

def blockOfPayments : Block :=
  { number := .ofInt 100, hash := [8], timestamp := .ofInt 0
    transactions := [firstPayment, secondPayment] }

/-- All accounts hold a million at the parent block; the account that is paid passes twenty of the
first payment on. -/
def passingOn : Node.Answers where
  balance _ _ := .int 1000000
  trace hash :=
    let record (op : String) (depth : Int) (stack : List Int) : Rpc.Value :=
      .object [("op", .text op), ("depth", .int depth), ("stack", .list (stack.map .int))]
    let records :=
      if hash = (TxId.ofBytes firstPayment.hash).hex then
        [record "CALL" 1 [20, 9, 0], record "STOP" 2 [], record "STOP" 1 [1]]
      else []
    .object [("result",
      .object [("gas", .int 21000), ("failed", .bool false), ("structLogs", .list records)])]

def nodeOfPayments : Node Unit :=
  { Node.answering passingOn with
    transaction hash := pure <|
      if hash = (TxId.ofBytes firstPayment.hash).hex then entry firstPayment
      else entry secondPayment
    block _ _ := pure <| .object [("number", .int 100), ("hash", .bytes [8]), ("timestamp", .int 0),
      ("transactions", .list [entry firstPayment, entry secondPayment])]
    code _ _ := pure (.bytes []) }

def extracted (tx : Transaction) : Except Fault Diff.Result × Unit :=
  (extract nodeOfPayments.client (.ofBytes tx.hash) true).outcome ()

theorem places_nodeOfPayments {tx : Transaction} (listed : tx ∈ blockOfPayments.transactions) :
    nodeOfPayments.Places passingOn blockOfPayments (.bool true) (.ofBytes tx.hash) tx where
  transaction s t s' told := by
    have all : ∀ tx ∈ blockOfPayments.transactions,
        ((nodeOfPayments.fetchTransaction (.ofBytes tx.hash)).outcome ()).1.toOption = some tx := by
      decide +kernel
    have one := all tx listed
    rw [told] at one
    exact Option.some.inj one
  block hash mined s b s' told := by
    have all : ∀ tx ∈ blockOfPayments.transactions, tx.blockHash = some [8] := by decide +kernel
    obtain rfl : [8] = hash := Option.some.inj ((all tx listed).symm.trans mined)
    have one : ((nodeOfPayments.fetchBlock (.ofHash [8]) (.bool true)).outcome ()).1.toOption =
        some blockOfPayments := by
      decide +kernel
    rw [told] at one
    exact Option.some.inj one
  trace _ h := h

/-- The first of the two payments succeeds and destroys nothing. -/
theorem passingOn_spares {trace : Trace}
    (traced : passingOn.traceOf (.ofBytes firstPayment.hash) = .ok trace) :
    trace.failed = false ∧ trace.Spares := by
  have checked : (passingOn.traceOf (.ofBytes firstPayment.hash)).toOption.all (fun trace =>
      !trace.failed && trace.records.all fun r =>
        r.op.opcode.toOption != some (some .selfdestruct)) = true := by
    decide +kernel
  rw [traced] at checked
  obtain ⟨succeeds, spares⟩ := Bool.and_eq_true_iff.1 checked
  refine ⟨by simpa using succeeds, fun r hr destroys => ?_⟩
  have other := List.all_eq_true.1 spares r hr
  rw [destroys.2] at other
  exact absurd other (by decide)

/-- What the account that is paid keeps of the first payment is there before the second one. -/
theorem postBalance_eq_preBalance_passingOn : ∃ result result' : Diff.Result,
    (extracted firstPayment).1 = .ok result ∧ (extracted secondPayment).1 = .ok result' ∧
      ∃ d d' : Diff.Account, result.accounts[BlockPrefix.destroyed]? = some d ∧
        result'.accounts[BlockPrefix.destroyed]? = some d' ∧ d.postBalance = 1000030 ∧
          d.postBalance = d'.preBalance := by
  have after : ((extracted firstPayment).1.toOption.bind (·.accounts[BlockPrefix.destroyed]?)).map
      (·.postBalance) = some 1000030 := by
    decide +kernel
  have before : ((extracted secondPayment).1.toOption.bind
      (·.accounts[BlockPrefix.destroyed]?)).isSome = true := by
    decide +kernel
  rcases ran : extracted firstPayment with ⟨first, u⟩
  rcases ran' : extracted secondPayment with ⟨second, u'⟩
  rw [ran] at after
  rw [ran'] at before
  obtain ⟨d, found, amount⟩ := Option.map_eq_some_iff.1 after
  obtain ⟨result, made, held⟩ := Option.bind_eq_some_iff.1 found
  obtain ⟨d', found'⟩ := Option.isSome_iff_exists.1 before
  obtain ⟨result', made', held'⟩ := Option.bind_eq_some_iff.1 found'
  obtain rfl : first = .ok result := eq_ok_of_toOption made
  obtain rfl : second = .ok result' := eq_ok_of_toOption made'
  have listed : blockOfPayments.transactions = [] ++ firstPayment :: secondPayment :: [] := rfl
  have distinct : (blockOfPayments.transactions.map (·.hash)).Nodup := by decide +kernel
  have steady : nodeOfPayments.Steady passingOn :=
    ⟨(Node.steady_answering passingOn).balance, (Node.steady_answering passingOn).trace⟩
  have spare : passingOn.Spare ([] ++ [firstPayment]) := by
    intro tx htx trace traced
    obtain rfl := List.mem_singleton.1 htx
    exact (passingOn_spares traced).2
  have last (trace : Trace) (traced : passingOn.traceOf (.ofBytes firstPayment.hash) = .ok trace)
      (failed : trace.failed = true) : Replay.AbortsLast trace.records := by
    rw [(passingOn_spares traced).1] at failed
    nomatch failed
  refine ⟨result, result', rfl, rfl, d, d', held, held', amount, ?_⟩
  exact postBalance_eq_preBalance steady listed distinct (places_nodeOfPayments (by simp [listed]))
    (places_nodeOfPayments (by simp [listed])) spare last ran ran' held held'

end Extraction

end TraceDiff
