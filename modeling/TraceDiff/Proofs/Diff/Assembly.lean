import TraceDiff.Proofs.Extraction.Faults
import TraceDiff.Proofs.Replay.Observations
import TraceDiff.Proofs.Replay.Origins

/-! What is assembled from a journal and the balances before it. Seven maps with accounts of their
own are merged into one: every account that one of them has is in the result, with all that they
have of it and nothing else. -/
namespace TraceDiff

variable {σ : Type} {sources : Sources σ} {balancesOnly : Bool}

namespace Replay

/-- No code was fetched, and none is noted in any ledger. -/
structure Machine.Codeless (m : Machine) : Prop where
  fetched : m.journal.preCode = ∅
  noted : m.Everywhere (·.code = ∅)

namespace Machine.Codeless

variable {m m' : Machine} {r : Record} {later : List Record}

theorem of_observations (h : m.Codeless)
    (same : m'.journal.observations = m.journal.observations)
    (noted : m'.Everywhere (·.code = ∅)) : m'.Codeless :=
  ⟨(congrArg Observations.preCode same).trans h.fetched, noted⟩

theorem returnTo {depth : Int} (returned : m.returnTo depth = .ok m') (h : m.Codeless) :
    m'.Codeless :=
  h.of_observations (observations_of_returnTo returned) (h.noted.returnTo returned)

theorem arrive (arrived : m.arrive r = .ok m') (h : m.Codeless) : m'.Codeless := by
  obtain ⟨-, m₁, returned, rfl⟩ := Machine.arrive_eq_ok arrived
  obtain ⟨fetched, live, held, root⟩ := h.returnTo returned
  exact ⟨fetched, live, held, root⟩

theorem finish {failed : Bool} (finished : finish failed m = .ok m') (h : m.Codeless) :
    m'.Codeless := by
  obtain ⟨m₁, returned, rfl⟩ := finish_eq_ok.1 finished
  have settled := h.returnTo returned
  split
  · exact settled.of_observations (observations_abortRoot m₁) settled.noted.abortRoot
  · exact settled

/-- Where no code is followed, no effect of a record looks at code. -/
theorem apply {top : Frame} {e : Effect} {s s' : σ}
    (off : (scopeOf sources balancesOnly).code = false)
    (stems : e.Stems (scopeOf sources balancesOnly) top r later)
    (applied : (m.apply sources e).outcome s = (.ok m', s')) (h : m.Codeless) : m'.Codeless := by
  cases e with
  | enter o a p =>
    obtain rfl := Except.ok.inj (Prod.mk.inj applied).1
    exact h.of_observations rfl (h.noted.enter o a p)
  | abort =>
    have aborted := (Prod.mk.inj applied).1
    exact h.of_observations (observations_of_abort aborted) (h.noted.abort aborted)
  | note entry =>
    obtain ⟨j, done, rfl⟩ := Machine.apply_note_eq_ok.1 applied
    have leads := Journal.Entry.leads_of_apply done
    have kept (same : j.preCode = m.journal.preCode) (code : j.ledger.code = m.journal.ledger.code)
        (recorded : entry.isRecorded = true) : ({ m with journal := j } : Machine).Codeless :=
      ⟨same.trans h.fetched, h.noted.note recorded leads (code.trans h.noted.live)⟩
    cases entry with
    | read a k v =>
      obtain rfl := leads
      refine kept ?_ (by rw [Journal.ledger_read]) rfl
      unfold Journal.read
      split <;> rfl
    | write | touch | transfer =>
      obtain rfl := leads
      exact kept rfl rfl rfl
    | sweep a b =>
      obtain ⟨source, -, n, baselines, t, t', -, rfl⟩ := leads
      refine kept ?_ ?_ rfl
      · dsimp only
        split <;> rfl
      · dsimp only
        split <;> rfl
    | recordHash number word =>
      obtain ⟨hashes, truths, rfl⟩ := leads
      exact kept rfl rfl rfl
    | reference | deploy | destroy => exact absurd (off.symm.trans stems.1) Bool.false_ne_true
    | credit | debit | push | pop | rollback => exact stems.elim

theorem keeps_step (off : (scopeOf sources balancesOnly).code = false) (i : Nat) (r : Record)
    (later : List Record) : Keeps Machine.Codeless (step sources balancesOnly i r later) := by
  refine Replay.keeps_step (fun m m' arrived h => h.arrive arrived) ?_ i
  intro m effects read h s
  exact keeps_performAll
    (fun e he _ _ _ _ applied h => h.apply off (Effect.allStem_ofRecord read e he) applied) m s h

end Machine.Codeless

/-- A replay that follows no code notes none. -/
theorem codeless_of_machines {root : Address} {paid : Option (Transaction × Int)} {s : σ}
    {records : List Record} {failed : Bool} {m : Machine}
    (off : (scopeOf sources balancesOnly).code = false)
    (reached : m ∈ machines sources balancesOnly records failed
      ((prepare sources balancesOnly paid).outcome (.start root, s)).2) : m.Codeless := by
  refine keeps_machines (fun m h => ⟨h.fetched, h.noted.anchor⟩)
    (fun i r later _ => Machine.Codeless.keeps_step off i r later)
    (fun m m' finished h => h.finish finished) ?_ m reached
  have start : (Machine.start root).Codeless := ⟨rfl, rfl, List.forall_mem_nil _, nofun⟩
  cases paid with
  | none => exact start
  | some p =>
    obtain ⟨tx, gasUsed⟩ := p
    have nothing : seeding (scopeOf sources balancesOnly) tx root = [] := by simp [seeding, off]
    have charged : (charge tx gasUsed (.start root)).Codeless := by
      unfold charge
      cases tx.sender <;> exact ⟨rfl, rfl, List.forall_mem_nil _, by rintro _ ⟨⟩; rfl⟩
    show (((seed sources balancesOnly tx gasUsed).outcome (.start root, s)).2.1).Codeless
    rw [outcome_seed]
    show (((performAll sources ((seeding _ tx root).map .note)).outcome _).2.1).Codeless
    rw [nothing]
    exact charged

end Replay

namespace Diff

/-- The diff of an account has what the journal has of it, over its balance before: a write wins
over a read, and code that was left behind wins over code that was there. -/
structure Account.IsOf (j : Journal) (pre : List (Address × Int)) (a : Address) (d : Account) :
    Prop where
  before : ∀ n, (a, n) ∈ pre ↔ n = d.preBalance
  after : d.postBalance = d.preBalance + j.ledger.credited a - j.ledger.debited a
  read : ∀ k, d.preStorage[k]? = j.preStorage.get? a k
  stored : ∀ k, d.postStorage[k]? = (j.ledger.storage.get? a k).or (j.preStorage.get? a k)
  preCode : d.preCode = j.preCode[a]?
  postCode : d.postCode = j.ledger.code[a]?.or j.preCode[a]?

/-- The account ends below zero. -/
def Short (l : Ledger) (e : Address × Int) : Prop := e.2 + l.credited e.1 - l.debited e.1 < 0

/-- The report of an account that ends below zero. -/
def shortfall (l : Ledger) (e : Address × Int) : Underflow :=
  ⟨e.1, .int e.2, l.credited e.1, l.debited e.1⟩

section Assembling

variable {j : Journal} {pre : List (Address × Int)} {context : Context} {result : Result}
  {f : Fault}

theorem short_iff {l : Ledger} {e : Address × Int} : Short l e ↔ e.2 + l.net e.1 < 0 := by
  unfold Short Ledger.net
  omega

theorem eq_of_mem {a : Address} {n k : Int} (distinct : (pre.map Prod.fst).Nodup)
    (hn : (a, n) ∈ pre) (hk : (a, k) ∈ pre) : n = k :=
  (Prod.mk.inj (List.inj_on_of_nodup_map distinct hn hk rfl)).2

theorem isOf_of_assemble (distinct : (pre.map Prod.fst).Nodup)
    (made : assemble j pre context = .ok result) {a : Address} {d : Account}
    (held : result.accounts[a]? = some d) : d.IsOf j pre a := by
  have listed := preBalance_of_assemble made held
  have moved := ((assemble_eq_ok made).2 a d held).1
  obtain ⟨post, -, made⟩ := bind_eq_ok.1 made
  obtain ⟨pairs, -, made⟩ := bind_eq_ok.1 made
  obtain ⟨accounts, gathered, made⟩ := bind_eq_ok.1 made
  obtain rfl := Except.ok.inj made
  have parts := ((accountsOf_eq_ok gathered).2 a d held).2
  exact {
    before := fun n => ⟨fun hn => eq_of_mem distinct hn listed, fun same => same ▸ listed⟩
    after := by
      rw [moved, Ledger.net]
      omega
    read := fun k => by
      rw [parts]
      exact (Storage.get?_eq_getD _ a k).symm
    stored := fun k => by
      rw [← Storage.get?_orElse, parts]
      exact (Storage.get?_eq_getD _ a k).symm
    preCode := by
      rw [parts]
      rfl
    postCode := by
      rw [parts]
      show (j.preCode ∪ j.ledger.code)[a]? = _
      rw [Std.ExtTreeMap.getElem?_union] }

theorem rest_of_assemble (made : assemble j pre context = .ok result) :
    result.blockHashes = j.blockHashes ∧ result.context = context := by
  obtain ⟨post, -, made⟩ := bind_eq_ok.1 made
  obtain ⟨pairs, -, made⟩ := bind_eq_ok.1 made
  obtain ⟨accounts, -, made⟩ := bind_eq_ok.1 made
  obtain rfl := Except.ok.inj made
  exact ⟨rfl, rfl⟩

end Assembling

end Diff

namespace Replay

/-- From any state that a replay comes to, and the balances of just the accounts that the state
mentions, a result is assembled unless an account ends below zero; then the first such account is
reported, or the report tells a number of too many digits. The result has every account that the
state mentions and no others, each with what the state has of it. The state stays as it is. -/
theorem assembled_of_replay {root : Address} {paid : Option (Transaction × Int)} {s t : σ}
    {records : List Record} {failed : Bool} {m : Machine}
    (reached : m ∈ machines sources balancesOnly records failed
      ((prepare sources balancesOnly paid).outcome (.start root, s)).2)
    {pre : List (Address × Int)} (distinct : (pre.map Prod.fst).Nodup)
    (keys : ∀ a, a ∈ pre.map Prod.fst ↔ a ∈ m.journal.accounts) (context : Diff.Context) :
    let l := m.journal.ledger
    let assembling : Run σ Diff.Result := .ofExcept (Diff.assemble m.journal pre context)
    (assembling.outcome (m, t)).2 = (m, t) ∧
      ((∃ f, (assembling.outcome (m, t)).1 = .error f) ↔ ∃ e ∈ pre, Diff.Short l e) ∧
      (∀ f, (assembling.outcome (m, t)).1 = .error f →
        ∃ before e after, pre = before ++ e :: after ∧ (∀ e ∈ before, ¬ Diff.Short l e) ∧
          Diff.Short l e ∧ f = if (Diff.shortfall l e).isWritable then
            .underflow (Diff.shortfall l e) else .tooManyDigits none) ∧
      ∀ result, (assembling.outcome (m, t)).1 = .ok result →
        (∀ a, a ∈ result.accounts ↔ m.journal.Mentions a) ∧
          (∀ (a : Address) (d : Diff.Account), result.accounts[a]? = some d →
            d.IsOf m.journal pre a ∧
              ((scopeOf sources balancesOnly).code = false →
                d.preCode = none ∧ d.postCode = none)) ∧
          result.blockHashes = m.journal.blockHashes ∧ result.context = context := by
  intro l assembling
  have every : ∀ a ∈ m.journal.accounts, a ∈ pre.map Prod.fst := fun a ha => (keys a).2 ha
  refine ⟨rfl, ?_⟩
  show ((∃ f, Diff.assemble m.journal pre context = .error f) ↔ _) ∧ _
  rcases Diff.assemble_cases context every with
    ⟨result, made, solvent⟩ | ⟨before, e, after, parts, solvent, short, reported⟩
  · refine ⟨⟨?_, ?_⟩, ?_, ?_⟩
    · rintro ⟨f, failed⟩
      nomatch made.symm.trans failed
    · rintro ⟨e, he, short⟩
      exact absurd (Diff.short_iff.1 short) (Int.not_lt.2 (solvent e he))
    · intro f failed
      nomatch made.symm.trans failed
    · intro result' made'
      obtain rfl := Except.ok.inj (made.symm.trans made')
      refine ⟨fun a => ?_, fun a d held => ?_, Diff.rest_of_assemble made⟩
      · rw [(Diff.assemble_eq_ok made).1, Journal.mem_accounts]
      · have parts := Diff.isOf_of_assemble distinct made held
        refine ⟨parts, fun off => ?_⟩
        have codeless := codeless_of_machines off reached
        rw [parts.preCode, parts.postCode, codeless.fetched, codeless.noted.live]
        exact ⟨rfl, rfl⟩
  · have first : Diff.Short l e := Diff.short_iff.2 short
    refine ⟨⟨fun _ => ⟨e, parts ▸ by simp, first⟩, fun _ => ⟨_, reported⟩⟩, ?_, ?_⟩
    · intro f failed
      refine ⟨before, e, after, parts, fun x hx => ?_, first, ?_⟩
      · exact fun short => absurd (Diff.short_iff.1 short) (Int.not_lt.2 (solvent x hx))
      · exact Except.error.inj (failed.symm.trans reported)
    · intro result made
      nomatch made.symm.trans reported

theorem ended_mem_machines (sources : Sources σ) (balancesOnly : Bool) (records : List Record)
    (failed : Bool) (w : Machine × σ) :
    ((replay sources balancesOnly records failed).outcome w).2.1 ∈
      machines sources balancesOnly records failed w :=
  List.mem_cons_of_mem _ (List.mem_append_right _ (List.mem_singleton.2 rfl))

theorem keys_of_toList {m : Machine} {pre : List (Address × Int)}
    (same : m.journal.accounts.toList = pre.map Prod.fst) (a : Address) :
    a ∈ pre.map Prod.fst ↔ a ∈ m.journal.accounts := by
  rw [← same, Std.ExtTreeSet.mem_toList]

/-- One word is read and another written, and then two are paid. -/
def readWritePay : List Record :=
  [.named .sload 1 [5], .named .sstore 1 [6, 9], .named .call 1 [0, 3, 2], .idle 2 [], .idle 1 [1]]

def readWritePayContext : Diff.Context :=
  .ofChain Extraction.sender { number := .ofInt 8, hash := [], timestamp := .ofInt 0 }
    { failed := false, gasUsed := .ofInt 3, records := readWritePay }

theorem assembled_of_replay_readWritePay :
    let ended := ((replay ({} : Sources Unit) false readWritePay false).outcome
      (.start (.ofNat 1), ())).2.1
    ∃ result, Diff.assemble ended.journal [(.ofNat 1, (10 : Int)), (.ofNat 3, 0)]
        readWritePayContext = .ok result ∧
      ∃ d, result.accounts[Address.ofNat 1]? = some d ∧ d.postBalance = 8 ∧
        d.postStorage[(5 : Int)]? = some (.ofInt 6) ∧
        d.postStorage[(6 : Int)]? = some (.ofInt 9) ∧ d.preStorage[(6 : Int)]? = none := by
  intro ended
  have listed : ended.journal.accounts.toList =
      ([(.ofNat 1, 10), (.ofNat 3, 0)] : List (Address × Int)).map Prod.fst := by
    decide +kernel
  have distinct :
      (([(.ofNat 1, 10), (.ofNat 3, 0)] : List (Address × Int)).map Prod.fst).Nodup := by
    decide +kernel
  have solvent : ∀ e ∈ ([(.ofNat 1, 10), (.ofNat 3, 0)] : List (Address × Int)),
      0 ≤ e.2 + ended.journal.ledger.net e.1 := by
    decide +kernel
  have reached : ended ∈ machines ({} : Sources Unit) false readWritePay false
      ((prepare {} false none).outcome (.start (.ofNat 1), ())).2 := ended_mem_machines _ _ _ _ _
  obtain ⟨-, fails, -, parts⟩ :=
    assembled_of_replay (t := ()) reached distinct (keys_of_toList listed) readWritePayContext
  cases made : Diff.assemble ended.journal [(.ofNat 1, (10 : Int)), (.ofNat 3, 0)]
      readWritePayContext with
  | error f =>
    obtain ⟨e, he, short⟩ := fails.1 ⟨f, made⟩
    exact absurd (Diff.short_iff.1 short) (Int.not_lt.2 (solvent e he))
  | ok result =>
    obtain ⟨named, each, -⟩ := parts result made
    have mentioned : Address.ofNat 1 ∈ result.accounts :=
      (named _).2 (Journal.mem_accounts.1 ((keys_of_toList listed _).1 (by simp)))
    obtain ⟨d, held⟩ :=
      Option.isSome_iff_exists.1 (Std.ExtTreeMap.mem_iff_isSome_getElem?.1 mentioned)
    obtain ⟨isOf, -⟩ := each _ d held
    have ten : d.preBalance = 10 := ((isOf.before 10).1 (by simp)).symm
    have paid : ended.journal.ledger.credited (.ofNat 1) = 0 ∧
        ended.journal.ledger.debited (.ofNat 1) = 2 := by
      decide +kernel
    refine ⟨result, rfl, d, held, ?_, ?_, ?_, ?_⟩
    · rw [isOf.after, ten, paid.1, paid.2]
      rfl
    · rw [isOf.stored]
      decide +kernel
    · rw [isOf.stored]
      decide +kernel
    · rw [isOf.read]
      decide +kernel

/-- Gas at a price that nobody can pay, and that is too long to be written. -/
def dearest : Transaction := { Extraction.sender with gasPrice := Extraction.unwritablePrice }

/-- The transaction that pays so much and does nothing, at its end. -/
def ruined : Machine :=
  ((replay ({} : Sources Unit) false [] false).outcome
    ((prepare {} false (some (dearest, 1))).outcome (.start (.ofNat 1), ())).2).2.1

/-- The sender ends below zero, but the report is not made. -/
theorem not_underflow_of_dearest :
    ruined ∈ machines ({} : Sources Unit) false [] false
        ((prepare {} false (some (dearest, 1))).outcome (.start (.ofNat 1), ())).2 ∧
      ruined.journal.accounts.toList = [Address.ofNat 1, Address.ofNat 5] ∧
      Diff.Short ruined.journal.ledger (.ofNat 5, 10) ∧
      ∀ context, Diff.assemble ruined.journal [(.ofNat 1, (0 : Int)), (.ofNat 5, 10)] context =
        .error (.tooManyDigits none) := by
  have short : Diff.Short ruined.journal.ledger (.ofNat 5, 10) := by
    unfold Diff.Short
    decide +kernel
  have solvent : ∀ e ∈ ([(.ofNat 1, 0)] : List (Address × Int)),
      0 ≤ e.2 + ruined.journal.ledger.net e.1 := by
    decide +kernel
  have unwritten : Fault.ofUnderflow (Diff.shortfall ruined.journal.ledger (.ofNat 5, 10)) =
      .tooManyDigits none := by
    decide +kernel
  refine ⟨ended_mem_machines _ _ _ _ _, by decide +kernel, short, fun context => ?_⟩
  have failed := Diff.assemble_of_short context _ [] solvent (Diff.short_iff.1 short)
  exact failed.trans (congrArg Except.error unwritten)

end Replay

end TraceDiff
