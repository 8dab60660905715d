import TraceDiff.Extraction
import TraceDiff.Proofs.Replay.Conservation

/-! The balances that an extraction reports. Every account ends with what it had, plus what it
received, less what it sent; and no account that received or sent something is left out. So over
all accounts just the fee is missing afterwards. -/
namespace TraceDiff

section Resolve

variable {l : Ledger} {pre post : List (Address × Int)}

/-- Balances that resolve are moved by the net changes, and none gets negative. -/
theorem Journal.resolve_eq_ok (resolved : Journal.resolve l pre = .ok post) :
    post = pre.map (fun e => (e.1, e.2 + l.net e.1)) ∧ ∀ e ∈ post, 0 ≤ e.2 := by
  induction pre generalizing post with
  | nil =>
    obtain rfl := Except.ok.inj resolved
    exact ⟨rfl, List.forall_mem_nil _⟩
  | cons e pre ih =>
    obtain ⟨a, n⟩ := e
    have after : n + l.credited a + -l.debited a = n + l.net a := by
      rw [Ledger.net]
      omega
    unfold Journal.resolve at resolved
    obtain ⟨received, plus, resolved⟩ := bind_eq_ok.1 resolved
    obtain rfl := Except.ok.inj plus
    obtain ⟨left, minus, resolved⟩ := bind_eq_ok.1 resolved
    obtain rfl := Except.ok.inj minus
    rw [after] at resolved
    split at resolved
    · nomatch resolved
    · next solvent =>
      obtain ⟨more, rest, made⟩ := bind_eq_ok.1 resolved
      obtain rfl := Except.ok.inj made
      obtain ⟨rfl, nonneg⟩ := ih rest
      refine ⟨rfl, List.forall_mem_cons.2 ⟨?_, nonneg⟩⟩
      simpa using solvent

namespace Diff

theorem lookupBalance_eq_ok {balances : List (Address × Int)} {a : Address} {n : Int}
    (found : lookupBalance balances a = .ok n) : (a, n) ∈ balances := by
  unfold lookupBalance at found
  split at found
  · next e he =>
    obtain rfl := Except.ok.inj found
    have named := List.find?_some he
    obtain rfl : e.1 = a := by simpa using named
    exact List.mem_of_find?_eq_some he
  · nomatch found

/-- An account is found in a list that was changed at every place where it is found before. -/
theorem lookupBalance_map (f : Address → Int → Int) (balances : List (Address × Int))
    (a : Address) :
    lookupBalance (balances.map fun e => (e.1, f e.1 e.2)) a =
      f a <$> lookupBalance balances a := by
  induction balances with
  | nil => rfl
  | cons e balances ih =>
    simp only [lookupBalance, List.map_cons, List.find?_cons] at *
    by_cases here : e.1 = a
    · simp only [here, decide_true]
      rfl
    · simp only [here, decide_false]
      exact ih

/-- Paired balances are those of the given accounts, moved by their net changes. -/
theorem pairBalances_eq_ok {accounts : List Address} {pairs : List (Address × Int × Int)}
    (resolved : Journal.resolve l pre = .ok post)
    (paired : pairBalances pre post accounts = .ok pairs) :
    pairs.map (·.1) = accounts ∧ ∀ e ∈ pairs, e.2.2 = e.2.1 + l.net e.1 ∧ 0 ≤ e.2.2 := by
  obtain ⟨rfl, nonneg⟩ := Journal.resolve_eq_ok resolved
  induction accounts generalizing pairs with
  | nil =>
    obtain rfl := Except.ok.inj paired
    exact ⟨rfl, List.forall_mem_nil _⟩
  | cons a accounts ih =>
    unfold pairBalances at paired
    obtain ⟨before, found, paired⟩ := bind_eq_ok.1 paired
    obtain ⟨after, moved, paired⟩ := bind_eq_ok.1 paired
    obtain ⟨more, rest, made⟩ := bind_eq_ok.1 paired
    obtain rfl := Except.ok.inj made
    obtain ⟨named, changed⟩ := ih rest
    have solvent := nonneg _ (lookupBalance_eq_ok moved)
    rw [lookupBalance_map (fun a n => n + l.net a), found] at moved
    obtain rfl := Except.ok.inj moved
    refine ⟨by rw [List.map_cons, named], List.forall_mem_cons.2 ⟨⟨rfl, solvent⟩, changed⟩⟩

theorem pairBalances_before {after : List (Address × Int)} {accounts : List Address}
    {pairs : List (Address × Int × Int)} (paired : pairBalances pre after accounts = .ok pairs) :
    ∀ e ∈ pairs, (e.1, e.2.1) ∈ pre := by
  induction accounts generalizing pairs with
  | nil =>
    obtain rfl := Except.ok.inj paired
    exact List.forall_mem_nil _
  | cons a accounts ih =>
    unfold pairBalances at paired
    obtain ⟨before, found, paired⟩ := bind_eq_ok.1 paired
    obtain ⟨_, -, paired⟩ := bind_eq_ok.1 paired
    obtain ⟨more, rest, made⟩ := bind_eq_ok.1 paired
    obtain rfl := Except.ok.inj made
    exact List.forall_mem_cons.2 ⟨lookupBalance_eq_ok found, ih rest⟩

theorem accountsOf_eq_ok {j : Journal} {final : Final} {pairs : List (Address × Int × Int)}
    {accounts : AddressMap Account} (made : accountsOf j final pairs = .ok accounts) :
    (∀ a, a ∈ accounts ↔ a ∈ pairs.map (·.1)) ∧
      ∀ a d, accounts[a]? = some d → (a, d.preBalance, d.postBalance) ∈ pairs ∧
        d = accountOf j final a d.preBalance d.postBalance := by
  induction pairs generalizing accounts with
  | nil =>
    obtain rfl := Except.ok.inj made
    exact ⟨by simp, by simp⟩
  | cons e pairs ih =>
    obtain ⟨b, before, after⟩ := e
    unfold accountsOf at made
    obtain ⟨more, rest, made⟩ : ∃ more, accountsOf j final pairs = .ok more ∧
        more.insert b (accountOf j final b before after) = accounts := by
      obtain ⟨pre, number, made⟩ := bind_eq_ok.1 made
      obtain rfl := Except.ok.inj number
      obtain ⟨post, number, made⟩ := bind_eq_ok.1 made
      obtain rfl := Except.ok.inj number
      obtain ⟨more, rest, made⟩ := bind_eq_ok.1 made
      exact ⟨more, rest, Except.ok.inj made⟩
    obtain ⟨named, found⟩ := ih rest
    subst made
    constructor
    · intro a
      rw [Std.ExtTreeMap.mem_insert, named, List.map_cons, List.mem_cons,
        Std.LawfulEqCmp.compare_eq_iff_eq]
      exact or_congr_left eq_comm
    · intro a d held
      rw [Std.ExtTreeMap.getElem?_insert] at held
      split at held
      · next same =>
        obtain rfl := Std.LawfulEqCmp.eq_of_compare same
        obtain rfl := Option.some.inj held
        exact ⟨List.mem_cons_self, rfl⟩
      · exact (found a d held).imp_left (List.mem_cons_of_mem _)

/-- A result holds every account that the journal mentions, each moved by its net change. -/
theorem assemble_eq_ok {j : Journal} {context : Context} {result : Result}
    (made : assemble j pre context = .ok result) :
    (∀ a, a ∈ result.accounts ↔ a ∈ j.accounts) ∧
      ∀ a d, result.accounts[a]? = some d →
        d.postBalance = d.preBalance + j.ledger.net a ∧ 0 ≤ d.postBalance := by
  obtain ⟨post, resolved, made⟩ := bind_eq_ok.1 made
  obtain ⟨pairs, paired, made⟩ := bind_eq_ok.1 made
  obtain ⟨accounts, gathered, made⟩ := bind_eq_ok.1 made
  obtain rfl := Except.ok.inj made
  obtain ⟨named, changed⟩ := pairBalances_eq_ok resolved paired
  obtain ⟨held, found⟩ := accountsOf_eq_ok gathered
  constructor
  · intro a
    rw [held, named, Std.ExtTreeSet.mem_toList]
  · intro a d hd
    exact changed _ (found a d hd).1

/-- Balances before are those that the result was assembled from. -/
theorem preBalance_of_assemble {j : Journal} {context : Context} {result : Result}
    (made : assemble j pre context = .ok result) {a : Address} {d : Account}
    (held : result.accounts[a]? = some d) : (a, d.preBalance) ∈ pre := by
  obtain ⟨post, -, made⟩ := bind_eq_ok.1 made
  obtain ⟨pairs, paired, made⟩ := bind_eq_ok.1 made
  obtain ⟨accounts, gathered, made⟩ := bind_eq_ok.1 made
  obtain rfl := Except.ok.inj made
  exact pairBalances_before paired _ ((accountsOf_eq_ok gathered).2 a d held).1

end Diff

end Resolve

namespace Journal

variable {j : Journal} {a : Address}

theorem mem_balanceAccounts :
    a ∈ j.balanceAccounts ↔ a ∈ j.touched ∨ a ∈ j.ledger.credits ∨ a ∈ j.ledger.debits := by
  simp only [balanceAccounts, Std.ExtTreeSet.mem_insertMany_list, List.contains_iff_mem,
    Std.ExtTreeMap.mem_keys, or_assoc]

/-- The account occurs in a part of the journal. -/
def Mentions (j : Journal) (a : Address) : Prop :=
  a ∈ j.touched ∨ a ∈ j.ledger.credits ∨ a ∈ j.ledger.debits ∨ a ∈ j.preStorage ∨
    a ∈ j.ledger.storage ∨ a ∈ j.preCode ∨ a ∈ j.ledger.code

theorem mem_accounts : a ∈ j.accounts ↔ j.Mentions a := by
  simp only [accounts, Std.ExtTreeSet.mem_insertMany_list, List.contains_iff_mem,
    Std.ExtTreeMap.mem_keys, mem_balanceAccounts, or_assoc, Mentions]

end Journal

namespace Diff.Result

/-- What all accounts of the result had before the transaction. -/
def totalBefore (r : Result) : Int := sumBy (·.preBalance) r.accounts

/-- What all of them have after it. -/
def totalAfter (r : Result) : Int := sumBy (·.postBalance) r.accounts

variable {j : Journal} {pre : List (Address × Int)} {context : Context} {result : Result}
  {fee : Int}

theorem totalAfter_eq (made : assemble j pre context = .ok result)
    (conserves : j.ledger.Conserves fee) : result.totalAfter - result.totalBefore = -fee := by
  obtain ⟨named, changed⟩ := assemble_eq_ok made
  let accounts := result.accounts.keys.toFinset
  have all {a : Address} : a ∈ accounts ↔ a ∈ result.accounts := by
    rw [List.mem_toFinset, Std.ExtTreeMap.mem_keys]
  have received : total j.ledger.credits = ∑ a ∈ accounts, j.ledger.credited a :=
    total_eq_sum fun a ha => all.2 ((named a).2 (Journal.mem_accounts.2 (.inr (.inl ha))))
  have sent : total j.ledger.debits = ∑ a ∈ accounts, j.ledger.debited a :=
    total_eq_sum fun a ha => all.2 ((named a).2 (Journal.mem_accounts.2 (.inr (.inr (.inl ha)))))
  have each : result.totalAfter = ∑ a ∈ accounts,
      (result.accounts[a]?.elim 0 (·.preBalance) +
        (j.ledger.credited a - j.ledger.debited a)) := by
    rw [totalAfter, sumBy_eq_sum _ fun a ha => all.2 ha]
    refine Finset.sum_congr rfl fun a ha => ?_
    obtain ⟨d, hd⟩ :=
      Option.isSome_iff_exists.1 (Std.ExtTreeMap.mem_iff_isSome_getElem?.1 (all.1 ha))
    rw [hd]
    exact (changed a d hd).1
  have before : result.totalBefore =
      ∑ a ∈ accounts, result.accounts[a]?.elim 0 (·.preBalance) :=
    sumBy_eq_sum _ fun a ha => all.2 ha
  rw [Finset.sum_add_distrib, Finset.sum_sub_distrib, ← before, ← received, ← sent] at each
  unfold Ledger.Conserves at conserves
  omega

theorem postBalance_le (made : assemble j pre context = .ok result) {a : Address} {d : Account}
    (held : result.accounts[a]? = some d) :
    0 ≤ d.postBalance ∧ d.postBalance ≤ result.totalAfter := by
  obtain ⟨-, changed⟩ := assemble_eq_ok made
  let accounts := result.accounts.keys.toFinset
  have all {b : Address} (hb : b ∈ result.accounts) : b ∈ accounts :=
    List.mem_toFinset.2 (Std.ExtTreeMap.mem_keys.2 hb)
  have here : a ∈ accounts := all (Std.ExtTreeMap.mem_iff_isSome_getElem?.2 (by rw [held]; rfl))
  have nonneg : ∀ b ∈ accounts, 0 ≤ result.accounts[b]?.elim 0 (·.postBalance) := by
    intro b _
    cases hb : result.accounts[b]? with
    | none => exact Int.le_refl 0
    | some d => exact (changed b d hb).2
  have part := Finset.single_le_sum nonneg here
  rw [← sumBy_eq_sum _ fun b hb => all hb, held] at part
  exact ⟨(changed a d held).2, part⟩

end Diff.Result

namespace Extraction

variable {σ : Type} {baseline : BaselineSource (BlockPrefix.Traced σ)}
  {code : CodeSource (BlockPrefix.Traced σ)} {x : Subject} {s s' : σ} {result : Diff.Result}

/-- A transaction that settles has a sender, and its result is assembled from a replay that came
through and from the balances before it. -/
theorem parts_of_settle {m : Replay.Machine} {s : BlockPrefix.Traced σ}
    {w : Replay.Machine × BlockPrefix.Traced σ}
    (settled : (settle baseline code x).outcome (m, s) = (.ok result, w)) :
    let sources : Sources (BlockPrefix.Traced σ) :=
      { code := some code, baseline := some baseline }
    ∃ w₁ w₂ pre b, x.tx.sender.isSome ∧
      (Replay.seed sources false x.tx x.trace.gasUsed.value).outcome (m, s) = (.ok (), w₁) ∧
      (Replay.replay sources false x.trace.records x.trace.failed).outcome w₁ = (.ok (), w₂) ∧
      (Baselines.resolve baseline w₂.1.journal.accounts).outcome (w₂.1.journal.baselines, w₂.2) =
        (.ok pre, (b, w.2)) ∧
      Diff.assemble w₂.1.journal pre (.ofChain x.tx x.block x.trace) = .ok result := by
  obtain ⟨_, w₁, seeded, settled⟩ := Asking.outcome_bind_eq_ok.1 settled
  obtain ⟨_, w₂, replayed, settled⟩ := Asking.outcome_bind_eq_ok.1 settled
  obtain ⟨_, _, got, settled⟩ := Asking.outcome_bind_eq_ok.1 settled
  obtain ⟨known, rfl⟩ := Prod.mk.inj got
  obtain rfl := Except.ok.inj known
  dsimp only at settled
  split at settled
  · obtain ⟨_, _, failed, -⟩ := Asking.outcome_bind_eq_ok.1 settled
    nomatch failed
  · next sent =>
    obtain ⟨pre, w₃, resolved, assembled⟩ := Asking.outcome_bind_eq_ok.1 settled
    have sender : x.tx.sender.isSome = true := by
      rw [Option.isNone_iff_eq_none, ← ne_eq, ← Option.isSome_iff_ne_none] at sent
      exact sent
    obtain ⟨made, rfl⟩ := Prod.mk.inj assembled
    obtain ⟨told, rfl⟩ := Prod.mk.inj resolved
    exact ⟨w₁, w₂, pre, _, sender, seeded, replayed, Prod.ext told rfl, made⟩

theorem settle_eq_ok {m : Replay.Machine} {s : BlockPrefix.Traced σ}
    {w : Replay.Machine × BlockPrefix.Traced σ}
    (settled : (settle baseline code x).outcome (m, s) = (.ok result, w)) :
    let sources : Sources (BlockPrefix.Traced σ) :=
      { code := some code, baseline := some baseline }
    ∃ w₁ w₂, ∃ pre : List (Address × Int), x.tx.sender.isSome ∧
      (Replay.seed sources false x.tx x.trace.gasUsed.value).outcome (m, s) = (.ok (), w₁) ∧
      (Replay.replay sources false x.trace.records x.trace.failed).outcome w₁ = (.ok (), w₂) ∧
      Diff.assemble w₂.1.journal pre (.ofChain x.tx x.block x.trace) = .ok result := by
  obtain ⟨w₁, w₂, pre, -, sender, seeded, replayed, -, assembled⟩ := parts_of_settle settled
  exact ⟨w₁, w₂, pre, sender, seeded, replayed, assembled⟩

theorem parts_of_extract {client : Client σ} {id : TxId} {exact : Bool} {full : Rpc.Value}
    (made : (extract client id exact full).outcome s = (.ok result, s')) :
    ∃ x s₁ baseline m traced, (subject client id full).outcome s = (.ok x, s₁) ∧
      baselineOf client x exact = .ok baseline ∧
      (settle baseline (codeOf client x) x).outcome (.start x.target, (none, s₁)) =
        (.ok result, (m, (traced, s'))) := by
  obtain ⟨x, s₁, known, made⟩ := Asking.outcome_bind_eq_ok.1 made
  obtain ⟨baseline, s₂, found, made⟩ := Asking.outcome_bind_eq_ok.1 made
  obtain ⟨chosen, rfl⟩ := Prod.mk.inj found
  simp only [Asking.outcome_ofOutcome] at made
  rcases settled : (settle baseline (codeOf client x) x).outcome (.start x.target, (none, s₁))
    with ⟨r, m, traced, s₂⟩
  rw [settled] at made
  obtain ⟨rfl, rfl⟩ := Prod.mk.inj made
  exact ⟨x, s₁, baseline, m, traced, known, chosen, settled⟩

theorem extract_eq_ok {client : Client σ} {id : TxId} {exact : Bool} {full : Rpc.Value}
    (made : (extract client id exact full).outcome s = (.ok result, s')) :
    ∃ x s₁ baseline w, (subject client id full).outcome s = (.ok x, s₁) ∧
      (settle baseline (codeOf client x) x).outcome (.start x.target, (none, s₁)) =
        (.ok result, w) := by
  obtain ⟨x, s₁, baseline, m, traced, known, -, settled⟩ := parts_of_extract made
  exact ⟨x, s₁, baseline, _, known, settled⟩

/-- Money is conserved. In every replay from the start, with or without a transaction to pay for,
all that was sent is all that was received and the fee. Over all accounts of a result just the fee
is missing afterwards; so no account is left with more than all had before, unless the fee is
negative. -/
theorem money_conserved :
    (∀ {τ : Type} (sources : Sources τ) (balancesOnly : Bool) (root : Address)
      (paid : Option (Transaction × Int)) (records : List Record) (failed : Bool) (t : τ),
      (∀ p ∈ paid, p.1.sender.isSome) →
        Replay.ConservesThroughout sources balancesOnly (Replay.feeOf paid) records failed
          ((Replay.prepare sources balancesOnly paid).outcome (.start root, t)).2) ∧
    ∀ {σ : Type} (client : Client σ) (id : TxId) (exact : Bool) (full : Rpc.Value) (s s' : σ)
      (result : Diff.Result), (extract client id exact full).outcome s = (.ok result, s') →
        ∃ x s₁, (subject client id full).outcome s = (.ok x, s₁) ∧
          result.totalAfter - result.totalBefore = -(x.trace.gasUsed.value * x.tx.gasPrice) ∧
          (0 ≤ x.trace.gasUsed.value * x.tx.gasPrice →
            ∀ (a : Address) (d : Diff.Account), result.accounts[a]? = some d →
              d.postBalance ≤ result.totalBefore ∧
                (result.totalBefore < Word.bound →
                  ∃ text, Diff.word d.postBalance = .ok text)) := by
  constructor
  · intro τ sources balancesOnly root paid records failed t pays
    exact Replay.conservesThroughout_of_prepare pays records failed t
  · intro σ client id exact full s s' result made
    obtain ⟨x, s₁, baseline, w, known, settled⟩ := extract_eq_ok made
    obtain ⟨⟨m₁, t₁⟩, ⟨m₂, t₂⟩, pre, sent, seeded, replayed, assembled⟩ := settle_eq_ok settled
    have pays : ∀ p ∈ some (x.tx, x.trace.gasUsed.value), p.1.sender.isSome := by
      rintro _ ⟨⟩
      exact sent
    have start := Replay.conserves_prepare pays seeded
    have conserves := ((Replay.conserves_invariant.keeps_replay _ _).after replayed start).live
    have difference := Diff.Result.totalAfter_eq assembled conserves
    refine ⟨x, s₁, known, difference, ?_⟩
    intro nonneg a d held
    obtain ⟨solvent, part⟩ := Diff.Result.postBalance_le assembled held
    have fee : Replay.feeOf (some (x.tx, x.trace.gasUsed.value)) =
        x.trace.gasUsed.value * x.tx.gasPrice := rfl
    have bounded : d.postBalance ≤ result.totalBefore := by omega
    refine ⟨bounded, ?_⟩
    intro fits
    have word : Word.Fits d.postBalance := ⟨solvent, Int.lt_of_le_of_lt bounded fits⟩
    exact ⟨_, if_pos word⟩

/-- Sends four for a fee of six. -/
def sender : Transaction :=
  { hash := [], sender := some (.ofNat 5), target := some (.ofNat 1), nonce := .ofInt 0
    value := 4, input := [], gas := .ofInt 3, gasPrice := 2, blockHash := some [] }

/-- The target pays an account that destroys itself for another. -/
def payAndSweep : List Record :=
  [.named .call 1 [0, 2, 3], .named .selfdestruct 2 [7], .idle 1 [1]]

/-- A node where everybody has ten. -/
def everybodyTen : Client Unit where
  transaction _ := pure sender
  block _ _ := pure { number := .ofInt 8, hash := [], timestamp := .ofInt 0 }
  code _ _ := pure []
  balance _ _ := pure 10
  balances accounts _ := pure (accounts.toList.foldl (fun m a => m.insert a 10) ∅)
  trace _ := pure { failed := false, gasUsed := .ofInt 3, records := payAndSweep }
  traces _ := pure []

theorem money_conserved_payAndSweep :
    let seeded := ((Replay.prepare ({} : Sources Unit) true (some (sender, 3))).outcome
      (.start (.ofNat 1), ())).2
    ((Replay.replay ({} : Sources Unit) true payAndSweep false).outcome
        seeded).2.1.journal.ledger.Conserves 6 ∧
      ∃ result, ((extract everybodyTen ⟨"0x", ""⟩ false).outcome ()).1 = .ok result ∧
        result.totalAfter - result.totalBefore = -6 := by
  intro seeded
  obtain ⟨replays, extractions⟩ := money_conserved
  constructor
  · have pays : ∀ p ∈ some (sender, (3 : Int)), p.1.sender.isSome := by
      rintro _ ⟨⟩
      rfl
    obtain ⟨-, -, ended⟩ := replays {} true (.ofNat 1) _ payAndSweep false () pays
    exact ended
  · have done : ((extract everybodyTen ⟨"0x", ""⟩ false).outcome ()).1.toOption.isSome := by
      decide +kernel
    obtain ⟨result, hresult⟩ := Option.isSome_iff_exists.1 done
    have made := eq_ok_of_toOption hresult
    refine ⟨result, made, ?_⟩
    have ended : (extract everybodyTen ⟨"0x", ""⟩ false).outcome () =
        (.ok result, ((extract everybodyTen ⟨"0x", ""⟩ false).outcome ()).2) := by
      rw [← made]
    obtain ⟨x, s₁, known, difference, -⟩ := extractions everybodyTen _ _ _ _ _ result ended
    have fee : ((subject everybodyTen ⟨"0x", ""⟩ (.bool false)).outcome ()).1.toOption.map
        (fun x => x.trace.gasUsed.value * x.tx.gasPrice) = some 6 := by
      decide +kernel
    rw [known] at fee
    rw [difference, show x.trace.gasUsed.value * x.tx.gasPrice = 6 from Option.some.inj fee]

end Extraction

end TraceDiff
