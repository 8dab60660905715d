import TraceDiff.Proofs.FrameTree.Replay

/-! Balances under a tree of frames. A reference execution keeps whole balances; the journal keeps
what each account received and sent, and values an account that destroys itself by its baseline. -/
namespace TraceDiff

open Replay (Scope Machine scopeOf replay seed)
open Rpc (Quantity)

variable {σ : Type} {sources : Sources σ}

/-- Balances after an amount moved from one account to another. -/
def move (bal : Address → Int) (payer payee : Address) (amount : Int) : Address → Int := fun a =>
  bal a - (if payer = a then amount else 0) + if payee = a then amount else 0

theorem move_zero (bal : Address → Int) (payer payee : Address) : move bal payer payee 0 = bal := by
  funext a
  simp [move]

/-- An account that pays no more than it has keeps all balances from getting negative. -/
theorem move_nonneg {bal : Address → Int} (h : ∀ a, 0 ≤ bal a) {payer : Address} {amount : Int}
    (amount_nonneg : 0 ≤ amount) (enough : amount ≤ bal payer) (payee a : Address) :
    0 ≤ move bal payer payee amount a := by
  have held := h a
  have left : 0 ≤ bal a - if payer = a then amount else 0 := by
    split
    · next same =>
      rw [same] at enough
      omega
    · omega
  exact Int.add_nonneg left (by split <;> omega)

namespace FrameTree

/-- Balances when the frame starts that `r` opens in the frame `f`. A creation that failed moves
nothing. -/
def paid (f : Frame) (o : Opcode) (r : Record) (result : Quantity) (bal : Address → Int) :
    Address → Int :=
  if o.createsNothing result then bal else move bal f.address (o.callee r result) (sent o r)

/-- The balances after the tree. -/
def balances (f : Frame) : FrameTree → (Address → Int) → Address → Int
  | close ending r, bal =>
    if ending = .selfdestruct then
      move bal f.address (.ofWord (r.arg 0).value) (bal f.address)
    else bal
  | plain _ _ rest, bal | unstarted _ _ rest, bal => rest.balances f bal
  | nested o r child rest, bal =>
    let after := child.balances (f.child o r rest.result) (paid f o r rest.result bal)
    rest.balances f (if child.isUndone o rest.result then bal else after)

/-- Whoever pays holds enough when it pays. What is undone need not be paid for. -/
def Solvent (f : Frame) : FrameTree → (Address → Int) → Prop
  | close _ _, _ => True
  | plain _ _ rest, bal | unstarted _ _ rest, bal => rest.Solvent f bal
  | nested o r child rest, bal =>
    let inside := paid f o r rest.result bal
    let after := child.balances (f.child o r rest.result) inside
    (child.isUndone o rest.result = false →
      (0 ≤ sent o r ∧ sent o r ≤ bal f.address) ∧ child.Solvent (f.child o r rest.result) inside) ∧
    rest.Solvent f (if child.isUndone o rest.result then bal else after)

instance decidableSolvent (f : Frame) : (t : FrameTree) → (bal : Address → Int) →
    Decidable (t.Solvent f bal)
  | close _ _, _ => inferInstanceAs (Decidable True)
  | plain _ _ rest, bal | unstarted _ _ rest, bal => decidableSolvent f rest bal
  | nested o r child rest, bal =>
    let inside := paid f o r rest.result bal
    let after := child.balances (f.child o r rest.result) inside
    have := decidableSolvent (f.child o r rest.result) child inside
    have := decidableSolvent f rest (if child.isUndone o rest.result then bal else after)
    inferInstanceAs (Decidable ((_ → (_ ∧ _) ∧ _) ∧ _))

end FrameTree

/-- The sources know the balances `b₀` and no others. -/
def Sources.Know (sources : Sources σ) (b₀ : Address → Int) : Prop :=
  sources.baseline.isSome ∧ ∀ source ∈ sources.baseline, ∀ a s balance s',
    (source.one a).outcome s = (.ok balance, s') → balance = b₀ a

theorem Sources.know_constant (before after : Bytes) (balance : Int) :
    (constant before after balance : Sources σ).Know fun _ => balance := by
  refine ⟨rfl, ?_⟩
  rintro _ ⟨⟩ a s n s' answer
  exact (Except.ok.inj (Prod.mk.inj answer).1).symm

/-- All that is remembered are the balances `b₀`. -/
def Baselines.Recall (known : Baselines) (b₀ : Address → Int) : Prop :=
  ∀ a balance, known.known[a]? = some balance → balance = b₀ a

/-- A baseline that is got is the right one, and the right ones stay remembered. -/
theorem Baselines.recall_get {b₀ : Address → Int} (know : sources.Know b₀)
    {source : BaselineSource σ} (hs : source ∈ sources.baseline) {known known' : Baselines}
    (remembered : known.Recall b₀) {a : Address} {balance : Int} {s s' : σ}
    (got : (Baselines.get source a).outcome (known, s) = (.ok balance, (known', s'))) :
    balance = b₀ a ∧ known'.Recall b₀ := by
  unfold Baselines.get at got
  rw [Asking.outcome_ofOutcome] at got
  cases hk : known.known[a]? with
  | some n =>
    simp only [hk, Prod.mk.injEq, Except.ok.injEq] at got
    obtain ⟨rfl, rfl, -⟩ := got
    exact ⟨remembered a n hk, remembered⟩
  | none =>
    rcases answer : (source.one a).outcome s with ⟨_ | n, s₁⟩
    · simp [hk, answer] at got
    · simp only [hk, answer, Prod.mk.injEq, Except.ok.injEq] at got
      obtain ⟨rfl, rfl, -⟩ := got
      have right := know.2 source hs a s n s₁ answer
      refine ⟨right, ?_⟩
      intro b balance found
      simp only [Baselines.remember, Std.ExtTreeMap.getElem?_insertIfNew] at found
      split at found
      · next same =>
        obtain rfl := Std.LawfulEqCmp.eq_of_compare same.1
        exact Option.some.inj found ▸ right
      · exact remembered b balance found

namespace Ledger

theorem net_credit (l : Ledger) (a b : Address) (n : Int) :
    (l.credit a n).net b = l.net b + if a = b then n else 0 := by
  have credited : (l.credit a n).credited b = l.credited b + if a = b then n else 0 :=
    getD_addTo l.credits a b n
  have debited : (l.credit a n).debited b = l.debited b := rfl
  rw [net, credited, debited, net]
  omega

theorem net_debit (l : Ledger) (a b : Address) (n : Int) :
    (l.debit a n).net b = l.net b - if a = b then n else 0 := by
  have debited : (l.debit a n).debited b = l.debited b + if a = b then n else 0 :=
    getD_addTo l.debits a b n
  have credited : (l.debit a n).credited b = l.credited b := rfl
  rw [net, credited, debited, net]
  omega

theorem net_transfer (l : Ledger) (a b c : Address) (n : Int) :
    (l.transfer a b n).net c =
      l.net c - (if a = c then n else 0) + if b = c then n else 0 := by
  rw [transfer, net_credit, net_debit]

end Ledger

namespace Journal

/-- The journal, seen against the balances `b₀` from before, holds the balances `bal`. -/
structure Reckons (b₀ bal : Address → Int) (j : Journal) : Prop where
  nets : ∀ a, b₀ a + j.ledger.net a = bal a
  remembered : j.baselines.Recall b₀

variable {b₀ bal : Address → Int} {j j' : Journal}

theorem Reckons.of_balances_eq (h : Reckons b₀ bal j)
    (same : (j'.ledger.credits = j.ledger.credits ∧ j'.ledger.debits = j.ledger.debits) ∧
      j'.baselines = j.baselines) : Reckons b₀ bal j' where
  nets a := by
    rw [Ledger.net, Ledger.credited, Ledger.debited, same.1.1, same.1.2]
    exact h.nets a
  remembered := by rw [same.2]; exact h.remembered

theorem Reckons.transfer (h : Reckons b₀ bal j) (payer payee : Address) (amount : Int) :
    Reckons b₀ (move bal payer payee amount) (j.transfer payer payee amount) where
  nets a := by
    have before := h.nets a
    rw [ledger_transfer, Ledger.net_transfer, move]
    omega
  remembered := h.remembered

/-- An account is swept of its whole balance, since the right baseline is known. -/
theorem Reckons.sweep (know : sources.Know b₀) (nonneg : ∀ a, 0 ≤ bal a) (h : Reckons b₀ bal j)
    {a b : Address} (leads : (Entry.sweep a b).Leads sources j j') :
    Reckons b₀ (move bal a b (bal a)) j' := by
  obtain ⟨source, hs, n, baselines, s, s', got, rfl⟩ := leads
  obtain ⟨rfl, remembered⟩ := Baselines.recall_get know hs h.remembered got
  have relearned : Reckons b₀ bal { j with baselines } := ⟨h.nets, remembered⟩
  have whole : b₀ a + ({ j with baselines } : Journal).ledger.net a = bal a := h.nets a
  dsimp only
  rw [whole]
  split
  · exact relearned.transfer a b (bal a)
  · next empty =>
    have held := nonneg a
    have nothing : bal a = 0 := by omega
    rw [nothing, move_zero]
    exact relearned

/-- Whatever the entries are, only right baselines are remembered. -/
theorem recall_of_leads (know : sources.Know b₀) {e : Entry} (flat : e.isFlat = true)
    (leads : e.Leads sources j j') (remembered : j.baselines.Recall b₀) :
    j'.baselines.Recall b₀ := by
  cases e with
  | sweep a b =>
    obtain ⟨source, hs, n, baselines, s, s', got, rfl⟩ := leads
    have learned := (Baselines.recall_get know hs remembered got).2
    dsimp only
    split <;> exact learned
  | read a k v =>
    obtain rfl := leads
    unfold Journal.read
    split <;> exact remembered
  | reference a => obtain ⟨preCode, rfl⟩ := leads; exact remembered
  | deploy a => obtain ⟨code, rfl⟩ := leads; exact remembered
  | recordHash number word => obtain ⟨hashes, truths, rfl⟩ := leads; exact remembered
  | push | pop | rollback => simp [Entry.isFlat] at flat
  | credit | debit | transfer | write | touch | destroy => obtain rfl := leads; exact remembered

theorem noteAll_append (xs ys : List Entry) (j : Journal) :
    noteAll sources (xs ++ ys) j = noteAll sources xs j >>= noteAll sources ys := by
  induction xs generalizing j with
  | nil => simp [noteAll]
  | cons x xs ih => simp [noteAll, ih]

theorem Reckons.noteAll (h : Reckons b₀ bal j) {entries : List Entry}
    (keep : ∀ e ∈ entries, e.keepsBalances = true) {s s' : σ}
    (noted : (Journal.noteAll sources entries j).outcome s = (.ok j', s')) : Reckons b₀ bal j' := by
  refine noteAll_preserves (P := Reckons b₀ bal) ?_ noted h
  intro e he x y leads reckons
  exact reckons.of_balances_eq (Entry.balances_of_leads (keep e he) leads)

theorem recall_of_noteAll (know : sources.Know b₀) {entries : List Entry}
    (can : ∀ e ∈ entries, e.CanApply sources) {s s' : σ}
    (noted : (noteAll sources entries j).outcome s = (.ok j', s'))
    (remembered : j.baselines.Recall b₀) : j'.baselines.Recall b₀ := by
  refine noteAll_preserves (P := fun j => j.baselines.Recall b₀) ?_ noted remembered
  intro e he x y leads remembered
  exact recall_of_leads know (can e he).isFlat leads remembered

theorem noteAll_nil_eq_ok {s s' : σ} (noted : (noteAll sources [] j).outcome s = (.ok j', s')) :
    j = j' := Except.ok.inj (Prod.mk.inj noted).1

theorem leads_of_noteAll_singleton {e : Entry} {s s' : σ}
    (noted : (noteAll sources [e] j).outcome s = (.ok j', s')) : e.Leads sources j j' := by
  obtain ⟨j₁, s₁, applied, rest⟩ := Asking.outcome_bind_eq_ok.1 noted
  obtain rfl := noteAll_nil_eq_ok rest
  exact Entry.leads_of_apply applied

end Journal

namespace FrameTree

open Journal (Reckons)

variable {balancesOnly : Bool} {b₀ bal : Address → Int} {j j' : Journal} {s s' : σ}

theorem keepsBalances_observed (scope : Scope) (f : Frame) (o : Option Opcode) (r : Record)
    (result : Quantity) : ∀ e ∈ observed scope f o r result, e.keepsBalances = true := by
  intro e he
  rcases of_mem_observed he with ⟨-, rfl⟩ | ⟨-, rfl⟩ | ⟨-, rfl⟩ | ⟨a, rfl | rfl⟩ <;> rfl

theorem keepsBalances_called (scope : Scope) (o : Opcode) (r : Record) :
    ∀ e ∈ called scope o r, e.keepsBalances = true := by
  intro e he
  obtain ⟨a, rfl⟩ := of_mem_called he
  rfl

/-- The value moves when the frame starts. -/
theorem reckons_started {scope : Scope} {f : Frame} (real : f.placeholder = false) {o : Opcode}
    {r : Record} {result : Quantity} (start : Reckons b₀ bal j)
    (noted : (Journal.noteAll sources (started scope f o r result) j).outcome s = (.ok j', s')) :
    Reckons b₀ (paid f o r result bal) j' := by
  unfold started at noted
  unfold paid
  split
  · next fails =>
    rw [if_pos fails] at noted
    exact Journal.noteAll_nil_eq_ok noted ▸ start
  · next succeeds =>
    rw [if_neg succeeds, Journal.noteAll_append] at noted
    obtain ⟨deployed, s₁, first, second⟩ := Asking.outcome_bind_eq_ok.1 noted
    have reckoned : Reckons b₀ bal deployed := by
      refine start.noteAll ?_ first
      intro e he
      obtain ⟨-, rfl⟩ := Journal.mem_entryIf.1 he
      rfl
    by_cases nothing : sent o r = 0
    · simp only [nothing, bne_self_eq_false, Bool.false_and, Journal.entryIf_false] at second
      rw [nothing, move_zero]
      exact Journal.noteAll_nil_eq_ok second ▸ reckoned
    · have something : (sent o r != 0 && !f.placeholder) = true := by simp [nothing, real]
      rw [something] at second
      obtain rfl := Journal.leads_of_noteAll_singleton second
      exact reckoned.transfer _ _ _

/-- An account that destroys itself sends everything that it has. -/
theorem reckons_closing (know : sources.Know b₀) (nonneg : ∀ a, 0 ≤ bal a) {f : Frame}
    (real : f.placeholder = false) {ending : Ending} {r : Record} (start : Reckons b₀ bal j)
    (noted : (Journal.noteAll sources (closing (scopeOf sources balancesOnly) f ending r) j).outcome
      s = (.ok j', s')) :
    Reckons b₀ ((close ending r).balances f bal) j' := by
  unfold closing at noted
  unfold balances
  split
  · next destroys =>
    have known : (scopeOf sources balancesOnly).baseline = true := know.1
    rw [if_pos ⟨destroys, real⟩, known, List.append_assoc, Journal.noteAll_append] at noted
    obtain ⟨swept, s₁, first, second⟩ := Asking.outcome_bind_eq_ok.1 noted
    have reckoned := start.sweep know nonneg (Journal.leads_of_noteAll_singleton first)
    refine reckoned.noteAll ?_ second
    intro e he
    rcases List.mem_append.1 he with he | he
    · obtain rfl := List.mem_singleton.1 he
      rfl
    · obtain ⟨-, rfl⟩ := Journal.mem_entryIf.1 he
      rfl
  · next returns =>
    rw [if_neg fun h => returns h.1] at noted
    exact Journal.noteAll_nil_eq_ok noted ▸ start

/-- Baselines stay right in every frame, also inside a failed creation. -/
theorem recall_meaning (know : sources.Know b₀) {t : FrameTree} {d : Int} (wf : t.WellFormed d)
    {f : Frame} (remembered : j.baselines.Recall b₀)
    (means : (t.meaning sources (scopeOf sources balancesOnly) f j).outcome s = (.ok j', s')) :
    j'.baselines.Recall b₀ := by
  induction t generalizing d f j j' s s' with
  | close ending r =>
    exact Journal.recall_of_noteAll know (canApply_closing f ending r) means remembered
  | plain o r rest ih =>
    obtain ⟨-, -, ho, hrest⟩ := wf
    obtain ⟨j₁, s₁, noted, means⟩ := Asking.outcome_bind_eq_ok.1 means
    have next := Journal.recall_of_noteAll know (canApply_observed ho _ f r) noted remembered
    exact ih hrest next means
  | unstarted o r rest ih =>
    obtain ⟨-, -, -, -, hrest⟩ := wf
    obtain ⟨j₁, s₁, noted, means⟩ := Asking.outcome_bind_eq_ok.1 means
    have next := Journal.recall_of_noteAll know (canApply_called _ o r) noted remembered
    exact ih hrest next means
  | nested o r child rest ihc ih =>
    obtain ⟨-, -, -, -, hchild, hrest⟩ := wf
    obtain ⟨before, s₁, called, means⟩ := Asking.outcome_bind_eq_ok.1 means
    obtain ⟨inside, s₂, started, means⟩ := Asking.outcome_bind_eq_ok.1 means
    obtain ⟨after, s₃, meansChild, means⟩ := Asking.outcome_bind_eq_ok.1 means
    have rememberedBefore :=
      Journal.recall_of_noteAll know (canApply_called _ o r) called remembered
    have rememberedInside :=
      Journal.recall_of_noteAll know (canApply_started _ f o r _) started rememberedBefore
    have rememberedAfter := ihc hchild rememberedInside meansChild
    -- going back to a ledger forgets no baseline
    refine ih hrest ?_ means
    exact rememberedAfter

/-- A tree of frames keeps the reckoning, and no balance gets negative. -/
theorem reckons_meaning (know : sources.Know b₀) {t : FrameTree} {d : Int} (wf : t.WellFormed d)
    {f : Frame} (real : f.placeholder = false) (solvent : t.Solvent f bal)
    (nonneg : ∀ a, 0 ≤ bal a) (start : Reckons b₀ bal j)
    (means : (t.meaning sources (scopeOf sources balancesOnly) f j).outcome s = (.ok j', s')) :
    Reckons b₀ (t.balances f bal) j' ∧ ∀ a, 0 ≤ t.balances f bal a := by
  induction t generalizing d f bal j j' s s' with
  | close ending r =>
    refine ⟨reckons_closing know nonneg real start means, fun a => ?_⟩
    unfold balances
    split
    · exact move_nonneg nonneg (nonneg f.address) (Int.le_refl _) _ a
    · exact nonneg a
  | plain o r rest ih =>
    obtain ⟨-, -, ho, hrest⟩ := wf
    obtain ⟨j₁, s₁, noted, means⟩ := Asking.outcome_bind_eq_ok.1 means
    have next := start.noteAll (keepsBalances_observed _ f o r _) noted
    exact ih hrest real solvent nonneg next means
  | unstarted o r rest ih =>
    obtain ⟨-, -, -, -, hrest⟩ := wf
    obtain ⟨j₁, s₁, noted, means⟩ := Asking.outcome_bind_eq_ok.1 means
    have next := start.noteAll (keepsBalances_called _ o r) noted
    exact ih hrest real solvent nonneg next means
  | nested o r child rest ihc ih =>
    obtain ⟨-, -, -, -, hchild, hrest⟩ := wf
    obtain ⟨solventChild, solventRest⟩ := solvent
    obtain ⟨before, s₁, called, means⟩ := Asking.outcome_bind_eq_ok.1 means
    obtain ⟨inside, s₂, started, means⟩ := Asking.outcome_bind_eq_ok.1 means
    obtain ⟨after, s₃, meansChild, means⟩ := Asking.outcome_bind_eq_ok.1 means
    have reckonsBefore := start.noteAll (keepsBalances_called _ o r) called
    have reckonsInside := reckons_started real reckonsBefore started
    have rememberedAfter := recall_meaning know hchild reckonsInside.remembered meansChild
    -- an undone child may overdraw its accounts; only the baselines it learned are kept
    cases undone : child.isUndone o rest.result with
    | true =>
      rw [undone] at solventRest means
      have restored : Reckons b₀ bal { after with ledger := before.ledger } :=
        ⟨reckonsBefore.nets, rememberedAfter⟩
      simpa [balances, undone] using ih hrest real solventRest nonneg restored means
    | false =>
      obtain ⟨⟨amount, enough⟩, solventInside⟩ := solventChild undone
      rw [undone] at solventRest means
      have creates := (isUndone_eq_false.1 undone).2
      have realChild := Frame.placeholder_child real creates r
      have nonnegInside : ∀ a, 0 ≤ paid f o r rest.result bal a := by
        intro a
        rw [paid, creates]
        exact move_nonneg nonneg amount enough _ a
      obtain ⟨reckonsAfter, nonnegAfter⟩ :=
        ihc hchild realChild solventInside nonnegInside reckonsInside meansChild
      simpa [balances, undone] using ih hrest real solventRest nonnegAfter reckonsAfter means

end FrameTree

/-- Against the balances from before, a ledger resolves to the balances that it reckons, and reports
no underflow. -/
theorem Journal.resolve_of_nets {b₀ bal : Address → Int} {l : Ledger}
    (nets : ∀ a, b₀ a + l.net a = bal a) (nonneg : ∀ a, 0 ≤ bal a) (addresses : List Address) :
    resolve l (addresses.map fun a => (a, b₀ a)) = .ok (addresses.map fun a => (a, bal a)) := by
  induction addresses with
  | nil => rfl
  | cons a addresses ih =>
    have post : b₀ a + l.credited a + -l.debited a = bal a := by
      rw [← nets a, Ledger.net]
      omega
    have solvent : ¬ bal a < 0 := Int.not_lt.2 (nonneg a)
    simp only [List.map_cons, resolve, ih]
    simp [bind, Except.bind, pure, Except.pure, post, solvent]

/-- The balances once the fee is charged. -/
def charged (b₀ : Address → Int) (sender : Address) (fee : Int) : Address → Int := fun a =>
  b₀ a - if sender = a then fee else 0

namespace Replay

/-- Seeding charges the fee, which is kept for a transaction that fails, and moves the value. -/
theorem reckons_charge (b₀ : Address → Int) {tx : Transaction} {sender : Address}
    (pays : tx.sender = some sender) (gasUsed : Int) (root : Address) :
    (∃ l, (charge tx gasUsed (Machine.start root)).rootLedger = some l ∧
      ∀ a, b₀ a + l.net a = charged b₀ sender (gasUsed * tx.gasPrice) a) ∧
    (charge tx gasUsed (Machine.start root)).journal.Reckons b₀
      (move (charged b₀ sender (gasUsed * tx.gasPrice)) sender root tx.value) := by
  have feeNets (a : Address) :
      b₀ a + ((({} : Ledger).debit sender (gasUsed * tx.gasPrice)).net a) =
        charged b₀ sender (gasUsed * tx.gasPrice) a := by
    have nothing : ({} : Ledger).net a = 0 := by simp [Ledger.net, Ledger.credited, Ledger.debited]
    rw [Ledger.net_debit, nothing, charged]
    omega
  unfold charge
  rw [pays]
  refine ⟨⟨_, rfl, feeNets⟩, ?_, ?_⟩
  · intro a
    have fee := feeNets a
    have value := Ledger.net_transfer (({} : Ledger).debit sender (gasUsed * tx.gasPrice)) sender
      root a tx.value
    simp only [move, ← fee]
    change b₀ a + ((({} : Ledger).debit sender (gasUsed * tx.gasPrice)).transfer sender root
      tx.value).net a = _
    omega
  · intro a balance known
    simp [Journal.credit, Journal.debit, Journal.touch, Machine.start] at known

theorem keepsBalances_seeding (scope : Scope) (tx : Transaction) (target : Address) :
    ∀ e ∈ seeding scope tx target, e.keepsBalances = true := by
  intro e he
  rcases of_mem_seeding he with rfl | rfl <;> rfl

end Replay

namespace FrameTree

/-- The balances after the transaction: those that its frames leave, or the fee alone is gone. -/
def finalBalances (t : FrameTree) (failed : Bool) (sender root : Address) (fee value : Int)
    (b₀ : Address → Int) : Address → Int :=
  let afterFee := charged b₀ sender fee
  if t.aborts || failed then afterFee
  else t.balances ⟨root, none, false⟩ (move afterFee sender root value)

/-- Replaying an execution in which whoever pays holds enough comes to an end, and against the
balances from before its ledger resolves to those that the execution ends with. -/
theorem resolve_replay {b₀ : Address → Int} (total : sources.Total) (know : sources.Know b₀)
    (nonneg : ∀ a, 0 ≤ b₀ a) {tx : Transaction} {sender : Address} (pays : tx.sender = some sender)
    {gasUsed : Int} (value : 0 ≤ tx.value)
    (affordsFee : gasUsed * tx.gasPrice ≤ b₀ sender)
    (affordsValue : tx.value ≤ charged b₀ sender (gasUsed * tx.gasPrice) sender)
    {t : FrameTree} (wf : t.WellFormed 1) {root : Address}
    (solvent : t.Solvent ⟨root, none, false⟩
      (move (charged b₀ sender (gasUsed * tx.gasPrice)) sender root tx.value))
    (failed balancesOnly : Bool) (s : σ) :
    ∃ m s', (do
        seed sources balancesOnly tx gasUsed
        replay sources balancesOnly t.records failed : Replay.Run σ Unit).outcome
          (Machine.start root, s) = (.ok (), (m, s')) ∧
      ∀ addresses : List Address,
        Journal.resolve m.journal.ledger (addresses.map fun a => (a, b₀ a)) =
          .ok (addresses.map fun a =>
            (a, t.finalBalances failed sender root (gasUsed * tx.gasPrice) tx.value b₀ a)) := by
  obtain ⟨⟨base, anchored, baseNets⟩, start⟩ := Replay.reckons_charge b₀ pays gasUsed root
  have nonnegCharged (a : Address) : 0 ≤ charged b₀ sender (gasUsed * tx.gasPrice) a := by
    have held := nonneg a
    unfold charged
    split
    · next same =>
      rw [same] at affordsFee
      omega
    · omega
  obtain ⟨j, s₁, noted, seeded⟩ :=
    Replay.answers_seed total balancesOnly tx gasUsed (Machine.start root) s
  obtain ⟨j', s', means⟩ :=
    answers_meaning total balancesOnly wf ⟨root, none, false⟩ j s₁
  have replayed := replay_records wf failed
    (m := { Replay.charge tx gasUsed (Machine.start root) with journal := j }) rfl rfl means
  have reckoned := start.noteAll (Replay.keepsBalances_seeding _ tx root) noted
  obtain ⟨reckons, nonnegAfter⟩ := reckons_meaning know wf rfl solvent
    (move_nonneg nonnegCharged value affordsValue root) reckoned means
  refine ⟨_, s', by rw [Asking.outcome_bind, seeded]; exact replayed, fun addresses => ?_⟩
  unfold concluded finalBalances
  cases t.aborts || failed with
  | true =>
    simp only [anchored, Option.getD_some, if_true]
    exact Journal.resolve_of_nets baseNets nonnegCharged addresses
  | false => exact Journal.resolve_of_nets reckons.nets nonnegAfter addresses

/-- A call pays an account that destroys itself, and then a creation fails. -/
def payAndDestroy : FrameTree :=
  nested .call (.named .call 1 [0, 2, 3]) (close .selfdestruct (.named .selfdestruct 2 [3]))
    (nested .create (.named .create 1 [5]) (close .abort (.named .revert 2 []))
      (close .stop (.idle 1 [0])))

theorem wellFormed_payAndDestroy : payAndDestroy.WellFormed 1 := by
  refine ⟨rfl, Record.executes_named (by decide) 1, rfl, ?_,
    ⟨rfl, Record.executes_named (by decide) 2⟩, rfl, Record.executes_named (by decide) 1, rfl, ?_,
    ⟨rfl, Record.aborts_named rfl 2 []⟩, rfl, Record.executes_idle 1 _⟩
  · exact ⟨fun h => absurd h (by decide), fun h => absurd h (by decide)⟩
  · exact ⟨fun _ => List.cons_ne_nil _ _, fun _ _ => rfl⟩

theorem resolve_replay_payAndDestroy :
    let sources : Sources Unit := .constant [] [1] 10
    let tx : Transaction :=
      { hash := [], sender := some (.ofNat 5), target := some (.ofNat 1), nonce := .ofInt 0
        value := 4, input := [], gas := .ofInt 3, gasPrice := 2 }
    ∃ m s', (do
        seed sources false tx 3
        replay sources false payAndDestroy.records false : Replay.Run Unit Unit).outcome
          (Machine.start (.ofNat 1), ()) = (.ok (), (m, s')) ∧
      ∀ addresses : List Address,
        Journal.resolve m.journal.ledger (addresses.map fun a => (a, 10)) =
          .ok (addresses.map fun a =>
            (a, payAndDestroy.finalBalances false (.ofNat 5) (.ofNat 1) (3 * 2) 4
              (fun _ => 10) a)) :=
  resolve_replay (Sources.total_constant [] [1] 10) (Sources.know_constant [] [1] 10)
    (fun _ => by decide) rfl (by decide) (by decide) (by decide +kernel) wellFormed_payAndDestroy
    (by decide +kernel) false false ()

end FrameTree

end TraceDiff
