import Mathlib.Algebra.Ring.Int.Defs
import TraceDiff.Proofs.BlockPrefix
import TraceDiff.Proofs.Replay.BalancesOnly

/-! Prefixes in which no account destroys itself. What their transactions move does not depend on
the balances that are found, so that every query sees the parent block's balances and the sum of
what was moved since. -/
namespace TraceDiff

/-- The record destroys the account that executes it. -/
def Record.Destroys (r : Record) : Prop :=
  r.error = none ∧ r.op.opcode = .ok (some .selfdestruct)

/-- No record destroys an account. -/
def Trace.Spares (trace : Trace) : Prop := ∀ r ∈ trace.records, ¬ r.Destroys

namespace Replay

section Spared

variable {scope : Scope} {f : Frame} {r : Record} {later : List Record} {effects : List Effect}

theorem Effect.ofRecord_of_spared (spared : ¬ r.Destroys) :
    ofRecord scope f r later = ofRecord { scope with baseline := false } f r later := by
  unfold ofRecord
  split
  · rfl
  · next fine =>
    have fine : r.error = none := by simpa using fine
    cases named : r.op.opcode with
    | error fault => rfl
    | ok o =>
      cases o with
      | none => rfl
      | some o => cases o <;> first | rfl | exact absurd ⟨fine, named⟩ spared

/-- Nothing is valued by a record that spares its account. -/
theorem Effect.ne_sweep_of_spared (spared : ¬ r.Destroys)
    (read : ofRecord scope f r later = .ok effects) :
    ∀ e ∈ effects, ∀ a b, e ≠ note (.sweep a b) := by
  rintro _ he a b rfl
  rw [ofRecord_of_spared spared] at read
  obtain ⟨-, grounded⟩ := (makes_of_ofRecord read _ he).2 _ rfl
  exact Bool.false_ne_true grounded

/-- Balances that no effect asks for make no difference. -/
theorem replay_of_spares {σ : Type} (source source' : BaselineSource σ) {records : List Record}
    (spares : ∀ r ∈ records, ¬ r.Destroys) (failed : Bool) :
    replay { baseline := some source } true records failed =
      replay { baseline := some source' } true records failed := by
  have scope :
      scopeOf { baseline := some source } true = scopeOf { baseline := some source' } true := rfl
  refine replay_congr scope (fun r hr f later effects read => ?_) failed
  intro e he m
  have kept := Effect.ne_sweep_of_spared (spares r hr) read e he
  cases e with
  | note entry => cases entry <;> first | rfl | exact absurd rfl (kept _ _)
  | enter | abort => rfl

end Spared

end Replay

/-- What such a transaction moves does not depend on the balances that it finds. -/
theorem effectsFrom_of_spares {tx : Transaction} {trace : Trace} (spares : trace.Spares)
    (v w : Address → Option Int) : effectsFrom v tx trace = effectsFrom w tx trace := by
  have replays := Replay.replay_of_spares (.known v) (.known w) spares false
  have failing := Replay.replay_of_spares (.known v) (.known w) (List.forall_mem_nil _) true
  simp only [effectsFrom, balanceEffects, Replay.seed_balancesOnly, replays, failing]

/-- What a transaction adds to the balance of an account, as far as that does not depend on other
balances. -/
def moved (tx : Transaction) (trace : Trace) (a : Address) : Int :=
  match effectsFrom (fun _ => none) tx trace with
  | .ok effects => effects.getD a 0
  | .error _ => 0

theorem moved_of_effects {tx : Transaction} {trace : Trace} (spares : trace.Spares)
    {v : Address → Option Int} {effects : Balances} (made : effectsFrom v tx trace = .ok effects)
    (a : Address) : moved tx trace a = effects.getD a 0 := by
  rw [moved, effectsFrom_of_spares spares _ v, made]

namespace Node.Answers

/-- What a transaction adds to the balance of an account by the trace that the node has of it. -/
def movedBy (answers : Answers) (a : Address) (tx : Transaction) : Int :=
  match answers.traceOf (.ofBytes tx.hash) with
  | .ok trace => moved tx trace a
  | .error _ => 0

/-- The balance of an account once some transactions are executed on top of a block. -/
def balanceAfter (answers : Answers) (parent : Int) (transactions : List Transaction)
    (a : Address) : Int :=
  answers.holding (.number parent) a + (transactions.map (answers.movedBy a)).sum

theorem balanceAfter_append (answers : Answers) (parent : Int) (transactions : List Transaction)
    (tx : Transaction) (a : Address) :
    answers.balanceAfter parent (transactions ++ [tx]) a =
      answers.balanceAfter parent transactions a + answers.movedBy a tx := by
  simp only [balanceAfter, List.map_append, List.map_cons, List.map_nil, List.sum_append,
    List.sum_cons, List.sum_nil]
  omega

/-- By the traces that the node has, none of the transactions destroys an account. -/
def Spare (answers : Answers) (transactions : List Transaction) : Prop :=
  ∀ tx ∈ transactions, ∀ trace, answers.traceOf (.ofBytes tx.hash) = .ok trace → trace.Spares

end Node.Answers

namespace BlockPrefix

section Views

variable {answers : Node.Answers} {tracked : AddressSet}

/-- A query sees what it saw at the start and all that was moved since. -/
theorem view_of_spare {transactions : List Transaction} (spare : answers.Spare transactions)
    {traces : List Trace}
    (read : answers.tracesOf (transactions.map fun tx => .ofBytes tx.hash) = .ok traces)
    {v v' : Address → Int} (seen : view tracked (transactions.zip traces) v = .ok v')
    {a : Address} (ha : a ∈ tracked) :
    v' a = v a + (transactions.map (answers.movedBy a)).sum := by
  induction transactions generalizing traces v with
  | nil =>
    obtain rfl := Except.ok.inj seen
    simp
  | cons tx rest ih =>
    obtain ⟨first, later⟩ := List.forall_mem_cons.1 spare
    rw [List.map_cons, Node.Answers.tracesOf, List.mapM_cons] at read
    obtain ⟨trace, one, read⟩ := bind_eq_ok.1 read
    obtain ⟨more, others, read⟩ := bind_eq_ok.1 read
    obtain rfl := Except.ok.inj read
    rw [List.zip_cons_cons, view] at seen
    obtain ⟨effects, made, seen⟩ := bind_eq_ok.1 seen
    have change : answers.movedBy a tx = effects.getD a 0 := by
      rw [Node.Answers.movedBy, one]
      exact moved_of_effects (first trace one) made a
    rw [ih later others seen, applied, if_pos ha, List.map_cons, List.sum_cons, change]
    omega

theorem mem_of_select {balances result : Balances} {addresses : List Address}
    (h : select balances addresses = .ok result) {a : Address} (ha : a ∈ result) :
    a ∈ addresses := by
  rw [Std.ExtTreeMap.mem_iff_isSome_getElem?, getElem?_of_select h] at ha
  split at ha
  · assumption
  · nomatch ha

variable {σ : Type} {p : BlockPrefix} {client : Client σ} {holding : BlockId → Address → Int}
  {tracesOf : List TxId → Except Fault (List Trace)} {w w' : Traced σ} {result : Balances}

theorem traces_kept {traces : List Trace}
    (h : (p.traces client).outcome w = (.ok traces, w')) : w'.1 = some traces := by
  obtain ⟨known, s⟩ := w
  simp only [BlockPrefix.traces, Asking.outcome_ofOutcome] at h
  cases known with
  | some traces' =>
    obtain ⟨found, rfl⟩ := Prod.mk.inj h
    rw [Except.ok.inj found]
  | none =>
    simp only at h
    split at h
    · obtain ⟨found, rfl⟩ := Prod.mk.inj h
      rw [Except.ok.inj found]
    · simp at h

/-- Once a query is answered, the traces of the node are known. -/
theorem cached_preBalances (steady : client.Steady holding tracesOf) (cached : p.Cached tracesOf w)
    (h : (p.preBalances client tracked).outcome w = (.ok result, w')) : p.Cached tracesOf w' := by
  obtain ⟨start, traces, balances, w₁, w₂, s, kept, same, -, traced, -⟩ :=
    preBalances_eq_ok steady h
  have read : tracesOf p.ids = .ok traces := by
    refine traces_eq_ok steady ?_ traced
    intro ts hts
    exact cached ts (kept ▸ hts)
  intro ts hts
  rw [same, traces_kept traced] at hts
  rwa [← Option.some.inj hts]

/-- A query tells balances of the accounts that it tracks alone. -/
theorem mem_of_preBalances (steady : client.Steady holding tracesOf)
    (h : (p.preBalances client tracked).outcome w = (.ok result, w')) {a : Address}
    (ha : a ∈ result) : a ∈ tracked := by
  obtain ⟨-, -, balances, -, -, -, -, -, -, -, -, selected⟩ := preBalances_eq_ok steady h
  exact Std.ExtTreeSet.mem_toList.1 (mem_of_select selected ha)

/-- Every query tells the exact balances, if no account destroys itself. -/
theorem preBalances_of_spare (steady : client.Steady answers.holding answers.tracesOf)
    (spare : answers.Spare p.transactions) (cached : p.Cached answers.tracesOf w)
    (h : (p.preBalances client tracked).outcome w = (.ok result, w')) {a : Address} {n : Int}
    (told : result[a]? = some n) : n = answers.balanceAfter p.parent p.transactions a := by
  have named : a ∈ tracked := by
    refine mem_of_preBalances steady h (Std.ExtTreeMap.mem_iff_isSome_getElem?.2 ?_)
    rw [told]
    rfl
  obtain ⟨traces, v, read, seen, reports⟩ := view_of_preBalances steady cached h
  have exact := view_of_spare spare read seen named
  rw [reports a named] at told
  rw [← Option.some.inj told, exact, Node.Answers.balanceAfter]

/-- Asked for one account after another, the prefix tells the exact balances as well. -/
theorem baseline_of_spare (steady : client.Steady answers.holding answers.tracesOf)
    (spare : answers.Spare p.transactions) (cached : p.Cached answers.tracesOf w) {a : Address}
    {n : Int} (told : ((p.baseline client).one a).outcome w = (.ok n, w')) :
    n = answers.balanceAfter p.parent p.transactions a ∧ p.Cached answers.tracesOf w' := by
  obtain ⟨balances, w₁, queried, told⟩ := Asking.outcome_bind_eq_ok.1 told
  have kept := cached_preBalances steady cached queried
  cases found : balances[a]? with
  | none =>
    rw [found] at told
    nomatch (Prod.mk.inj told).1
  | some balance =>
    rw [found] at told
    obtain ⟨same, rfl⟩ := Prod.mk.inj told
    obtain rfl := Except.ok.inj same
    exact ⟨preBalances_of_spare steady spare cached queried found, kept⟩

end Views

end BlockPrefix

end TraceDiff
