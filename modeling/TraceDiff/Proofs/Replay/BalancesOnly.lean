import TraceDiff.Proofs.BalanceEffects
import TraceDiff.Proofs.Replay.RootAbort
import TraceDiff.Proofs.Replay.SameBalances

/-! A replay for balances alone takes the place of a full one: it comes to the same balances, and it
rejects no trace that the other one would accept. -/
namespace TraceDiff

variable {σ τ : Type} {sources : Sources σ} {source' : BaselineSource τ} {C : σ → Prop}
  {holding : Address → Int}

theorem BaselineSource.Gives.total (gives : source'.Gives holding) :
    ({ baseline := some source' } : Sources τ).Total where
  before := nofun
  after := nofun
  balance := by
    rintro _ ⟨⟩ a t
    obtain ⟨t', answer⟩ := gives a t
    exact ⟨holding a, t', answer⟩

namespace Replay

section Alike

variable {sources sources' : Sources σ} {balancesOnly : Bool} {records : List Record}

/-- Two sources make no difference to some effects. -/
def Alike (sources sources' : Sources σ) (effects : List Effect) : Prop :=
  ∀ e ∈ effects, ∀ m : Machine, m.apply sources e = m.apply sources' e

theorem performAll_congr {effects : List Effect} (alike : Alike sources sources' effects) :
    performAll sources effects = performAll sources' effects := by
  induction effects with
  | nil => rfl
  | cons e effects ih =>
    obtain ⟨first, rest⟩ := List.forall_mem_cons.1 alike
    have once : perform sources e = perform sources' e := by simp only [perform, first]
    rw [performAll, performAll, once, ih rest]

theorem step_congr (scope : scopeOf sources balancesOnly = scopeOf sources' balancesOnly)
    {r : Record} {later : List Record} (alike : ∀ f effects,
      Effect.ofRecord (scopeOf sources' balancesOnly) f r later = .ok effects →
        Alike sources sources' effects) (i : Nat) :
    step sources balancesOnly i r later = step sources' balancesOnly i r later := by
  have got (x : Machine × σ) : (get : Run σ (Machine × σ)).outcome x = (.ok x, x) := rfl
  apply Asking.ext
  rintro ⟨m, s⟩
  simp only [step, Asking.mapFault, Asking.outcome_ofOutcome, Asking.outcome_bind, change, scope]
  cases m.arrive r with
  | error f => rfl
  | ok m₁ =>
    simp only [got, Asking.outcome_ofExcept]
    cases read : Effect.ofRecord (scopeOf sources' balancesOnly) m₁.frames.top r later with
    | error f => rfl
    | ok effects => simp only [performAll_congr (alike _ _ read)]

/-- Sources that make no difference to the effects of the records make none to a replay. -/
theorem replay_congr (scope : scopeOf sources balancesOnly = scopeOf sources' balancesOnly)
    (alike : ∀ r ∈ records, ∀ f later effects,
      Effect.ofRecord (scopeOf sources' balancesOnly) f r later = .ok effects →
        Alike sources sources' effects) (failed : Bool) :
    replay sources balancesOnly records failed = replay sources' balancesOnly records failed := by
  have ran (i : Nat) :
      steps sources balancesOnly i records = steps sources' balancesOnly i records := by
    induction records generalizing i with
    | nil => rfl
    | cons r later ih =>
      obtain ⟨first, rest⟩ := List.forall_mem_cons.1 alike
      have once := step_congr scope (fun f effects => first f later effects) i
      rw [steps, steps, once, ih rest]
  rw [replay, replay, ran]

end Alike

theorem Effect.Follows.bare {xs ys : List Effect} (h : Effect.Follows xs ys) :
    ∀ e ∈ ys, e.isBare = true := by
  induction h with
  | nil => exact List.forall_mem_nil _
  | same bare _ ih => exact List.forall_mem_cons.2 ⟨bare, ih⟩
  | skip _ _ ih => exact ih

theorem sameBalances_start (holding : Address → Int) (root : Address) :
    (Machine.start root).SameBalances holding (Machine.start root) :=
  ⟨⟨rfl, rfl, rfl, rfl, nofun, nofun⟩, rfl, rfl, rfl, rfl⟩

section Seeding

variable {m m' m₁ : Machine} {s s₁ : σ}

theorem sameBalances_charge (tx : Transaction) (gasUsed : Int) (h : m.SameBalances holding m') :
    (charge tx gasUsed m).SameBalances holding (charge tx gasUsed m') := by
  have target : m'.frames.root.address = m.frames.root.address := by rw [h.frames]
  have paid {j j' : Journal} (same : j.SameBalances holding j') (n : Int) :
      (j.debitBy tx.sender n).SameBalances holding (j'.debitBy tx.sender n) := by
    cases tx.sender with
    | none => exact same
    | some sender => exact same.debit sender n
  have fee := (paid h.journal (gasUsed * tx.gasPrice)).touch m.frames.root.address
  have value := (paid fee tx.value).credit m.frames.root.address tx.value
  rw [charge_eq, charge_eq, target]
  exact ⟨value, h.frames, congrArg some fee.ledger, h.aborted, h.visited⟩

/-- Seeding may ask for code, which a replay of balances alone does without. -/
theorem sameBalances_seed (values : sources.Values C holding)
    (known : sources.baseline.isSome = true) (tx : Transaction) (gasUsed : Int)
    (h : m.SameBalances holding m') (c : C s) {balancesOnly : Bool}
    (seeded : (seed sources balancesOnly tx gasUsed).outcome (m, s) = (.ok (), (m₁, s₁))) :
    m₁.SameBalances holding (charge tx gasUsed m') ∧ C s₁ := by
  rw [outcome_seed] at seeded
  have looks : Effect.Follows ((seeding (scopeOf sources balancesOnly) tx
      m.frames.root.address).map .note) [] := by
    have kept : ∀ e ∈ seeding (scopeOf sources balancesOnly) tx m.frames.root.address,
        e.keepsBalances = true := by
      intro e he
      rcases of_mem_seeding he with rfl | rfl <;> rfl
    exact Effect.Notes.follows ⟨_, rfl, kept⟩ fun _ quiet => quiet
  have gives : (⟨fun a => pure (holding a), none⟩ : BaselineSource Unit).Gives holding :=
    fun a t => ⟨t, rfl⟩
  obtain ⟨m₁', t₁, done, same, c'⟩ := sameBalances_performAll values known gives looks
    (sameBalances_charge tx gasUsed h) c seeded ()
  obtain ⟨rfl, -⟩ := Prod.mk.inj (Prod.mk.inj done).2
  exact ⟨same, c'⟩

end Seeding

section Rejecting

variable {m m' : Machine} {s : σ} {t : τ} {i : Nat} {records : List Record} {balancesOnly : Bool}

theorem Machine.SameBalances.aligned (h : m.SameBalances holding m') (aligned : m.Aligned) :
    m'.Aligned := by
  obtain ⟨level, balanced⟩ := aligned
  refine ⟨?_, ?_⟩
  · rw [Machine.depth, h.frames, h.journal.snapshots, Snapshots.bare, List.length_map]
    exact level
  · simpa [h.journal.snapshots, Snapshots.Balanced, Snapshots.bare] using balanced

end Rejecting

end Replay

end TraceDiff
