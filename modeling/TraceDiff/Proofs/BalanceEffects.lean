import TraceDiff.BlockPrefix
import TraceDiff.Proofs.Replay

/-! A replay depends on the answers of its sources, and on nothing else that they may do. So does what
a transaction moves: it depends on the balances that it asks for. -/
namespace TraceDiff

variable {σ τ ρ α β : Type}

namespace Asking

/-- Whenever `p` comes through, `q` comes through with the same answer, whatever its outside. -/
def Below (p : Asking σ α) (q : Asking τ α) : Prop :=
  ∀ s a s', p.outcome s = (.ok a, s') → ∀ t, ∃ t', q.outcome t = (.ok a, t')

/-- The same beside a state that both share. -/
def BelowBeside (p : Asking (ρ × σ) α) (q : Asking (ρ × τ) α) : Prop :=
  ∀ r s a r' s', p.outcome (r, s) = (.ok a, (r', s')) →
    ∀ t, ∃ t', q.outcome (r, t) = (.ok a, (r', t'))

theorem below_ofExcept (x : Except Fault α) :
    (ofExcept x : Asking σ α).Below (ofExcept x : Asking τ α) := by
  intro s a s' h t
  exact ⟨t, Prod.ext (Prod.mk.inj h).1 rfl⟩

theorem Below.map {p : Asking σ α} {q : Asking τ α} (h : p.Below q) (g : α → β) :
    (g <$> p).Below (g <$> q) := by
  intro s b s' mapped t
  rw [outcome_map] at mapped
  rcases made : p.outcome s with ⟨_ | a, s₁⟩
  · simp [made, Except.map] at mapped
  · obtain ⟨t', answered⟩ := h s a s₁ made t
    obtain rfl : g a = b := by simpa [made, Except.map] using (Prod.mk.inj mapped).1
    exact ⟨t', by rw [outcome_map, answered]; rfl⟩

theorem below_pure (a : α) : (pure a : Asking σ α).Below (pure a : Asking τ α) :=
  below_ofExcept (.ok a)

theorem below_fail (f f' : Fault) : (fail f : Asking σ α).Below (fail f' : Asking τ α) :=
  fun _ _ _ failed => nomatch (Prod.mk.inj failed).1

theorem Below.bind {p : Asking σ α} {q : Asking τ α} {f : α → Asking σ β} {g : α → Asking τ β}
    (h : p.Below q) (hf : ∀ a, (f a).Below (g a)) : (p >>= f).Below (q >>= g) := by
  intro s b s' bound t
  obtain ⟨a, s₁, first, second⟩ := outcome_bind_eq_ok.1 bound
  obtain ⟨t₁, first⟩ := h s a s₁ first t
  obtain ⟨t₂, second⟩ := hf a s₁ b s' second t₁
  exact ⟨t₂, outcome_bind_eq_ok.2 ⟨a, t₁, first, second⟩⟩

theorem belowBeside_ofExcept (x : Except Fault α) :
    (ofExcept x : Asking (ρ × σ) α).BelowBeside (ofExcept x : Asking (ρ × τ) α) := by
  intro r s a r' s' h t
  obtain ⟨rfl, same⟩ := Prod.mk.inj h
  exact ⟨t, by rw [← (Prod.mk.inj same).1]; rfl⟩

theorem BelowBeside.bind {p : Asking (ρ × σ) α} {q : Asking (ρ × τ) α}
    {f : α → Asking (ρ × σ) β} {g : α → Asking (ρ × τ) β} (h : p.BelowBeside q)
    (hf : ∀ a, (f a).BelowBeside (g a)) : (p >>= f).BelowBeside (q >>= g) := by
  intro r s b r' s' bound t
  obtain ⟨a, ⟨r₁, s₁⟩, first, second⟩ := outcome_bind_eq_ok.1 bound
  obtain ⟨t₁, first⟩ := h r s a r₁ s₁ first t
  obtain ⟨t₂, second⟩ := hf a r₁ s₁ b r' s' second t₁
  exact ⟨t₂, outcome_bind_eq_ok.2 ⟨a, (r₁, t₁), first, second⟩⟩

end Asking

/-- Whatever balance the first source gives, the second one gives. -/
def BaselineSource.Below (source : BaselineSource σ) (source' : BaselineSource τ) : Prop :=
  ∀ a, (source.one a).Below (source'.one a)

/-- Whatever code the first source gives, the second one gives. -/
structure CodeSource.Below (source : CodeSource σ) (source' : CodeSource τ) : Prop where
  before : ∀ a, (source.before a).Below (source'.before a)
  after : ∀ a, (source.after a).Below (source'.after a)

/-- The same sources are there, and what the first ones give the second ones give. -/
structure Sources.Below (sources : Sources σ) (sources' : Sources τ) : Prop where
  code : Option.Rel CodeSource.Below sources.code sources'.code
  baseline : Option.Rel BaselineSource.Below sources.baseline sources'.baseline

theorem Sources.below_of_baseline {source : BaselineSource σ} {source' : BaselineSource τ}
    (h : source.Below source') :
    Sources.Below { baseline := some source } { baseline := some source' } :=
  ⟨.none, .some h⟩

theorem Baselines.below_get {source : BaselineSource σ} {source' : BaselineSource τ}
    (h : source.Below source') (a : Address) :
    (Baselines.get source a).BelowBeside (Baselines.get source' a) := by
  intro known s n known' s' got t
  simp only [Baselines.get, Asking.outcome_ofOutcome] at got ⊢
  cases hk : known.known[a]? with
  | some balance =>
    simp only [hk, Prod.mk.injEq] at got ⊢
    exact ⟨t, got.1, got.2.1, rfl⟩
  | none =>
    rcases answer : (source.one a).outcome s with ⟨_ | balance, s₁⟩
    · simp [hk, answer] at got
    · obtain ⟨t', answer'⟩ := h a s balance s₁ answer t
      simp only [hk, answer, answer', Prod.mk.injEq] at got ⊢
      exact ⟨t', got.1, got.2.1, rfl⟩

namespace Journal

theorem below_sweep {x : Option (BaselineSource σ)} {y : Option (BaselineSource τ)}
    (h : Option.Rel BaselineSource.Below x y) (a b : Address) (j : Journal) :
    (j.sweep x a b).Below (j.sweep y a b) := by
  cases h with
  | none => exact (Asking.below_fail .noBaseline .noBaseline).bind fun _ => Asking.below_pure _
  | @some source source' h =>
    intro s j' s' swept t
    rw [outcome_sweep] at swept
    rcases got : (Baselines.get source a).outcome (j.baselines, s) with ⟨_ | n, known, s₁⟩
    · simp [got] at swept
    · obtain ⟨t', got'⟩ := Baselines.below_get h a j.baselines s n known s₁ got t
      rw [outcome_sweep, got']
      rw [got] at swept
      exact ⟨t', Prod.ext (Prod.mk.inj swept).1 rfl⟩

theorem below_reference {source : CodeSource σ} {source' : CodeSource τ}
    (h : source.Below source') (a : Address) (j : Journal) :
    (j.reference source a).Below (j.reference source' a) := by
  unfold reference
  cases j.preCode[a]? with
  | some code => exact Asking.below_pure _
  | none => exact (h.before a).bind fun _ => Asking.below_pure _

variable {sources : Sources σ} {sources' : Sources τ}

/-- Only sweeps, references and deployments ask for anything. -/
theorem below_apply (h : sources.Below sources') (e : Entry) (j : Journal) :
    (e.apply sources j).Below (e.apply sources' j) := by
  obtain ⟨_, _⟩ := sources
  obtain ⟨_, _⟩ := sources'
  obtain ⟨code, baseline⟩ := h
  cases e with
  | sweep a b => exact below_sweep baseline a b j
  | reference a =>
    simp only [Entry.apply]
    cases code with
    | none => exact Asking.below_pure j
    | some code => exact (below_reference code a j).map _
  | deploy a =>
    simp only [Entry.apply]
    cases code with
    | none => exact Asking.below_pure j
    | some code => exact ((code.after a).bind fun _ => Asking.below_pure _).map _
  | _ => exact Asking.below_ofExcept _

end Journal

namespace Replay

variable {sources : Sources σ} {sources' : Sources τ}

theorem scopeOf_eq_of_below (h : sources.Below sources') (balancesOnly : Bool) :
    scopeOf sources balancesOnly = scopeOf sources' balancesOnly := by
  obtain ⟨code, baseline⟩ := h
  have same {α β : Type} {R : α → β → Prop} {x : Option α} {y : Option β} (h : Option.Rel R x y) :
      x.isSome = y.isSome := by
    cases h <;> rfl
  simp only [scopeOf, same code, same baseline]

theorem below_change (f : Machine → Except Fault Machine) :
    (change f : Run σ Unit).BelowBeside (change f : Run τ Unit) := by
  intro m s u m' s' changed t
  simp only [change, Asking.outcome_ofOutcome] at changed ⊢
  cases made : f m with
  | error e => simp [made] at changed
  | ok m₁ =>
    simp only [made, Prod.mk.injEq] at changed ⊢
    exact ⟨t, changed.1, changed.2.1, rfl⟩

theorem below_effect (h : sources.Below sources') (m : Machine) (e : Effect) :
    (m.apply sources e).Below (m.apply sources' e) := by
  cases e with
  | note entry => exact (Journal.below_apply h entry m.journal).map _
  | enter | abort => exact Asking.below_ofExcept _

theorem below_perform (h : sources.Below sources') (e : Effect) :
    (perform sources e).BelowBeside (perform sources' e) := by
  intro m s u m' s' done t
  simp only [perform, Asking.outcome_ofOutcome] at done ⊢
  rcases applied : (m.apply sources e).outcome s with ⟨_ | m₁, s₁⟩
  · simp [applied] at done
  · obtain ⟨t', applied'⟩ := below_effect h m e s m₁ s₁ applied t
    simp only [applied, applied', Prod.mk.injEq] at done ⊢
    exact ⟨t', done.1, done.2.1, rfl⟩

theorem below_performAll (h : sources.Below sources') (effects : List Effect) :
    (performAll sources effects).BelowBeside (performAll sources' effects) := by
  induction effects with
  | nil => exact Asking.belowBeside_ofExcept (.ok ())
  | cons e effects ih => exact (below_perform h e).bind fun _ => ih

theorem below_step (h : sources.Below sources') (balancesOnly : Bool) (i : Nat) (r : Record)
    (later : List Record) :
    (step sources balancesOnly i r later).BelowBeside (step sources' balancesOnly i r later) := by
  rintro m s ⟨⟩ m' s' done t
  obtain ⟨m₁, effects, ready, read, done⟩ := step_eq_ok.1 done
  obtain ⟨t', done'⟩ := below_performAll h effects m₁ s () m' s' done t
  rw [scopeOf_eq_of_below h] at read
  exact ⟨t', step_eq_ok.2 ⟨m₁, effects, ready, read, done'⟩⟩

theorem below_steps (h : sources.Below sources') (balancesOnly : Bool) (i : Nat)
    (records : List Record) :
    (steps sources balancesOnly i records).BelowBeside (steps sources' balancesOnly i records) := by
  induction records generalizing i with
  | nil => exact Asking.belowBeside_ofExcept (.ok ())
  | cons r later ih => exact (below_step h balancesOnly i r later).bind fun _ => ih (i + 1)

theorem below_replay (h : sources.Below sources') (balancesOnly : Bool) (records : List Record)
    (failed : Bool) :
    (replay sources balancesOnly records failed).BelowBeside
      (replay sources' balancesOnly records failed) :=
  (below_change _).bind fun _ => (below_steps h balancesOnly 0 records).bind fun _ =>
    below_change _

theorem below_seed (h : sources.Below sources') (balancesOnly : Bool) (tx : Transaction)
    (gasUsed : Int) :
    (seed sources balancesOnly tx gasUsed).BelowBeside (seed sources' balancesOnly tx gasUsed) := by
  intro m s u m' s' seeded t
  rw [outcome_seed] at seeded ⊢
  rw [← scopeOf_eq_of_below h]
  exact below_performAll h _ _ s u m' s' seeded t

/-- A replay of balances alone asks for nothing as it is seeded. -/
theorem seed_balancesOnly (sources : Sources σ) (tx : Transaction) (gasUsed : Int) :
    seed sources true tx gasUsed = change fun m => .ok (charge tx gasUsed m) := by
  apply Asking.ext
  rintro ⟨m, s⟩
  exact seed_notes (m := m) rfl

end Replay

section

variable {source : BaselineSource σ} {source' : BaselineSource τ}

theorem Replay.below_transaction (h : source.Below source') (tx : Transaction) (trace : Trace) :
    (do
      Replay.seed { baseline := some source } true tx trace.gasUsed.value
      if trace.failed then Replay.replay { baseline := some source } true [] true
      else Replay.replay { baseline := some source } true trace.records false).BelowBeside
    (do
      Replay.seed { baseline := some source' } true tx trace.gasUsed.value
      if trace.failed then Replay.replay { baseline := some source' } true [] true
      else Replay.replay { baseline := some source' } true trace.records false) := by
  have below := Sources.below_of_baseline h
  refine (below_seed below true tx _).bind fun _ => ?_
  cases trace.failed with
  | true => exact below_replay below true [] true
  | false => exact below_replay below true trace.records false

/-- A source that gives the same balances makes the same changes. -/
theorem below_balanceEffects (h : source.Below source') (tx : Transaction) (trace : Trace) :
    (balanceEffects source tx trace).Below (balanceEffects source' tx trace) := by
  intro s effects s' made t
  obtain ⟨target, s₁, account, made⟩ := Asking.outcome_bind_eq_ok.1 made
  have known : tx.account = .ok target := (Prod.mk.inj account).1
  simp only [Asking.outcome_ofOutcome] at made
  split at made
  · simp at made
  · next m s₂ ran =>
    obtain ⟨t', ran'⟩ := Replay.below_transaction h tx trace (.start target) s₁ () m s₂ ran t
    refine ⟨t', Asking.outcome_bind_eq_ok.2 ⟨target, t, by rw [known]; rfl, ?_⟩⟩
    simp only [Asking.outcome_ofOutcome]
    rw [ran']
    exact Prod.ext (Prod.mk.inj made).1 rfl

end

end TraceDiff
