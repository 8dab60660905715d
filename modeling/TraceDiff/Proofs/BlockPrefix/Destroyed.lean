import TraceDiff.Proofs.BlockPrefix.Spared
import TraceDiff.Proofs.Replay.Contexts

/-! The accounts that a transaction destroys. Their balances are the only ones that its replay asks
for, so that it makes no difference what a source says of the others, or whether it does. -/
namespace TraceDiff

variable {σ : Type}

def Record.destroys (r : Record) : Bool :=
  r.error.isNone && decide (r.opcode? = some .selfdestruct)

theorem Record.destroys_iff {r : Record} : r.destroys = true ↔ r.Destroys := by
  rw [destroys, Bool.and_eq_true, decide_eq_true_iff, opcode?_eq_some_iff, Option.isNone_iff_eq_none]
  rfl

namespace Replay

/-- The accounts that the records after `passed` destroy. In the frame of a creation that failed
there is none to destroy. -/
def destroyed (root : Address) : (passed later : List Record) → List Address
  | _, [] => []
  | passed, r :: later =>
    let rest := destroyed root (r :: passed) later
    if r.destroys && !isPlaceholder r.level passed (r :: later) then
      executing root r.level passed (r :: later) :: rest
    else rest

section Reading

variable {scope : Scope} {f : Frame} {r : Record} {later : List Record} {effects : List Effect}
  {a b : Address}

/-- Only a record that destroys its account asks for a balance, and it asks for that of the
account. -/
theorem Effect.destroys_of_sweep (read : ofRecord scope f r later = .ok effects)
    (swept : note (.sweep a b) ∈ effects) :
    r.Destroys ∧ f.placeholder = false ∧ a = f.address := by
  have destroys : r.Destroys := Classical.byContradiction fun spared =>
    ne_sweep_of_spared spared read _ swept a b rfl
  obtain ⟨fine, named⟩ := destroys
  simp only [ofRecord, fine, Option.isSome_none, Bool.false_eq_true, if_false, named, ok_bind]
    at read
  change ofSelfdestruct scope f r = .ok effects at read
  unfold ofSelfdestruct at read
  split at read
  · obtain rfl := Except.ok.inj read
    exact absurd swept List.not_mem_nil
  · next real =>
    obtain ⟨word, -, read⟩ := bind_eq_ok.1 read
    obtain rfl := Except.ok.inj read
    refine ⟨⟨fine, named⟩, by simpa using real, ?_⟩
    have swept : scope.baseline = true ∧ a = f.address ∧ b = .ofWord word := by
      simpa [mem_noteIf] using swept
    exact swept.2.1

end Reading

section Running

variable {source source' : BaselineSource σ} {root : Address} {passed later records : List Record}
  {r : Record} {m m₁ : Machine} {s : σ} {w : Machine × σ} {i : Nat} {effects : List Effect}

theorem sweep_congr {a : Address} (same : source.one a = source'.one a) (b : Address)
    (j : Journal) : j.sweep (some source) a b = j.sweep (some source') a b := by
  simp only [Journal.sweep, Journal.currentBalance, Baselines.get, same]

theorem mem_destroyed_of_later {a : Address} (listed : a ∈ destroyed root (r :: passed) later) :
    a ∈ destroyed root passed (r :: later) := by
  rw [destroyed]
  split
  · exact List.mem_cons_of_mem _ listed
  · exact listed

/-- The balance that a record asks for is that of an account on the list. -/
theorem mem_destroyed_of_sweep {scope : Scope} {a b : Address}
    (attributed : m.Attributed root passed (r :: later)) (arrived : m.arrive r = .ok m₁)
    (read : Effect.ofRecord scope m₁.frames.top r later = .ok effects)
    (swept : .note (.sweep a b) ∈ effects) : a ∈ destroyed root passed (r :: later) := by
  obtain ⟨destroys, real, rfl⟩ := Effect.destroys_of_sweep read swept
  have level : r.level = m₁.frames.depth := Machine.level_of_arrive arrived
  obtain ⟨-, grounded, marked⟩ := attributed.reached.arrive arrived
  have depth : (m₁.frames.inner.length + 1 : Int) = r.level := level.symm
  rw [placeholder_top grounded marked, depth] at real
  have current := (owned_of_arrive arrived attributed.owned).current
  rw [← level] at current
  simp only [destroyed, Record.destroys_iff.2 destroys, real, Bool.not_false, Bool.and_self,
    if_true]
  exact List.mem_cons.2 (.inl current)

theorem alike_of_destroyed
    (alike : ∀ a ∈ destroyed root passed (r :: later), source.one a = source'.one a)
    (attributed : m.Attributed root passed (r :: later)) (arrived : m.arrive r = .ok m₁)
    {scope : Scope} (read : Effect.ofRecord scope m₁.frames.top r later = .ok effects) :
    Alike { baseline := some source } { baseline := some source' } effects := by
  intro e he m₂
  cases e with
  | enter | abort => rfl
  | note entry =>
    cases entry with
    | sweep a b =>
      have listed := mem_destroyed_of_sweep attributed arrived read he
      simp only [Machine.apply, Journal.Entry.apply, sweep_congr (alike _ listed)]
    | _ => rfl

theorem steps_of_destroyed
    (alike : ∀ a ∈ destroyed root passed records, source.one a = source'.one a)
    (attributed : m.Attributed root passed records)
    (ran : (steps { baseline := some source } true i records).outcome (m, s) = (.ok (), w)) :
    (steps { baseline := some source' } true i records).outcome (m, s) = (.ok (), w) := by
  induction records generalizing passed m s i with
  | nil => exact ran
  | cons r later ih =>
    obtain ⟨_, ⟨m₂, s₂⟩, done, ran⟩ := Asking.outcome_bind_eq_ok.1 ran
    obtain ⟨m₁, effects, arrived, read, performed⟩ := step_eq_ok.1 done
    rw [performAll_congr (alike_of_destroyed alike attributed arrived read)] at performed
    have rest : ∀ a ∈ destroyed root (r :: passed) later, source.one a = source'.one a :=
      fun a ha => alike a (mem_destroyed_of_later ha)
    refine Asking.outcome_bind_eq_ok.2 ⟨(), (m₂, s₂), ?_, ih rest (attributed.step done) ran⟩
    exact step_eq_ok.2 ⟨m₁, effects, arrived, read, performed⟩

theorem replay_of_destroyed {failed : Bool} {m' : Machine} {s' : σ}
    (alike : ∀ a ∈ destroyed root [] records, source.one a = source'.one a) (unused : m.Unused root)
    (done : (replay { baseline := some source } true records failed).outcome (m, s) =
      (.ok (), (m', s'))) :
    (replay { baseline := some source' } true records failed).outcome (m, s) =
      (.ok (), (m', s')) := by
  obtain ⟨m₁, ran, finished⟩ := replay_eq_ok.1 done
  exact replay_eq_ok.2 ⟨m₁, steps_of_destroyed alike (unused.attributed records) ran, finished⟩

end Running

end Replay

/-- The accounts that a transaction destroys. One that failed destroys none. -/
def destroyedBy (tx : Transaction) (trace : Trace) : List Address :=
  match tx.account with
  | .ok target => if trace.failed then [] else Replay.destroyed target [] trace.records
  | .error _ => []

variable {tx : Transaction} {trace : Trace} {effects : Balances}

/-- What a transaction moves depends on no balances but those of the accounts that it destroys. -/
theorem balanceEffects_of_destroyed {source source' : BaselineSource σ} {s s' : σ}
    (alike : ∀ a ∈ destroyedBy tx trace, source.one a = source'.one a)
    (made : (balanceEffects source tx trace).outcome s = (.ok effects, s')) :
    (balanceEffects source' tx trace).outcome s = (.ok effects, s') := by
  obtain ⟨target, s₁, account, made⟩ := Asking.outcome_bind_eq_ok.1 made
  have known : tx.account = .ok target := (Prod.mk.inj account).1
  refine Asking.outcome_bind_eq_ok.2 ⟨target, s₁, account, ?_⟩
  simp only [Asking.outcome_ofOutcome] at made ⊢
  split at made
  · simp at made
  · next m s₂ ran =>
    obtain ⟨_, ⟨m₀, s₀⟩, seeded, ran⟩ := Asking.outcome_bind_eq_ok.1 ran
    have prepared : (Replay.prepare { baseline := some source } true
        (some (tx, trace.gasUsed.value))).outcome (.start target, s₁) = (.ok (), (m₀, s₀)) := seeded
    have unused : m₀.Unused target := Replay.Machine.unused_prepare prepared
    rw [Replay.seed_balancesOnly] at seeded
    have again : (do
        Replay.seed { baseline := some source' } true tx trace.gasUsed.value
        if trace.failed then Replay.replay { baseline := some source' } true [] true
        else Replay.replay { baseline := some source' } true trace.records false).outcome
        (.start target, s₁) = (.ok (), (m, s₂)) := by
      refine Asking.outcome_bind_eq_ok.2 ⟨(), (m₀, s₀), ?_, ?_⟩
      · rw [Replay.seed_balancesOnly]
        exact seeded
      · cases failed : trace.failed with
        | true =>
          simp only [failed, if_true] at ran ⊢
          exact Replay.replay_of_destroyed (List.forall_mem_nil _) unused ran
        | false =>
          simp only [failed, Bool.false_eq_true, if_false] at ran ⊢
          refine Replay.replay_of_destroyed (fun a ha => alike a ?_) unused ran
          simpa [destroyedBy, known, failed] using ha
    rw [again]
    exact made

theorem effectsFrom_of_destroyed {v w : Address → Option Int}
    (alike : ∀ a ∈ destroyedBy tx trace, v a = w a) (made : effectsFrom v tx trace = .ok effects) :
    effectsFrom w tx trace = .ok effects := by
  have answered : (balanceEffects (.known v) tx trace).outcome () = (.ok effects, ()) :=
    Prod.ext made rfl
  have same : ∀ a ∈ destroyedBy tx trace,
      (BaselineSource.known v).one a = (BaselineSource.known w).one a := by
    intro a ha
    simp only [BaselineSource.known, alike a ha]
  exact congrArg Prod.fst (balanceEffects_of_destroyed same answered)

end TraceDiff
