import TraceDiff.Proofs.BlockPrefix.Destroyed
import TraceDiff.Proofs.Replay.Placeholders

/-! What a replay asks its sources for: the code of an account when it is first referred to, the
code that a creation leaves, and the balance of an account that destroys itself. Whatever these
questions keep, a replay keeps. -/
namespace TraceDiff

variable {σ : Type} {sources : Sources σ} {balancesOnly failed : Bool} {K D : Address → Prop}
  {I : AddressMap Bytes → Baselines → σ → Prop}

/-- Entries refer to accounts of `K` alone, and those whose balance is asked for are of `D` too. -/
def Journal.Entry.AsksOf (K D : Address → Prop) : Entry → Prop
  | reference a => K a
  | sweep a _ => K a ∧ D a
  | _ => True

namespace Replay

/-- The code that was fetched, the balances that are known and the outside are as `I` says after
every question to a source, if they are so before it. -/
structure Carried (sources : Sources σ) (K D : Address → Prop)
    (I : AddressMap Bytes → Baselines → σ → Prop) : Prop where
  before : ∀ source ∈ sources.code, ∀ a preCode b s code s', K a → a ∉ preCode →
    (source.before a).outcome s = (.ok code, s') → I preCode b s → I (preCode.insert a code) b s'
  after : ∀ source ∈ sources.code, ∀ a preCode b s code s',
    (source.after a).outcome s = (.ok code, s') → I preCode b s → I preCode b s'
  balance : ∀ source ∈ sources.baseline, ∀ a preCode b s n b' s', K a → D a →
    (Baselines.get source a).outcome (b, s) = (.ok n, (b', s')) → I preCode b s → I preCode b' s'

/-- The machine and the outside are as `I` says. -/
def Held (I : AddressMap Bytes → Baselines → σ → Prop) (w : Machine × σ) : Prop :=
  I w.1.journal.preCode w.1.journal.baselines w.2

theorem Held.of_beside {m m' : Machine} {s : σ} (beside : m.journal.Beside m'.journal)
    (h : Held I (m, s)) : Held I (m', s) := by
  obtain ⟨l, snapshots, same⟩ := beside
  unfold Held at h ⊢
  rwa [same]

namespace Carried

variable {m m₁ m' : Machine} {s s' : σ} {r : Record} {later passed records : List Record}
  {root : Address} {paid : Option (Transaction × Int)} {i : Nat} {w : Machine × σ}

theorem note (carried : Carried sources K D I) {e : Journal.Entry} {j j' : Journal}
    (flat : e.isFlat = true) (asks : e.AsksOf K D)
    (applied : (e.apply sources j).outcome s = (.ok j', s'))
    (h : I j.preCode j.baselines s) : I j'.preCode j'.baselines s' := by
  cases e with
  | sweep a b =>
    obtain ⟨source, there, n, known, got, rfl⟩ := Journal.Entry.apply_sweep_eq_ok applied
    have kept := carried.balance source there a _ _ _ _ _ _ asks.1 asks.2 got h
    dsimp only
    split <;> exact kept
  | reference a =>
    rcases Journal.Entry.apply_reference_eq_ok applied with
      ⟨rfl, rfl⟩ | ⟨unknown, source, there, code, asked, rfl⟩
    · exact h
    · have new : a ∉ j.preCode := by
        rw [Std.ExtTreeMap.mem_iff_isSome_getElem?, unknown]
        exact Bool.false_ne_true
      exact carried.before source there a _ _ _ _ _ asks new asked h
  | deploy a =>
    rcases Journal.Entry.apply_deploy_eq_ok applied with
      ⟨rfl, rfl⟩ | ⟨source, there, code, asked, rfl⟩
    · exact h
    · exact carried.after source there a _ _ _ _ _ asked h
  | recordHash number word =>
    simp only [Journal.Entry.apply, Asking.outcome_ofExcept, Journal.recordHash] at applied
    split at applied
    · cases applied
      exact h
    · cases (Prod.mk.inj applied).1
  | read a k v =>
    cases applied
    unfold Journal.read
    split <;> exact h
  | push | pop | rollback => cases flat
  | write | touch | credit | debit | transfer | destroy =>
    cases applied
    exact h

theorem performAll (carried : Carried sources K D I) {effects : List Effect}
    (asks : ∀ e, .note e ∈ effects → e.isFlat = true ∧ e.AsksOf K D)
    (done : (performAll sources effects).outcome (m, s) = (.ok (), w)) (h : Held I (m, s)) :
    Held I w := by
  induction effects generalizing m s with
  | nil =>
    cases done
    exact h
  | cons e effects ih =>
    obtain ⟨_, ⟨m₁, s₁⟩, performed, done⟩ := Asking.outcome_bind_eq_ok.1 done
    refine ih (fun e he => asks e (List.mem_cons_of_mem _ he)) done ?_
    simp only [perform, Asking.outcome_ofOutcome] at performed
    rcases applied : (m.apply sources e).outcome s with ⟨f | m₂, s₂⟩
    · simp [applied] at performed
    · simp only [applied] at performed
      cases performed
      cases e with
      | note e =>
        obtain ⟨j, noted, rfl⟩ := Machine.apply_note_eq_ok.1 applied
        obtain ⟨flat, asked⟩ := asks e List.mem_cons_self
        exact carried.note flat asked noted h
      | enter =>
        cases applied
        exact h
      | abort =>
        obtain rfl := (Prod.mk.inj applied).2
        exact h.of_beside (beside_of_abort (Prod.mk.inj applied).1)

/-- A record asks for accounts that it names, and for the balance of the account executing. -/
theorem step (carried : Carried sources K D I)
    (known : ∀ a, r.Names a ∨ Creates r later a → K a)
    (listed : ∀ a ∈ destroyed root passed (r :: later), D a) (about : m.About K)
    (attributed : m.Attributed root passed (r :: later))
    (done : (step sources balancesOnly i r later).outcome (m, s) = (.ok (), w))
    (h : Held I (m, s)) : Held I w := by
  obtain ⟨m₁, effects, arrived, read, performed⟩ := step_eq_ok.1 done
  refine carried.performAll (fun e he => ?_) performed (h.of_beside (beside_of_arrive arrived))
  have stems : e.Stems (scopeOf sources balancesOnly) m₁.frames.top r later :=
    Effect.allStem_ofRecord read _ he
  refine ⟨stems.isFlat, ?_⟩
  cases e with
  | reference a => exact known a (.inl stems.2)
  | sweep a b =>
    obtain ⟨⟨rfl, real⟩, -⟩ := stems
    exact ⟨(about.arrive arrived).top.1 real,
      listed _ (mem_destroyed_of_sweep attributed arrived read he)⟩
  | _ => trivial

theorem steps (carried : Carried sources K D I)
    (known : ∀ r later a, r :: later <:+ records → r.Names a ∨ Creates r later a → K a)
    (listed : ∀ a ∈ destroyed root passed records, D a) (about : m.About K)
    (attributed : m.Attributed root passed records)
    (ran : (steps sources balancesOnly i records).outcome (m, s) = (.ok (), w))
    (h : Held I (m, s)) : Held I w := by
  -- On the records that are left, with `about` and `attributed` carried from record to record: open
  -- frames are those of known accounts, and only accounts that execute a record are destroyed.
  induction records generalizing passed m s i with
  | nil =>
    cases ran
    exact h
  | cons r later ih =>
    obtain ⟨_, ⟨m₁, s₁⟩, done, ran⟩ := Asking.outcome_bind_eq_ok.1 ran
    have named (a : Address) := known r later a (List.suffix_refl _)
    refine ih (fun r' later' a there => known r' later' a (there.trans (List.suffix_cons r later)))
      (fun a ha => listed a (mem_destroyed_of_later ha)) ?_ (attributed.step done) ran
      (carried.step named listed about attributed done h)
    exact (keeps_about named i).after done about

/-- Before the first record, only the code of the target is asked for. -/
theorem of_prepare (carried : Carried sources K D I) (target : K root)
    (prepared : (prepare sources balancesOnly paid).outcome (.start root, s) = (.ok (), w))
    (h : Held I (.start root, s)) : Held I w := by
  cases paid with
  | none =>
    cases prepared
    exact h
  | some p =>
    obtain ⟨tx, gasUsed⟩ := p
    obtain ⟨m, s'⟩ := w
    rw [prepare, outcome_seed] at prepared
    refine carried.performAll (fun e he => ?_) prepared ?_
    · obtain ⟨entry, member, same⟩ := List.mem_map.1 he
      obtain rfl := Effect.note.inj same
      rcases of_mem_seeding member with rfl | rfl
      · exact ⟨rfl, trivial⟩
      · exact ⟨rfl, target⟩
    · rw [charge_eq]
      cases tx.sender <;> exact h

/-- A replay from the start asks for accounts that it knows, and for the balances of accounts that
its records destroy. -/
theorem replay (carried : Carried sources K (· ∈ destroyed root [] records) I)
    (known : ∀ a, Known root paid records a → K a) {w₁ : Machine × σ}
    (prepared : (prepare sources balancesOnly paid).outcome (.start root, s) = (.ok (), w₁))
    (replayed : (replay sources balancesOnly records failed).outcome w₁ = (.ok (), w))
    (h : Held I (.start root, s)) : Held I w := by
  obtain ⟨m₁, s₁⟩ := w₁
  obtain ⟨m', s'⟩ := w
  have unused := Machine.unused_prepare prepared
  have began := carried.of_prepare (known root .root) prepared h
  have about : (anchor m₁).About K := by
    refine (about_of_prepare prepared fun a there => known a ?_).anchor (by rw [unused.frames]; rfl)
    cases there with
    | root => exact .root
    | sender there sent => exact .sender there sent
    | named there => cases there
    | created there => cases List.suffix_nil.1 there
  obtain ⟨m₂, ran, finished⟩ := replay_eq_ok.1 replayed
  have stepped : Held I (m₂, s') := by
    refine carried.steps (fun r later a there origin => known a ?_) (fun _ listed => listed) about
      (unused.attributed records) ran began
    rcases origin with names | creates
    · exact .named (there.mem List.mem_cons_self) names
    · exact .created there creates
  exact stepped.of_beside (beside_of_finish finished)

end Carried

end Replay

end TraceDiff
