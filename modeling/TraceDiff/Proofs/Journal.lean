import TraceDiff.Journal

/-! Entries of a journal that leave its snapshots alone, one by one and in a row. They do the same
whatever snapshots are held, and they come through whenever the sources answer. -/
namespace TraceDiff

variable {σ τ α β : Type}

namespace Asking

/-- A computation that comes through, whatever the outside is like. -/
def Answers (p : Asking σ α) : Prop := ∀ s, ∃ a s', p.outcome s = (.ok a, s')

theorem answers_pure (a : α) : (pure a : Asking σ α).Answers := fun s => ⟨a, s, rfl⟩

theorem Answers.bind {p : Asking σ α} {f : α → Asking σ β} (hp : p.Answers)
    (hf : ∀ a, (f a).Answers) : (p >>= f).Answers := by
  intro s
  obtain ⟨a, s', h⟩ := hp s
  obtain ⟨b, s'', h'⟩ := hf a s'
  exact ⟨b, s'', by rw [outcome_bind, h]; exact h'⟩

/-- A computation in two parts comes through exactly when both do. -/
theorem outcome_bind_eq_ok {p : Asking σ α} {f : α → Asking σ β} {s s'' : σ} {b : β} :
    (p >>= f).outcome s = (.ok b, s'') ↔
      ∃ a s', p.outcome s = (.ok a, s') ∧ (f a).outcome s' = (.ok b, s'') := by
  rw [outcome_bind]
  rcases p.outcome s with ⟨_ | a, s'⟩
  · simp
  · constructor
    · exact fun h => ⟨a, s', rfl, h⟩
    · rintro ⟨_, _, ⟨⟩, h⟩
      exact h

/-- It fails where its first part does, or else where the second one does. -/
theorem outcome_bind_eq_error {p : Asking σ α} {f : α → Asking σ β} {s s'' : σ} {e : Fault} :
    (p >>= f).outcome s = (.error e, s'') ↔
      p.outcome s = (.error e, s'') ∨
        ∃ a s', p.outcome s = (.ok a, s') ∧ (f a).outcome s' = (.error e, s'') := by
  rw [outcome_bind]
  rcases p.outcome s with ⟨_ | a, s'⟩
  · simp
  · constructor
    · exact fun h => .inr ⟨a, s', rfl, h⟩
    · rintro (⟨⟨⟩⟩ | ⟨_, _, ⟨⟩, h⟩)
      exact h

theorem outcome_map_eq_ok {g : α → β} {p : Asking σ α} {s s' : σ} {b : β} :
    (g <$> p).outcome s = (.ok b, s') ↔ ∃ a, p.outcome s = (.ok a, s') ∧ g a = b := by
  rw [outcome_map]
  rcases p.outcome s with ⟨f | a, s₁⟩
  · simp [Except.map]
  · simp only [Except.map, Prod.mk.injEq, Except.ok.injEq]
    constructor
    · rintro ⟨made, rfl⟩
      exact ⟨a, ⟨rfl, rfl⟩, made⟩
    · rintro ⟨_, ⟨rfl, rfl⟩, made⟩
      exact ⟨made, rfl⟩

end Asking

/-- Both parts of a state are as they should be. -/
def Both (J : τ → Prop) (I : σ → Prop) (w : τ × σ) : Prop := J w.1 ∧ I w.2

/-- The result is an answer of one kind or a fault of another. -/
def Within (good : α → Prop) (kind : Fault → Prop) : Except Fault α → Prop
  | .ok a => good a
  | .error f => kind f

section Within

variable {good : α → Prop} {good' : β → Prop} {kind kind' : Fault → Prop}

theorem Within.mono {good' : α → Prop} {x : Except Fault α} (hx : Within good kind x)
    (hgood : ∀ a, good a → good' a) (hkind : ∀ f, kind f → kind' f) : Within good' kind' x := by
  cases x with
  | error f => exact hkind f hx
  | ok a => exact hgood a hx

theorem Within.any (x : Except Fault α) : Within (fun _ => True) (fun _ => True) x := by
  cases x <;> trivial

theorem within_ok {x : Except Fault α} (h : ∃ a, x = .ok a ∧ good a) : Within good kind x := by
  obtain ⟨a, rfl, ha⟩ := h
  exact ha

namespace Asking

/-- From an outside with `I` the computation ends in one again, with an answer of one kind or a
fault of another. -/
def Safe (I : σ → Prop) (good : α → Prop) (kind : Fault → Prop) (p : Asking σ α) : Prop :=
  ∀ s, I s → I (p.outcome s).2 ∧ Within good kind (p.outcome s).1

variable {I : σ → Prop} {p : Asking σ α}

theorem safe_ofExcept {x : Except Fault α} (h : Within good kind x) :
    (ofExcept x : Asking σ α).Safe I good kind := fun _ hs => ⟨hs, h⟩

theorem safe_pure {a : α} (h : good a) : (pure a : Asking σ α).Safe I good kind :=
  safe_ofExcept (x := .ok a) h

theorem Safe.bind {f : α → Asking σ β} (hp : p.Safe I good kind)
    (hf : ∀ a, good a → (f a).Safe I good' kind) : (p >>= f).Safe I good' kind := by
  intro s hs
  obtain ⟨kept, within⟩ := hp s hs
  rw [outcome_bind]
  rcases made : p.outcome s with ⟨e | a, s₁⟩
  · rw [made] at kept within
    exact ⟨kept, within⟩
  · rw [made] at kept within
    exact hf a within s₁ kept

theorem Safe.map (hp : p.Safe I good kind) {g : α → β} (hg : ∀ a, good a → good' (g a)) :
    (g <$> p).Safe I good' kind := by
  intro s hs
  obtain ⟨kept, within⟩ := hp s hs
  rw [outcome_map]
  refine ⟨kept, ?_⟩
  cases made : (p.outcome s).1 with
  | error e => rwa [made] at within
  | ok a =>
    rw [made] at within
    exact hg a within

/-- A computation that depends on the outside as it is. -/
theorem Safe.get {f : σ → Asking σ β} (hf : ∀ s, I s → (f s).Safe I good' kind) :
    (MonadState.get >>= f).Safe I good' kind := fun s hs => hf s hs s hs

theorem Safe.mapFault (hp : p.Safe I good kind) {g : Fault → Fault}
    (hg : ∀ f, kind f → kind' (g f)) : (p.mapFault g).Safe I good kind' := by
  intro s hs
  obtain ⟨kept, within⟩ := hp s hs
  rw [Asking.mapFault, outcome_ofOutcome]
  rcases made : p.outcome s with ⟨e | a, s₁⟩
  · rw [made] at kept within
    exact ⟨kept, hg e within⟩
  · rw [made] at kept within
    exact ⟨kept, within⟩

theorem Safe.beside (hp : p.Safe (fun _ => True) good kind) (J : τ → Prop) :
    (beside p : Asking (τ × σ) α).Safe (fun w => J w.1) good kind :=
  fun (_, s) ht => ⟨ht, (hp s trivial).2⟩

theorem Safe.mono {good' : α → Prop} (hp : p.Safe I good kind) (hgood : ∀ a, good a → good' a)
    (hkind : ∀ f, kind f → kind' f) : p.Safe I good' kind' := by
  intro s hs
  obtain ⟨kept, within⟩ := hp s hs
  exact ⟨kept, within.mono hgood hkind⟩

theorem Safe.fault (hp : p.Safe I good kind) {s s' : σ} {f : Fault} (hs : I s)
    (failed : p.outcome s = (.error f, s')) : kind f := by
  have within := (hp s hs).2
  rwa [failed] at within

theorem Safe.answer (hp : p.Safe I good kind) {s s' : σ} {a : α} (hs : I s)
    (came : p.outcome s = (.ok a, s')) : I s' ∧ good a := by
  have safe := hp s hs
  rwa [came] at safe

end Asking

end Within

/-- Every source that is there answers. -/
structure Sources.Total (sources : Sources σ) : Prop where
  before : ∀ source ∈ sources.code, ∀ a, (source.before a).Answers
  after : ∀ source ∈ sources.code, ∀ a, (source.after a).Answers
  balance : ∀ source ∈ sources.baseline, ∀ a, (source.one a).Answers

/-- Sources with the same answer for every account. -/
def Sources.constant (before after : Bytes) (balance : Int) : Sources σ :=
  { code := some { before := fun _ => pure before, after := fun _ => pure after }
    baseline := some { one := fun _ => pure balance } }

theorem Sources.total_constant (before after : Bytes) (balance : Int) :
    (constant before after balance : Sources σ).Total where
  before := by rintro _ ⟨⟩ a; exact Asking.answers_pure before
  after := by rintro _ ⟨⟩ a; exact Asking.answers_pure after
  balance := by rintro _ ⟨⟩ a; exact Asking.answers_pure balance

/-- No account has code, and each had seven. -/
def Sources.sevenEach : Sources Unit := .constant [] [] 7

theorem Baselines.answers_get {source : BaselineSource σ} {a : Address}
    (h : (source.one a).Answers) : (Baselines.get source a).Answers := by
  rintro ⟨b, s⟩
  unfold Baselines.get
  cases hk : b.known[a]? with
  | some balance => exact ⟨balance, (b, s), by simp [hk]⟩
  | none =>
    obtain ⟨balance, s', h⟩ := h s
    exact ⟨balance, (b.remember a balance, s'), by simp [hk, h]⟩

theorem Baselines.get_eq_ok {source : BaselineSource σ} {a : Address} {b b' : Baselines} {n : Int}
    {s s' : σ} : (get source a).outcome (b, s) = (.ok n, (b', s')) ↔
      b.known[a]? = some n ∧ b' = b ∧ s' = s ∨
        b.known[a]? = none ∧ (source.one a).outcome s = (.ok n, s') ∧ b' = b.remember a n := by
  simp only [get, Asking.outcome_ofOutcome]
  cases b.known[a]? with
  | some m => simp [eq_comm]
  | none =>
    rcases (source.one a).outcome s with ⟨f | m, s₁⟩
    · simp
    · simp only [Prod.mk.injEq, Except.ok.injEq, reduceCtorEq, false_and, false_or, true_and]
      constructor
      · rintro ⟨rfl, rfl, rfl⟩
        exact ⟨⟨rfl, rfl⟩, rfl⟩
      · rintro ⟨⟨rfl, rfl⟩, rfl⟩
        exact ⟨rfl, rfl, rfl⟩

namespace Journal

def withSnapshots (j : Journal) (snapshots : Snapshots) : Journal := { j with snapshots }

theorem outcome_reference (source : CodeSource σ) (a : Address) (j : Journal) (s : σ) :
    (j.reference source a).outcome s =
      match j.preCode[a]? with
      | some code => (.ok (code, j), s)
      | none =>
        ((source.before a).outcome s).map
          (Except.map fun code => (code, { j with preCode := j.preCode.insert a code })) id := by
  unfold reference
  cases j.preCode[a]? with
  | some code => rfl
  | none =>
    simp only [Asking.outcome_bind]
    rcases (source.before a).outcome s with ⟨_ | code, s'⟩ <;> rfl

theorem outcome_deploy (source : CodeSource σ) (a : Address) (j : Journal) (s : σ) :
    (j.deploy source a).outcome s =
      ((source.after a).outcome s).map
        (Except.map fun code => (code, { j with ledger := j.ledger.setCode a code })) id := by
  simp only [deploy, Asking.outcome_bind]
  rcases (source.after a).outcome s with ⟨_ | code, s'⟩ <;> rfl

theorem outcome_sweep (source : BaselineSource σ) (a b : Address) (j : Journal) (s : σ) :
    (j.sweep (some source) a b).outcome s =
      match (Baselines.get source a).outcome (j.baselines, s) with
      | (.ok n, (baselines, s')) =>
        let balance := n + j.ledger.net a
        let j := { j with baselines }
        (.ok (if 0 < balance then j.transfer a b balance else j), s')
      | (.error f, (_, s')) => (.error f, s') := by
  simp only [sweep, currentBalance, Asking.outcome_bind, Asking.outcome_ofOutcome]
  rcases (Baselines.get source a).outcome (j.baselines, s) with ⟨_ | n, known, s'⟩ <;> rfl

namespace Entry

/-- Entries that no snapshot is taken or settled by. -/
def isFlat : Entry → Bool
  | push | pop | rollback => false
  | _ => true

/-- What a flat entry needs to come through when all sources answer. -/
def CanApply (sources : Sources σ) : Entry → Prop
  | sweep _ _ => sources.baseline.isSome
  | recordHash _ word => Word.Fits word
  | e => e.isFlat = true

theorem CanApply.isFlat {sources : Sources σ} {e : Entry} (h : e.CanApply sources) :
    e.isFlat = true := by
  cases e <;> first | rfl | exact h

theorem answers_apply {sources : Sources σ} (total : sources.Total) {e : Entry}
    (h : e.CanApply sources) (j : Journal) : (e.apply sources j).Answers := by
  cases e with
  | sweep a b =>
    obtain ⟨source, hs⟩ := Option.isSome_iff_exists.1 h
    intro s
    obtain ⟨n, ⟨known, s'⟩, hn⟩ :=
      Baselines.answers_get (total.balance source hs a) (j.baselines, s)
    simp [apply, hs, outcome_sweep, hn]
  | reference a =>
    cases hs : sources.code with
    | none => exact fun s => ⟨j, s, by simp [apply, hs]⟩
    | some source =>
      intro s
      simp only [apply, hs, Asking.outcome_map, outcome_reference]
      cases j.preCode[a]? with
      | some code => exact ⟨j, s, rfl⟩
      | none =>
        obtain ⟨code, s', hc⟩ := total.before source hs a s
        simp [hc, Except.map]
  | deploy a =>
    cases hs : sources.code with
    | none => exact fun s => ⟨j, s, by simp [apply, hs]⟩
    | some source =>
      intro s
      obtain ⟨code, s', hc⟩ := total.after source hs a s
      simp [apply, hs, Asking.outcome_map, outcome_deploy, hc, Except.map]
  | recordHash number word =>
    have fits : Word.Fits word := h
    exact fun s => by simp [apply, Journal.recordHash, fits]
  | push | pop | rollback => simp [CanApply, Entry.isFlat] at h
  | read | write | touch | credit | debit | transfer | destroy => exact Asking.answers_pure _

end Entry

/-- The journals that an entry can lead to. -/
def Entry.Leads (sources : Sources σ) (j : Journal) : Entry → Journal → Prop
  | read a k v, j' => j' = j.read a k v
  | write a k v, j' => j' = j.write a k v
  | touch a, j' => j' = j.touch a
  | credit a n, j' => j' = j.credit a n
  | debit a n, j' => j' = j.debit a n
  | transfer a b n, j' => j' = j.transfer a b n
  | sweep a b, j' =>
    ∃ source ∈ sources.baseline, ∃ n baselines s s',
      (Baselines.get source a).outcome (j.baselines, s) = (.ok n, (baselines, s')) ∧
        j' = (fun j : Journal =>
          if 0 < n + j.ledger.net a then j.transfer a b (n + j.ledger.net a) else j)
            { j with baselines }
  | reference _, j' => ∃ preCode, j' = { j with preCode }
  | deploy _, j' => ∃ code, j' = { j with ledger := { j.ledger with code } }
  | destroy a, j' => j' = j.destroy a
  | recordHash _ _, j' => ∃ blockHashes truthBlocks, j' = { j with blockHashes, truthBlocks }
  | push, j' => j' = j.push
  | pop, j' => ∃ l, j.pop = .ok (l, j')
  | rollback, j' => j.rollback = .ok j'

/-- A sweep learns the balance of the account, and moves it where there is something to move. -/
theorem Entry.apply_sweep_eq_ok {sources : Sources σ} {a b : Address} {j j' : Journal} {s s' : σ}
    (applied : ((sweep a b).apply sources j).outcome s = (.ok j', s')) :
    ∃ source ∈ sources.baseline, ∃ n baselines,
      (Baselines.get source a).outcome (j.baselines, s) = (.ok n, (baselines, s')) ∧
        j' = (fun j : Journal =>
          if 0 < n + j.ledger.net a then j.transfer a b (n + j.ledger.net a) else j)
            { j with baselines } := by
  cases there : sources.baseline with
  | none =>
    simp [Entry.apply, there, Journal.sweep, currentBalance, Asking.outcome_map, Except.map]
      at applied
  | some source =>
    simp only [Entry.apply, there, outcome_sweep] at applied
    rcases known : (Baselines.get source a).outcome (j.baselines, s) with ⟨_ | n, baselines, s₁⟩
    · simp [known] at applied
    · simp only [known, Prod.mk.injEq, Except.ok.injEq] at applied
      obtain ⟨rfl, rfl⟩ := applied
      exact ⟨source, rfl, n, baselines, known, rfl⟩

/-- A reference asks for the code of an account that none is noted for and notes it, or changes
nothing. -/
theorem Entry.apply_reference_eq_ok {sources : Sources σ} {a : Address} {j j' : Journal} {s s' : σ}
    (applied : ((reference a).apply sources j).outcome s = (.ok j', s')) :
    j' = j ∧ s' = s ∨ j.preCode[a]? = none ∧ ∃ source ∈ sources.code, ∃ code,
      (source.before a).outcome s = (.ok code, s') ∧
        j' = { j with preCode := j.preCode.insert a code } := by
  cases there : sources.code with
  | none =>
    simp only [Entry.apply, there] at applied
    cases applied
    exact .inl ⟨rfl, rfl⟩
  | some source =>
    simp only [Entry.apply, there, Asking.outcome_map, outcome_reference] at applied
    cases known : j.preCode[a]? with
    | some code =>
      simp only [known] at applied
      cases applied
      exact .inl ⟨rfl, rfl⟩
    | none =>
      rcases asked : (source.before a).outcome s with ⟨_ | code, s₁⟩
      · simp [known, asked, Except.map] at applied
      · simp only [known, asked] at applied
        cases applied
        exact .inr ⟨rfl, source, rfl, code, asked, rfl⟩

/-- A deployment asks for the code of the account and notes it, or changes nothing. -/
theorem Entry.apply_deploy_eq_ok {sources : Sources σ} {a : Address} {j j' : Journal} {s s' : σ}
    (applied : ((deploy a).apply sources j).outcome s = (.ok j', s')) :
    j' = j ∧ s' = s ∨ ∃ source ∈ sources.code, ∃ code,
      (source.after a).outcome s = (.ok code, s') ∧
        j' = { j with ledger := j.ledger.setCode a code } := by
  cases there : sources.code with
  | none =>
    simp only [Entry.apply, there] at applied
    cases applied
    exact .inl ⟨rfl, rfl⟩
  | some source =>
    simp only [Entry.apply, there, Asking.outcome_map, outcome_deploy] at applied
    rcases asked : (source.after a).outcome s with ⟨_ | code, s₁⟩
    · simp [asked, Except.map] at applied
    · simp only [asked] at applied
      cases applied
      exact .inr ⟨source, rfl, code, asked, rfl⟩

theorem Entry.leads_of_apply {sources : Sources σ} {e : Entry} {j j' : Journal} {s s' : σ}
    (applied : (e.apply sources j).outcome s = (.ok j', s')) : e.Leads sources j j' := by
  cases e with
  | sweep a b =>
    obtain ⟨source, there, n, baselines, known, left⟩ := apply_sweep_eq_ok applied
    exact ⟨source, there, n, baselines, s, s', known, left⟩
  | reference a =>
    rcases apply_reference_eq_ok applied with ⟨rfl, -⟩ | ⟨-, source, -, code, -, rfl⟩
    · exact ⟨j'.preCode, rfl⟩
    · exact ⟨_, rfl⟩
  | deploy a =>
    rcases apply_deploy_eq_ok applied with ⟨rfl, -⟩ | ⟨source, -, code, -, rfl⟩
    · exact ⟨j'.ledger.code, rfl⟩
    · exact ⟨_, rfl⟩
  | recordHash number word =>
    simp only [Entry.apply, Asking.outcome_ofExcept, Journal.recordHash, Prod.mk.injEq] at applied
    obtain ⟨hj, -⟩ := applied
    split at hj
    · exact ⟨_, _, (Except.ok.inj hj).symm⟩
    · simp at hj
  | pop =>
    simp only [Entry.apply, Asking.outcome_ofExcept, Prod.mk.injEq] at applied
    cases hp : j.pop with
    | error f => simp [hp, Except.map, Functor.map] at applied
    | ok p =>
      simp only [hp, Except.map, Functor.map, Except.ok.injEq] at applied
      exact ⟨p.1, applied.1 ▸ hp⟩
  | rollback => exact (Prod.mk.inj applied).1
  | read | write | touch | credit | debit | transfer | destroy | push =>
    exact (Except.ok.inj (Prod.mk.inj applied).1).symm

/-- Entries that change no balance and learn none. -/
def Entry.keepsBalances : Entry → Bool
  | read _ _ _ | write _ _ _ | touch _ | reference _ | deploy _ | destroy _ | recordHash _ _ => true
  | _ => false

theorem Entry.balances_of_leads {sources : Sources σ} {e : Entry} (h : e.keepsBalances = true)
    {j j' : Journal} (leads : e.Leads sources j j') :
    (j'.ledger.credits = j.ledger.credits ∧ j'.ledger.debits = j.ledger.debits) ∧
      j'.baselines = j.baselines := by
  cases e with
  | read a k v =>
    obtain rfl := leads
    unfold Journal.read
    split <;> exact ⟨⟨rfl, rfl⟩, rfl⟩
  | reference a => obtain ⟨preCode, rfl⟩ := leads; exact ⟨⟨rfl, rfl⟩, rfl⟩
  | deploy a => obtain ⟨code, rfl⟩ := leads; exact ⟨⟨rfl, rfl⟩, rfl⟩
  | recordHash number word => obtain ⟨hashes, truths, rfl⟩ := leads; exact ⟨⟨rfl, rfl⟩, rfl⟩
  | credit | debit | transfer | sweep | push | pop | rollback => simp [Entry.keepsBalances] at h
  | write | touch | destroy => obtain rfl := leads; exact ⟨⟨rfl, rfl⟩, rfl⟩

theorem read_withSnapshots (j : Journal) (a : Address) (k : Int) (v : Rpc.Quantity)
    (snapshots : Snapshots) :
    (j.withSnapshots snapshots).read a k v = (j.read a k v).withSnapshots snapshots := by
  unfold read withSnapshots
  split <;> rfl

/-- Flat entries neither read nor change the snapshots. -/
theorem apply_withSnapshots {sources : Sources σ} {e : Entry} (he : e.isFlat = true)
    (j : Journal) (snapshots : Snapshots) :
    e.apply sources (j.withSnapshots snapshots) =
      (fun j => j.withSnapshots snapshots) <$> e.apply sources j := by
  apply Asking.ext
  intro s
  rw [Asking.outcome_map]
  cases e with
  | read a k v => simp only [Entry.apply, read_withSnapshots]; rfl
  | sweep a b =>
    simp only [Entry.apply]
    cases sources.baseline with
    | none => rfl
    | some source =>
      simp only [outcome_sweep, withSnapshots]
      rcases (Baselines.get source a).outcome (j.baselines, s) with ⟨_ | n, known, s'⟩
      · rfl
      · simp only [Except.map]
        split <;> rfl
  | reference a =>
    simp only [Entry.apply]
    cases sources.code with
    | none => rfl
    | some source =>
      simp only [outcome_reference, withSnapshots, Asking.outcome_map]
      cases j.preCode[a]? with
      | some code => rfl
      | none => rcases (source.before a).outcome s with ⟨_ | code, s'⟩ <;> rfl
  | deploy a =>
    simp only [Entry.apply]
    cases sources.code with
    | none => rfl
    | some source =>
      simp only [outcome_deploy, withSnapshots, Asking.outcome_map]
      rcases (source.after a).outcome s with ⟨_ | code, s'⟩ <;> rfl
  | recordHash number word =>
    simp only [Entry.apply, recordHash, Asking.outcome_ofExcept, withSnapshots]
    split <;> rfl
  | push | pop | rollback => simp [Entry.isFlat] at he
  | write | touch | credit | debit | transfer | destroy => rfl

/-- Makes the entries one after another. -/
def noteAll (sources : Sources σ) : List Entry → Journal → Asking σ Journal
  | [], j => pure j
  | e :: entries, j => do
    let j ← e.apply sources j
    noteAll sources entries j

theorem answers_noteAll {sources : Sources σ} (total : sources.Total) {entries : List Entry}
    (h : ∀ e ∈ entries, e.CanApply sources) (j : Journal) :
    (noteAll sources entries j).Answers := by
  induction entries generalizing j with
  | nil => exact Asking.answers_pure j
  | cons e entries ih =>
    obtain ⟨he, hrest⟩ := List.forall_mem_cons.1 h
    exact (Entry.answers_apply total he j).bind (ih hrest)

theorem noteAll_withSnapshots {sources : Sources σ} {entries : List Entry}
    (h : ∀ e ∈ entries, e.isFlat = true) (j : Journal) (snapshots : Snapshots) :
    noteAll sources entries (j.withSnapshots snapshots) =
      (fun j => j.withSnapshots snapshots) <$> noteAll sources entries j := by
  induction entries generalizing j with
  | nil => rfl
  | cons e entries ih =>
    obtain ⟨he, hrest⟩ := List.forall_mem_cons.1 h
    simp only [noteAll, apply_withSnapshots he, map_bind, bind_map_left, ih hrest]

/-- What every entry of a list preserves, the list preserves. -/
theorem noteAll_preserves {sources : Sources σ} {P : Journal → Prop} {entries : List Entry}
    (h : ∀ e ∈ entries, ∀ j j', e.Leads sources j j' → P j → P j') {j j' : Journal} {s s' : σ}
    (noted : (noteAll sources entries j).outcome s = (.ok j', s')) (start : P j) : P j' := by
  induction entries generalizing j s with
  | nil => exact Except.ok.inj (Prod.mk.inj noted).1 ▸ start
  | cons e entries ih =>
    obtain ⟨he, hrest⟩ := List.forall_mem_cons.1 h
    obtain ⟨j₁, s₁, first, noted⟩ := Asking.outcome_bind_eq_ok.1 noted
    exact ih hrest noted (he j j₁ (Entry.leads_of_apply first) start)

end Journal

end TraceDiff
