import TraceDiff.Proofs.Replay.Alignment

/-! A machine that follows balances alone, beside one that follows more. What only the other one
does is not seen by it, so that they stay side by side. -/
namespace TraceDiff

variable {σ τ : Type}

/-- The amounts alone. -/
def Ledger.bare (l : Ledger) : Ledger := { l with storage := ∅, code := ∅ }

@[simp] theorem Ledger.net_bare (l : Ledger) (a : Address) : l.bare.net a = l.net a := rfl

theorem Ledger.bare_eq {l l' : Ledger} (credits : l'.credits = l.credits)
    (debits : l'.debits = l.debits) : l'.bare = l.bare := by
  simp only [bare, credits, debits]

def Snapshots.bare (s : Snapshots) : Snapshots := { s with held := s.held.map Ledger.bare }

/-- No balance is known to be other than `holding` says. -/
def Baselines.KnownBy (holding : Address → Int) (b : Baselines) : Prop :=
  ∀ a n, b.known[a]? = some n → n = holding a

/-- The source tells the balances of `holding`, whatever else it does. -/
def BaselineSource.Gives (source : BaselineSource σ) (holding : Address → Int) : Prop :=
  ∀ a s, ∃ s', (source.one a).outcome s = (.ok (holding a), s')

/-- From states with `C`, which answers keep, sources tell no balances but those of `holding`. -/
structure Sources.Values (sources : Sources σ) (C : σ → Prop) (holding : Address → Int) : Prop where
  before : ∀ source ∈ sources.code, ∀ a s code s', C s →
    (source.before a).outcome s = (.ok code, s') → C s'
  after : ∀ source ∈ sources.code, ∀ a s code s', C s →
    (source.after a).outcome s = (.ok code, s') → C s'
  balance : ∀ source ∈ sources.baseline, ∀ a s n s', C s →
    (source.one a).outcome s = (.ok n, s') → n = holding a ∧ C s'

variable {sources : Sources σ} {source' : BaselineSource τ} {C : σ → Prop} {holding : Address → Int}

namespace Baselines

variable {b b' : Baselines} {a : Address} {n : Int} {s s' : σ}

theorem KnownBy.remember (h : b.KnownBy holding) (a : Address) :
    (b.remember a (holding a)).KnownBy holding := by
  intro a' n found
  rw [Baselines.remember, Std.ExtTreeMap.getElem?_insertIfNew] at found
  split at found
  · next here =>
    obtain rfl := Std.LawfulEqCmp.eq_of_compare here.1
    exact (Option.some.inj found).symm
  · exact h a' n found

theorem KnownBy.get {source : BaselineSource σ} (h : b.KnownBy holding)
    (told : ∀ s n s', C s → (source.one a).outcome s = (.ok n, s') → n = holding a ∧ C s') (c : C s)
    (got : (Baselines.get source a).outcome (b, s) = (.ok n, (b', s'))) :
    n = holding a ∧ b'.KnownBy holding ∧ C s' := by
  simp only [Baselines.get, Asking.outcome_ofOutcome] at got
  cases hk : b.known[a]? with
  | some known =>
    simp only [hk, Prod.mk.injEq, Except.ok.injEq] at got
    obtain ⟨rfl, rfl, rfl⟩ := got
    exact ⟨h a known hk, h, c⟩
  | none =>
    rcases answer : (source.one a).outcome s with ⟨_ | told', s₁⟩
    · simp [hk, answer] at got
    · obtain ⟨rfl, c'⟩ := told s told' s₁ c answer
      simp only [hk, answer, Prod.mk.injEq, Except.ok.injEq] at got
      obtain ⟨rfl, rfl, rfl⟩ := got
      exact ⟨rfl, h.remember a, c'⟩

theorem KnownBy.gives (h : b.KnownBy holding) (gives : source'.Gives holding) (a : Address)
    (t : τ) : ∃ b' t', (Baselines.get source' a).outcome (b, t) = (.ok (holding a), (b', t')) ∧
      b'.KnownBy holding := by
  simp only [Baselines.get, Asking.outcome_ofOutcome]
  cases hk : b.known[a]? with
  | some known => exact ⟨b, t, by rw [h a known hk], h⟩
  | none =>
    obtain ⟨t', answer⟩ := gives a t
    exact ⟨b.remember a (holding a), t', by simp only [answer], h.remember a⟩

end Baselines

namespace Journal

/-- The second journal keeps balances alone, the first one these and more. -/
structure SameBalances (holding : Address → Int) (j j' : Journal) : Prop where
  ledger : j'.ledger = j.ledger.bare
  snapshots : j'.snapshots = j.snapshots.bare
  preStorage : j'.preStorage = ∅
  preCode : j'.preCode = ∅
  known : j.baselines.KnownBy holding
  known' : j'.baselines.KnownBy holding

variable {j j' j₁ : Journal} {s s₁ : σ}

namespace SameBalances

theorem skip {e : Entry} (quiet : e.keepsBalances = true) (leads : e.Leads sources j j₁)
    (h : SameBalances holding j j') : SameBalances holding j₁ j' := by
  obtain ⟨⟨credits, debits⟩, baselines⟩ := Entry.balances_of_leads quiet leads
  have flat : e.isFlat = true := by cases e <;> first | rfl | exact quiet
  have snapshots := snapshots_of_leads flat leads
  exact ⟨h.ledger.trans (Ledger.bare_eq credits debits).symm, by rw [snapshots]; exact h.snapshots,
    h.preStorage, h.preCode, by rw [baselines]; exact h.known, h.known'⟩

theorem touch (a : Address) (h : SameBalances holding j j') :
    SameBalances holding (j.touch a) (j'.touch a) :=
  ⟨h.ledger, h.snapshots, h.preStorage, h.preCode, h.known, h.known'⟩

theorem debit (a : Address) (n : Int) (h : SameBalances holding j j') :
    SameBalances holding (j.debit a n) (j'.debit a n) :=
  ⟨congrArg (fun l : Ledger => l.debit a n) h.ledger, h.snapshots, h.preStorage, h.preCode, h.known,
    h.known'⟩

theorem credit (a : Address) (n : Int) (h : SameBalances holding j j') :
    SameBalances holding (j.credit a n) (j'.credit a n) :=
  ⟨congrArg (fun l : Ledger => l.credit a n) h.ledger, h.snapshots, h.preStorage, h.preCode,
    h.known, h.known'⟩

theorem transfer (a b : Address) (n : Int) (h : SameBalances holding j j') :
    SameBalances holding (j.transfer a b n) (j'.transfer a b n) := (h.debit a n).credit b n

theorem sweep (values : sources.Values C holding) (known : sources.baseline.isSome = true)
    (gives : source'.Gives holding) (a b : Address) (h : SameBalances holding j j') (c : C s)
    (swept : (j.sweep sources.baseline a b).outcome s = (.ok j₁, s₁)) (t : τ) :
    ∃ j₁' t₁, (j'.sweep (some source') a b).outcome t = (.ok j₁', t₁) ∧
      SameBalances holding j₁ j₁' ∧ C s₁ := by
  obtain ⟨source, hs⟩ := Option.isSome_iff_exists.1 known
  rw [hs, outcome_sweep] at swept
  rcases got : (Baselines.get source a).outcome (j.baselines, s) with ⟨_ | n, learnt, s₂⟩
  · simp [got] at swept
  · obtain ⟨rfl, right, c'⟩ := h.known.get (values.balance source hs a) c got
    obtain ⟨learnt', t₁, got', right'⟩ := h.known'.gives gives a t
    have net : j'.ledger.net a = j.ledger.net a := by rw [h.ledger]; rfl
    simp only [got, Prod.mk.injEq, Except.ok.injEq] at swept
    obtain ⟨rfl, rfl⟩ := swept
    refine ⟨_, t₁, by rw [outcome_sweep, got'], ?_, c'⟩
    have informed : SameBalances holding { j with baselines := learnt }
        { j' with baselines := learnt' } :=
      ⟨h.ledger, h.snapshots, h.preStorage, h.preCode, right, right'⟩
    simp only [net]
    split
    · exact informed.transfer a b _
    · exact informed

theorem returned (f : Frame) (l : Ledger) (older : List Ledger) (h : SameBalances holding j j') :
    SameBalances holding (j.returned f l older) (j'.returned f l.bare (older.map Ledger.bare)) := by
  unfold Journal.returned
  split
  · exact ⟨rfl, by simp only [undone, h.snapshots]; rfl, h.preStorage, h.preCode, h.known, h.known'⟩
  · exact ⟨h.ledger, by simp only [kept, h.snapshots]; rfl, h.preStorage, h.preCode, h.known,
      h.known'⟩

end SameBalances

end Journal

/-- What an entry asks for that keeps all balances keeps the outside as it is wanted. -/
theorem Sources.Values.apply (values : sources.Values C holding) {e : Journal.Entry}
    (quiet : e.keepsBalances = true) {j j₁ : Journal} {s s₁ : σ} (c : C s)
    (applied : (e.apply sources j).outcome s = (.ok j₁, s₁)) : C s₁ := by
  cases e with
  | reference a =>
    cases hs : sources.code with
    | none =>
      simp only [Journal.Entry.apply, hs] at applied
      exact (Prod.mk.inj applied).2 ▸ c
    | some source =>
      simp only [Journal.Entry.apply, hs, Asking.outcome_map, Journal.outcome_reference] at applied
      cases hk : j.preCode[a]? with
      | some code =>
        simp only [hk] at applied
        exact (Prod.mk.inj applied).2 ▸ c
      | none =>
        rcases asked : (source.before a).outcome s with ⟨f | code, s₂⟩
        · simp [hk, asked, Except.map] at applied
        · simp only [hk, asked, Prod.map] at applied
          exact (Prod.mk.inj applied).2 ▸ values.before source hs a s code s₂ c asked
  | deploy a =>
    cases hs : sources.code with
    | none =>
      simp only [Journal.Entry.apply, hs] at applied
      exact (Prod.mk.inj applied).2 ▸ c
    | some source =>
      simp only [Journal.Entry.apply, hs, Asking.outcome_map, Journal.outcome_deploy] at applied
      rcases asked : (source.after a).outcome s with ⟨f | code, s₂⟩
      · simp [asked, Except.map] at applied
      · simp only [asked, Prod.map] at applied
        exact (Prod.mk.inj applied).2 ▸ values.after source hs a s code s₂ c asked
  | credit | debit | transfer | sweep | push | pop | rollback =>
    simp [Journal.Entry.keepsBalances] at quiet
  | read | write | touch | destroy | recordHash => exact (Prod.mk.inj applied).2 ▸ c

namespace Replay

/-- The scope of a replay that follows balances alone. -/
def Scope.bare (scope : Scope) : Scope := { scope with observes := false, code := false }

namespace Effect

/-- The effects that a replay of balances alone has. -/
def isBare : Effect → Bool
  | note (.touch _) | note (.transfer _ _ _) | note (.sweep _ _) | enter _ _ _ | abort => true
  | _ => false

/-- The second effects are the first ones without some that keep all balances. -/
inductive Follows : List Effect → List Effect → Prop
  | nil : Follows [] []
  | same {e : Effect} {xs ys : List Effect} (bare : e.isBare = true) (more : Follows xs ys) :
    Follows (e :: xs) (e :: ys)
  | skip {e : Journal.Entry} {xs ys : List Effect} (quiet : e.keepsBalances = true)
    (more : Follows xs ys) : Follows (note e :: xs) ys

variable {xs ys xs' ys' effects : List Effect}

theorem Follows.append (h : Follows xs ys) (h' : Follows xs' ys') :
    Follows (xs ++ xs') (ys ++ ys') := by
  induction h with
  | nil => exact h'
  | same bare _ ih => exact .same bare ih
  | skip quiet _ ih => exact .skip quiet ih

theorem Notes.follows {kind : Journal.Entry → Prop} (notes : Notes kind effects)
    (h : ∀ e, kind e → e.keepsBalances = true) : Follows effects [] := by
  obtain ⟨entries, rfl, he⟩ := notes
  induction entries with
  | nil => exact .nil
  | cons e entries ih =>
    obtain ⟨first, rest⟩ := List.forall_mem_cons.1 he
    exact .skip (h e first) (ih rest)

theorem follows_skipIf {condition : Bool} {e : Journal.Entry} (quiet : e.keepsBalances = true) :
    Follows (noteIf condition e) [] := by
  cases condition with
  | false => exact .nil
  | true => exact .skip quiet .nil

theorem follows_noteIf {condition : Bool} {e : Journal.Entry} (bare : (note e).isBare = true) :
    Follows (noteIf condition e) (noteIf condition e) := by
  cases condition with
  | false => exact .nil
  | true => exact .same bare .nil

theorem keepsBalances_of_observes {e : Journal.Entry} (h : e.observes = true) :
    e.keepsBalances = true := by
  cases e <;> first | rfl | exact h

section Reading

variable {scope : Scope} {f : Frame} {o : Opcode} {r : Record} {later : List Record}

theorem follows_ofCall (read : ofCall scope f o r later = .ok effects) :
    ∃ ys, ofCall scope.bare f o r later = .ok ys ∧ Follows effects ys := by
  obtain ⟨word, value, hword, hvalue, rfl⟩ := ofCall_eq_ok.1 read
  refine ⟨_, ofCall_eq_ok.2 ⟨word, value, hword, hvalue, rfl⟩, ?_⟩
  exact ((follows_skipIf rfl).append (.same rfl .nil)).append (follows_noteIf rfl)

theorem follows_ofCreate (read : ofCreate scope f o r later = .ok effects) :
    ∃ ys, ofCreate scope.bare f o r later = .ok ys ∧ Follows effects ys := by
  obtain ⟨value, created, hvalue, looked, rfl⟩ := ofCreate_eq_ok.1 read
  refine ⟨_, ofCreate_eq_ok.2 ⟨value, created, hvalue, looked, rfl⟩, ?_⟩
  cases created with
  | none => exact .same rfl .nil
  | some a =>
    exact (Follows.append (.same rfl .nil) (follows_skipIf rfl)).append (follows_noteIf rfl)

theorem follows_ofSelfdestruct (read : ofSelfdestruct scope f r = .ok effects) :
    ∃ ys, ofSelfdestruct scope.bare f r = .ok ys ∧ Follows effects ys := by
  unfold ofSelfdestruct at read ⊢
  split at read
  · next placeholder =>
    obtain rfl := Except.ok.inj read
    exact ⟨[], by rw [if_pos placeholder], .nil⟩
  · next real =>
    obtain ⟨word, hword, read⟩ := bind_eq_ok.1 read
    obtain rfl := Except.ok.inj read
    refine ⟨_, (if_neg real).trans (bind_eq_ok.2 ⟨word, hword, rfl⟩), ?_⟩
    exact ((follows_noteIf rfl).append (.same rfl .nil)).append (follows_skipIf rfl)

theorem follows_ofObservation (read : ofObservation scope f o r later = .ok effects) :
    Follows effects [] := by
  by_cases writes : o = .sstore
  · subst writes
    obtain ⟨slot, -, read⟩ := bind_eq_ok.1 read
    obtain ⟨value, -, read⟩ := bind_eq_ok.1 read
    obtain rfl := Except.ok.inj read
    exact .skip rfl .nil
  · exact (notes_of_observation writes read).follows fun e he => keepsBalances_of_observes he.1

theorem follows_ofOpcode (read : ofOpcode scope f o r later = .ok effects) :
    ∃ ys, ofOpcode scope.bare f o r later = .ok ys ∧ Follows effects ys := by
  cases o with
  | revert | invalid =>
    obtain rfl := Except.ok.inj read
    exact ⟨[abort], rfl, .same rfl .nil⟩
  | call | callcode | delegatecall | staticcall => exact follows_ofCall read
  | create | create2 => exact follows_ofCreate read
  | selfdestruct => exact follows_ofSelfdestruct read
  | balance | extcodesize | extcodecopy | extcodehash | blockhash | selfbalance | sload | sstore =>
    refine ⟨[], rfl, ?_⟩
    simp only [ofOpcode, Opcode.aborts, Opcode.isCall, Opcode.isCreate, Bool.false_eq_true,
      if_false, reduceCtorEq] at read
    split at read
    · exact follows_ofObservation read
    · obtain rfl := Except.ok.inj read
      exact .nil

/-- What can be read off for a replay can be read off for one of balances alone, whose effects are
among those of the other. -/
theorem follows_ofRecord (read : ofRecord scope f r later = .ok effects) :
    ∃ ys, ofRecord scope.bare f r later = .ok ys ∧ Follows effects ys := by
  unfold ofRecord at read ⊢
  split at read
  · next erring =>
    obtain rfl := Except.ok.inj read
    exact ⟨_, if_pos erring, .same rfl .nil⟩
  · next fine =>
    rw [if_neg fine]
    obtain ⟨named, hnamed, read⟩ := bind_eq_ok.1 read
    cases named with
    | none =>
      obtain rfl := Except.ok.inj read
      exact ⟨[], bind_eq_ok.2 ⟨none, hnamed, rfl⟩, .nil⟩
    | some o =>
      obtain ⟨ys, read', follows⟩ := follows_ofOpcode read
      exact ⟨ys, bind_eq_ok.2 ⟨some o, hnamed, read'⟩, follows⟩

end Reading

end Effect

/-- The second machine follows balances alone beside the first one. -/
structure Machine.SameBalances (holding : Address → Int) (m m' : Machine) : Prop where
  journal : m.journal.SameBalances holding m'.journal
  frames : m'.frames = m.frames
  root : m'.rootLedger = m.rootLedger.map Ledger.bare
  aborted : m'.rootAborted = m.rootAborted
  visited : m'.visited = m.visited

namespace Machine.SameBalances

variable {m m' m₁ : Machine} {s s₁ : σ}

theorem settle {j j' j₁ : Journal} {closed : List Frame}
    (settled : Machine.settle j closed = .ok j₁) (h : j.SameBalances holding j') :
    ∃ j₁', Machine.settle j' closed = .ok j₁' ∧ j₁.SameBalances holding j₁' := by
  induction closed generalizing j j' with
  | nil =>
    obtain rfl := Except.ok.inj settled
    exact ⟨j', rfl, h⟩
  | cons f closed ih =>
    obtain ⟨l, older, held, settled⟩ := Machine.settle_cons_eq_ok settled
    have held' : j'.snapshots.held = l.bare :: older.map Ledger.bare := by
      rw [h.snapshots, Snapshots.bare, held]
      rfl
    obtain ⟨j₁', settled', same⟩ := ih settled (h.returned f l older)
    exact ⟨j₁', by rw [settle_cons_of_held held', settled'], same⟩

theorem returnTo {depth : Int} (returned : m.returnTo depth = .ok m₁)
    (h : m.SameBalances holding m') :
    ∃ m₁', m'.returnTo depth = .ok m₁' ∧ m₁.SameBalances holding m₁' := by
  obtain ⟨j, settled, rfl⟩ := Machine.returnTo_eq_ok returned
  obtain ⟨j', settled', same⟩ := settle settled h.journal
  refine ⟨{ m' with frames := (m'.frames.unwind depth).2, journal := j' }, ?_, same, ?_, h.root,
    h.aborted, h.visited⟩
  · simp only [Machine.returnTo, h.frames, settled']
    rfl
  · simp only [h.frames]

theorem arrive {r : Record} (arrived : m.arrive r = .ok m₁) (h : m.SameBalances holding m') :
    ∃ m₁', m'.arrive r = .ok m₁' ∧ m₁.SameBalances holding m₁' := by
  obtain ⟨bounded, m₂, returned, rfl⟩ := Machine.arrive_eq_ok arrived
  obtain ⟨m₂', returned', same⟩ := h.returnTo returned
  refine ⟨m₂'.visit, ?_, same.journal, same.frames, same.root, same.aborted, ?_⟩
  · have bounded' : r.depth ≤ m'.depth := by rwa [Machine.depth, h.frames]
    rw [arrive_of_le bounded', returned']
    rfl
  · simp only [Machine.visit, same.frames, same.visited]

theorem abortRoot (h : m.SameBalances holding m') :
    m.abortRoot.SameBalances holding m'.abortRoot := by
  unfold Machine.abortRoot
  rw [h.aborted]
  split
  · exact h
  · refine ⟨⟨?_, h.journal.snapshots, h.journal.preStorage, h.journal.preCode, h.journal.known,
      h.journal.known'⟩, h.frames, h.root, rfl, h.visited⟩
    simp only [h.root, h.journal.ledger]
    cases m.rootLedger <;> rfl

theorem abort (aborted : m.abort = .ok m₁) (h : m.SameBalances holding m') :
    ∃ m₁', m'.abort = .ok m₁' ∧ m₁.SameBalances holding m₁' := by
  rcases Machine.abort_eq_ok aborted with ⟨bottom, rfl⟩ | ⟨f, outer, l, older, inner, held, rfl⟩
  · exact ⟨m'.abortRoot, abort_of_root (by rw [h.frames, bottom]), h.abortRoot⟩
  · have held' : m'.journal.snapshots.held = l.bare :: older.map Ledger.bare := by
      rw [h.journal.snapshots, Snapshots.bare, held]
      rfl
    refine ⟨{ m' with
      frames := { m'.frames with inner := outer }
      journal := m'.journal.undone l.bare (older.map Ledger.bare) }, ?_, ?_, ?_, h.root, h.aborted,
      h.visited⟩
    · simp only [Machine.abort, CallStack.leave, h.frames, inner, Journal.rollback_of_held held']
      rfl
    · exact ⟨rfl, by simp only [Journal.undone, h.journal.snapshots]; rfl, h.journal.preStorage,
        h.journal.preCode, h.journal.known, h.journal.known'⟩
    · simp only [h.frames]

theorem enter (o : Opcode) (a : Address) (p : Bool) (h : m.SameBalances holding m') :
    (m.enter o a p).SameBalances holding (m'.enter o a p) := by
  refine ⟨⟨h.journal.ledger, ?_, h.journal.preStorage, h.journal.preCode, h.journal.known,
    h.journal.known'⟩, ?_, h.root, h.aborted, h.visited⟩
  · simp only [Machine.enter, Journal.push, h.journal.snapshots, h.journal.ledger]
    rfl
  · simp only [Machine.enter, h.frames]

theorem anchor (h : m.SameBalances holding m') :
    (Replay.anchor m).SameBalances holding (Replay.anchor m') := by
  refine ⟨h.journal, h.frames, ?_, h.aborted, h.visited⟩
  simp only [Replay.anchor, h.root, h.journal.ledger]
  cases m.rootLedger <;> rfl

end Machine.SameBalances

section Running

variable {m m' m₁ : Machine} {s s₁ : σ} {balancesOnly : Bool} {records : List Record}

theorem scopeOf_bare (source' : BaselineSource τ) (known : sources.baseline.isSome = true) :
    (scopeOf sources balancesOnly).bare =
      scopeOf ({ baseline := some source' } : Sources τ) true := by
  simp [Scope.bare, scopeOf, known]

/-- An effect that keeps all balances does not show in the other machine. -/
theorem sameBalances_skip (values : sources.Values C holding) {e : Journal.Entry}
    (quiet : e.keepsBalances = true) (h : m.SameBalances holding m') (c : C s)
    (done : (perform sources (.note e)).outcome (m, s) = (.ok (), (m₁, s₁))) :
    m₁.SameBalances holding m' ∧ C s₁ := by
  simp only [perform, Asking.outcome_ofOutcome] at done
  rcases applied : (m.apply sources (.note e)).outcome s with ⟨_ | m₂, s₂⟩
  · simp [applied] at done
  · simp only [applied, Prod.mk.injEq] at done
    obtain ⟨-, rfl, rfl⟩ := done
    obtain ⟨j, noted, rfl⟩ := Machine.apply_note_eq_ok.1 applied
    exact ⟨⟨h.journal.skip quiet (Journal.Entry.leads_of_apply noted), h.frames, h.root, h.aborted,
      h.visited⟩, values.apply quiet c noted⟩

variable (values : sources.Values C holding) (known : sources.baseline.isSome = true)
  (gives : source'.Gives holding)

include values known gives

/-- One that balances depend on does the same to both machines. -/
theorem sameBalances_perform {e : Effect} (bare : e.isBare = true)
    (h : m.SameBalances holding m') (c : C s)
    (done : (perform sources e).outcome (m, s) = (.ok (), (m₁, s₁))) (t : τ) :
    ∃ m₁' t₁, (perform { baseline := some source' } e).outcome (m', t) = (.ok (), (m₁', t₁)) ∧
      m₁.SameBalances holding m₁' ∧ C s₁ := by
  simp only [perform, Asking.outcome_ofOutcome] at done ⊢
  rcases applied : (m.apply sources e).outcome s with ⟨_ | m₂, s₂⟩
  · simp [applied] at done
  · simp only [applied, Prod.mk.injEq] at done
    obtain ⟨-, rfl, rfl⟩ := done
    suffices same : ∃ m₁' t₁,
        (m'.apply { baseline := some source' } e).outcome t = (.ok m₁', t₁) ∧
          m₂.SameBalances holding m₁' ∧ C s₂ by
      obtain ⟨m₁', t₁, applied', same, c'⟩ := same
      exact ⟨m₁', t₁, by rw [applied'], same, c'⟩
    cases e with
    | enter o a p =>
      obtain ⟨hm, rfl⟩ := Prod.mk.inj applied
      obtain rfl := Except.ok.inj hm
      exact ⟨_, t, rfl, h.enter o a p, c⟩
    | abort =>
      obtain ⟨aborted, rfl⟩ := Prod.mk.inj applied
      obtain ⟨m₁', aborted', same⟩ := h.abort aborted
      exact ⟨m₁', t, by rw [Machine.apply, Asking.outcome_ofExcept, aborted'], same, c⟩
    | note entry =>
      obtain ⟨j, noted, rfl⟩ := Machine.apply_note_eq_ok.1 applied
      have follow {j' : Journal} {t₁ : τ} (same : j.SameBalances holding j')
          (noted' : (entry.apply { baseline := some source' } m'.journal).outcome t =
            (.ok j', t₁)) (c' : C s₂) : ∃ m₁' t₁,
          (m'.apply { baseline := some source' } (.note entry)).outcome t = (.ok m₁', t₁) ∧
            ({ m with journal := j } : Machine).SameBalances holding m₁' ∧ C s₂ :=
        ⟨{ m' with journal := j' }, t₁, Machine.apply_note_eq_ok.2 ⟨j', noted', rfl⟩,
          ⟨same, h.frames, h.root, h.aborted, h.visited⟩, c'⟩
      cases entry with
      | touch a =>
        obtain ⟨hj, rfl⟩ := Prod.mk.inj noted
        obtain rfl := Except.ok.inj hj
        exact follow (h.journal.touch a) rfl c
      | transfer a b n =>
        obtain ⟨hj, rfl⟩ := Prod.mk.inj noted
        obtain rfl := Except.ok.inj hj
        exact follow (h.journal.transfer a b n) rfl c
      | sweep a b =>
        obtain ⟨j', t₁, swept', same, c'⟩ := h.journal.sweep values known gives a b c noted t
        exact follow same swept' c'
      | _ => simp [Effect.isBare] at bare

theorem sameBalances_performAll {xs ys : List Effect} (follows : Effect.Follows xs ys)
    (h : m.SameBalances holding m') (c : C s)
    (done : (performAll sources xs).outcome (m, s) = (.ok (), (m₁, s₁))) (t : τ) :
    ∃ m₁' t₁, (performAll { baseline := some source' } ys).outcome (m', t) = (.ok (), (m₁', t₁)) ∧
      m₁.SameBalances holding m₁' ∧ C s₁ := by
  induction follows generalizing m m' s t with
  | nil =>
    obtain ⟨rfl, rfl⟩ := Prod.mk.inj (Prod.mk.inj done).2
    exact ⟨m', t, rfl, h, c⟩
  | same bare _ ih =>
    obtain ⟨_, ⟨m₂, s₂⟩, first, rest⟩ := Asking.outcome_bind_eq_ok.1 done
    obtain ⟨m₂', t₂, first', same, c'⟩ := sameBalances_perform values known gives bare h c first t
    obtain ⟨m₁', t₁, rest', same, c'⟩ := ih same c' rest t₂
    exact ⟨m₁', t₁, Asking.outcome_bind_eq_ok.2 ⟨(), (m₂', t₂), first', rest'⟩, same, c'⟩
  | skip quiet _ ih =>
    obtain ⟨_, ⟨m₂, s₂⟩, first, rest⟩ := Asking.outcome_bind_eq_ok.1 done
    obtain ⟨same, c'⟩ := sameBalances_skip values quiet h c first
    exact ih same c' rest t

/-- A record that is replayed is replayed for balances alone, with the same balances. -/
theorem sameBalances_step {i : Nat} {r : Record} {later : List Record}
    (h : m.SameBalances holding m') (c : C s)
    (done : (step sources balancesOnly i r later).outcome (m, s) = (.ok (), (m₁, s₁))) (t : τ) :
    ∃ m₁' t₁, (step { baseline := some source' } true i r later).outcome (m', t) =
        (.ok (), (m₁', t₁)) ∧ m₁.SameBalances holding m₁' ∧ C s₁ := by
  obtain ⟨m₂, effects, arrived, read, performed⟩ := step_eq_ok.1 done
  obtain ⟨m₂', arrived', same⟩ := h.arrive arrived
  obtain ⟨ys, read', follows⟩ := Effect.follows_ofRecord read
  rw [scopeOf_bare source' known, CallStack.top, ← same.frames] at read'
  obtain ⟨m₁', t₁, performed', same, c'⟩ :=
    sameBalances_performAll values known gives follows same c performed t
  exact ⟨m₁', t₁, step_eq_ok.2 ⟨m₂', ys, arrived', read', performed'⟩, same, c'⟩

theorem sameBalances_steps {i : Nat} (h : m.SameBalances holding m') (c : C s)
    (ran : (steps sources balancesOnly i records).outcome (m, s) = (.ok (), (m₁, s₁))) (t : τ) :
    ∃ m₁' t₁, (steps { baseline := some source' } true i records).outcome (m', t) =
        (.ok (), (m₁', t₁)) ∧ m₁.SameBalances holding m₁' ∧ C s₁ := by
  induction records generalizing i m m' s t with
  | nil =>
    obtain ⟨rfl, rfl⟩ := Prod.mk.inj (Prod.mk.inj ran).2
    exact ⟨m', t, rfl, h, c⟩
  | cons r later ih =>
    obtain ⟨_, ⟨m₂, s₂⟩, done, ran⟩ := Asking.outcome_bind_eq_ok.1 ran
    obtain ⟨m₂', t₂, done', same, c'⟩ := sameBalances_step values known gives h c done t
    obtain ⟨m₁', t₁, ran', same, c'⟩ := ih same c' ran t₂
    exact ⟨m₁', t₁, Asking.outcome_bind_eq_ok.2 ⟨(), (m₂', t₂), done', ran'⟩, same, c'⟩

/-- A replay that completes does so for balances alone, with the same balances. -/
theorem sameBalances_replay {failed : Bool} (h : m.SameBalances holding m') (c : C s)
    (done : (replay sources balancesOnly records failed).outcome (m, s) = (.ok (), (m₁, s₁)))
    (t : τ) :
    ∃ m₁' t₁, (replay { baseline := some source' } true records failed).outcome (m', t) =
        (.ok (), (m₁', t₁)) ∧ m₁.SameBalances holding m₁' ∧ C s₁ := by
  obtain ⟨m₂, ran, finished⟩ := replay_eq_ok.1 done
  obtain ⟨m₃, returned, rfl⟩ := finish_eq_ok.1 finished
  obtain ⟨m₂', t₂, ran', same, c'⟩ := sameBalances_steps values known gives h.anchor c ran t
  obtain ⟨m₃', returned', same⟩ := same.returnTo returned
  refine ⟨if failed then m₃'.abortRoot else m₃', t₂,
    replay_eq_ok.2 ⟨m₂', ran', finish_eq_ok.2 ⟨m₃', returned', rfl⟩⟩, ?_, c'⟩
  split
  · exact same.abortRoot
  · exact same

end Running

end Replay

end TraceDiff
