import TraceDiff.Proofs.Replay.Observations

/-! Pushes and the entries that settle them. Entries are made one after another, and those that fail
are passed over. The entry that settles a push finds on top of the stack the ledger of that push,
whatever was pushed and settled in between: a rollback goes back to it and a return hands it out. The
snapshots under it are those of the push, and everything observed since then stays. -/
namespace TraceDiff.Journal

variable {σ : Type} {sources : Sources σ} {entries : List Entry} {w : Journal × σ}

/-- Makes one entry. An entry that fails leaves the journal as it was. -/
def note (sources : Sources σ) (e : Entry) : Asking (Journal × σ) Unit :=
  .ofOutcome fun (j, s) =>
    match (e.apply sources j).outcome s with
    | (.ok j', s') => (.ok (), (j', s'))
    | (.error f, s') => (.error f, (j, s'))

/-- What there is once the first `n` entries were made, whether or not they came through. -/
def after (sources : Sources σ) (entries : List Entry) (w : Journal × σ) : Nat → Journal × σ
  | 0 => w
  | n + 1 =>
    match entries[n]? with
    | some e => ((note sources e).outcome (after sources entries w n)).2
    | none => after sources entries w n

/-- How many snapshots are held after the first `n` entries. -/
def height (sources : Sources σ) (entries : List Entry) (w : Journal × σ) (n : Nat) : Nat :=
  (after sources entries w n).1.snapshots.held.length

/-- The entry at `k` settles the push at `i`: up to it the stack never drops below its height right
after the push, and there it is back at that height. -/
structure Settles (sources : Sources σ) (entries : List Entry) (w : Journal × σ) (i k : Nat) :
    Prop where
  push : entries[i]? = some .push
  settling : entries[k]? = some .pop ∨ entries[k]? = some .rollback
  later : i < k
  above : ∀ n ≤ k, i < n → height sources entries w (i + 1) ≤ height sources entries w n
  level : height sources entries w k = height sources entries w (i + 1)

section Note

variable {e : Entry} {j : Journal} {s : σ} {l : Ledger} {older base : List Ledger}

theorem note_pop (h : j.snapshots.held = l :: older) :
    (note sources .pop).outcome (j, s) = (.ok (), (j.kept older, s)) := by
  simp only [note, Asking.outcome_ofOutcome, Entry.apply, pop_of_held h]
  rfl

theorem note_rollback (h : j.snapshots.held = l :: older) :
    (note sources .rollback).outcome (j, s) = (.ok (), (j.undone l older, s)) := by
  simp only [note, Asking.outcome_ofOutcome, Entry.apply, rollback_of_held h]
  rfl

theorem note_pop_of_empty (h : j.snapshots.held = []) : (note sources .pop).outcome (j, s) =
    (.error (.malformed { defect := .noSnapshotToDrop }), (j, s)) := by
  simp only [note, Asking.outcome_ofOutcome, Entry.apply, pop, Snapshots.pop, h]
  rfl

theorem note_rollback_of_empty (h : j.snapshots.held = []) :
    (note sources .rollback).outcome (j, s) =
      (.error (.malformed { defect := .noSnapshotToRestore }), (j, s)) := by
  simp only [note, Asking.outcome_ofOutcome, Entry.apply, rollback, Snapshots.rollback, h]
  rfl

/-- One entry takes at most the newest snapshot, adds at most the present ledger as one, and undoes
no observation. -/
theorem note_cases (sources : Sources σ) (e : Entry) (j : Journal) (s : σ) :
    let j' := ((note sources e).outcome (j, s)).2.1
    (j'.snapshots.held = j.snapshots.held ∨ j'.snapshots.held = j.ledger :: j.snapshots.held ∨
      j'.snapshots.held = j.snapshots.held.tail) ∧ j.observations.Grow j'.observations := by
  intro j'
  by_cases flat : e.isFlat = true
  · rcases applied : (e.apply sources j).outcome s with ⟨f | j₁, s₁⟩
    · have same : j' = j := by simp [j', note, applied]
      rw [same]
      exact ⟨.inl rfl, .refl _⟩
    · have made : j' = j₁ := by simp [j', note, applied]
      have snapshots := snapshots_of_leads flat (Entry.leads_of_apply applied)
      rw [made, snapshots]
      exact ⟨.inl rfl, Entry.grow_of_apply flat applied⟩
  · cases e with
    | push => exact ⟨.inr (.inl rfl), .refl _⟩
    | pop =>
      cases held : j.snapshots.held with
      | nil =>
        have same : j' = j := by simp [j', note_pop_of_empty held]
        rw [same, held]
        exact ⟨.inl rfl, .refl _⟩
      | cons l older =>
        have made : j' = j.kept older := by simp [j', note_pop held]
        rw [made]
        exact ⟨.inr (.inr rfl), .refl _⟩
    | rollback =>
      cases held : j.snapshots.held with
      | nil =>
        have same : j' = j := by simp [j', note_rollback_of_empty held]
        rw [same, held]
        exact ⟨.inl rfl, .refl _⟩
      | cons l older =>
        have made : j' = j.undone l older := by simp [j', note_rollback held]
        rw [made]
        exact ⟨.inr (.inr rfl), .refl _⟩
    | _ => exact absurd rfl flat

/-- A stack that does not drop below snapshots it stands on keeps standing on them. -/
theorem suffix_of_note (h : base <:+ j.snapshots.held)
    (deep : base.length ≤ ((note sources e).outcome (j, s)).2.1.snapshots.held.length) :
    base <:+ ((note sources e).outcome (j, s)).2.1.snapshots.held := by
  obtain ⟨same | added | taken, -⟩ := note_cases sources e j s
  · rwa [same]
  · rw [added]
    exact h.trans (List.suffix_cons _ _)
  · rw [taken] at deep ⊢
    cases held : j.snapshots.held with
    | nil => rwa [held] at h
    | cons l older =>
      rw [held] at h deep
      rcases List.suffix_cons_iff.1 h with whole | below
      -- a stack of the base alone would drop below it
      · rw [whole, List.tail_cons, List.length_cons] at deep
        omega
      · exact below

end Note

section Run

variable {i k m n : Nat} {e : Entry} {base : List Ledger}

theorem after_succ (here : entries[n]? = some e) :
    after sources entries w (n + 1) = ((note sources e).outcome (after sources entries w n)).2 := by
  rw [after, here]

theorem grow_of_after (le : m ≤ n) : (after sources entries w m).1.observations.Grow
    (after sources entries w n).1.observations := by
  induction le with
  | refl => exact .refl _
  | @step n le ih =>
    cases here : entries[n]? with
    | none => rwa [after, here]
    | some e =>
      rw [after_succ here]
      exact ih.trans (note_cases sources e _ _).2

/-- The heights alone decide what stays on the stack, whatever the entries are. -/
theorem suffix_of_after (le : i ≤ n) (start : base <:+ (after sources entries w i).1.snapshots.held)
    (deep : ∀ m ≤ n, i < m → base.length ≤ height sources entries w m) :
    base <:+ (after sources entries w n).1.snapshots.held := by
  induction le with
  | refl => exact start
  | @step n le ih =>
    have below := ih fun m before => deep m (Nat.le_succ_of_le before)
    have high := deep (n + 1) (Nat.le_refl _) (Nat.lt_succ_of_le le)
    unfold height at high
    cases here : entries[n]? with
    | none => rwa [after, here]
    | some e =>
      rw [after_succ here] at high ⊢
      exact suffix_of_note below high

/-- Where a push is settled, the newest snapshot is its own, and those under it are the older ones. -/
theorem held_of_settles (settles : Settles sources entries w i k) :
    (after sources entries w k).1.snapshots.held =
      (after sources entries w i).1.ledger :: (after sources entries w i).1.snapshots.held := by
  let base := (after sources entries w i).1.ledger :: (after sources entries w i).1.snapshots.held
  have pushed : (after sources entries w (i + 1)).1.snapshots.held = base := by
    rw [after_succ settles.push]
    rfl
  have tall : height sources entries w (i + 1) = base.length := congrArg List.length pushed
  have stands : base <:+ (after sources entries w k).1.snapshots.held := by
    refine suffix_of_after settles.later (pushed ▸ List.suffix_refl _) fun n le past => ?_
    rw [← tall]
    exact settles.above n le (Nat.lt_of_succ_lt past)
  have level : base.length = (after sources entries w k).1.snapshots.held.length :=
    tall.symm.trans settles.level.symm
  exact (stands.eq_of_length level).symm

end Run

/-- A rollback that settles a push goes back to the ledger of the push, and a return that does
hands it out and leaves the ledger as it is. Either way the older snapshots are held again as they
were at the push, and what was observed at any point since then stays. With no snapshot held both
find fault with the trace, and change nothing. -/
theorem ledger_of_settles (sources : Sources σ) (entries : List Entry) (w : Journal × σ) :
    let journal (n : Nat) := (after sources entries w n).1
    (∀ i k, Settles sources entries w i k →
      (entries[k]? = some .rollback → (journal k).rollback = .ok (journal (k + 1)) ∧
        (journal (k + 1)).ledger = (journal i).ledger) ∧
      (entries[k]? = some .pop → (journal k).pop = .ok ((journal i).ledger, journal (k + 1)) ∧
        (journal (k + 1)).ledger = (journal k).ledger) ∧
      (journal (k + 1)).snapshots.held = (journal i).snapshots.held ∧
      ∀ n, i ≤ n → n ≤ k → (journal n).observations.Grow (journal (k + 1)).observations) ∧
    ∀ n, (journal n).snapshots.held = [] →
      (entries[n]? = some .pop → (note sources .pop).outcome (after sources entries w n) =
          (.error (.malformed { defect := .noSnapshotToDrop }), after sources entries w n) ∧
        journal (n + 1) = journal n) ∧
      (entries[n]? = some .rollback → (note sources .rollback).outcome (after sources entries w n) =
          (.error (.malformed { defect := .noSnapshotToRestore }), after sources entries w n) ∧
        journal (n + 1) = journal n) := by
  intro journal
  refine ⟨fun i k settles => ?_, fun n none => ⟨fun here => ?_, fun here => ?_⟩⟩
  · have held : (journal k).snapshots.held = (journal i).ledger :: (journal i).snapshots.held :=
      held_of_settles settles
    have rolledBack (here : entries[k]? = some .rollback) :
        journal (k + 1) = (journal k).undone (journal i).ledger (journal i).snapshots.held := by
      simp only [journal, after_succ here]
      rw [note_rollback held]
    have dropped (here : entries[k]? = some .pop) :
        journal (k + 1) = (journal k).kept (journal i).snapshots.held := by
      simp only [journal, after_succ here]
      rw [note_pop held]
    refine ⟨fun here => ?_, fun here => ?_, ?_, fun n since before => ?_⟩
    · rw [rolledBack here]
      exact ⟨rollback_of_held held, rfl⟩
    · rw [dropped here]
      exact ⟨pop_of_held held, rfl⟩
    · rcases settles.settling with here | here
      · rw [dropped here]
        rfl
      · rw [rolledBack here]
        rfl
    · exact grow_of_after (Nat.le_succ_of_le before)
  · have refused : (note sources .pop).outcome (after sources entries w n) =
        (.error (.malformed { defect := .noSnapshotToDrop }), after sources entries w n) :=
      note_pop_of_empty none
    refine ⟨refused, ?_⟩
    simp only [journal, after_succ here]
    rw [refused]
  · have refused : (note sources .rollback).outcome (after sources entries w n) =
        (.error (.malformed { defect := .noSnapshotToRestore }), after sources entries w n) :=
      note_rollback_of_empty none
    refine ⟨refused, ?_⟩
    simp only [journal, after_succ here]
    rw [refused]

/-- Every account had one byte of code before, and no code afterwards can be fetched. -/
def nothingDeployed : Sources Unit :=
  { code := some {
      before := fun _ => pure [96]
      after := fun a => .fail (.chain (.codeFailed a.text "offline")) } }

/-- Two pushes inside another one, the first rolled back and the second dropped, with an entry that
fails in it. The return in front of them all finds no snapshot. -/
def nestedPushes : List Entry :=
  [.pop, .write (.ofNat 1) 1 (.ofInt 1), .push, .write (.ofNat 1) 1 (.ofInt 2),
    .read (.ofNat 1) 5 (.ofInt 7), .push, .credit (.ofNat 2) 3, .rollback, .push,
    .reference (.ofNat 2), .deploy (.ofNat 2), .pop, .destroy (.ofNat 1), .rollback]

theorem ledger_of_settles_nestedPushes :
    let journal (n : Nat) := (after nothingDeployed nestedPushes ({}, ()) n).1
    Settles nothingDeployed nestedPushes ({}, ()) 2 13 ∧
      (journal 13).ledger.storage.get? (.ofNat 1) 1 = some (.ofInt 2) ∧
      (journal 14).ledger.storage.get? (.ofNat 1) 1 = some (.ofInt 1) ∧
      (journal 14).preStorage.get? (.ofNat 1) 5 = some (.ofInt 7) ∧
      Settles nothingDeployed nestedPushes ({}, ()) 8 11 ∧
      (journal 11).pop = .ok ((journal 8).ledger, journal 12) ∧ journal 1 = journal 0 := by
  intro journal
  have outer : Settles nothingDeployed nestedPushes ({}, ()) 2 13 :=
    ⟨rfl, .inr rfl, by decide, by decide +kernel, by decide +kernel⟩
  have inner : Settles nothingDeployed nestedPushes ({}, ()) 8 11 :=
    ⟨rfl, .inl rfl, by decide, by decide +kernel, by decide +kernel⟩
  obtain ⟨settled, refused⟩ := ledger_of_settles nothingDeployed nestedPushes ({}, ())
  obtain ⟨undone, -, -, kept⟩ := settled 2 13 outer
  obtain ⟨-, handed, -⟩ := settled 8 11 inner
  have before : (journal 2).ledger.storage.get? (.ofNat 1) 1 = some (.ofInt 1) := by
    decide +kernel
  have read : (journal 5).preStorage.get? (.ofNat 1) 5 = some (.ofInt 7) := by decide +kernel
  refine ⟨outer, by decide +kernel, ?_, ?_, inner, (handed rfl).1, ((refused 0 rfl).1 rfl).2⟩
  · show (journal 14).ledger.storage.get? (.ofNat 1) 1 = some (.ofInt 1)
    rw [(undone rfl).2]
    exact before
  · exact (kept 5 (by decide) (by decide)).preStorage _ _ _ read

end TraceDiff.Journal
