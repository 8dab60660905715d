import TraceDiff.Proofs.FrameTree.Records
import TraceDiff.Proofs.Replay.Invariants

/-! Frames and snapshots are two stacks that are changed one after the other. They stay of one
height, so no frame is left whose snapshot is missing. What a replay can fail with is then told by
its records and by the answers it gets. -/
namespace TraceDiff

variable {σ α β : Type} {sources : Sources σ} {balancesOnly : Bool}

theorem Journal.balanced_returned {j : Journal} {l : Ledger} {older : List Ledger} (f : Frame)
    (held : j.snapshots.held = l :: older) (h : j.snapshots.Balanced) :
    (j.returned f l older).snapshots.Balanced := by
  unfold returned
  split <;> simp only [undone, kept, Snapshots.Balanced, held, List.length_cons] at * <;> omega

/-- All faults that answers can be are of a kind. -/
structure Sources.FailWith (sources : Sources σ) (kind : Fault → Prop) : Prop where
  before : ∀ source ∈ sources.code, ∀ a s f s',
    (source.before a).outcome s = (.error f, s') → kind f
  after : ∀ source ∈ sources.code, ∀ a s f s',
    (source.after a).outcome s = (.error f, s') → kind f
  balance : ∀ source ∈ sources.baseline, ∀ a s f s',
    (source.one a).outcome s = (.error f, s') → kind f

theorem Sources.Total.failWith (total : sources.Total) : sources.FailWith fun _ => False where
  before source hs a s f s' failed := by
    obtain ⟨code, s₁, answered⟩ := total.before source hs a s
    nomatch answered.symm.trans failed
  after source hs a s f s' failed := by
    obtain ⟨code, s₁, answered⟩ := total.after source hs a s
    nomatch answered.symm.trans failed
  balance source hs a s f s' failed := by
    obtain ⟨n, s₁, answered⟩ := total.balance source hs a s
    nomatch answered.symm.trans failed

/-- From an outside with `C` the sources leave one, and all their faults are of a kind. -/
structure Sources.Safe (sources : Sources σ) (C : σ → Prop) (kind : Fault → Prop) : Prop where
  before : ∀ source ∈ sources.code, ∀ a, (source.before a).Safe C (fun _ => True) kind
  after : ∀ source ∈ sources.code, ∀ a, (source.after a).Safe C (fun _ => True) kind
  balance : ∀ source ∈ sources.baseline, ∀ a, (source.one a).Safe C (fun _ => True) kind

theorem Asking.safe_of_faults {p : Asking σ α} {kind : Fault → Prop}
    (h : ∀ s f s', p.outcome s = (.error f, s') → kind f) :
    p.Safe (fun _ => True) (fun _ => True) kind := by
  intro s _
  refine ⟨trivial, ?_⟩
  cases made : (p.outcome s).1 with
  | ok a => exact trivial
  | error f => exact h s f _ (Prod.ext made rfl)

theorem Sources.FailWith.safe {kind : Fault → Prop} (answer : sources.FailWith kind) :
    sources.Safe (fun _ => True) kind where
  before source hs a := Asking.safe_of_faults (answer.before source hs a)
  after source hs a := Asking.safe_of_faults (answer.after source hs a)
  balance source hs a := Asking.safe_of_faults (answer.balance source hs a)

theorem Baselines.safe_get {source : BaselineSource σ} {a : Address} {C : σ → Prop}
    {kind : Fault → Prop} (safe : (source.one a).Safe C (fun _ => True) kind) :
    (Baselines.get source a).Safe (Both (fun _ => True) C) (fun _ => True) kind := by
  rintro ⟨b, s⟩ ⟨-, hs⟩
  simp only [Baselines.get, Asking.outcome_ofOutcome]
  cases b.known[a]? with
  | some n => exact ⟨⟨trivial, hs⟩, trivial⟩
  | none =>
    obtain ⟨kept, within⟩ := safe s hs
    rcases asked : (source.one a).outcome s with ⟨f | n, s₁⟩
    · rw [asked] at kept within
      exact ⟨⟨trivial, kept⟩, within⟩
    · rw [asked] at kept
      exact ⟨⟨trivial, kept⟩, trivial⟩

/-- An entry that a record makes fails when an answer does, or for a word that is out of range. -/
theorem Journal.Entry.safe_apply {C : σ → Prop} {kind : Fault → Prop} {later : List Record}
    {e : Entry} (answer : sources.Safe C kind)
    (word : (∀ r ∈ later, ∀ q ∈ r.stack, Word.Fits q.value) ∨ kind .outOfWord)
    (makes : Replay.Effect.Makes (Replay.scopeOf sources balancesOnly) later e) (j : Journal) :
    (e.apply sources j).Safe C (fun _ => True) kind := by
  obtain ⟨recorded, grounded⟩ := makes
  cases e with
  | sweep a b =>
    obtain ⟨source, hs⟩ := Option.isSome_iff_exists.1 grounded
    simp only [apply, hs]
    intro s h
    obtain ⟨⟨-, kept⟩, within⟩ :=
      Baselines.safe_get (answer.balance source hs a) (j.baselines, s) ⟨trivial, h⟩
    rw [outcome_sweep]
    rcases got : (Baselines.get source a).outcome (j.baselines, s) with ⟨f | n, b, s₁⟩
    · rw [got] at kept within
      exact ⟨kept, within⟩
    · rw [got] at kept
      exact ⟨kept, trivial⟩
  | reference a =>
    simp only [apply]
    cases hs : sources.code with
    | none => exact Asking.safe_pure trivial
    | some source =>
      have fetched : (j.reference source a).Safe C (fun _ => True) kind := by
        unfold Journal.reference
        cases j.preCode[a]? with
        | some code => exact Asking.safe_pure trivial
        | none => exact (answer.before source hs a).bind fun _ _ => Asking.safe_pure trivial
      exact fetched.map fun _ _ => trivial
  | deploy a =>
    simp only [apply]
    cases hs : sources.code with
    | none => exact Asking.safe_pure trivial
    | some source =>
      have fetched : (j.deploy source a).Safe C (fun _ => True) kind :=
        (answer.after source hs a).bind fun _ _ => Asking.safe_pure trivial
      exact fetched.map fun _ _ => trivial
  | recordHash number n =>
    obtain ⟨x, hx, q, hq, rfl⟩ := grounded
    refine Asking.safe_ofExcept ?_
    unfold Journal.recordHash
    split
    · trivial
    · next unfit => exact word.resolve_left fun fits => unfit (fits x hx q hq)
  | credit | debit | push | pop | rollback => exact absurd recorded Bool.false_ne_true
  | read | write | touch | transfer | destroy => exact Asking.safe_pure trivial

namespace Replay

/-- Every frame but the root frame has a snapshot held, and every push is held or was settled. -/
structure Machine.Aligned (m : Machine) : Prop where
  level : m.journal.snapshots.held.length + 1 = m.depth
  balanced : m.journal.snapshots.Balanced

/-- No more frames can be settled than snapshots are held; so many can. -/
theorem Machine.settle_of_balanced {j : Journal} {closed : List Frame}
    (enough : closed.length ≤ j.snapshots.held.length) (h : j.snapshots.Balanced) :
    ∃ j', settle j closed = .ok j' ∧
      j'.snapshots.held.length + closed.length = j.snapshots.held.length ∧
        j'.snapshots.Balanced := by
  induction closed generalizing j with
  | nil => exact ⟨j, rfl, rfl, h⟩
  | cons f closed ih =>
    cases held : j.snapshots.held with
    | nil => simp [held] at enough
    | cons l older =>
      simp only [held, List.length_cons, Nat.add_le_add_iff_right] at enough
      obtain ⟨j', settled, count, balanced⟩ := ih (j := j.returned f l older)
        (by rwa [Journal.held_returned]) (Journal.balanced_returned f held h)
      rw [Journal.held_returned] at count
      refine ⟨j', by rw [settle_cons_of_held held, settled], ?_, balanced⟩
      simp only [List.length_cons]
      omega

namespace Machine.Aligned

variable {m : Machine}

theorem returnTo (depth : Int) (h : m.Aligned) :
    ∃ m', m.returnTo depth = .ok m' ∧ m'.Aligned := by
  have count := m.frames.length_unwind depth
  have level : m.journal.snapshots.held.length + 1 = m.frames.depth := h.level
  have pos := (m.frames.unwind depth).2.depth_pos
  have enough : (m.frames.unwind depth).1.length ≤ m.journal.snapshots.held.length := by omega
  obtain ⟨j, settled, held, balanced⟩ := settle_of_balanced enough h.balanced
  refine ⟨{ m with frames := (m.frames.unwind depth).2, journal := j }, ?_, ?_, balanced⟩
  · simp only [Machine.returnTo, settled]
    rfl
  · show j.snapshots.held.length + 1 = (m.frames.unwind depth).2.depth
    omega

theorem arrive {r : Record} (bounded : r.depth ≤ m.depth) (h : m.Aligned) :
    ∃ m', m.arrive r = .ok m' ∧ m'.Aligned := by
  obtain ⟨m', returned, aligned⟩ := h.returnTo r.depth
  refine ⟨m'.visit, ?_, aligned.level, aligned.balanced⟩
  rw [arrive_of_le bounded, returned]
  rfl

theorem abortRoot (h : m.Aligned) : m.abortRoot.Aligned := by
  unfold Machine.abortRoot
  split
  · exact h
  · exact ⟨h.level, h.balanced⟩

theorem abort (h : m.Aligned) : ∃ m', m.abort = .ok m' ∧ m'.Aligned := by
  cases inner : m.frames.inner with
  | nil => exact ⟨m.abortRoot, abort_of_root inner, h.abortRoot⟩
  | cons f outer =>
    have level := h.level
    have balanced := h.balanced
    simp only [Machine.depth, CallStack.depth, inner, List.length_cons] at level
    cases held : m.journal.snapshots.held with
    | nil => simp [held] at level
    | cons l older =>
      refine ⟨{ m with
        frames := { m.frames with inner := outer }
        journal := m.journal.undone l older }, ?_, ?_, ?_⟩
      · simp only [Machine.abort, CallStack.leave, inner, Journal.rollback_of_held held]
        rfl
      · simp only [held, List.length_cons] at level
        simpa [Machine.depth, CallStack.depth, Journal.undone] using level
      · simp only [Snapshots.Balanced, Journal.undone, held, List.length_cons] at *
        omega

theorem of_snapshots {m' : Machine} (h : m.Aligned) (frames : m'.frames = m.frames)
    (same : m'.journal.snapshots = m.journal.snapshots) : m'.Aligned :=
  ⟨by rw [same, Machine.depth, frames]; exact h.level, by rw [same]; exact h.balanced⟩

theorem note {e : Journal.Entry} (flat : e.isFlat = true) {j : Journal}
    (leads : e.Leads sources m.journal j) (h : m.Aligned) :
    ({ m with journal := j } : Machine).Aligned :=
  h.of_snapshots rfl (Journal.snapshots_of_leads flat leads)

theorem enter (o : Opcode) (a : Address) (p : Bool) (h : m.Aligned) : (m.enter o a p).Aligned :=
  ⟨congrArg (· + 1) h.level, Snapshots.balanced_push h.balanced m.journal.ledger⟩

end Machine.Aligned

theorem aligned_invariant (sources : Sources σ) : Invariant sources Machine.Aligned where
  anchor _ h := ⟨h.level, h.balanced⟩
  visit _ h := ⟨h.level, h.balanced⟩
  returnTo m depth m' returned h := by
    obtain ⟨m₁, returned', aligned⟩ := h.returnTo depth
    obtain rfl := Except.ok.inj (returned'.symm.trans returned)
    exact aligned
  abortRoot _ h := h.abortRoot
  apply e recorded m s m' s' applied h := by
    cases e with
    | note entry =>
      obtain ⟨j, noted, rfl⟩ := Machine.apply_note_eq_ok.1 applied
      have flat := Journal.Entry.isFlat_of_isRecorded recorded
      exact h.note flat (Journal.Entry.leads_of_apply noted)
    | enter o a p =>
      obtain rfl := Except.ok.inj (Prod.mk.inj applied).1
      exact h.enter o a p
    | abort =>
      obtain ⟨m₁, aborted, aligned⟩ := h.abort
      obtain rfl := Except.ok.inj (aborted.symm.trans (Prod.mk.inj applied).1)
      exact aligned

/-- Nothing has been replayed over the root account. -/
structure Machine.Unused (root : Address) (m : Machine) : Prop where
  frames : m.frames = .ofRoot root
  snapshots : m.journal.snapshots = {}
  visited : m.visited = []

theorem Machine.Unused.aligned {root : Address} {m : Machine} (h : m.Unused root) : m.Aligned := by
  refine ⟨?_, ?_⟩
  · rw [h.snapshots, Machine.depth, h.frames]
    rfl
  · rw [h.snapshots]
    rfl

theorem Machine.unused_prepare {root : Address} {paid : Option (Transaction × Int)} {m : Machine}
    {s s' : σ} {x : Except Fault Unit}
    (prepared : (prepare sources balancesOnly paid).outcome (start root, s) = (x, (m, s'))) :
    m.Unused root := by
  cases paid with
  | none =>
    obtain ⟨rfl, -⟩ := Prod.mk.inj (Prod.mk.inj prepared).2
    exact ⟨rfl, rfl, rfl⟩
  | some p =>
    obtain ⟨tx, gasUsed⟩ := p
    have charged : (charge tx gasUsed (start root)).Unused root :=
      ⟨rfl, snapshots_charge tx gasUsed _, rfl⟩
    refine after_seed prepared ?_ charged
    intro e a looks m j leads h
    have flat : e.isFlat = true := by rcases looks with rfl | rfl <;> rfl
    exact ⟨h.frames, (Journal.snapshots_of_leads flat leads).trans h.snapshots, h.visited⟩

section Frames

variable {m m₁ m' : Machine} {s s' : σ} {i : Nat} {r : Record} {later : List Record}
  {kind : Journal.Entry → Prop} {effects : List Effect}

theorem journal_of_notes (notes : Effect.Notes kind effects) (flat : ∀ e, kind e → e.isFlat = true)
    (done : (performAll sources effects).outcome (m, s) = (.ok (), (m', s'))) :
    ∃ j, m' = { m with journal := j } ∧ j.snapshots = m.journal.snapshots := by
  have keeps : Keeps (fun m' => ∃ j, m' = { m with journal := j } ∧
      j.snapshots = m.journal.snapshots) (performAll sources effects) := by
    refine keeps_notes notes ?_
    rintro e he _ j leads ⟨j₁, rfl, same⟩
    exact ⟨j, rfl, (Journal.snapshots_of_leads (flat e he) leads).trans same⟩
  exact keeps.after done ⟨m.journal, rfl, rfl⟩

/-- What a record does to frames and snapshots, once the machine is ready for it: it aborts the
frame, it opens one over a new snapshot, or it leaves both alone. -/
theorem frames_of_step
    (done : (step sources balancesOnly i r later).outcome (m, s) = (.ok (), (m', s'))) :
    ∃ m₁, m.arrive r = .ok m₁ ∧
      ((r.Aborts ∧ m₁.abort = .ok m') ∨
        (∃ o target placeholder l, r.Opens o ∧
          (placeholder = true ↔ o.isCreate = true ∧ createdAddress r later = .ok none) ∧
          m'.frames = m₁.frames.enter o target placeholder ∧ m'.visited = m₁.visited ∧
          m'.journal.snapshots = m₁.journal.snapshots.push l) ∨
        (¬ r.Aborts ∧ (∀ o, ¬ r.Opens o) ∧
          ∃ j, m' = { m₁ with journal := j } ∧ j.snapshots = m₁.journal.snapshots)) := by
  obtain ⟨m₁, effects, arrived, read, performed⟩ := step_eq_ok.1 done
  refine ⟨m₁, arrived, ?_⟩
  by_cases aborts : r.Aborts
  · rw [Effect.ofRecord_of_aborts aborts] at read
    obtain rfl := Except.ok.inj read
    exact .inl ⟨aborts, (performAll_abort_eq_ok performed).1⟩
  by_cases opens : ∃ o, r.Opens o
  · obtain ⟨o, opens⟩ := opens
    obtain ⟨target, placeholder, outside, inside, rfl, looking, paying, failing⟩ :=
      Effect.opening_of_ofRecord opens read
    rw [performAll_append] at performed
    obtain ⟨_, ⟨m₂, s₂⟩, looked, performed⟩ := Asking.outcome_bind_eq_ok.1 performed
    rw [performAll_enter] at performed
    obtain ⟨j₂, rfl, same₂⟩ := journal_of_notes looking (by rintro _ ⟨a, rfl⟩; rfl) looked
    obtain ⟨j₃, rfl, same₃⟩ := journal_of_notes paying
      (by rintro _ (⟨a, rfl⟩ | ⟨a, b, n, rfl⟩) <;> rfl) performed
    refine .inr (.inl ⟨o, target, placeholder, j₂.ledger, opens, failing, rfl, rfl, ?_⟩)
    rw [same₃, ← same₂]
    rfl
  · have neither := not_exists.1 opens
    rcases Effect.ofRecord_cases read with ⟨aborting, -⟩ | ⟨o, opening⟩ | notes
    · exact absurd aborting aborts
    · exact absurd opening (neither o)
    · have flat (e : Journal.Entry) (he : Effect.Makes (scopeOf sources balancesOnly) later e ∧
          (¬ r.Changes → e.observes = true)) : e.isFlat = true :=
        Journal.Entry.isFlat_of_isRecorded he.1.1
      exact .inr (.inr ⟨aborts, neither, journal_of_notes notes flat performed⟩)

end Frames

/-- What a replay of some records can fail with, once frames and snapshots are of one height. -/
structure Covers (sources : Sources σ) (C : σ → Prop) (records : List Record)
    (kind : Fault → Prop) : Prop where
  lack : ∀ f : Fault, f.IsLack true → kind f
  long : (∀ r ∈ records, r.isWritable = true) ∨ kind (.tooManyDigits none)
  name : ∀ r ∈ records, r.error = none → ∀ f, r.op.opcode = .error f → kind f
  word : (∀ r ∈ records, ∀ q ∈ r.stack, Word.Fits q.value) ∨ kind .outOfWord
  answer : sources.Safe C kind
  located : ∀ f i r, kind f → kind (locate i r f)

section Safe

variable {C : σ → Prop} {kind : Fault → Prop} {r : Record} {later records : List Record}

theorem Covers.tail (covers : Covers sources C (r :: later) kind) :
    Covers sources C later kind where
  lack := covers.lack
  long := covers.long.imp_left fun short x hx => short x (List.mem_cons_of_mem r hx)
  name x hx := covers.name x (List.mem_cons_of_mem r hx)
  word := covers.word.imp_left fun fits x hx => fits x (List.mem_cons_of_mem r hx)
  answer := covers.answer
  located := covers.located

theorem Covers.of_isLack {told : Bool} {f : Fault} (covers : Covers sources C records kind)
    (lack : f.IsLack told) (untold : told = false → ∃ r ∈ records, r.isWritable = false) :
    kind f := by
  rcases lack with ⟨-, known⟩ | ⟨long, rfl⟩
  · exact covers.lack f (.inl ⟨rfl, known⟩)
  · obtain ⟨x, hx, unwritable⟩ := untold long
    exact covers.long.resolve_left fun short =>
      Bool.false_ne_true (unwritable.symm.trans (short x hx))

theorem safe_change {P : Machine → Prop} {f : Machine → Except Fault Machine}
    (hf : ∀ m, P m → Within P kind (f m)) :
    (change f : Run σ Unit).Safe (Both P C) (fun _ => True) kind := by
  rintro ⟨m, s⟩ ⟨h, hs⟩
  have within := hf m h
  simp only [change, Asking.outcome_ofOutcome]
  cases made : f m with
  | error e =>
    rw [made] at within
    exact ⟨⟨h, hs⟩, within⟩
  | ok m' =>
    rw [made] at within
    exact ⟨⟨within, hs⟩, trivial⟩

theorem safe_perform {e : Effect} (recorded : e.isRecorded = true) (answer : sources.Safe C kind)
    (word : (∀ r ∈ later, ∀ q ∈ r.stack, Word.Fits q.value) ∨ kind .outOfWord)
    (makes : ∀ entry, e = .note entry → Effect.Makes (scopeOf sources balancesOnly) later entry) :
    (perform sources e).Safe (Both Machine.Aligned C) (fun _ => True) kind := by
  rintro ⟨m, s⟩ ⟨h, hs⟩
  have applies : (m.apply sources e).Safe C (fun _ => True) kind := by
    cases e with
    | note entry =>
      exact (Journal.Entry.safe_apply answer word (makes entry rfl) m.journal).map
        fun _ _ => trivial
    | enter => exact Asking.safe_pure trivial
    | abort =>
      obtain ⟨m₁, aborted, -⟩ := h.abort
      exact Asking.safe_ofExcept (within_ok ⟨m₁, aborted, trivial⟩)
  obtain ⟨kept, within⟩ := applies s hs
  simp only [perform, Asking.outcome_ofOutcome]
  rcases applied : (m.apply sources e).outcome s with ⟨f | m', s'⟩
  · rw [applied] at kept within
    exact ⟨⟨h, kept⟩, within⟩
  · rw [applied] at kept
    exact ⟨⟨(aligned_invariant sources).apply e recorded m s m' s' applied h, kept⟩, trivial⟩

theorem safe_performAll {effects : List Effect} (answer : sources.Safe C kind)
    (word : (∀ r ∈ later, ∀ q ∈ r.stack, Word.Fits q.value) ∨ kind .outOfWord)
    (makes : ∀ e ∈ effects, e.isRecorded = true ∧
      ∀ entry, e = .note entry → Effect.Makes (scopeOf sources balancesOnly) later entry) :
    (performAll sources effects).Safe (Both Machine.Aligned C) (fun _ => True) kind := by
  induction effects with
  | nil => exact Asking.safe_pure trivial
  | cons e effects ih =>
    obtain ⟨⟨recorded, first⟩, rest⟩ := List.forall_mem_cons.1 makes
    exact (safe_perform recorded answer word first).bind fun _ _ => ih rest

/-- The machine gets ready for any record that is no deeper than the frames that are open. -/
theorem lack_of_arrive {m : Machine} {f : Fault} (h : m.Aligned) (jump : m.arrive r = .error f) :
    (m.depth : Int) < r.depth ∧ f.IsLack (Text.isWritable r.depth) := by
  by_cases bounded : r.depth ≤ m.depth
  · obtain ⟨m₁, arrived, -⟩ := h.arrive bounded
    nomatch jump.symm.trans arrived
  · rw [Machine.arrive, if_pos (Int.not_le.1 bounded)] at jump
    have aligned : (Fault.malformed { defect := .depthJump r.depth m.depth }).isMisaligned =
        false := by simp [Fault.isMisaligned]
    have lack := Fault.isLack_spelling [.int r.depth] aligned
    simp only [List.all_cons, List.all_nil, Bool.and_true, Rpc.Value.isWritable] at lack
    exact ⟨Int.not_le.1 bounded, Except.error.inj jump ▸ lack⟩

theorem safe_seed (answer : sources.Safe C kind) (tx : Transaction) (gasUsed : Int) :
    (seed sources balancesOnly tx gasUsed).Safe (Both Machine.Aligned C) (fun _ => True) kind := by
  rintro ⟨m, s⟩ ⟨h, hs⟩
  have charged : (charge tx gasUsed m).Aligned :=
    h.of_snapshots rfl (snapshots_charge tx gasUsed m)
  have makes : ∀ e ∈ (seeding (scopeOf sources balancesOnly) tx m.frames.root.address).map
      Effect.note, e.isRecorded = true ∧
        ∀ entry, e = Effect.note entry → Effect.Makes (scopeOf sources balancesOnly) [] entry := by
    intro e he
    obtain ⟨entry, member, rfl⟩ := List.mem_map.1 he
    rcases of_mem_seeding member with rfl | rfl
    all_goals exact ⟨rfl, by rintro _ ⟨⟩; exact ⟨rfl, trivial⟩⟩
  rw [outcome_seed]
  exact safe_performAll answer (.inl (List.forall_mem_nil _)) makes _ ⟨charged, hs⟩

theorem safe_step (covers : Covers sources C (r :: later) kind) (i : Nat) :
    (step sources balancesOnly i r later).Safe (Both Machine.Aligned C) (fun _ => True) kind := by
  refine Asking.Safe.mapFault ?_ fun f => covers.located f i r
  have arrives : (change fun m => m.arrive r : Run σ Unit).Safe (Both Machine.Aligned C)
      (fun _ => True) kind := by
    refine safe_change fun m h => ?_
    cases arrived : m.arrive r with
    | ok m₁ => exact (aligned_invariant sources).arrive arrived h
    | error f =>
      refine covers.of_isLack (lack_of_arrive h arrived).2 fun long => ?_
      exact ⟨r, List.mem_cons_self, by simp [Record.isWritable, long]⟩
  refine arrives.bind fun _ _ => Asking.Safe.get fun w _ => ?_
  have reads : Within (fun effects => ∀ e ∈ effects, e.isRecorded = true ∧
      ∀ entry, e = .note entry → Effect.Makes (scopeOf sources balancesOnly) later entry) kind
        (Effect.ofRecord (scopeOf sources balancesOnly) w.1.frames.top r later) := by
    cases read : Effect.ofRecord (scopeOf sources balancesOnly) w.1.frames.top r later with
    | ok effects => exact Effect.makes_of_ofRecord read
    | error f =>
      rcases Effect.fault_of_ofRecord read with ⟨fine, misnamed⟩ | ⟨o, -, lack⟩
      · exact covers.name r List.mem_cons_self fine f misnamed
      · exact covers.of_isLack lack Effect.exists_of_blamed
  exact (Asking.safe_ofExcept reads).bind fun effects makes =>
    safe_performAll covers.answer covers.tail.word makes

theorem safe_steps (covers : Covers sources C records kind) (i : Nat) :
    (steps sources balancesOnly i records).Safe (Both Machine.Aligned C) (fun _ => True) kind := by
  induction records generalizing i with
  | nil => exact Asking.safe_pure trivial
  | cons r later ih => exact (safe_step covers i).bind fun _ _ => ih covers.tail (i + 1)

/-- What the records leave open can always be settled. -/
theorem safe_replay (covers : Covers sources C records kind) (failed : Bool) :
    (replay sources balancesOnly records failed).Safe (Both Machine.Aligned C) (fun _ => True)
      kind := by
  have inv := aligned_invariant sources
  refine (safe_change fun m h => ?_).bind fun _ _ => (safe_steps covers 0).bind fun _ _ =>
    safe_change fun m h => ?_
  · exact inv.anchor m h
  · obtain ⟨m₁, returned, -⟩ := h.returnTo 1
    have finished : finish failed m = .ok _ := finish_eq_ok.2 ⟨m₁, returned, rfl⟩
    exact within_ok ⟨_, finished, inv.finish finished h⟩

/-- So a replay fails where its records do. -/
theorem replay_eq_error {m : Machine} {s : σ} {records : List Record} {failed : Bool} {f : Fault}
    {w : Machine × σ} (h : m.Aligned) :
    (replay sources balancesOnly records failed).outcome (m, s) = (.error f, w) ↔
      (steps sources balancesOnly 0 records).outcome (anchor m, s) = (.error f, w) := by
  have anchored : (change fun m => .ok (anchor m) : Run σ Unit).outcome (m, s) =
      (.ok (), (anchor m, s)) := rfl
  simp only [replay, Asking.outcome_bind, anchored]
  rcases ran : (steps sources balancesOnly 0 records).outcome (anchor m, s) with ⟨f₁ | _, m₁, s₁⟩
  · rfl
  · have kept := ((aligned_invariant sources).keeps_steps 0 records).after ran
      ((aligned_invariant sources).anchor m h)
    obtain ⟨m₂, returned, -⟩ := kept.returnTo 1
    have finished : finish failed m₁ = .ok _ := finish_eq_ok.2 ⟨m₂, returned, rfl⟩
    simp [change, finished]

/-- A replay never finds a frame without a snapshot, nor a snapshot without a frame. -/
theorem fails_replay (covers : Covers sources (fun _ => True) records kind) (failed : Bool)
    (m : Machine) (s : σ) (f : Fault) (w : Machine × σ) (h : m.Aligned)
    (ends : (replay sources balancesOnly records failed).outcome (m, s) = (.error f, w)) :
    kind f := (safe_replay covers failed).fault ⟨h, trivial⟩ ends

end Safe

end Replay

end TraceDiff
