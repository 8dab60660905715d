import TraceDiff.Proofs.FrameTree.Replay

/-! Storage under a tree of frames. A reference execution keeps the writes that still stand; the
journal mirrors them, and its values from before the transaction are those of the slots first read
while no write to them stood. -/
namespace TraceDiff

open Replay (Scope Machine scopeOf replay)
open Rpc (Quantity)

variable {σ : Type} {sources : Sources σ}

/-- The writes that stand, by account and slot. -/
abbrev Writes := Address → Int → Option Int

def Writes.none : Writes := fun _ _ => Option.none

def Writes.set (w : Writes) (account : Address) (slot value : Int) : Writes := fun a k =>
  if account = a ∧ slot = k then some value else w a k

/-- A read of a slot, and the write that stood when it was read. -/
structure SlotRead where
  account : Address
  slot : Int
  value : Int
  live : Option Int

/-- A read shows the write that stands, or the value from before the transaction. -/
def SlotRead.Sees (s₀ : Address → Int → Int) (e : SlotRead) : Prop :=
  e.value = e.live.getD (s₀ e.account e.slot)

instance (s₀ : Address → Int → Int) (e : SlotRead) : Decidable (e.Sees s₀) :=
  inferInstanceAs (Decidable (_ = _))

namespace FrameTree

/-- What a record writes; nothing that a failed creation writes can be seen. -/
def stored (f : Frame) (o : Option Opcode) (r : Record) (w : Writes) : Writes :=
  if o = some .sstore ∧ f.placeholder = false then
    w.set f.address (r.arg 0).value (r.arg 1).value
  else w

/-- What a record reads; of a failed creation it is not known which account reads. -/
def loaded (f : Frame) (o : Option Opcode) (r : Record) (result : Quantity) (w : Writes) :
    List SlotRead :=
  if o = some .sload ∧ f.placeholder = false then
    [⟨f.address, (r.arg 0).value, result.value, w f.address (r.arg 0).value⟩]
  else []

/-- The writes that stand after the tree. -/
def written (f : Frame) : FrameTree → Writes → Writes
  | close _ _, w => w
  | plain o r rest, w => rest.written f (stored f o r w)
  | unstarted _ _ rest, w => rest.written f w
  | nested o r child rest, w =>
    let after := child.written (f.child o r rest.result) w
    rest.written f (if child.isUndone o rest.result then w else after)

/-- The reads of the tree, in their order. -/
def reads (f : Frame) : FrameTree → Writes → List SlotRead
  | close _ _, _ => []
  | plain o r rest, w => loaded f o r rest.result w ++ rest.reads f (stored f o r w)
  | unstarted _ _ rest, w => rest.reads f w
  | nested o r child rest, w =>
    let after := child.written (f.child o r rest.result) w
    child.reads (f.child o r rest.result) w ++
      rest.reads f (if child.isUndone o rest.result then w else after)

/-- The frames of the tree that execute a record. -/
def frames (f : Frame) : FrameTree → List Frame
  | close _ _ => [f]
  | plain _ _ rest | unstarted _ _ rest => rest.frames f
  | nested o r child rest => child.frames (f.child o r rest.result) ++ rest.frames f

theorem mem_frames (t : FrameTree) (f : Frame) : f ∈ t.frames f := by
  induction t with
  | close ending r => exact List.mem_singleton_self f
  | plain o r rest ih | unstarted o r rest ih => exact ih
  | nested o r child rest ihc ih => exact List.mem_append_right _ ih

end FrameTree

/-- A frame outside all failed creations is no placeholder, and placeholders have the zero
address. -/
def Frame.Fits (clean : Bool) (f : Frame) : Prop :=
  f.placeholder = true → f.address = .zero ∧ clean = false

theorem Frame.Fits.child {clean : Bool} {f : Frame} (h : f.Fits clean) (o : Opcode) (r : Record)
    (result : Quantity) : (f.child o r result).Fits (clean && !o.createsNothing result) := by
  unfold Frame.child
  split
  · intro placeholder
    obtain ⟨zero, outside⟩ := h placeholder
    exact ⟨zero, by simp [outside]⟩
  · intro placeholder
    have fails : o.createsNothing result = true := placeholder
    have create : o.isCreate = true ∧ Address.ofWord result.value = .zero := by
      simpa [Opcode.createsNothing] using fails
    exact ⟨by simp [Opcode.callee, create], by simp [fails]⟩

namespace Journal

/-- Entries that neither read nor write a slot. -/
def Entry.keepsStorage : Entry → Bool
  | read _ _ _ | write _ _ _ | push | pop | rollback => false
  | _ => true

theorem Entry.storage_of_leads {e : Entry} (h : e.keepsStorage = true) {j j' : Journal}
    (leads : e.Leads sources j j') :
    j'.ledger.storage = j.ledger.storage ∧ j'.preStorage = j.preStorage := by
  cases e with
  | sweep a b =>
    obtain ⟨source, -, n, baselines, s, s', -, rfl⟩ := leads
    dsimp only
    split <;> exact ⟨rfl, rfl⟩
  | reference a => obtain ⟨preCode, rfl⟩ := leads; exact ⟨rfl, rfl⟩
  | deploy a => obtain ⟨code, rfl⟩ := leads; exact ⟨rfl, rfl⟩
  | recordHash number word => obtain ⟨hashes, truths, rfl⟩ := leads; exact ⟨rfl, rfl⟩
  | read | write | push | pop | rollback => simp [Entry.keepsStorage] at h
  | touch | credit | debit | transfer | destroy => obtain rfl := leads; exact ⟨rfl, rfl⟩

theorem storage_of_noteAll {entries : List Entry} (h : ∀ e ∈ entries, e.keepsStorage = true)
    {j j' : Journal} {s s' : σ} (noted : (noteAll sources entries j).outcome s = (.ok j', s')) :
    j'.ledger.storage = j.ledger.storage ∧ j'.preStorage = j.preStorage := by
  refine noteAll_preserves (P := fun x => x.ledger.storage = j.ledger.storage ∧
    x.preStorage = j.preStorage) ?_ noted ⟨rfl, rfl⟩
  intro e he x y leads same
  obtain ⟨storage, read⟩ := Entry.storage_of_leads (h e he) leads
  exact ⟨storage.trans same.1, read.trans same.2⟩

/-- A value from before the transaction is never replaced. -/
theorem preStorage_read {j : Journal} {a : Address} {k : Int} {q : Quantity}
    (h : j.preStorage.get? a k = some q) (b : Address) (l : Int) (v : Quantity) :
    (j.read b l v).preStorage.get? a k = some q := by
  unfold read
  split
  · exact h
  · next unknown =>
    have other : ¬ (b = a ∧ l = k) := by
      rintro ⟨rfl, rfl⟩
      simp [h] at unknown
    simp only [Storage.get?_set, if_neg other, h]

/-- The journal mirrors the writes that stand (those of the zero address only outside failed
creations), its values from before are genuine, and it has one for every slot that was seen while
no write to it stood. -/
structure Mirrors (s₀ : Address → Int → Int) (clean : Bool) (w : Writes) (seen : List SlotRead)
    (j : Journal) : Prop where
  live : ∀ a k, (clean = false → a ≠ .zero) → (j.ledger.storage.get? a k).map (·.value) = w a k
  genuine : ∀ a k q, j.preStorage.get? a k = some q → q.value = s₀ a k
  recorded : ∀ e ∈ seen, e.live = none → (j.preStorage.get? e.account e.slot).isSome

variable {s₀ : Address → Int → Int} {clean : Bool} {w : Writes} {seen : List SlotRead}
  {j j' : Journal}

theorem Mirrors.of_storage_eq (h : Mirrors s₀ clean w seen j)
    (same : j'.ledger.storage = j.ledger.storage ∧ j'.preStorage = j.preStorage) :
    Mirrors s₀ clean w seen j' where
  live := by rw [same.1]; exact h.live
  genuine := by rw [same.2]; exact h.genuine
  recorded := by rw [same.2]; exact h.recorded

/-- Inside a failed creation the zero address is given up. -/
theorem Mirrors.inside (h : Mirrors s₀ clean w seen j) (fails : Bool) :
    Mirrors s₀ (clean && !fails) w seen j where
  live a k nonzero := h.live a k fun hc => nonzero (by simp [hc])
  genuine := h.genuine
  recorded := h.recorded

theorem Mirrors.write (h : Mirrors s₀ clean w seen j) (a : Address) (k : Int) (v : Quantity) :
    Mirrors s₀ clean (w.set a k v.value) seen (j.write a k v) where
  live b l nonzero := by
    simp only [Journal.write, Ledger.write, Storage.get?_set, Writes.set]
    split
    · rfl
    · exact h.live b l nonzero
  genuine := h.genuine
  recorded := h.recorded

/-- A failed creation writes to the zero address. -/
theorem Mirrors.write_zero (h : Mirrors s₀ false w seen j) (k : Int) (v : Quantity) :
    Mirrors s₀ false w seen (j.write .zero k v) where
  live b l nonzero := by
    have other : ¬ (Address.zero = b ∧ k = l) := fun same => nonzero rfl same.1.symm
    simp only [Journal.write, Ledger.write, Storage.get?_set, if_neg other]
    exact h.live b l nonzero
  genuine := h.genuine
  recorded := h.recorded

theorem Mirrors.read (h : Mirrors s₀ clean w seen j) {a : Address} (nonzero : a ≠ .zero) (k : Int)
    (v : Quantity) (sees : SlotRead.Sees s₀ ⟨a, k, v.value, w a k⟩) :
    Mirrors s₀ clean w (seen ++ [⟨a, k, v.value, w a k⟩]) (j.read a k v) where
  live := by rw [ledger_read]; exact h.live
  genuine b l q known := by
    have stands := h.live a k fun _ => nonzero
    unfold Journal.read at known
    split at known
    · exact h.genuine b l q known
    · next unknown =>
      simp only [Storage.get?_set] at known
      split at known
      · next same =>
        obtain ⟨rfl, rfl⟩ := same
        obtain rfl := Option.some.inj known
        have empty : j.preStorage.get? a k = none ∧ j.ledger.storage.get? a k = none := by
          simpa using unknown
        have unwritten : w a k = none := by rw [← stands, empty.2, Option.map_none]
        simpa [SlotRead.Sees, unwritten] using sees
      · exact h.genuine b l q known
  recorded e he unwritten := by
    rcases List.mem_append.1 he with he | he
    · obtain ⟨q, known⟩ := Option.isSome_iff_exists.1 (h.recorded e he unwritten)
      exact Option.isSome_iff_exists.2 ⟨q, preStorage_read known a k v⟩
    · obtain rfl := List.mem_singleton.1 he
      have stands := h.live a k fun _ => nonzero
      have empty : j.ledger.storage.get? a k = none := by
        rw [← Option.map_eq_none_iff, stands]
        exact unwritten
      unfold Journal.read
      split
      · next known => simpa [empty] using known
      · simp [Storage.get?_set]

/-- A value afterwards is the write that stands, or else the value from before. -/
theorem value_of_postStorage
    (stands : ∀ a k, (j.ledger.storage.get? a k).map (·.value) = w a k)
    (genuine : ∀ a k q, j.preStorage.get? a k = some q → q.value = s₀ a k) {a : Address} {k : Int}
    {q : Quantity} (known : j.postStorage.get? a k = some q) :
    q.value = (w a k).getD (s₀ a k) := by
  rw [← stands]
  rw [postStorage, Storage.get?_orElse] at known
  cases written : j.ledger.storage.get? a k with
  | some v =>
    rw [written, Option.some_or] at known
    rw [Option.some.inj known]
    rfl
  | none =>
    rw [written, Option.none_or] at known
    exact genuine a k q known

theorem postStorage_of_changed
    (stands : ∀ a k, (j.ledger.storage.get? a k).map (·.value) = w a k) {a : Address} {k : Int}
    (changed : (w a k).getD (s₀ a k) ≠ s₀ a k) : (j.postStorage.get? a k).isSome := by
  rw [← stands] at changed
  rw [postStorage, Storage.get?_orElse]
  cases written : j.ledger.storage.get? a k with
  | some v => rfl
  | none => simp [written] at changed

end Journal

namespace FrameTree

open Journal (Mirrors)

variable {s₀ : Address → Int → Int} {clean : Bool} {w : Writes} {seen : List SlotRead}
  {j j' : Journal} {s s' : σ}

theorem keepsStorage_closing (scope : Scope) (f : Frame) (ending : Ending) (r : Record) :
    ∀ e ∈ closing scope f ending r, e.keepsStorage = true := by
  intro e he
  rcases of_mem_closing he with ⟨-, a, b, rfl⟩ | ⟨a, rfl | rfl⟩ <;> rfl

theorem keepsStorage_called (scope : Scope) (o : Opcode) (r : Record) :
    ∀ e ∈ called scope o r, e.keepsStorage = true := by
  intro e he
  obtain ⟨a, rfl⟩ := of_mem_called he
  rfl

theorem keepsStorage_started (scope : Scope) (f : Frame) (o : Opcode) (r : Record)
    (result : Quantity) : ∀ e ∈ started scope f o r result, e.keepsStorage = true := by
  intro e he
  rcases of_mem_started he with ⟨a, rfl⟩ | ⟨a, b, n, rfl⟩ <;> rfl

theorem keepsStorage_observed (scope : Scope) (f : Frame) {o : Option Opcode}
    (hw : o ≠ some .sstore) (hr : ¬ (o = some .sload ∧ f.placeholder = false)) (r : Record)
    (result : Quantity) : ∀ e ∈ observed scope f o r result, e.keepsStorage = true := by
  intro e he
  rcases of_mem_observed he with ⟨writes, -⟩ | ⟨reads, -⟩ | ⟨-, rfl⟩ | ⟨a, rfl | rfl⟩
  · exact absurd writes hw
  · exact absurd reads hr
  · rfl
  · rfl
  · rfl

/-- One record that opens no frame keeps the mirror. -/
theorem mirrors_observed {scope : Scope} (full : scope.observes = true) {f : Frame}
    (fits : f.Fits clean) (owned : f.placeholder = false → f.address ≠ .zero) {o : Option Opcode}
    {r : Record} {result : Quantity} (sees : ∀ e ∈ loaded f o r result w, e.Sees s₀)
    (start : Mirrors s₀ clean w seen j)
    (noted : (Journal.noteAll sources (observed scope f o r result) j).outcome s = (.ok j', s')) :
    Mirrors s₀ clean (stored f o r w) (seen ++ loaded f o r result w) j' := by
  by_cases hw : o = some .sstore
  · subst hw
    have wrote : j.write f.address (r.arg 0).value (r.arg 1) = j' ∧ s = s' := by
      simpa [observed, full, Journal.noteAll, Journal.Entry.apply] using noted
    obtain ⟨rfl, -⟩ := wrote
    cases hp : f.placeholder with
    | false => simpa [stored, loaded, hp] using start.write f.address (r.arg 0).value (r.arg 1)
    | true =>
      obtain ⟨zero, rfl⟩ := fits hp
      simpa [stored, loaded, hp, zero] using start.write_zero (r.arg 0).value (r.arg 1)
  · have kept : stored f o r w = w := by simp [stored, hw]
    rw [kept]
    by_cases hr : o = some .sload ∧ f.placeholder = false
    · obtain ⟨rfl, hp⟩ := hr
      have read : j.read f.address (r.arg 0).value result = j' ∧ s = s' := by
        simpa [observed, full, hp, Journal.noteAll, Journal.Entry.apply, Journal.entryIf]
          using noted
      simp only [loaded, hp, and_self, if_true, List.forall_mem_singleton] at sees ⊢
      exact read.1 ▸ start.read (owned hp) _ _ sees
    · have none : loaded f o r result w = [] := by simp only [loaded, if_neg hr]
      rw [none, List.append_nil]
      refine start.of_storage_eq (Journal.storage_of_noteAll ?_ noted)
      exact keepsStorage_observed scope f hw hr r result

/-- A tree of frames keeps the mirror, whatever is undone on the way. -/
theorem mirrors_meaning {scope : Scope} (full : scope.observes = true) {t : FrameTree} {f : Frame}
    (fits : f.Fits clean) (owned : ∀ g ∈ t.frames f, g.placeholder = false → g.address ≠ .zero)
    (sees : ∀ e ∈ t.reads f w, e.Sees s₀) (start : Mirrors s₀ clean w seen j)
    (means : (t.meaning sources scope f j).outcome s = (.ok j', s')) :
    Mirrors s₀ clean (t.written f w) (seen ++ t.reads f w) j' := by
  induction t generalizing f clean w seen j j' s s' with
  | close ending r =>
    simpa [written, reads] using
      start.of_storage_eq (Journal.storage_of_noteAll (keepsStorage_closing scope f ending r) means)
  | plain o r rest ih =>
    obtain ⟨j₁, s₁, noted, means⟩ := Asking.outcome_bind_eq_ok.1 means
    obtain ⟨first, later⟩ := List.forall_mem_append.1 sees
    have next := mirrors_observed full fits (owned f (mem_frames rest f)) first start noted
    rw [reads, ← List.append_assoc]
    exact ih fits owned later next means
  | unstarted o r rest ih =>
    obtain ⟨j₁, s₁, noted, means⟩ := Asking.outcome_bind_eq_ok.1 means
    have same := Journal.storage_of_noteAll (keepsStorage_called scope o r) noted
    exact ih fits owned sees (start.of_storage_eq same) means
  | nested o r child rest ihc ih =>
    obtain ⟨before, s₁, called, means⟩ := Asking.outcome_bind_eq_ok.1 means
    obtain ⟨inside, s₂, started, means⟩ := Asking.outcome_bind_eq_ok.1 means
    obtain ⟨after, s₃, meansChild, means⟩ := Asking.outcome_bind_eq_ok.1 means
    obtain ⟨ownedChild, ownedRest⟩ := List.forall_mem_append.1 owned
    obtain ⟨seesChild, seesRest⟩ := List.forall_mem_append.1 sees
    have mirroredBefore := start.of_storage_eq
      (Journal.storage_of_noteAll (keepsStorage_called scope o r) called)
    have mirroredInside := mirroredBefore.of_storage_eq
      (Journal.storage_of_noteAll (keepsStorage_started scope f o r rest.result) started)
    have mirroredAfter := ihc (fits.child o r rest.result) ownedChild seesChild
      (mirroredInside.inside (o.createsNothing rest.result)) meansChild
    rw [reads, ← List.append_assoc]
    refine ih fits ownedRest seesRest ?_ means
    -- what was seen inside the child outlasts it, its writes only if it is kept
    refine ⟨?_, mirroredAfter.genuine, mirroredAfter.recorded⟩
    cases undone : child.isUndone o rest.result with
    | true => exact mirroredBefore.live
    | false =>
      have creates := (isUndone_eq_false.1 undone).2
      have live := mirroredAfter.live
      rw [creates, Bool.not_false, Bool.and_true] at live
      exact live

end FrameTree

namespace Replay

/-- A machine that is about to replay its first record, of a transaction that runs `root`. -/
structure Machine.IsInitial (m : Machine) (root : Address) : Prop where
  frames : m.frames = .ofRoot root
  live : m.rootAborted = false
  unread : m.journal.preStorage = ∅
  unwritten : m.journal.ledger.storage = ∅
  anchored : ∀ l ∈ m.rootLedger, l.storage = ∅

theorem Machine.isInitial_start (root : Address) : (start root).IsInitial root :=
  ⟨rfl, rfl, rfl, rfl, by simp [start]⟩

theorem Machine.IsInitial.charge {m : Machine} {root : Address} (h : m.IsInitial root)
    (tx : Transaction) (gasUsed : Int) : (Replay.charge tx gasUsed m).IsInitial root := by
  refine ⟨h.frames, h.live, ?_, ?_, ?_⟩
  · unfold Replay.charge
    cases tx.sender <;> exact h.unread
  · unfold Replay.charge
    cases tx.sender <;> exact h.unwritten
  · unfold Replay.charge
    rintro l ⟨⟩
    cases tx.sender <;> exact h.unwritten

theorem keepsStorage_seeding (scope : Scope) (tx : Transaction) (target : Address) :
    ∀ e ∈ seeding scope tx target, e.keepsStorage = true := by
  intro e he
  rcases of_mem_seeding he with rfl | rfl <;> rfl

/-- A machine that a transaction was seeded in has run no code yet. -/
theorem Machine.isInitial_seed (total : sources.Total) (balancesOnly : Bool) (tx : Transaction)
    (gasUsed : Int) (root : Address) (s : σ) :
    ∃ m s', (seed sources balancesOnly tx gasUsed).outcome (start root, s) = (.ok (), (m, s')) ∧
      m.IsInitial root := by
  have charged := (isInitial_start root).charge tx gasUsed
  obtain ⟨j, s', noted, seeded⟩ := answers_seed total balancesOnly tx gasUsed (start root) s
  have same := Journal.storage_of_noteAll (keepsStorage_seeding _ tx root) noted
  refine ⟨_, s', seeded, charged.frames, charged.live, ?_, ?_, charged.anchored⟩
  · exact same.2.trans charged.unread
  · exact same.1.trans charged.unwritten

end Replay

namespace FrameTree

open Journal (Mirrors)

/-- The writes that stand after the transaction; none do if it failed. -/
def finalWrites (t : FrameTree) (failed : Bool) (root : Address) : Writes :=
  if t.aborts || failed then .none else t.written ⟨root, none, false⟩ .none

theorem mirrors_of_initial {s₀ : Address → Int → Int} {t : FrameTree} {m : Machine}
    {root : Address} (start : m.IsInitial root)
    (owned : ∀ g ∈ t.frames ⟨root, none, false⟩, g.placeholder = false → g.address ≠ .zero)
    (sees : ∀ e ∈ t.reads ⟨root, none, false⟩ .none, e.Sees s₀) {j : Journal} {s s' : σ}
    (means : (t.meaning sources (scopeOf sources false) ⟨root, none, false⟩ m.journal).outcome s =
      (.ok j, s')) :
    Mirrors s₀ true (t.written ⟨root, none, false⟩ .none) (t.reads ⟨root, none, false⟩ .none) j := by
  have empty : Mirrors s₀ true .none [] m.journal := by
    refine ⟨?_, ?_, by simp⟩
    · intro a k _
      rw [start.unwritten, Storage.get?_empty]
      rfl
    · intro a k q known
      simp [start.unread] at known
  exact mirrors_meaning rfl (fun h => absurd h Bool.false_ne_true) owned sees empty means

/-- A transaction that fails goes back to a ledger without writes. -/
theorem storage_concluded {t : FrameTree} (failed : Bool) {m : Machine} {root : Address}
    (start : m.IsInitial root) {j : Journal}
    (live : ∀ a k, (j.ledger.storage.get? a k).map (·.value) =
      t.written ⟨root, none, false⟩ .none a k) (a : Address) (k : Int) :
    ((t.concluded failed m j).journal.ledger.storage.get? a k).map (·.value) =
      t.finalWrites failed root a k := by
  have base : (m.rootLedger.getD m.journal.ledger).storage = ∅ := by
    cases hl : m.rootLedger with
    | none => exact start.unwritten
    | some l => exact start.anchored l hl
  unfold concluded finalWrites
  cases t.aborts || failed with
  | true => simp [base, Writes.none]
  | false => exact live a k

/-- Replaying an execution that starts from the storage `s₀` comes to an end. Its values from
before are genuine, its values afterwards are those that the execution ends with, and it reports
every slot that was read while no write to it stood and every slot that changed. -/
theorem replay_storage {s₀ : Address → Int → Int} (total : sources.Total) {t : FrameTree}
    (wf : t.WellFormed 1) (failed : Bool) {m : Machine} {root : Address} (start : m.IsInitial root)
    (owned : ∀ g ∈ t.frames ⟨root, none, false⟩, g.placeholder = false → g.address ≠ .zero)
    (sees : ∀ e ∈ t.reads ⟨root, none, false⟩ .none, e.Sees s₀) (s : σ) :
    ∃ m' s', (replay sources false t.records failed).outcome (m, s) = (.ok (), (m', s')) ∧
      let pre := m'.journal.preStorage
      let post := m'.journal.postStorage
      let final := fun a k => (t.finalWrites failed root a k).getD (s₀ a k)
      (∀ a k q, pre.get? a k = some q → q.value = s₀ a k) ∧
      (∀ a k q, post.get? a k = some q → q.value = final a k) ∧
      (∀ e ∈ t.reads ⟨root, none, false⟩ .none, e.live = none →
        (pre.get? e.account e.slot).isSome) ∧
      ∀ a k, final a k ≠ s₀ a k → (post.get? a k).isSome := by
  have rootFrame : m.frames.root = ⟨root, none, false⟩ := by rw [start.frames]; rfl
  have inner : m.frames.inner = [] := by rw [start.frames]; rfl
  obtain ⟨j, s', means⟩ := answers_meaning total false wf m.frames.root m.journal s
  have replayed := replay_records wf failed inner start.live means
  rw [rootFrame] at means
  have mirrored := mirrors_of_initial start owned sees means
  have live (a : Address) (k : Int) := mirrored.live a k fun h => absurd h.symm Bool.false_ne_true
  have stands := storage_concluded failed start live
  have genuine : ∀ a k q, (t.concluded failed m j).journal.preStorage.get? a k = some q →
      q.value = s₀ a k := mirrored.genuine
  refine ⟨_, s', replayed, genuine, ?_, mirrored.recorded, ?_⟩
  · exact fun a k q => Journal.value_of_postStorage stands genuine
  · exact fun a k => Journal.postStorage_of_changed stands

/-- A slot is read, a call back writes it and reverts, and then it is written for good. -/
def readAndWrite : FrameTree :=
  plain (some .sload) (.named .sload 1 [9])
    (nested .call (.named .call 1 [4, 1, 0])
      (plain (some .sstore) (.named .sstore 2 [9, 5]) (close .abort (.named .revert 2 [])))
      (plain (some .sstore) (.named .sstore 1 [9, 6]) (close .stop (.idle 1 []))))

theorem wellFormed_readAndWrite : readAndWrite.WellFormed 1 := by
  refine ⟨rfl, Record.executes_named (by decide) 1, ?_, rfl, Record.executes_named (by decide) 1,
    rfl, ?_, ⟨rfl, Record.executes_named (by decide) 2, ?_, rfl, Record.aborts_named rfl 2 []⟩,
    rfl, Record.executes_named (by decide) 1, ?_, rfl, Record.executes_idle 1 []⟩
  · rintro _ ⟨⟩
    exact ⟨rfl, List.cons_ne_nil _ _⟩
  · exact ⟨fun h => absurd h (by decide), fun h => absurd h (by decide)⟩
  · rintro _ ⟨⟩
    exact ⟨rfl, fun h => absurd h (by decide)⟩
  · rintro _ ⟨⟩
    exact ⟨rfl, fun h => absurd h (by decide)⟩

theorem replay_storage_readAndWrite :
    let sources : Sources Unit := {}
    let s₀ : Address → Int → Int := fun _ _ => 4
    let root := Address.ofNat 1
    ∃ m' s', (replay sources false readAndWrite.records false).outcome
        (Machine.start root, ()) = (.ok (), (m', s')) ∧
      let pre := m'.journal.preStorage
      let post := m'.journal.postStorage
      let final := fun a k => (readAndWrite.finalWrites false root a k).getD (s₀ a k)
      (∀ a k q, pre.get? a k = some q → q.value = s₀ a k) ∧
      (∀ a k q, post.get? a k = some q → q.value = final a k) ∧
      (∀ e ∈ readAndWrite.reads ⟨root, none, false⟩ .none, e.live = none →
        (pre.get? e.account e.slot).isSome) ∧
      ∀ a k, final a k ≠ s₀ a k → (post.get? a k).isSome :=
  replay_storage ⟨by simp, by simp, by simp⟩ wellFormed_readAndWrite false
    (Machine.isInitial_start _) (by decide +kernel) (by decide +kernel) ()

end FrameTree

end TraceDiff
