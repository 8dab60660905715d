import TraceDiff.Proofs.FrameTree
import TraceDiff.Proofs.Journal

/-! What the effects of one record can be, whatever trace it stands in: an abort, a frame that opens,
or entries in the journal. -/
namespace TraceDiff

/-- Whether a fault tells that frames and snapshots do not match. -/
def Fault.isMisaligned : Fault → Bool
  | .malformed trace => trace.defect = .noSnapshotToDrop ∨ trace.defect = .noSnapshotToRestore
  | .rootFrame => true
  | _ => false

/-- The fault tells what a trace lacks, but not yet at which record. When that cannot be told,
because a number is too long to be written, that is the fault. -/
def Fault.IsLack (told : Bool) (f : Fault) : Prop :=
  (told = true ∧ ∃ defect op, f = .malformed ⟨defect, none, op⟩ ∧ f.isMisaligned = false) ∨
    told = false ∧ f = .tooManyDigits none

theorem Fault.isLack_told {defect : Defect} {op : Rpc.Value}
    (aligned : (malformed ⟨defect, none, op⟩).isMisaligned = false) :
    (malformed ⟨defect, none, op⟩).IsLack true := .inl ⟨rfl, defect, op, rfl, aligned⟩

theorem Fault.isLack_spelling {defect : Defect} {op : Rpc.Value} (numbers : List Rpc.Value)
    (aligned : (malformed ⟨defect, none, op⟩).isMisaligned = false) :
    (spelling numbers (.malformed ⟨defect, none, op⟩)).IsLack
      (numbers.all Rpc.Value.isWritable) := by
  unfold spelling
  split
  · next told => rw [told]; exact isLack_told aligned
  · next untold => exact .inr ⟨Bool.eq_false_iff.2 untold, rfl⟩

theorem opcode_eq_error {v : Rpc.Value} {f : Fault} (h : v.opcode = .error f) :
    f = .wrongKind ∨ f = .wrongShape := by
  cases v with
  | text name => nomatch h
  | bytes | list | object => exact .inl (Except.error.inj h).symm
  | _ => exact .inr (Except.error.inj h).symm

theorem Opcode.isCreate_of_isCall {o : Opcode} (h : o.isCall = true) : o.isCreate = false := by
  cases o <;> first | rfl | nomatch h

namespace Record

/-- The record is a call or creation, and shows no error. -/
def Opens (r : Record) (o : Opcode) : Prop :=
  r.error = none ∧ r.op.opcode = .ok (some o) ∧ o.opensFrame = true

/-- The opcode with effects that the record names. -/
def opcode? (r : Record) : Option Opcode :=
  match r.op.opcode with
  | .ok o => o
  | .error _ => none

def opens (r : Record) : Bool := r.error.isNone && r.opcode?.any Opcode.opensFrame

def aborts (r : Record) : Bool := r.error.isSome || r.opcode?.any Opcode.aborts

/-- The depth of the frame that the record is replayed in. -/
def level (r : Record) : Int := max r.depth 1

/-- The name and the depth of the record can be written. -/
def isWritable (r : Record) : Bool := r.op.isWritable && Text.isWritable r.depth

/-- No opcode has more than three operands, so their number can be written. -/
theorem isLack_lacks (r : Record) {needed : Int} (few : needed.natAbs ≤ 3) :
    (r.lacks (.int needed)).IsLack r.isWritable := by
  have room : 3 < Nat.pow 10 Text.maxDecimalDigits := by decide +kernel
  have short : Text.isWritable needed = true := decide_eq_true (Nat.lt_of_le_of_lt few room)
  have all : [r.op, .int r.depth, .int needed].all Rpc.Value.isWritable = r.isWritable := by
    simp [isWritable, Rpc.Value.isWritable, short]
  unfold lacks
  rw [← all]
  refine Fault.isLack_spelling _ ?_
  simp [Fault.isMisaligned]

theorem isOk_word (r : Record) (i : Nat) : (r.word i).isOk = decide (i < r.stack.length) := by
  unfold Record.word
  cases held : r.stack[i]? with
  | none => simpa [Except.isOk, Except.toBool] using held
  | some q => simpa [Except.isOk, Except.toBool] using (List.getElem?_eq_some_iff.1 held).1

theorem isOk_peek (r : Record) (i : Nat) : (r.peek i).isOk = decide (i < r.stack.length) := by
  rw [← isOk_word, Record.peek]
  cases r.word i <;> rfl

theorem opcode?_eq_some_iff {r : Record} {o : Opcode} :
    r.opcode? = some o ↔ r.op.opcode = .ok (some o) := by
  unfold opcode?
  cases r.op.opcode <;> simp

theorem opens_iff {r : Record} : r.opens = true ↔ ∃ o, r.Opens o := by
  simp [opens, Opens, Option.any_eq_true, opcode?_eq_some_iff]

theorem aborts_iff {r : Record} : r.aborts = true ↔ r.Aborts := by
  simp [aborts, Aborts, Option.any_eq_true, opcode?_eq_some_iff, Option.isSome_iff_ne_none]

theorem Opens.not_aborts {r : Record} {o : Opcode} (opens : r.Opens o) : ¬ r.Aborts := by
  obtain ⟨fine, named, opensFrame⟩ := opens
  rintro (erring | ⟨o', named', aborts⟩)
  · exact erring fine
  · obtain rfl : o = o' := by simpa [named] using named'
    cases o <;>
      first | exact absurd aborts Bool.false_ne_true | exact absurd opensFrame Bool.false_ne_true

/-- The opcode of the record changes the ledger in its own frame. -/
def Changes (r : Record) : Prop :=
  r.op.opcode = .ok (some .sstore) ∨ r.op.opcode = .ok (some .selfdestruct)

end Record

namespace Journal.Entry

/-- Entries that records make. -/
def isRecorded : Entry → Bool
  | credit _ _ | debit _ _ | push | pop | rollback => false
  | _ => true

/-- Entries that leave the ledger as it is. -/
def observes : Entry → Bool
  | read _ _ _ | touch _ | reference _ | recordHash _ _ => true
  | _ => false

theorem isFlat_of_isRecorded {e : Entry} (h : e.isRecorded = true) : e.isFlat = true := by
  cases e <;> first | rfl | exact h

theorem isRecorded_of_observes {e : Entry} (h : e.observes = true) : e.isRecorded = true := by
  cases e <;> first | rfl | exact h

theorem ledger_of_observes {σ : Type} {sources : Sources σ} {e : Entry} (h : e.observes = true)
    {j j' : Journal} (leads : e.Leads sources j j') : j'.ledger = j.ledger := by
  cases e with
  | read a k v => rw [show j' = j.read a k v from leads, ledger_read]
  | touch a => rw [show j' = j.touch a from leads, ledger_touch]
  | reference a =>
    obtain ⟨preCode, rfl⟩ := leads
    rfl
  | recordHash number word =>
    obtain ⟨hashes, truths, rfl⟩ := leads
    rfl
  | write | credit | debit | transfer | sweep | deploy | destroy | push | pop | rollback =>
    simp [observes] at h

end Journal.Entry

/-- The entry asks for nothing that is not there: for a balance only where balances are known, and for
the hash that one of the later records shows. -/
def Journal.Entry.Grounded (scope : Replay.Scope) (later : List Record) : Journal.Entry → Prop
  | sweep _ _ => scope.baseline = true
  | recordHash _ word => ∃ x ∈ later, ∃ q ∈ x.stack, q.value = word
  | _ => True

namespace Replay

/-- A creation that the later records show to have failed. -/
def failsToCreate (r : Record) (later : List Record) : Bool :=
  r.error.isNone && r.opcode?.any Opcode.isCreate &&
    match createdAddress r later with
    | .ok none => true
    | _ => false

theorem failsToCreate_eq {r : Record} {o : Opcode} (opens : r.Opens o) (later : List Record) :
    failsToCreate r later = true ↔ o.isCreate = true ∧ createdAddress r later = .ok none := by
  obtain ⟨fine, named, -⟩ := opens
  have named : r.opcode? = some o := Record.opcode?_eq_some_iff.2 named
  simp only [failsToCreate, fine, named]
  rcases createdAddress r later with f | (_ | a) <;> simp

theorem opens_of_failsToCreate {r : Record} {later : List Record}
    (fails : failsToCreate r later = true) : r.opens = true := by
  simp only [failsToCreate, Bool.and_eq_true, Option.any_eq_true] at fails
  obtain ⟨⟨fine, o, named, isCreate⟩, -⟩ := fails
  simp [Record.opens, fine, named, Opcode.opensFrame, isCreate]

namespace Effect

/-- The effects that records have. -/
def isRecorded : Effect → Bool
  | note entry => entry.isRecorded
  | enter _ _ _ | abort => true

/-- Effects that make an entry of a kind or open a frame. -/
def Lasting (kind : Journal.Entry → Prop) : Effect → Prop
  | note entry => kind entry
  | enter _ _ _ => True
  | abort => False

theorem mem_noteIf {condition : Bool} {entry : Journal.Entry} {e : Effect} :
    e ∈ noteIf condition entry ↔ condition = true ∧ e = note entry := by
  cases condition <;> simp [noteIf]

/-- Effects that are entries of a kind. -/
def Notes (kind : Journal.Entry → Prop) (effects : List Effect) : Prop :=
  ∃ entries : List Journal.Entry, effects = entries.map note ∧ ∀ e ∈ entries, kind e

section Notes

variable {kind other : Journal.Entry → Prop} {xs ys : List Effect}

theorem notes_nil : Notes kind [] := ⟨[], rfl, by simp⟩

theorem notes_noteIf {condition : Bool} {entry : Journal.Entry}
    (h : condition = true → kind entry) : Notes kind (noteIf condition entry) := by
  cases condition with
  | false => exact notes_nil
  | true => exact ⟨[entry], rfl, by simpa using h⟩

theorem notes_singleton {entry : Journal.Entry} (h : kind entry) : Notes kind [note entry] :=
  ⟨[entry], rfl, by simpa using h⟩

theorem Notes.append (hx : Notes kind xs) (hy : Notes kind ys) : Notes kind (xs ++ ys) := by
  obtain ⟨xs, rfl, hx⟩ := hx
  obtain ⟨ys, rfl, hy⟩ := hy
  refine ⟨xs ++ ys, List.map_append.symm, ?_⟩
  intro e he
  rcases List.mem_append.1 he with he | he
  · exact hx e he
  · exact hy e he

theorem Notes.mono (hx : Notes kind xs) (h : ∀ e, kind e → other e) : Notes other xs := by
  obtain ⟨entries, rfl, he⟩ := hx
  exact ⟨entries, rfl, fun e hmem => h e (he e hmem)⟩

end Notes

variable {scope : Scope} {f : Frame} {o : Opcode} {r : Record} {later : List Record}
  {effects : List Effect}

theorem ofCall_eq_ok : ofCall scope f o r later = .ok effects ↔
    ∃ word value, r.peek 1 = .ok word ∧ (if o = .call then r.peek 2 else .ok 0) = .ok value ∧
      effects = noteIf scope.code (.reference (.ofWord word)) ++ [enter o (.ofWord word) false] ++
        payment f (.ofWord word) value (frameStarted r later) := by
  unfold ofCall
  by_cases plain : o = .call
  · simp only [if_pos plain]
    constructor
    · intro read
      obtain ⟨word, hword, read⟩ := bind_eq_ok.1 read
      obtain ⟨value, hvalue, read⟩ := bind_eq_ok.1 read
      exact ⟨word, value, hword, hvalue, (Except.ok.inj read).symm⟩
    · rintro ⟨word, value, hword, hvalue, rfl⟩
      exact bind_eq_ok.2 ⟨word, hword, bind_eq_ok.2 ⟨value, hvalue, rfl⟩⟩
  · simp only [if_neg plain]
    constructor
    · intro read
      obtain ⟨word, hword, read⟩ := bind_eq_ok.1 read
      exact ⟨word, 0, hword, rfl, (Except.ok.inj read).symm⟩
    · rintro ⟨word, value, hword, hvalue, rfl⟩
      obtain rfl := Except.ok.inj hvalue
      exact bind_eq_ok.2 ⟨word, hword, rfl⟩

theorem ofCreate_eq_ok : ofCreate scope f o r later = .ok effects ↔
    ∃ value created, r.peek 0 = .ok value ∧ createdAddress r later = .ok created ∧
      effects = created.elim [enter o Address.zero true] fun a =>
        [enter o a false] ++ noteIf scope.code (.deploy a) ++
          payment f a value (frameStarted r later) := by
  unfold ofCreate
  constructor
  · intro read
    obtain ⟨value, hvalue, read⟩ := bind_eq_ok.1 read
    obtain ⟨created, hcreated, read⟩ := bind_eq_ok.1 read
    refine ⟨value, created, hvalue, hcreated, ?_⟩
    cases created <;> exact (Except.ok.inj read).symm
  · rintro ⟨value, created, hvalue, hcreated, rfl⟩
    refine bind_eq_ok.2 ⟨value, hvalue, bind_eq_ok.2 ⟨created, hcreated, ?_⟩⟩
    cases created <;> rfl

theorem ofRecord_of_opens (opens : r.Opens o) : ofRecord scope f r later =
    if o.isCall then ofCall scope f o r later else ofCreate scope f o r later := by
  obtain ⟨fine, named, opensFrame⟩ := opens
  have followed : ofRecord scope f r later = ofOpcode scope f o r later := by
    simp [ofRecord, fine, named, bind, Except.bind]
  rw [followed]
  cases o <;> first | rfl | simp [Opcode.opensFrame, Opcode.isCall, Opcode.isCreate] at opensFrame

/-- What is noted as a frame opens. -/
def InOpening (e : Journal.Entry) : Prop := (∃ a, e = .deploy a) ∨ ∃ a b n, e = .transfer a b n

theorem notes_payment (target : Address) (value : Int) (started : Bool) :
    Notes InOpening (payment f target value started) :=
  notes_noteIf fun _ => .inr ⟨_, _, _, rfl⟩

/-- A call or creation opens one frame. Before it only code is looked at; the frame is a placeholder
exactly if a creation failed. -/
theorem opening_of_ofRecord (opens : r.Opens o) (read : ofRecord scope f r later = .ok effects) :
    ∃ target placeholder outside inside,
      effects = outside ++ enter o target placeholder :: inside ∧
        Notes (fun e => ∃ a, e = .reference a) outside ∧ Notes InOpening inside ∧
        (placeholder = true ↔ o.isCreate = true ∧ createdAddress r later = .ok none) := by
  rw [ofRecord_of_opens opens] at read
  split at read
  · next isCall =>
    obtain ⟨word, value, -, -, rfl⟩ := ofCall_eq_ok.1 read
    refine ⟨.ofWord word, false, _, _, List.append_assoc _ _ _, notes_noteIf fun _ => ⟨_, rfl⟩,
      notes_payment _ value _, ?_⟩
    simp [Opcode.isCreate_of_isCall isCall]
  · next noCall =>
    have isCreate : o.isCreate = true := by simpa [Opcode.opensFrame, noCall] using opens.2.2
    obtain ⟨value, created, -, looked, rfl⟩ := ofCreate_eq_ok.1 read
    cases created with
    | none =>
      exact ⟨Address.zero, true, [], [], rfl, notes_nil, notes_nil, by simp [isCreate, looked]⟩
    | some a =>
      refine ⟨a, false, [], _, List.append_assoc _ _ _, notes_nil,
        (notes_noteIf fun _ => .inl ⟨a, rfl⟩).append (notes_payment a value _), ?_⟩
      simp [looked]

/-- Entries that records make, with what they ask for being there. -/
def Makes (scope : Scope) (later : List Record) (e : Journal.Entry) : Prop :=
  e.isRecorded = true ∧ e.Grounded scope later

theorem resultOf_eq_ok {q : Rpc.Quantity} (read : resultOf r later = .ok q) :
    ∃ x ∈ later, q ∈ x.stack := by
  cases later with
  | nil => nomatch read
  | cons next later =>
    refine ⟨next, List.mem_cons_self, ?_⟩
    simp only [resultOf, Record.word] at read
    split at read
    · next found => exact Except.ok.inj read ▸ List.mem_of_getElem? found
    · cases read

theorem notes_of_observation (h : o ≠ .sstore)
    (read : ofObservation scope f o r later = .ok effects) :
    Notes (fun e => e.observes = true ∧ e.Grounded scope later) effects := by
  cases o with
  | sload =>
    obtain ⟨slot, -, read⟩ := bind_eq_ok.1 read
    obtain ⟨value, -, read⟩ := bind_eq_ok.1 read
    obtain rfl := Except.ok.inj read
    exact notes_noteIf fun _ => ⟨rfl, trivial⟩
  | sstore => exact absurd rfl h
  | balance =>
    obtain ⟨word, -, read⟩ := bind_eq_ok.1 read
    obtain rfl := Except.ok.inj read
    exact notes_singleton ⟨rfl, trivial⟩
  | selfbalance =>
    obtain rfl := Except.ok.inj read
    exact notes_noteIf fun _ => ⟨rfl, trivial⟩
  | blockhash =>
    obtain ⟨number, -, read⟩ := bind_eq_ok.1 read
    obtain ⟨word, shown, read⟩ := bind_eq_ok.1 read
    obtain rfl := Except.ok.inj read
    obtain ⟨x, hx, hword⟩ := resultOf_eq_ok shown
    exact notes_singleton ⟨rfl, x, hx, word, hword, rfl⟩
  | extcodesize | extcodecopy | extcodehash =>
    simp only [ofObservation] at read
    split at read
    · obtain ⟨word, -, read⟩ := bind_eq_ok.1 read
      obtain rfl := Except.ok.inj read
      exact notes_singleton ⟨rfl, trivial⟩
    · obtain rfl := Except.ok.inj read
      exact notes_nil
  | create | call | callcode | delegatecall | create2 | staticcall | revert | invalid
  | selfdestruct =>
    obtain rfl := Except.ok.inj read
    exact notes_nil

theorem notes_of_sstore (read : ofSstore f r = .ok effects) :
    Notes (Makes scope later) effects := by
  obtain ⟨slot, -, read⟩ := bind_eq_ok.1 read
  obtain ⟨value, -, read⟩ := bind_eq_ok.1 read
  obtain rfl := Except.ok.inj read
  exact notes_singleton ⟨rfl, trivial⟩

theorem notes_of_selfdestruct (read : ofSelfdestruct scope f r = .ok effects) :
    Notes (Makes scope later) effects := by
  unfold ofSelfdestruct at read
  split at read
  · obtain rfl := Except.ok.inj read
    exact notes_nil
  · obtain ⟨word, -, read⟩ := bind_eq_ok.1 read
    obtain rfl := Except.ok.inj read
    refine Notes.append (Notes.append (notes_noteIf fun known => ?_) (notes_singleton ?_))
      (notes_noteIf fun _ => ?_)
    · exact ⟨rfl, known⟩
    · exact ⟨rfl, trivial⟩
    · exact ⟨rfl, trivial⟩

/-- The effects of a record that does not abort are those of a call, of a creation, of a destruction
or of an observation, if there are any. -/
theorem ofRecord_branches (read : ofRecord scope f r later = .ok effects) :
    (r.Aborts ∧ effects = [abort]) ∨ effects = [] ∨
      ∃ o, r.error = none ∧ r.op.opcode = .ok (some o) ∧
        (o.isCall = true ∧ ofCall scope f o r later = .ok effects ∨
          o.isCreate = true ∧ ofCreate scope f o r later = .ok effects ∨
          o = .selfdestruct ∧ ofSelfdestruct scope f r = .ok effects ∨
          ofObservation scope f o r later = .ok effects) := by
  unfold ofRecord at read
  split at read
  · next erring =>
    refine .inl ⟨.inl ?_, (Except.ok.inj read).symm⟩
    exact Option.isSome_iff_ne_none.1 erring
  · next fine =>
    have fine : r.error = none := by simpa using fine
    obtain ⟨named, hnamed, read⟩ := bind_eq_ok.1 read
    cases named with
    | none => exact .inr (.inl (Except.ok.inj read).symm)
    | some o =>
      simp only [ofOpcode] at read
      split at read
      · next aborts => exact .inl ⟨.inr ⟨o, hnamed, aborts⟩, (Except.ok.inj read).symm⟩
      split at read
      · next isCall => exact .inr (.inr ⟨o, fine, hnamed, .inl ⟨isCall, read⟩⟩)
      split at read
      · next isCreate => exact .inr (.inr ⟨o, fine, hnamed, .inr (.inl ⟨isCreate, read⟩)⟩)
      split at read
      · next destroys => exact .inr (.inr ⟨o, fine, hnamed, .inr (.inr (.inl ⟨destroys, read⟩))⟩)
      split at read
      · exact .inr (.inr ⟨o, fine, hnamed, .inr (.inr (.inr read))⟩)
      · exact .inr (.inl (Except.ok.inj read).symm)

/-- A record aborts the frame, opens one, or makes entries. The entries leave the ledger as it is
unless the record writes storage or destroys the account. -/
theorem ofRecord_cases (read : ofRecord scope f r later = .ok effects) :
    (r.Aborts ∧ effects = [abort]) ∨ (∃ o, r.Opens o) ∨
      Notes (fun e => Makes scope later e ∧ (¬ r.Changes → e.observes = true)) effects := by
  rcases ofRecord_branches read with aborting | rfl | ⟨o, fine, named, branch⟩
  · exact .inl aborting
  · exact .inr (.inr notes_nil)
  rcases branch with ⟨isCall, -⟩ | ⟨isCreate, -⟩ | ⟨destroys, read⟩ | read
  · exact .inr (.inl ⟨o, fine, named, by simp [Opcode.opensFrame, isCall]⟩)
  · exact .inr (.inl ⟨o, fine, named, by simp [Opcode.opensFrame, isCreate]⟩)
  · have changes : r.Changes := .inr (destroys ▸ named)
    exact .inr (.inr ((notes_of_selfdestruct read).mono
      fun e he => ⟨he, fun calm => absurd changes calm⟩))
  · by_cases writes : o = .sstore
    · subst writes
      have changes : r.Changes := .inl named
      exact .inr (.inr ((notes_of_sstore read).mono
        fun e he => ⟨he, fun calm => absurd changes calm⟩))
    · exact .inr (.inr ((notes_of_observation writes read).mono
        fun e he => ⟨⟨Journal.Entry.isRecorded_of_observes he.1, he.2⟩, fun _ => he.1⟩))

theorem Notes.lasting {kind other : Journal.Entry → Prop} (notes : Notes kind effects)
    (h : ∀ e, kind e → other e) : ∀ e ∈ effects, e.Lasting other := by
  obtain ⟨entries, rfl, hentries⟩ := notes
  intro e he
  obtain ⟨entry, hentry, rfl⟩ := List.mem_map.1 he
  exact h entry (hentries entry hentry)

/-- A record aborts its frame and does nothing else, or it does not abort at all. -/
theorem abort_or_makes (read : ofRecord scope f r later = .ok effects) :
    (r.Aborts ∧ effects = [abort]) ∨ ∀ e ∈ effects, e.Lasting (Makes scope later) := by
  rcases ofRecord_cases read with aborting | ⟨o, opens⟩ | notes
  · exact .inl aborting
  · right
    obtain ⟨target, placeholder, outside, inside, rfl, hout, hin, -⟩ := opening_of_ofRecord opens read
    intro e he
    rcases List.mem_append.1 he with he | he
    · refine hout.lasting ?_ e he
      rintro _ ⟨a, rfl⟩
      exact ⟨rfl, trivial⟩
    rcases List.mem_cons.1 he with rfl | he
    · trivial
    · refine hin.lasting ?_ e he
      rintro _ (⟨a, rfl⟩ | ⟨a, b, n, rfl⟩) <;> exact ⟨rfl, trivial⟩
  · exact .inr (notes.lasting fun e he => he.1)

theorem abort_or_lasting (read : ofRecord scope f r later = .ok effects) :
    (r.Aborts ∧ effects = [abort]) ∨ ∀ e ∈ effects, e.Lasting (·.isRecorded = true) := by
  refine (abort_or_makes read).imp_right fun lasting e he => ?_
  have kept := lasting e he
  cases e with
  | note entry => exact kept.1
  | enter _ _ _ => trivial
  | abort => exact kept

section Lacking

variable {α β : Type} {told told' : Bool}

/-- The record whose stack is to blame when the effects of an opcode cannot be read off. None, when
it is that no record follows. -/
def blamed (o : Opcode) (r : Record) (later : List Record) : Option Record :=
  match o with
  | .sload | .blockhash => if r.stack.isEmpty then some r else later.head?
  | .create | .create2 =>
    if r.stack.isEmpty then some r else later.find? fun x => x.depth = r.depth
  | _ => some r

theorem mem_of_blamed {x : Record} (h : blamed o r later = some x) : x ∈ r :: later := by
  unfold blamed at h
  split at h
  case h_5 => exact Option.some.inj h ▸ List.mem_cons_self
  all_goals
    split at h
    · exact Option.some.inj h ▸ List.mem_cons_self
    · first
      | exact List.mem_cons_of_mem r (List.mem_of_mem_head? h)
      | exact List.mem_cons_of_mem r (List.mem_of_find?_eq_some h)

theorem exists_of_blamed (untold : (blamed o r later).all Record.isWritable = false) :
    ∃ x ∈ r :: later, x.isWritable = false := by
  obtain ⟨x, found, long⟩ := (Option.all_eq_false _ _).1 untold
  exact ⟨x, mem_of_blamed found, by simpa using long⟩

/-- The reading fails for what the trace lacks, if it fails. -/
def Lacking (told : Bool) (x : Except Fault α) : Prop := ∀ f, x = .error f → f.IsLack told

theorem lacking_ok (a : α) : Lacking told (.ok a) := nofun

theorem Lacking.bind {x : Except Fault α} {g : α → Except Fault β} (hx : Lacking told x)
    (hg : ∀ a, Lacking told (g a)) : Lacking told (x >>= g) := by
  cases x with
  | error f₀ => exact fun f h => hx f (congrArg Except.error (Except.error.inj h))
  | ok a => exact hg a

/-- Of two readings the first one is to blame exactly when it fails. -/
theorem Lacking.after {x : Except Fault α} {g : α → Except Fault β} {fails : Bool}
    (hx : Lacking told x) (h : x.isOk = !fails) (hg : ∀ a, Lacking told' (g a)) :
    Lacking (if fails then told else told') (x >>= g) := by
  cases x with
  | error f₀ =>
    obtain rfl : fails = true := by simpa [Except.isOk, Except.toBool] using h
    exact fun f h => hx f (congrArg Except.error (Except.error.inj h))
  | ok a =>
    obtain rfl : fails = false := by simpa [Except.isOk, Except.toBool] using h
    exact hg a

theorem lacking_word (r : Record) {place : Nat} (few : place ≤ 2) :
    Lacking r.isWritable (r.word place) := by
  intro f h
  unfold Record.word at h
  split at h
  · nomatch h
  · rw [← Except.error.inj h]
    exact r.isLack_lacks (by omega)

theorem lacking_peek (r : Record) {place : Nat} (few : place ≤ 2) :
    Lacking r.isWritable (r.peek place) := by
  intro f h
  unfold Record.peek at h
  split at h
  · nomatch h
  · next f' short => exact lacking_word r few f (Except.error.inj h ▸ short)

theorem lacking_resultOf (r : Record) (later : List Record) :
    Lacking (later.head?.all Record.isWritable) (resultOf r later) := by
  cases later with
  | nil =>
    rintro f ⟨⟩
    exact Fault.isLack_told (by simp [Fault.isMisaligned])
  | cons next later => exact lacking_word next (Nat.zero_le 2)

theorem lacking_createdAddress (r : Record) (later : List Record) :
    Lacking ((later.find? fun x => x.depth = r.depth).all Record.isWritable)
      (createdAddress r later) := by
  induction later with
  | nil => exact lacking_ok none
  | cons next later ih =>
    unfold createdAddress
    split
    · next same =>
      rw [List.find?_cons_of_pos (by simpa using same)]
      exact (lacking_peek next (Nat.zero_le 2)).bind fun _ => lacking_ok _
    · next apart =>
      rw [List.find?_cons_of_neg (by simpa using apart)]
      exact ih
/-- A reading that starts with the record's own top and goes on with another record. -/
theorem lacking_observing {x : Option Record} {y : Except Fault α} {g : α → Except Fault β}
    (hy : Lacking r.isWritable y) (h : y.isOk = decide (0 < r.stack.length))
    (hg : ∀ a, Lacking (x.all Record.isWritable) (g a)) :
    Lacking ((if r.stack.isEmpty then some r else x).all Record.isWritable) (y >>= g) := by
  rw [apply_ite (Option.all Record.isWritable)]
  refine hy.after (h.trans ?_) hg
  cases r.stack <;> simp

theorem lacking_ofObservation :
    Lacking ((blamed o r later).all Record.isWritable) (ofObservation scope f o r later) := by
  have top : Lacking r.isWritable (r.peek 0) := lacking_peek r (Nat.zero_le 2)
  cases o with
  | sload =>
    exact lacking_observing top (r.isOk_peek 0) fun _ =>
      (lacking_resultOf r later).bind fun _ => lacking_ok _
  | sstore =>
    exact top.bind fun _ => (lacking_word r (by decide)).bind fun _ => lacking_ok _
  | blockhash =>
    exact lacking_observing (lacking_word r (Nat.zero_le 2)) (r.isOk_word 0) fun _ =>
      (lacking_resultOf r later).bind fun _ => lacking_ok _
  | balance => exact top.bind fun _ => lacking_ok _
  | extcodesize | extcodecopy | extcodehash =>
    simp only [ofObservation]
    split
    · exact top.bind fun _ => lacking_ok _
    · exact lacking_ok _
  | _ => exact lacking_ok _

theorem lacking_ofCall (isCall : o.isCall = true) :
    Lacking ((blamed o r later).all Record.isWritable) (ofCall scope f o r later) := by
  have own : (blamed o r later).all Record.isWritable = r.isWritable := by
    cases o <;> first | rfl | nomatch isCall
  rw [own]
  refine (lacking_peek r (by decide)).bind fun _ => ?_
  split
  · exact (lacking_peek r (by decide)).bind fun _ => lacking_ok _
  · exact lacking_ok _

theorem lacking_ofCreate (isCreate : o.isCreate = true) :
    Lacking ((blamed o r later).all Record.isWritable) (ofCreate scope f o r later) := by
  have either : blamed o r later =
      if r.stack.isEmpty then some r else later.find? fun x => x.depth = r.depth := by
    cases o <;> first | rfl | nomatch isCreate
  rw [either]
  refine lacking_observing (lacking_peek r (Nat.zero_le 2)) (r.isOk_peek 0) fun _ =>
    (lacking_createdAddress r later).bind fun created => ?_
  cases created <;> exact lacking_ok _

theorem lacking_ofOpcode :
    Lacking ((blamed o r later).all Record.isWritable) (ofOpcode scope f o r later) := by
  unfold ofOpcode
  split
  · exact lacking_ok _
  split
  · next isCall => exact lacking_ofCall isCall
  split
  · next isCreate => exact lacking_ofCreate isCreate
  split
  · next destroys =>
    subst destroys
    unfold ofSelfdestruct
    split
    · exact lacking_ok _
    · exact (lacking_peek r (Nat.zero_le 2)).bind fun _ => lacking_ok _
  split
  · exact lacking_ofObservation
  · exact lacking_ok _

/-- The effects of a record cannot be told if it names no opcode, or if the trace lacks something. -/
theorem fault_of_ofRecord {fault : Fault} (unread : ofRecord scope f r later = .error fault) :
    (r.error = none ∧ r.op.opcode = .error fault) ∨
      ∃ o, r.op.opcode = .ok (some o) ∧
        fault.IsLack ((blamed o r later).all Record.isWritable) := by
  unfold ofRecord at unread
  split at unread
  · nomatch unread
  · next fine =>
    cases named : r.op.opcode with
    | error f₀ =>
      rw [named] at unread
      exact .inl ⟨by simpa using fine, congrArg Except.error (Except.error.inj unread)⟩
    | ok o =>
      rw [named] at unread
      cases o with
      | none => nomatch unread
      | some o => exact .inr ⟨o, rfl, lacking_ofOpcode fault unread⟩

end Lacking

theorem isRecorded_of_ofRecord (read : ofRecord scope f r later = .ok effects) :
    ∀ e ∈ effects, e.isRecorded = true := by
  rcases abort_or_lasting read with ⟨-, rfl⟩ | lasting
  · intro e he
    obtain rfl := List.mem_singleton.1 he
    rfl
  · intro e he
    cases e with
    | note entry => exact lasting _ he
    | enter _ _ _ => rfl
    | abort => exact (lasting _ he).elim

theorem makes_of_ofRecord (read : ofRecord scope f r later = .ok effects) :
    ∀ e ∈ effects, e.isRecorded = true ∧ ∀ entry, e = note entry → Makes scope later entry := by
  intro e he
  refine ⟨isRecorded_of_ofRecord read e he, ?_⟩
  rintro entry rfl
  rcases abort_or_makes read with ⟨-, rfl⟩ | lasting
  · nomatch List.mem_singleton.1 he
  · exact lasting _ he

end Effect

end Replay

end TraceDiff
