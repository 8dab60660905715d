import TraceDiff.Proofs.Replay.Invariants

/-! Which accounts the effects of a record are about. Each is the account executing, or one that an
operand of the record names, or one that the record creates; only the frame of a creation that
failed has an address of its own making. -/
namespace TraceDiff

/-- Where on the stack the opcode has the address of an account. -/
def Opcode.accountPlace : Opcode → Option Nat
  | .call | .callcode | .delegatecall | .staticcall => some 1
  | .balance | .extcodesize | .extcodecopy | .extcodehash | .selfdestruct => some 0
  | _ => none

/-- The record is replayed, and its opcode has this word as the address of an account. -/
def Record.NamesWord (r : Record) (word : Int) : Prop :=
  r.error = none ∧ ∃ o place, r.op.opcode = .ok (some o) ∧ o.accountPlace = some place ∧
    r.peek place = .ok word

def Record.Names (r : Record) (a : Address) : Prop := ∃ word, r.NamesWord word ∧ a = .ofWord word

/-- The word that the record has as the address of an account. -/
def Record.namedWord? (r : Record) : Option Int :=
  if r.error.isSome then none
  else do
    let place ← (← r.opcode?).accountPlace
    (r.peek place).toOption

theorem Record.namesWord_iff {r : Record} {word : Int} :
    r.NamesWord word ↔ r.namedWord? = some word := by
  have toOption (x : Except Fault Int) : x.toOption = some word ↔ x = .ok word :=
    ⟨eq_ok_of_toOption, by rintro rfl; rfl⟩
  cases shown : r.error <;>
    simp [NamesWord, namedWord?, shown, Option.bind_eq_some_iff, opcode?_eq_some_iff, toOption]

namespace Replay

/-- The later records show that the record created the account. -/
def Creates (r : Record) (later : List Record) (a : Address) : Prop :=
  createdAddress r later = .ok (some a)

/-- The account executing, if it is a real one. -/
def IsOwn (top : Frame) (a : Address) : Prop := a = top.address ∧ top.placeholder = false

end Replay

open Replay (Scope Creates IsOwn createdAddress)

/-- Where the accounts of an entry come from. -/
def Journal.Entry.Stems (scope : Scope) (top : Frame) (r : Record) (later : List Record) :
    Journal.Entry → Prop
  | read a _ _ => IsOwn top a
  | write a _ _ => a = top.address
  | touch a => IsOwn top a ∨ r.Names a
  | transfer a b _ => IsOwn top a ∧ (r.Names b ∨ Creates r later b)
  | sweep a b => IsOwn top a ∧ r.Names b
  | reference a => scope.code = true ∧ r.Names a
  | deploy a => scope.code = true ∧ Creates r later a
  | destroy a => scope.code = true ∧ IsOwn top a
  | recordHash _ _ => True
  | credit _ _ | debit _ _ | push | pop | rollback => False

namespace Replay

/-- Where the accounts of an effect come from. -/
def Effect.Stems (scope : Scope) (top : Frame) (r : Record) (later : List Record) : Effect → Prop
  | note e => e.Stems scope top r later
  | enter o a placeholder =>
    if placeholder then a = .zero ∧ o.isCreate = true else r.Names a ∨ Creates r later a
  | abort => r.Aborts

namespace Effect

variable {scope : Scope} {top : Frame} {o : Opcode} {r : Record} {later : List Record}
  {effects : List Effect}

/-- All effects of the list come from the record. -/
def AllStem (scope : Scope) (top : Frame) (r : Record) (later : List Record)
    (effects : List Effect) : Prop := ∀ e ∈ effects, e.Stems scope top r later

theorem allStem_nil : AllStem scope top r later [] := List.forall_mem_nil _

theorem allStem_singleton {e : Effect} (h : e.Stems scope top r later) :
    AllStem scope top r later [e] := List.forall_mem_singleton.2 h

theorem allStem_noteIf {condition : Bool} {e : Journal.Entry}
    (h : condition = true → e.Stems scope top r later) :
    AllStem scope top r later (noteIf condition e) := by
  intro x hx
  obtain ⟨met, rfl⟩ := mem_noteIf.1 hx
  exact h met

theorem AllStem.append {xs ys : List Effect} (hx : AllStem scope top r later xs)
    (hy : AllStem scope top r later ys) : AllStem scope top r later (xs ++ ys) :=
  fun e he => (List.mem_append.1 he).elim (hx e) (hy e)

theorem allStem_payment {a : Address} (value : Int) (started : Bool)
    (h : r.Names a ∨ Creates r later a) :
    AllStem scope top r later (payment top a value started) := by
  refine allStem_noteIf fun moved => ⟨⟨rfl, ?_⟩, h⟩
  simp only [Bool.and_eq_true, Bool.not_eq_true'] at moved
  exact moved.1.2

theorem allStem_ofCall (named : ∀ word, r.peek 1 = .ok word → r.Names (.ofWord word))
    (read : ofCall scope top o r later = .ok effects) : AllStem scope top r later effects := by
  obtain ⟨word, value, hword, -, rfl⟩ := ofCall_eq_ok.1 read
  have names := named word hword
  refine ((allStem_noteIf fun code => ?_).append (allStem_singleton ?_)).append
    (allStem_payment value _ (.inl names))
  · exact ⟨code, names⟩
  · exact .inl names

theorem allStem_ofCreate (isCreate : o.isCreate = true)
    (read : ofCreate scope top o r later = .ok effects) : AllStem scope top r later effects := by
  obtain ⟨value, created, -, looked, rfl⟩ := ofCreate_eq_ok.1 read
  cases created with
  | none => exact allStem_singleton ⟨rfl, isCreate⟩
  | some a =>
    refine ((allStem_singleton ?_).append (allStem_noteIf fun code => ?_)).append
      (allStem_payment value _ (.inr looked))
    · exact .inr looked
    · exact ⟨code, looked⟩

theorem allStem_ofSelfdestruct (named : ∀ word, r.peek 0 = .ok word → r.Names (.ofWord word))
    (read : ofSelfdestruct scope top r = .ok effects) : AllStem scope top r later effects := by
  unfold ofSelfdestruct at read
  split at read
  · obtain rfl := Except.ok.inj read
    exact allStem_nil
  · next real =>
    have own : IsOwn top top.address := ⟨rfl, Bool.eq_false_iff.2 real⟩
    obtain ⟨word, hword, read⟩ := bind_eq_ok.1 read
    obtain rfl := Except.ok.inj read
    refine ((allStem_noteIf fun _ => ?_).append (allStem_singleton ?_)).append
      (allStem_noteIf fun code => ?_)
    · exact ⟨own, named word hword⟩
    · exact .inr (named word hword)
    · exact ⟨code, own⟩

theorem allStem_ofObservation
    (named : ∀ word, o.accountPlace = some 0 → r.peek 0 = .ok word → r.Names (.ofWord word))
    (read : ofObservation scope top o r later = .ok effects) :
    AllStem scope top r later effects := by
  cases o with
  | sload =>
    obtain ⟨slot, -, read⟩ := bind_eq_ok.1 read
    obtain ⟨value, -, read⟩ := bind_eq_ok.1 read
    obtain rfl := Except.ok.inj read
    exact allStem_noteIf fun real => ⟨rfl, by simpa using real⟩
  | sstore =>
    obtain ⟨slot, -, read⟩ := bind_eq_ok.1 read
    obtain ⟨value, -, read⟩ := bind_eq_ok.1 read
    obtain rfl := Except.ok.inj read
    exact allStem_singleton rfl
  | balance =>
    obtain ⟨word, hword, read⟩ := bind_eq_ok.1 read
    obtain rfl := Except.ok.inj read
    exact allStem_singleton (.inr (named word rfl hword))
  | selfbalance =>
    obtain rfl := Except.ok.inj read
    exact allStem_noteIf fun real => .inl ⟨rfl, by simpa using real⟩
  | blockhash =>
    obtain ⟨number, -, read⟩ := bind_eq_ok.1 read
    obtain ⟨word, -, read⟩ := bind_eq_ok.1 read
    obtain rfl := Except.ok.inj read
    exact allStem_singleton trivial
  | extcodesize | extcodecopy | extcodehash =>
    simp only [ofObservation] at read
    split at read
    · next followed =>
      obtain ⟨word, hword, read⟩ := bind_eq_ok.1 read
      obtain rfl := Except.ok.inj read
      refine allStem_singleton ⟨?_, named word rfl hword⟩
      exact (Bool.and_eq_true_iff.1 followed).2
    · obtain rfl := Except.ok.inj read
      exact allStem_nil
  | create | call | callcode | delegatecall | create2 | staticcall | revert | invalid
  | selfdestruct =>
    obtain rfl := Except.ok.inj read
    exact allStem_nil

/-- Every account that an effect of a record is about comes from the record. -/
theorem allStem_ofRecord (read : ofRecord scope top r later = .ok effects) :
    AllStem scope top r later effects := by
  rcases ofRecord_branches read with ⟨aborts, rfl⟩ | rfl | ⟨o, fine, hop, branch⟩
  · exact allStem_singleton aborts
  · exact allStem_nil
  have named (place : Nat) (has : o.accountPlace = some place) (word : Int)
      (hword : r.peek place = .ok word) : r.Names (.ofWord word) :=
    ⟨word, ⟨fine, o, place, hop, has, hword⟩, rfl⟩
  rcases branch with ⟨isCall, read⟩ | ⟨isCreate, read⟩ | ⟨destroys, read⟩ | read
  · refine allStem_ofCall (named 1 ?_) read
    cases o <;> first | rfl | nomatch isCall
  · exact allStem_ofCreate isCreate read
  · exact allStem_ofSelfdestruct (named 0 (by rw [destroys]; rfl)) read
  · exact allStem_ofObservation (fun word has => named 0 has word) read

end Effect

end Replay

end TraceDiff
