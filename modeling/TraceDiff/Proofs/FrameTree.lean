import TraceDiff.Replay

/-! Traces that are the records of a tree of frames. A frame executes its own records one after
another, and between two of them the frames that it opens; the record after a call or creation
shows its result. -/
namespace TraceDiff

open Rpc (Quantity)

namespace Opcode

/-- How many operands the effects of an opcode are read off. -/
def operands : Opcode → Nat
  | call => 3
  | callcode | delegatecall | staticcall | sstore => 2
  | selfbalance | revert | invalid => 0
  | _ => 1

/-- Opcodes with effects that neither open nor close a frame. -/
def staysInFrame : Opcode → Bool
  | balance | extcodesize | extcodecopy | extcodehash | blockhash | selfbalance | sload | sstore =>
    true
  | _ => false

end Opcode

namespace Record

/-- The operand `i` places below the top of the stack, zero where there is none. -/
def arg (r : Record) (i : Nat) : Quantity := r.stack.getD i (.ofInt 0)

theorem word_eq_arg {r : Record} {i : Nat} (h : i < r.stack.length) : r.word i = .ok (r.arg i) := by
  simp [word, arg, h]

theorem peek_eq_arg {r : Record} {i : Nat} (h : i < r.stack.length) :
    r.peek i = .ok (r.arg i).value := by
  simp [peek, word_eq_arg h]

/-- The record executes the opcode, if it has one with effects, and its stack holds the operands. -/
def Executes (r : Record) (opcode : Option Opcode) : Prop :=
  r.error = none ∧ r.op.opcode = .ok opcode ∧ (opcode.map Opcode.operands).getD 0 ≤ r.stack.length

/-- The record shows an error, or an opcode that aborts. -/
def Aborts (r : Record) : Prop :=
  r.error ≠ none ∨ ∃ o, r.op.opcode = .ok (some o) ∧ o.aborts = true

/-- The record of an opcode that traces give its own name. -/
def named (o : Opcode) (depth : Int) (stack : List Int) : Record :=
  { op := .text o.name, depth, stack := stack.map .ofInt }

/-- A record that has no effect. -/
def idle (depth : Int) (stack : List Int) : Record :=
  { op := .text "POP", depth, stack := stack.map .ofInt }

theorem executes_named {o : Opcode} {stack : List Int} (h : o.operands ≤ stack.length)
    (depth : Int) : (named o depth stack).Executes (some o) :=
  ⟨rfl, by simp [named, Rpc.Value.opcode], by simpa [named] using h⟩

theorem executes_idle (depth : Int) (stack : List Int) : (idle depth stack).Executes none :=
  ⟨rfl, congrArg Except.ok (by decide +kernel : Opcode.parse? "POP" = none), Nat.zero_le _⟩

theorem aborts_named {o : Opcode} (h : o.aborts = true) (depth : Int) (stack : List Int) :
    (named o depth stack).Aborts :=
  .inr ⟨o, by simp [named, Rpc.Value.opcode], h⟩

end Record

inductive Ending where
  | stop | selfdestruct | abort
deriving DecidableEq, Repr

def Ending.Fits (r : Record) : Ending → Prop
  | stop => r.Executes none
  | selfdestruct => r.Executes (some .selfdestruct)
  | abort => r.Aborts

/-- What a frame executes from one of its records on. -/
inductive FrameTree where
  /-- The record that closes the frame. -/
  | close (ending : Ending) (r : Record)
  /-- A record that opens no frame. -/
  | plain (opcode : Option Opcode) (r : Record) (rest : FrameTree)
  /-- A call or creation whose frame did not start. -/
  | unstarted (opcode : Opcode) (r : Record) (rest : FrameTree)
  /-- A call or creation, and everything that its frame executes. -/
  | nested (opcode : Opcode) (r : Record) (child rest : FrameTree)

namespace FrameTree

def records : FrameTree → List Record
  | close _ r => [r]
  | plain _ r rest => r :: rest.records
  | unstarted _ r rest => r :: rest.records
  | nested _ r child rest => r :: (child.records ++ rest.records)

def first : FrameTree → Record
  | close _ r | plain _ r _ | unstarted _ r _ | nested _ r _ _ => r

/-- What the records show to be the result of the opcode before them. -/
def result (t : FrameTree) : Quantity := t.first.arg 0

def aborts : FrameTree → Bool
  | close ending _ => ending = .abort
  | plain _ _ rest | unstarted _ _ rest | nested _ _ _ rest => rest.aborts

/-- Whether `rest` shows the result of the opcode before it, where the opcode has one. -/
def ShowsResult (rest : FrameTree) : Opcode → Prop
  | .sload => rest.first.stack ≠ []
  | .blockhash => rest.first.stack ≠ [] ∧ Word.Fits rest.result.value
  | o => o.isCreate = true → rest.first.stack ≠ []

/-- The records of a frame lie at its depth and those of the frames it opens one deeper. They have
their operands, and a call that did not start or a creation that aborted has the result zero. -/
def WellFormed (depth : Int) : FrameTree → Prop
  | close ending r => r.depth = depth ∧ ending.Fits r
  | plain opcode r rest =>
    r.depth = depth ∧ r.Executes opcode ∧
      (∀ o ∈ opcode, o.staysInFrame = true ∧ rest.ShowsResult o) ∧ rest.WellFormed depth
  | unstarted opcode r rest =>
    r.depth = depth ∧ r.Executes (some opcode) ∧ opcode.opensFrame = true ∧
      (rest.ShowsResult opcode ∧ rest.result.value = 0) ∧ rest.WellFormed depth
  | nested opcode r child rest =>
    r.depth = depth ∧ r.Executes (some opcode) ∧ opcode.opensFrame = true ∧
      (rest.ShowsResult opcode ∧
        (opcode.isCreate = true → child.aborts = true → rest.result.value = 0)) ∧
      child.WellFormed (depth + 1) ∧ rest.WellFormed depth

end FrameTree

/-- The account a call names with an operand, or a creation with its result. -/
def Opcode.callee (o : Opcode) (r : Record) (result : Quantity) : Address :=
  if o.isCreate then .ofWord result.value else .ofWord (r.arg 1).value

/-- A creation with the zero address for a result failed. -/
def Opcode.createsNothing (o : Opcode) (result : Quantity) : Bool :=
  o.isCreate && Address.ofWord result.value = Address.zero

/-- The frame that a call or creation opens in the frame `f`. -/
def Frame.child (f : Frame) (o : Opcode) (r : Record) (result : Quantity) : Frame :=
  if o.keepsContext then ⟨f.address, some o, f.placeholder⟩
  else ⟨o.callee r result, some o, o.createsNothing result⟩

theorem Frame.placeholder_child {f : Frame} (real : f.placeholder = false) {o : Opcode}
    {result : Quantity} (creates : o.createsNothing result = false) (r : Record) :
    (f.child o r result).placeholder = false := by
  unfold child
  split
  · exact real
  · exact creates

namespace FrameTree

/-- Nothing lasts of a frame that aborts, nor of a creation that failed. -/
def isUndone (child : FrameTree) (opcode : Opcode) (result : Quantity) : Bool :=
  child.aborts || opcode.createsNothing result

theorem isUndone_eq_false {child : FrameTree} {o : Opcode} {result : Quantity} :
    child.isUndone o result = false ↔ child.aborts = false ∧ o.createsNothing result = false := by
  rw [isUndone, Bool.or_eq_false_iff]

/-- The account executing at each record. -/
def contexts (f : Frame) : FrameTree → List Address
  | close _ _ => [f.address]
  | plain _ _ rest | unstarted _ _ rest => f.address :: rest.contexts f
  | nested o r child rest =>
    f.address :: (child.contexts (f.child o r rest.result) ++ rest.contexts f)

/-- How many of the frames that were opened are undone. -/
def undone : FrameTree → Nat
  | close _ _ => 0
  | plain _ _ rest => rest.undone
  | unstarted o _ rest => (o.createsNothing rest.result).toNat + rest.undone
  | nested o _ child rest =>
    (child.isUndone o rest.result).toNat + child.undone + rest.undone

/-- How many of the frames that were opened are kept. -/
def kept : FrameTree → Nat
  | close _ _ => 0
  | plain _ _ rest => rest.kept
  | unstarted o _ rest => (!o.createsNothing rest.result).toNat + rest.kept
  | nested o _ child rest => (!child.isUndone o rest.result).toNat + child.kept + rest.kept

end FrameTree

end TraceDiff
