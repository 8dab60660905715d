import TraceDiff.Opcode
import TraceDiff.Rpc.Order
import TraceDiff.Rpc.Scalar

/-! The opcode trace of a transaction: its records, in execution order. -/
namespace TraceDiff

/-- The opcode that a record's name stands for, if it has an effect on state. Only a text is a
name. -/
def Rpc.Value.opcode : Rpc.Value → Except Fault (Option Opcode)
  | .text name => .ok (Opcode.parse? name)
  | .bytes _ | .list _ | .object _ => .error .wrongKind
  | _ => .error .wrongShape

/-- One executed opcode. The stack is the one before it, with its top first. Whether
`op` is a name is asked only when the record is replayed. -/
structure Record where
  op : Rpc.Value
  depth : Int
  stack : List Rpc.Quantity := []
  error : Option Rpc.Value := none
  pc : Int := 0

namespace Record

/-- What a stack that is too short for a number of operands lacks. -/
def lacks (r : Record) (needed : Rpc.Value) : Fault :=
  .spelling [r.op, .int r.depth, needed]
    (.malformed ⟨.missingOperand r.op.shown r.depth needed r.stack.length, none, r.op⟩)

/-- The operand `position` places below the top, as it came. -/
def word (r : Record) (position : Nat) : Except Fault Rpc.Quantity :=
  match r.stack[position]? with
  | some word => .ok word
  | none => .error (r.lacks (.int (position + 1)))

/-- The operand `position` places below the top. -/
def peek (r : Record) (position : Nat) : Except Fault Int :=
  match r.word position with
  | .ok word => .ok word.value
  | .error f => .error f

/-- The operand at a signed place: from `-1` on, negative places count up from the bottom. -/
def operand (r : Record) (place : Int) : Except Fault Int :=
  if 0 ≤ place then r.peek place.toNat
  else match r.stack.reverse[(-1 - place).toNat]? with
    | some word => .ok word.value
    | none => .error .outOfRange

/-- The operand at a place of any kind. A float is no place, but may lie beyond all of them. -/
def operandAt (r : Record) : Rpc.Value → Except Fault Int
  | .float x =>
    if !x.isNaN && Rpc.Value.mayPrecede (.int r.stack.length) (.float x) then
      .error (r.lacks (.float (x.add (Binary64.ofRatio false 1 1))))
    else .error .wrongKind
  | v => v.number >>= r.operand

@[simp] theorem peek_eq_ok_iff {r : Record} {position : Nat} {word : Int} :
    r.peek position = .ok word ↔ r.stack[position]?.map (·.value) = some word := by
  unfold peek Record.word
  cases r.stack[position]? <;> simp

/-- An error field that is null or empty is no error. -/
def ofValue (v : Rpc.Value) : Except Fault Record := do
  let fields ← v.fields
  let stack := Rpc.optional fields "stack"
  let op ← Rpc.required fields "op"
  let depth ← (← Rpc.required fields "depth").integer
  let words ← (← stack.itemsOrNone).mapM Rpc.Value.amount
  let error := Rpc.optional fields "error"
  let pc ← (Rpc.optional fields "pc").quantity
  return ⟨op, depth, words.reverse, if error.truthy then some error else none, pc⟩

end Record

structure Trace where
  failed : Bool
  gasUsed : Rpc.Quantity
  returnValue : Bytes := []
  records : List Record := []

def Trace.ofValue (v : Rpc.Value) : Except Fault Trace := do
  let fields ← v.fields
  let failed := (Rpc.optional fields "failed").truthy
  let gasUsed ← (Rpc.optional fields "gas").amount
  let returnValue ← (Rpc.optional fields "returnValue").data
  let records ← (← (Rpc.optional fields "structLogs").itemsOrNone).mapM Record.ofValue
  return ⟨failed, gasUsed, returnValue, records⟩

end TraceDiff
