import TraceDiff.Diff.Account
import TraceDiff.Rpc.Pairs
import TraceDiff.Text.HexFloat

/-! The state of one account given in values of any kind. Numbers, bytes and nothing at all can be
written; slots have to be of kinds that have an order among each other. -/
namespace TraceDiff.Diff.Given

open Rpc (Value)

/-- Slots in ascending order, if they have one. -/
def sorted (slots : List (Value × Value)) : Except Fault (List (Value × Value)) :=
  if Value.haveOrder (slots.map (·.1)) then
    .ok (slots.mergeSort fun s t => Value.mayPrecede s.1 t.1)
  else .error .wrongKind

def number : Value → Except Fault String
  | .null => word? none
  | .int n => word n
  | .bool b => word (if b then 1 else 0)
  | _ => .error .wrongShape

/-- Code is bytes, but a float has digits in base sixteen too. -/
def digits? : Value → Except Fault (Option String)
  | .null => .ok none
  | .bytes b => .ok (code (some b))
  | .float x => .ok (some (Text.HexFloat.text x))
  | _ => .error .wrongShape

def writeSlots : List (Value × Value) → Except Fault (List (Key × Document))
  | [] => .ok []
  | (slot, v) :: rest => do
    let name ← number slot
    let written ← number v
    let more ← writeSlots rest
    return (.name name, .text written) :: more

end Given

/-- Storage is given in pairs of a slot and its value. -/
structure Given where
  preBalance : Rpc.Value
  postBalance : Rpc.Value
  preStorage : Rpc.Value := .list []
  postStorage : Rpc.Value := .list []
  preCode : Rpc.Value := .null
  postCode : Rpc.Value := .null

def Given.write (g : Given) : Except Fault Document := do
  let preSlots ← g.preStorage.pairs
  let postSlots ← g.postStorage.pairs
  let preBalance ← number g.preBalance
  let postBalance ← number g.postBalance
  let preStorage ← sorted preSlots >>= writeSlots
  let postStorage ← sorted postSlots >>= writeSlots
  let preCode ← digits? g.preCode
  let postCode ← digits? g.postCode
  return accountMap preBalance postBalance preStorage postStorage preCode postCode

end TraceDiff.Diff
