import TraceDiff.Rpc.Value
import TraceDiff.Text.Numeral

/-! Numbers as they come from a node. A truth value counts as one or zero, but is still written as
a truth value where the number itself is written. -/
namespace TraceDiff.Rpc

namespace Value

mutual

/-- Whether a value has no number that is too long to be written. -/
def isWritable : Value → Bool
  | .int n => Text.isWritable n
  | .list items => areWritable items
  | .object fields => haveWritable fields
  | _ => true

def areWritable : List Value → Bool
  | [] => true
  | v :: vs => isWritable v && areWritable vs

def haveWritable : List (String × Value) → Bool
  | [] => true
  | (_, v) :: fields => isWritable v && haveWritable fields

end

end Value

structure Quantity where
  value : Int
  isTruth : Bool := false
deriving DecidableEq, Repr

namespace Quantity

def ofInt (n : Int) : Quantity := { value := n }

def toValue (q : Quantity) : Value := if q.isTruth then .bool (q.value != 0) else .int q.value

def shown (q : Quantity) : String := q.toValue.shown

@[simp] theorem value_ofInt (n : Int) : (ofInt n).value = n := rfl

end Quantity

end TraceDiff.Rpc
