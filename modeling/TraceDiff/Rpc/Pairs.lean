import TraceDiff.Rpc.Order
import TraceDiff.Rpc.Scalar

/-! Values of any kind as lists of pairs, each of a name and what goes by it. -/
namespace TraceDiff.Rpc.Value

/-- The two parts of a pair: of a list, a text, bytes or the names of an object's fields. -/
def pair (v : Value) : Except Fault (Value × Value) := do
  match ← v.items with
  | [name, w] => return (name, w)
  | _ => .error .notPairs

/-- Sets what goes by a name: a known one keeps its place and its form. -/
def setNamed (name v : Value) : List (Value × Value) → List (Value × Value)
  | [] => [(name, v)]
  | (k, w) :: rest =>
    if isSameName k name then (k, v) :: rest else (k, w) :: setNamed name v rest

/-- The pairs of a list, of which a later one wins over an earlier one of its name. -/
def pairs (v : Value) : Except Fault (List (Value × Value)) := do
  (← v.items).foldlM (fun known p => do
    let (name, w) ← p.pair
    if name.isName then return setNamed name w known else throw .wrongKind) []

example : (pairs (.list [.text "ab", .object [("a", .null), ("c", .int 1)]])).toOption =
    some [(.text "a", .text "c")] := by decide +kernel

end TraceDiff.Rpc.Value
