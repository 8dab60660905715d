import TraceDiff.Rpc.Scalar

/-! What an account holds: a number, or the value of any kind that was given for it. -/
namespace TraceDiff

/-- Types of holdings. Whether a value is a number at all is asked only when it has to be one. -/
class Holding (β : Type) where
  ofInt : Int → β
  /-- The holding after a change. -/
  plus : β → Int → Except Fault β
  isNegative : β → Bool
  /-- The holding as a whole number. -/
  number : β → Except Fault Int
  toValue : β → Rpc.Value

namespace Holding

instance : Holding Int where
  ofInt n := n
  plus a n := .ok (a + n)
  isNegative a := a < 0
  number a := .ok a
  toValue := .int

/-- Floats stay floats, and truth values become integers once something is added. -/
instance : Holding Rpc.Value where
  ofInt := .int
  plus
    | .float x, n =>
      match Binary64.ofInt? n with
      | some y => .ok (.float (x.add y))
      | none => .error .beyondFloat
    | v, n => (fun a => .int (a + n)) <$> v.number
  isNegative
    | .int n => n < 0
    | .float x => x.isNegative
    | _ => false
  number := Rpc.Value.number
  toValue := id

@[simp] theorem ofInt_int (n : Int) : (ofInt n : Int) = n := rfl

@[simp] theorem plus_int (a n : Int) : plus a n = .ok (a + n) := rfl

@[simp] theorem isNegative_int (a : Int) : isNegative a = decide (a < 0) := rfl

@[simp] theorem number_int (a : Int) : number a = .ok a := rfl

@[simp] theorem toValue_int (a : Int) : toValue a = .int a := rfl

end Holding

end TraceDiff
