import TraceDiff.Rpc.Value

/-! Values of any kind as names of things: which of them are one name, and how names of one kind are
ordered. -/
namespace TraceDiff.Rpc.Value

/-- A number by its place in the order of all numbers: below, among or above the finite ones, and
among them its multiple of the finest step of a double. -/
def place? : Value → Option (Int × Int)
  | .int n => some (0, n * Binary64.stepsOfOne)
  | .bool b => some (0, if b then Binary64.stepsOfOne else 0)
  | .float x =>
    if x.isNaN then none
    else if x.isFinite then some (0, x.steps)
    else some (if x.negative then -1 else 1, 0)
  | _ => none

def isNumber : Value → Bool
  | .int _ | .bool _ | .float _ => true
  | _ => false

def isText : Value → Bool
  | .text _ => true
  | _ => false

def isBytes : Value → Bool
  | .bytes _ => true
  | _ => false

/-- Whether a value can be a name at all. -/
def isName : Value → Bool
  | .list _ | .object _ => false
  | _ => true

/-- Whether two values are one name: equal numbers are, whatever their kinds. -/
def isSameName (v w : Value) : Bool :=
  v = w || (isNumber v && isNumber w && (place? v).isSome && place? v = place? w)

/-- Whether a value may stand before another one of its kind. -/
def mayPrecede (v w : Value) : Bool :=
  match v, w with
  | .text a, .text b => !(b < a)
  | .bytes a, .bytes b => !(b < a)
  | v, w =>
    match place? v, place? w with
    | some (a, m), some (b, n) => a < b || (a = b && m ≤ n)
    | _, _ => true

/-- Whether names can be put in order: one alone can, several have to be all numbers, all texts or
all bytes. -/
def haveOrder (names : List Value) : Bool :=
  names.length ≤ 1 || names.all isNumber || names.all isText || names.all isBytes

/-- The names without those that were met before. -/
def distinct (names : List Value) : List Value :=
  names.foldl (fun known v => if known.any (isSameName · v) then known else known ++ [v]) []

example : (distinct [.int 1, .text "1", .bool true, .int 1]).map kind = ["int", "str"] := by
  decide +kernel

end TraceDiff.Rpc.Value
