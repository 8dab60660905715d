import TraceDiff.Bytes
import TraceDiff.Decimal.Shortest
import TraceDiff.Text.Quoted

/-! Values as a node sends them: JSON, with byte strings and floats beside integers. Objects keep
their fields in the order of arrival. -/
namespace TraceDiff.Rpc

inductive Value where
  | null
  | bool (b : Bool)
  | int (n : Int)
  | float (x : Binary64)
  | text (s : String)
  | bytes (b : Bytes)
  | list (items : List Value)
  | object (fields : List (String × Value))
deriving Repr

namespace Value

instance : Inhabited Value := ⟨.null⟩

mutual

/-- Whether two values have one form and equal parts; floats are compared by their bits. -/
def same : Value → Value → Bool
  | .null, .null => true
  | .bool a, .bool b => a = b
  | .int a, .int b => a = b
  | .float a, .float b => a = b
  | .text a, .text b => a = b
  | .bytes a, .bytes b => a = b
  | .list a, .list b => sameAll a b
  | .object a, .object b => sameFields a b
  | _, _ => false

def sameAll : List Value → List Value → Bool
  | [], [] => true
  | v :: vs, w :: ws => same v w && sameAll vs ws
  | _, _ => false

def sameFields : List (String × Value) → List (String × Value) → Bool
  | [], [] => true
  | (a, v) :: fs, (b, w) :: gs => a = b && same v w && sameFields fs gs
  | _, _ => false

end

mutual

theorem same_iff (v w : Value) : same v w = true ↔ v = w := by
  cases v with
  | list vs => cases w <;> simp [same, sameAll_iff vs]
  | object fs => cases w <;> simp [same, sameFields_iff fs]
  | _ => cases w <;> simp [same]

theorem sameAll_iff (vs ws : List Value) : sameAll vs ws = true ↔ vs = ws := by
  match vs, ws with
  | [], [] => simp [sameAll]
  | [], _ :: _ => simp [sameAll]
  | _ :: _, [] => simp [sameAll]
  | v :: vs, w :: ws => simp [sameAll, same_iff v w, sameAll_iff vs ws]

theorem sameFields_iff (fs gs : List (String × Value)) : sameFields fs gs = true ↔ fs = gs := by
  match fs, gs with
  | [], [] => simp [sameFields]
  | [], _ :: _ => simp [sameFields]
  | _ :: _, [] => simp [sameFields]
  | (a, v) :: fs, (b, w) :: gs =>
    simp [sameFields, same_iff v w, sameFields_iff fs gs, Prod.ext_iff, and_assoc]

end

instance : DecidableEq Value := fun v w => decidable_of_iff _ (same_iff v w)

/-- Sets a field: a known one keeps its place. -/
def setField (key : String) (v : Value) : List (String × Value) → List (String × Value)
  | [] => [(key, v)]
  | (k, w) :: rest => if k = key then (k, v) :: rest else (k, w) :: setField key v rest

def lookup (key : String) (fields : List (String × Value)) : Option Value :=
  (fields.find? (·.1 == key)).map (·.2)

theorem lookup_setField (key k : String) (v : Value) (fields : List (String × Value)) :
    lookup k (setField key v fields) = if k = key then some v else lookup k fields := by
  induction fields with
  | nil =>
    by_cases h : k = key
    · simp [setField, lookup, h]
    · simp [setField, lookup, h, Ne.symm h]
  | cons f fields ih =>
    obtain ⟨a, w⟩ := f
    unfold lookup at ih ⊢
    by_cases ha : a = key
    · subst ha
      by_cases hk : k = a
      · simp [setField, hk]
      · simp [setField, hk, Ne.symm hk]
    · by_cases hk : a = k
      · subst hk; simp [setField, ha]
      · simp [setField, ha, hk, ih]

/-- Whether a field counts as present: null, zero and everything empty do not. -/
def truthy : Value → Bool
  | .null => false
  | .bool b => b
  | .int n => n != 0
  | .float x => !x.isZero
  | .text s => !s.isEmpty
  | .bytes b => !b.isEmpty
  | .list items => !items.isEmpty
  | .object fields => !fields.isEmpty

/-- Truth values count as one and zero where a number is needed. -/
def isTruth : Value → Bool
  | .bool _ => true
  | _ => false

/-- The name of the kind of value in a message. -/
def kind : Value → String
  | .null => "NoneType"
  | .bool _ => "bool"
  | .int _ => "int"
  | .float _ => "float"
  | .text _ => "str"
  | .bytes _ => "bytes"
  | .list _ => "list"
  | .object _ => "dict"

mutual

/-- The value as a message shows it, texts in quotes. -/
def quoted : Value → String
  | .null => "None"
  | .bool b => if b then "True" else "False"
  | .int n => toString n
  | .float x => Decimal.text x
  | .text s => Text.Quoted.text s
  | .bytes b => Text.Quoted.bytes b
  | .list items => "[" ++ ", ".intercalate (quotedAll items) ++ "]"
  | .object fields => "\x7b" ++ ", ".intercalate (quotedFields fields) ++ "\x7d"

def quotedAll : List Value → List String
  | [] => []
  | v :: vs => quoted v :: quotedAll vs

def quotedFields : List (String × Value) → List String
  | [] => []
  | (k, v) :: fields => (Text.Quoted.text k ++ ": " ++ quoted v) :: quotedFields fields

end

/-- The value as a message shows it, a text alone without quotes. -/
def shown : Value → String
  | .text s => s
  | v => v.quoted

end Value

end TraceDiff.Rpc
