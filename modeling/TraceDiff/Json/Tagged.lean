import TraceDiff.Json.Reader

/-! Bytes and great integers in JSON, each as an object with one marked field. -/
namespace TraceDiff.Json

open Rpc (Value)

/-- The bytes or the integer that a marked field holds. -/
def tagged? : List (String × Value) → Option Value
  | [("$bytes", .text digits)] => .bytes <$> Text.Hex.decode digits.toList
  | [("$int", .text digits)] => .int <$> digits.toInt?
  | _ => none

mutual

/-- Puts bytes and integers in the places of their objects, at any depth. -/
def untag : Value → Value
  | .list items => .list (untagAll items)
  | .object fields => (tagged? fields).getD (.object (untagFields fields))
  | v => v

def untagAll : List Value → List Value
  | [] => []
  | v :: vs => untag v :: untagAll vs

def untagFields : List (String × Value) → List (String × Value)
  | [] => []
  | (k, v) :: fields => (k, untag v) :: untagFields fields

end

def readTagged (s : String) : Option Value := untag <$> read s

end TraceDiff.Json
