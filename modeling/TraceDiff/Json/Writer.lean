import TraceDiff.Rpc.Value

/-! Writing JSON on one line, in ASCII. -/
namespace TraceDiff.Json

open Rpc (Value)

/-- A code point as one code unit, or as two halves from `0x10000` on. -/
def unitEscapes (n : Nat) : List Char :=
  let unit (u : Nat) : List Char := '\\' :: 'u' :: Text.Hex.fixed 4 u
  if n < 0x10000 then unit n
  else unit (0xD800 + (n - 0x10000) / 0x400) ++ unit (0xDC00 + (n - 0x10000) % 0x400)

def escape (c : Char) : List Char :=
  if c = '"' || c = '\\' then ['\\', c]
  else if c = '\n' then ['\\', 'n']
  else if c = '\r' then ['\\', 'r']
  else if c = '\t' then ['\\', 't']
  else if c.toNat = 8 then ['\\', 'b']
  else if c.toNat = 12 then ['\\', 'f']
  else if 0x20 ≤ c.toNat && c.toNat < 0x7F then [c]
  else unitEscapes c.toNat

def string (s : String) : String :=
  String.ofList ('"' :: s.toList.flatMap escape ++ ['"'])

/-- A float, of which those that are no numbers of digits have names. -/
def float (x : Binary64) : String :=
  if x.isNaN then "NaN"
  else if x.isFinite then Decimal.text x
  else if x.negative then "-Infinity" else "Infinity"

mutual

/-- Items and fields are parted by a comma and a space. Bytes are written as their digits. -/
def line : Value → String
  | .null => "null"
  | .bool b => if b then "true" else "false"
  | .int n => toString n
  | .float x => float x
  | .text s => string s
  | .bytes b => string (Text.Hex.toText b)
  | .list items => "[" ++ ", ".intercalate (lineAll items) ++ "]"
  | .object fields => "\x7b" ++ ", ".intercalate (lineFields fields) ++ "\x7d"

def lineAll : List Value → List String
  | [] => []
  | v :: vs => line v :: lineAll vs

def lineFields : List (String × Value) → List String
  | [] => []
  | (k, v) :: fields => (string k ++ ": " ++ line v) :: lineFields fields

end

end TraceDiff.Json
