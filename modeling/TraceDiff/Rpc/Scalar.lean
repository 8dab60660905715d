import TraceDiff.Fault
import TraceDiff.Rpc.Value
import TraceDiff.Text.Numeral

/-! Quantities, byte strings and addresses in the spellings that nodes and their tools use. -/
namespace TraceDiff.Rpc

/-- Hexadecimal text as bytes: one marker is dropped, and an odd digit is the low half of the
first byte. -/
def bytesOfHex (cs : List Char) : Except Fault Bytes :=
  let digits := Address.dropMarker cs
  let digits := if digits.length % 2 = 0 then digits else '0' :: digits
  if digits.any (0x7F < ·.toNat) then .error .nonAsciiHexadecimal
  else match Text.Hex.decode digits with
    | some bytes => .ok bytes
    | none => .error .badHexadecimal

/-- Texts that hold no digits: nothing, or a marker alone. -/
def isEmptyHex (cs : List Char) : Bool := cs.isEmpty || cs = ['0', 'x']

namespace Value

/-- A quantity: an integer, hexadecimal text, or big-endian bytes. Nothing at all and a text
without digits are no quantity. -/
def quantity? : Value → Except Fault (Option Int)
  | .null => .ok none
  | .bool b => .ok (some (if b then 1 else 0))
  | .int n => .ok (some n)
  | .bytes b => .ok (some b.toNat)
  | .text s =>
    let body := Text.trim s.toList
    if isEmptyHex body then .ok none
    else match Text.readHexadecimal body with
      | some n => .ok (some n)
      | none => .error (.badInteger 16 (Text.Quoted.encode body |> String.ofList))
  | _ => .error .wrongShape

/-- A quantity, with zero for none. -/
def quantity (v : Value) : Except Fault Int := (·.getD 0) <$> v.quantity?

/-- A byte string: bytes, or hexadecimal text; nothing at all is empty. -/
def data : Value → Except Fault Bytes
  | .null => .ok []
  | .bytes b => .ok b
  | .text s =>
    let body := Text.trim s.toList
    if isEmptyHex body then .ok [] else bytesOfHex body
  | _ => .error .wrongShape

/-- An integer as a marked hexadecimal text. -/
def markedHex (n : Int) : String :=
  (if n < 0 then "-0x" else "0x") ++ String.ofList (Text.Hex.ofNat n.natAbs)

/-- An account: text of either case, twenty bytes, or an integer of forty digits. -/
def address : Value → Except AddressFault Address
  | .null => .error .absent
  | .text s => Address.ofText s
  | .bytes b => Address.ofBytes b
  | v@(.int n) =>
    if 0 ≤ n then Address.ofLowerDigits v.quoted (Text.Hex.ofNat n.natAbs)
    else .error (.wrongLength v.quoted (markedHex n))
  | v@(.bool b) => .error (.wrongLength v.quoted (if b then "0x1" else "0x0"))
  | v => .error (.unsupported v.kind)

/-- An account that may be missing. -/
def address? : Value → Except Fault (Option Address)
  | .null => .ok none
  | v => some <$> v.address.mapError .badAddress

/-- A number as it came, with zero for none. -/
def amount (v : Value) : Except Fault Quantity := do
  return { value := ← v.quantity, isTruth := v.isTruth }

/-- An integer where nothing else will do; truth values count as one and zero. -/
def number : Value → Except Fault Int
  | .int n => .ok n
  | .bool b => .ok (if b then 1 else 0)
  | _ => .error .wrongKind

/-- The fault of a text that is no decimal number. -/
def notDecimal (shown : String) : Text.NumeralFault → Fault
  | .malformed => .badInteger 10 shown
  | .tooLong digits => .tooManyDigits (some digits)

/-- An integer in the decimal sense: text and bytes are read in base ten, floats are cut. -/
def integer : Value → Except Fault Int
  | .int n => .ok n
  | .bool b => .ok (if b then 1 else 0)
  | .float x =>
    if x.isNaN then .error .undefinedInteger
    else match x.truncate? with
      | some n => .ok n
      | none => .error .infiniteInteger
  | .text s => (Text.readDecimal s.toList).mapError (notDecimal (Text.Quoted.text s))
  | .bytes b =>
    let ascii := b.map fun x => if x < 0x80 then Char.ofNat x.toNat else '?'
    (Text.readDecimal ascii).mapError (notDecimal (Text.Quoted.bytes (b.take 200)))
  | v => .error (.noInteger v.kind)

/-- What a loop over the value meets: the items of a list, the characters of a text, the names of
an object's fields, the numbers of bytes. -/
def items : Value → Except Fault (List Value)
  | .list items => .ok items
  | .text s => .ok (s.toList.map fun c => .text c.toString)
  | .bytes b => .ok (b.map fun x => .int x.toNat)
  | .object fields => .ok (fields.map fun f => .text f.1)
  | _ => .error .wrongKind

/-- The items of a list that may be absent, null or empty. -/
def itemsOrNone (v : Value) : Except Fault (List Value) := if v.truthy then v.items else .ok []

def fields? : Value → Option (List (String × Value))
  | .object fields => some fields
  | _ => none

/-- The fields of an object; nothing else has fields. -/
def fields (v : Value) : Except Fault (List (String × Value)) :=
  match v.fields? with
  | some fields => .ok fields
  | none => .error .wrongShape

end Value

/-- A field that may be absent, which then counts as null. -/
def optional (fields : List (String × Value)) (key : String) : Value :=
  (Value.lookup key fields).getD .null

def required (fields : List (String × Value)) (key : String) : Except Fault Value :=
  match Value.lookup key fields with
  | some v => .ok v
  | none => .error (.missingKey (.text key))

/-- A quantity that may be missing: null stays missing, a text without digits is zero. -/
def quantityUnlessNull : Value → Except Fault (Option Int)
  | .null => .ok none
  | v => some <$> v.quantity

/-- A number as it came that may be missing. -/
def amountUnlessNull : Value → Except Fault (Option Quantity)
  | .null => .ok none
  | v => some <$> v.amount

/-- A byte string that may be missing. -/
def dataUnlessNull : Value → Except Fault (Option Bytes)
  | .null => .ok none
  | v => some <$> v.data

end TraceDiff.Rpc
