import TraceDiff.Address
import TraceDiff.Keccak
import TraceDiff.Text.Quoted

/-! Reading an address text of any case, and writing it with the checksum in its capitals. -/
namespace TraceDiff

/-- Why a value is no address. -/
inductive AddressFault where
  | notHexadecimal (text : String)
  | wrongLength (shown normalized : String)
  /-- Nothing at all. -/
  | absent
  /-- A value of a kind that has no digits. -/
  | unsupported (kind : String)
deriving DecidableEq, Repr

def AddressFault.message : AddressFault → String
  | .notHexadecimal text =>
    "when sending a str, it must be a hex string. Got: " ++ Text.Quoted.text text
  | .wrongLength shown normalized =>
    "Unknown format " ++ shown ++ ", attempted to normalize to " ++ Text.Quoted.text normalized
  | .absent =>
    "Exactly one of the passed values can be specified. Instead, values were: (None,), \x7b\x7d"
  | .unsupported kind =>
    "Unsupported type: '<class '" ++ kind ++ "'>'. " ++
      "Must be one of: bool, str, bytes, bytearray or int."

/-- Whether the fault lies in the kind of the value rather than in its digits. -/
def AddressFault.isOfKind : AddressFault → Bool
  | .absent | .unsupported _ => true
  | _ => false

namespace Address

/-- The text less one `0x` or `0X`. -/
def dropMarker : List Char → List Char
  | '0' :: 'x' :: rest => rest
  | '0' :: 'X' :: rest => rest
  | cs => cs

/-- Forty digits make an address; `shown` is the value as a message shows it. -/
def ofLowerDigits (shown : String) (digits : List Char) : Except AddressFault Address :=
  if digits.length = 40 && digits.all isCanonicalDigit then .ok (ofDigits digits)
  else .error (.wrongLength shown (ofDigits digits).text)

/-- Digits of either case with or without a marker, brought to the canonical form. -/
def ofText (text : String) : Except AddressFault Address :=
  let digits := dropMarker text.toList
  if digits.all Text.Hex.isDigit then
    ofLowerDigits (Text.Quoted.text text) (digits.map Char.toLower)
  else .error (.notHexadecimal text)

def ofBytes (bytes : Bytes) : Except AddressFault Address :=
  ofLowerDigits (Text.Quoted.bytes bytes) (Text.Hex.encode bytes)

/-- A digit of the checksum form: a letter is a capital where the hash has a high digit. -/
def checksumDigit (digit hash : Char) : Char :=
  if 8 ≤ (Text.Hex.value? hash).getD 0 then digit.toUpper else digit

/-- The form that carries a checksum in the case of its letters. -/
def checksum (a : Address) : Except AddressFault String := do
  let normal ← ofText a.text
  let digits := (dropMarker normal.text.toList)
  let hash := Keccak.hash (digits.map fun c => UInt8.ofNat c.toNat)
  return String.ofList ('0' :: 'x' :: List.zipWith checksumDigit digits (Text.Hex.encode hash))

theorem canonical_of_ofText {text : String} {a : Address} (h : ofText text = .ok a) :
    a.Canonical := by
  unfold ofText ofLowerDigits at h
  dsimp only at h
  split at h
  · split at h
    · next hd =>
      obtain rfl := Except.ok.inj h
      simp only [Bool.and_eq_true, decide_eq_true_eq, List.all_eq_true] at hd
      exact ⟨_, hd.1, hd.2, rfl⟩
    · simp at h
  · simp at h

end Address

end TraceDiff
