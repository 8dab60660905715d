import TraceDiff.Bytes

/-! Reading bytes as UTF-8 text. What is no part of a character is replaced: each longest beginning
of a character that goes wrong by one replacement character. -/
namespace TraceDiff.Text.Utf8

def replacement : Char := Char.ofNat 0xFFFD

/-- How many bytes follow a first byte, and the range that the first of them has to lie in. -/
def following (first : Nat) : Option (Nat × Nat × Nat) :=
  if 0xC2 ≤ first && first ≤ 0xDF then some (1, 0x80, 0xBF)
  else if first = 0xE0 then some (2, 0xA0, 0xBF)
  else if first = 0xED then some (2, 0x80, 0x9F)
  else if 0xE1 ≤ first && first ≤ 0xEF then some (2, 0x80, 0xBF)
  else if first = 0xF0 then some (3, 0x90, 0xBF)
  else if 0xF1 ≤ first && first ≤ 0xF3 then some (3, 0x80, 0xBF)
  else if first = 0xF4 then some (3, 0x80, 0x8F)
  else none

/-- The bits of a first byte that belong to the character, by the count of bytes that follow. -/
def leading (count first : Nat) : Nat :=
  match count with
  | 1 => first % 0x20
  | 2 => first % 0x10
  | _ => first % 8

/-- Takes following bytes while they lie in their ranges: the value so far, how many are missing,
and the rest. -/
def takeFollowing : (count low high value : Nat) → Bytes → Nat × Nat × Bytes
  | 0, _, _, value, bytes => (value, 0, bytes)
  | count + 1, _, _, value, [] => (value, count + 1, [])
  | count + 1, low, high, value, b :: bytes =>
    if low ≤ b.toNat && b.toNat ≤ high then
      takeFollowing count 0x80 0xBF (value * 0x40 + b.toNat % 0x40) bytes
    else (value, count + 1, b :: bytes)

/-- Each step takes a byte at least, so the count of bytes is fuel enough. -/
def decodeFrom : (fuel : Nat) → Bytes → List Char
  | 0, _ => []
  | _, [] => []
  | fuel + 1, b :: bytes =>
    let first := b.toNat
    if first < 0x80 then Char.ofNat first :: decodeFrom fuel bytes
    else match following first with
      | none => replacement :: decodeFrom fuel bytes
      | some (count, low, high) =>
        let (value, missing, rest) := takeFollowing count low high (leading count first) bytes
        (if missing = 0 then Char.ofNat value else replacement) :: decodeFrom fuel rest

def decode (bytes : Bytes) : String := String.ofList (decodeFrom bytes.length bytes)

example : decode [0x41, 0xC3, 0xA9, 0xE2, 0x98, 0xFF] =
    String.ofList ['A', 'é', replacement, replacement] := by decide +kernel

end TraceDiff.Text.Utf8
