import TraceDiff.Bytes

/-! Recursive length prefixes: byte strings and lists of items as one byte string. -/
namespace TraceDiff

inductive Rlp where
  | string (bytes : Bytes)
  | list (items : List Rlp)

namespace Rlp

/-- A number is the byte string of its fewest bytes. -/
def ofNat (n : Nat) : Rlp := .string (Bytes.minimal n)

/-- A payload below 56 bytes has its length in the first byte, a longer one the length of its
length. -/
def withLength (offset : Nat) (payload : Bytes) : Bytes :=
  if payload.length < 56 then UInt8.ofNat (offset + payload.length) :: payload
  else
    let size := Bytes.minimal payload.length
    UInt8.ofNat (offset + 55 + size.length) :: size ++ payload

mutual

def encode : Rlp → Bytes
  | .string bytes =>
    match bytes with
    | [b] => if b < 0x80 then [b] else withLength 0x80 [b]
    | _ => withLength 0x80 bytes
  | .list items => withLength 0xC0 (encodeAll items)

def encodeAll : List Rlp → Bytes
  | [] => []
  | item :: items => encode item ++ encodeAll items

end

example : encode (.list [.string [0x63, 0x61, 0x74], .string []]) =
    [0xC5, 0x83, 0x63, 0x61, 0x74, 0x80] := by decide +kernel

example : encode (ofNat 0) = [0x80] ∧ encode (ofNat 1024) = [0x82, 0x04, 0x00] := by
  decide +kernel

end Rlp

end TraceDiff
