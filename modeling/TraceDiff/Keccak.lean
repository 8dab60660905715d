import TraceDiff.Bytes

/-! The Keccak hash with 256 bits of output, padded with a single one bit. -/
namespace TraceDiff.Keccak

/-- Lane `(x, y)` stands at `x + 5 * y`. -/
abbrev Lanes := Vector UInt64 25

def lane (s : Lanes) (x y : Nat) : UInt64 :=
  s.get ⟨(x % 5 + 5 * (y % 5)) % 25, Nat.mod_lt _ (by decide)⟩

def build (f : Nat → Nat → UInt64) : Lanes := Vector.ofFn fun i => f (i.val % 5) (i.val / 5)

def rotate (w : UInt64) (n : Nat) : UInt64 :=
  if n = 0 then w else (w <<< UInt64.ofNat n) ||| (w >>> UInt64.ofNat (64 - n))

def rotations : Vector Nat 25 :=
  #v[0, 1, 62, 28, 27, 36, 44, 6, 55, 20, 3, 10, 43, 25, 39, 41, 45, 15, 21, 8, 18, 2, 61, 56, 14]

def roundConstants : List UInt64 := [
  0x0000000000000001, 0x0000000000008082, 0x800000000000808A, 0x8000000080008000,
  0x000000000000808B, 0x0000000080000001, 0x8000000080008081, 0x8000000000008009,
  0x000000000000008A, 0x0000000000000088, 0x0000000080008009, 0x000000008000000A,
  0x000000008000808B, 0x800000000000008B, 0x8000000000008089, 0x8000000000008003,
  0x8000000000008002, 0x8000000000000080, 0x000000000000800A, 0x800000008000000A,
  0x8000000080008081, 0x8000000000008080, 0x0000000080000001, 0x8000000080008008]

def theta (s : Lanes) : Lanes :=
  let column (x : Nat) : UInt64 :=
    lane s x 0 ^^^ lane s x 1 ^^^ lane s x 2 ^^^ lane s x 3 ^^^ lane s x 4
  let columns : Vector UInt64 5 := Vector.ofFn fun x => column x.val
  let at5 (x : Nat) : UInt64 := columns.get ⟨x % 5, Nat.mod_lt _ (by decide)⟩
  build fun x y => lane s x y ^^^ at5 (x + 4) ^^^ rotate (at5 (x + 1)) 1

def rho (s : Lanes) : Lanes := Vector.ofFn fun i => rotate s[i] rotations[i]

def pi (s : Lanes) : Lanes := build fun x y => lane s (x + 3 * y) x

def chi (s : Lanes) : Lanes :=
  build fun x y => lane s x y ^^^ (~~~ lane s (x + 1) y &&& lane s (x + 2) y)

def iota (constant : UInt64) (s : Lanes) : Lanes := s.set 0 (s[0] ^^^ constant)

def permute (s : Lanes) : Lanes :=
  roundConstants.foldl (fun s constant => iota constant (chi (pi (rho (theta s))))) s

/-- Bytes taken in by one permutation. -/
def rate : Nat := 136

/-- A one bit, zeros, and a one bit, up to a multiple of the rate. -/
def pad (message : Bytes) : Bytes :=
  let free := rate - message.length % rate
  if free = 1 then message ++ [0x81]
  else message ++ 0x01 :: List.replicate (free - 2) 0x00 ++ [0x80]

/-- Eight bytes, the least significant first. -/
def word (bytes : Bytes) : UInt64 :=
  bytes.foldr (fun b w => (w <<< 8) ||| b.toUInt64) 0

def wordBytes (w : UInt64) : Bytes :=
  (List.range 8).map fun k => (w >>> UInt64.ofNat (8 * k)).toUInt8

def absorb (s : Lanes) (block : Bytes) : Lanes :=
  permute (Vector.ofFn fun i =>
    if i.val < rate / 8 then s[i] ^^^ word ((block.drop (8 * i.val)).take 8) else s[i])

def absorbAll (s : Lanes) : (blocks : Nat) → Bytes → Lanes
  | 0, _ => s
  | blocks + 1, bytes => absorbAll (absorb s (bytes.take rate)) blocks (bytes.drop rate)

def hash (message : Bytes) : Bytes :=
  let padded := pad message
  let s := absorbAll (Vector.replicate 25 0) (padded.length / rate) padded
  (s.toList.take 4).flatMap wordBytes

end TraceDiff.Keccak
