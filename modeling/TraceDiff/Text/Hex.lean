import TraceDiff.Bytes

/-! Bytes as pairs of hexadecimal digits, and numbers as a fixed count of digits. -/
namespace TraceDiff.Text.Hex

def digit (n : Nat) : Char := if n < 10 then Char.ofNat (0x30 + n) else Char.ofNat (0x57 + n)

/-- The value of an ASCII digit or letter of either case. -/
def value? (c : Char) : Option Nat :=
  let n := c.toNat
  if 0x30 ≤ n && n ≤ 0x39 then some (n - 0x30)
  else if 0x61 ≤ n && n ≤ 0x66 then some (n - 0x57)
  else if 0x41 ≤ n && n ≤ 0x46 then some (n - 0x37)
  else none

def isDigit (c : Char) : Bool := (value? c).isSome

/-- The lowest `width` digits of `n`, most significant first. -/
def fixed : (width n : Nat) → List Char
  | 0, _ => []
  | width + 1, n => fixed width (n / 16) ++ [digit (n % 16)]

/-- The digits of `n` without leading zeros; zero is one digit. -/
def ofNat (n : Nat) : List Char :=
  if n < 16 then [digit n] else ofNat (n / 16) ++ [digit (n % 16)]
termination_by n

def encode : Bytes → List Char
  | [] => []
  | b :: bs => digit (b.toNat / 16) :: digit (b.toNat % 16) :: encode bs

/-- Reads pairs of digits; an odd digit at the end is refused. -/
def decode : List Char → Option Bytes
  | [] => some []
  | [_] => none
  | a :: b :: rest => do
    let high ← value? a
    let low ← value? b
    let bytes ← decode rest
    return UInt8.ofNat (high * 16 + low) :: bytes

def toText (b : Bytes) : String := String.ofList (encode b)

@[simp] theorem value?_digit {n : Nat} (h : n < 16) : value? (digit n) = some n := by
  revert n
  decide

@[simp] theorem length_fixed (width n : Nat) : (fixed width n).length = width := by
  induction width generalizing n with
  | zero => rfl
  | succ width ih => simp [fixed, ih]

@[simp] theorem length_encode (b : Bytes) : (encode b).length = 2 * b.length := by
  induction b with
  | nil => rfl
  | cons x b ih => simp [encode, ih]; omega

/-- Writing bytes and reading the digits gives the bytes back. -/
@[simp] theorem decode_encode (b : Bytes) : decode (encode b) = some b := by
  induction b with
  | nil => rfl
  | cons x b ih =>
    have hx : x.toNat < 256 := x.toNat_lt
    have high : value? (digit (x.toNat / 16)) = some (x.toNat / 16) := value?_digit (by omega)
    have low : value? (digit (x.toNat % 16)) = some (x.toNat % 16) := value?_digit (by omega)
    simp only [encode, decode, high, low, ih, Option.bind_eq_bind, Option.bind_some, Option.pure_def]
    have : x.toNat / 16 * 16 + x.toNat % 16 = x.toNat := by omega
    simp [this]

/-- The value of digits read left to right. -/
def valueOf : List Char → Nat :=
  List.foldl (fun n c => n * 16 + (value? c).getD 0) 0

theorem valueOf_append_singleton (cs : List Char) (c : Char) :
    valueOf (cs ++ [c]) = valueOf cs * 16 + (value? c).getD 0 := by
  simp [valueOf]

theorem valueOf_fixed (width n : Nat) : valueOf (fixed width n) = n % Nat.pow 16 width := by
  induction width generalizing n with
  | zero => exact (Nat.mod_one n).symm
  | succ width ih =>
    have power : Nat.pow 16 (width + 1) = 16 * Nat.pow 16 width := Nat.mul_comm _ _
    rw [fixed, valueOf_append_singleton, ih, value?_digit (Nat.mod_lt _ (by decide)), power,
      Nat.mod_mul, Option.getD_some]
    omega

/-- Numbers below the bound of the width are told apart by their digits. -/
theorem fixed_inj {width m n : Nat} (hm : m < Nat.pow 16 width) (hn : n < Nat.pow 16 width)
    (h : fixed width m = fixed width n) : m = n := by
  have := congrArg valueOf h
  rwa [valueOf_fixed, valueOf_fixed, Nat.mod_eq_of_lt hm, Nat.mod_eq_of_lt hn] at this

end TraceDiff.Text.Hex
