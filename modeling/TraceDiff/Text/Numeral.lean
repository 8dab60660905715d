import TraceDiff.Text.Blank
import TraceDiff.Text.Digit
import TraceDiff.Text.Search

/-! Integers in running text: blanks around them, one sign, digits of any script, and single
underscores between digits. -/
namespace TraceDiff.Text

/-- The blanks allowed around a number: all but the four separators below the space. -/
def isNumeralBlank (c : Char) : Bool :=
  isBlank c && !(0x1C ≤ c.toNat && c.toNat ≤ 0x1F)

/-- The value of a digit in base ten or sixteen; only ASCII letters count as letters. -/
def digitValue? (base : Nat) (c : Char) : Option Nat :=
  let n := c.toNat
  let value? : Option Nat :=
    if 0x61 ≤ n && n ≤ 0x7A then some (n - 0x61 + 10)
    else if 0x41 ≤ n && n ≤ 0x5A then some (n - 0x41 + 10)
    else decimalDigit? c
  value?.filter (· < base)

/-- Reads on after a first digit: an underscore must be followed by a digit. -/
def readGrouped (base acc : Nat) : List Char → Option Nat
  | [] => some acc
  | '_' :: c :: cs => (digitValue? base c).bind fun d => readGrouped base (acc * base + d) cs
  | c :: cs => (digitValue? base c).bind fun d => readGrouped base (acc * base + d) cs

def readDigits (base : Nat) : List Char → Option Nat
  | [] => none
  | c :: cs => (digitValue? base c).bind fun d => readGrouped base d cs

/-- Base sixteen allows one `0x` before the digits, and one underscore after it. -/
def readUnsigned (base : Nat) (cs : List Char) : Option Nat :=
  match base, cs with
  | 16, z :: 'x' :: '_' :: rest => if digitValue? 16 z = some 0 then readDigits 16 rest else none
  | 16, z :: 'X' :: '_' :: rest => if digitValue? 16 z = some 0 then readDigits 16 rest else none
  | 16, z :: 'x' :: rest => if digitValue? 16 z = some 0 then readDigits 16 rest else none
  | 16, z :: 'X' :: rest => if digitValue? 16 z = some 0 then readDigits 16 rest else none
  | _, _ => readDigits base cs

def readSigned (base : Nat) : List Char → Option Int
  | '-' :: cs => (readUnsigned base cs).map fun n => -(n : Int)
  | '+' :: cs => (readUnsigned base cs).map Int.ofNat
  | cs => (readUnsigned base cs).map Int.ofNat

def readHexadecimal (cs : List Char) : Option Int := readSigned 16 (trimBy isNumeralBlank cs)

/-- The most digits that a decimal number is read from or written with. -/
def maxDecimalDigits : Nat := 4300

/-- Whether a number has few enough digits to be written in decimal. -/
def isWritable (n : Int) : Bool := n.natAbs < Nat.pow 10 maxDecimalDigits

/-- Why a text is no decimal number. -/
inductive NumeralFault where
  | malformed
  | tooLong (digits : Nat)
deriving DecidableEq, Repr

def isDecimalDigit (c : Char) : Bool := (decimalDigit? c).isSome

def dropSign : List Char → List Char
  | '-' :: cs => cs
  | '+' :: cs => cs
  | cs => cs

/-- Digits with single underscores between them. -/
def isGrouped (cs : List Char) : Bool :=
  !cs.isEmpty && cs.head? != some '_' && cs.getLast? != some '_' &&
    !containsWord ['_', '_'] cs

/-- The count of the digits that a number starts with, if they are grouped and too many. It is told
before anything that comes after the digits. -/
def tooManyDigits? (cs : List Char) : Option Nat :=
  let run := (dropSign cs).takeWhile fun c => isDecimalDigit c || c = '_'
  let count := run.countP isDecimalDigit
  if maxDecimalDigits < count && isGrouped run then some count else none

def readDecimal (cs : List Char) : Except NumeralFault Int :=
  let body := trimBy isNumeralBlank cs
  match tooManyDigits? body with
  | some digits => .error (.tooLong digits)
  | none =>
    match readSigned 10 body with
    | some n => .ok n
    | none => .error .malformed

example : (readDecimal " +1_0 ".toList).toOption = some 10 := by decide +kernel

example : (readDecimal "1__0".toList).toOption = none := by decide +kernel

example : readHexadecimal "-0x_fF".toList = some (-255) ∧ readHexadecimal "0x".toList = none := by
  decide +kernel

end TraceDiff.Text
