import TraceDiff.Decimal.Binary64

/-! The shortest decimal that reads back as a given double, and its text. -/
namespace TraceDiff.Decimal

open Binary64 (power leadingBit)

/-- Decimal digits and the power of ten of the last one. -/
structure Scientific where
  digits : Nat
  exponent : Int
deriving DecidableEq, Repr

/-- Whether `d · 10 ^ e` lies among the reals that round to a double: half a step to either side,
a quarter below a power of two, the ends included for an even significand. -/
def Scientific.within (s : Scientific) (significand : Nat) (scale : Int) : Bool :=
  let lowestBinade := significand = leadingBit && -1074 < scale
  let low : Nat := 4 * significand - (if lowestBinade then 1 else 2)
  let high : Nat := 4 * significand + 2
  -- compare d · 10 ^ e with (low, high) · 2 ^ (scale - 2) over a common denominator
  let shift := scale - 2
  let left := s.digits * power 10 s.exponent * power 2 (-shift)
  let right := power 10 (-s.exponent) * power 2 shift
  if significand % 2 = 0 then low * right ≤ left && left ≤ high * right
  else low * right < left && left < high * right

/-- The two neighbours of `significand · 2 ^ scale` on the grid of `10 ^ e`, with twice the
distance of the value from the lower one measured in grid steps against one step. -/
def neighbours (significand : Nat) (scale e : Int) : Nat × Ordering :=
  let num := significand * power 2 scale * power 10 (-e)
  let den := power 2 (-scale) * power 10 e
  (num / den, compare (2 * (num % den)) den)

/-- The number of decimal digits before the point of `significand · 2 ^ scale`, or one more than
minus the count of zeros after it. -/
def magnitude (significand : Nat) (scale : Int) : Int :=
  let num := significand * power 2 scale
  let den := power 2 (-scale)
  if den ≤ num then ((Nat.toDigits 10 (num / den)).length : Int)
  else 1 - ((Nat.toDigits 10 (den / num)).length : Int)

/-- The nearest point of the grid of `10 ^ e`, if it or else the other neighbour reads back. -/
def onGrid (significand : Nat) (scale e : Int) : Option Scientific :=
  let (low, order) := neighbours significand scale e
  let near : Scientific := ⟨if order = .gt || order = .eq && low % 2 = 1 then low + 1 else low, e⟩
  let far : Scientific := ⟨if near.digits = low then low + 1 else low, e⟩
  if near.within significand scale then some near
  else if far.within significand scale then some far
  else none

/-- The decimal of fewest digits that reads back as the double, and of those the nearest. -/
def shortest (significand : Nat) (scale : Int) : Scientific :=
  let top := magnitude significand scale + 1
  ((List.range 19).findSome? fun (k : Nat) => onGrid significand scale (top - k)).getD
    ⟨significand, 0⟩

/-- Drops the zeros at the end of the digits. -/
def Scientific.trimmed (s : Scientific) : List Char × Int :=
  let digits := Nat.toDigits 10 s.digits
  let kept := (digits.reverse.dropWhile (· == '0')).reverse
  (kept, s.exponent + ((digits.length : Int) - kept.length))

/-- Positional from `10 ^ -4` up to `10 ^ 16`, with at least one place; else one digit before the
point and an exponent of at least two digits. -/
def text (x : Binary64) : String :=
  let sign := if x.negative then "-" else ""
  if x.isNaN then "nan"
  else if !x.isFinite then sign ++ "inf"
  else if x.isZero then sign ++ "0.0"
  else
    let (digits, exponent) := (shortest x.significand x.scale).trimmed
    let point : Int := digits.length + exponent
    let zeros (n : Int) : List Char := List.replicate n.toNat '0'
    let body : List Char :=
      if -4 < point && point ≤ 16 then
        if point ≤ 0 then '0' :: '.' :: zeros (-point) ++ digits
        else if 0 ≤ exponent then digits ++ zeros exponent ++ ['.', '0']
        else digits.take point.toNat ++ '.' :: digits.drop point.toNat
      else
        let mark := if point - 1 < 0 then '-' else '+'
        let size := Nat.toDigits 10 (point - 1).natAbs
        let fraction := digits.drop 1
        digits.take 1 ++ (if fraction.isEmpty then [] else '.' :: fraction) ++ ['e', mark] ++
          (if size.length < 2 then '0' :: size else size)
    sign ++ String.ofList body

end TraceDiff.Decimal
