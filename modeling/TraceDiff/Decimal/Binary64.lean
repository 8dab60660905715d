/-! Binary floating-point numbers of 64 bits: read from decimals, added, and cut to integers. -/
namespace TraceDiff

/-- A double by its bits: one of sign, eleven of exponent and fifty-two of fraction. -/
structure Binary64 where
  bits : UInt64
deriving DecidableEq, Repr

namespace Binary64

def negative (x : Binary64) : Bool := x.bits >>> 63 == 1

def exponentField (x : Binary64) : Nat := ((x.bits >>> 52) &&& 0x7FF).toNat

def fractionField (x : Binary64) : Nat := (x.bits &&& 0xFFFFFFFFFFFFF).toNat

def isFinite (x : Binary64) : Bool := x.exponentField != 0x7FF

def isNaN (x : Binary64) : Bool := !x.isFinite && x.fractionField != 0

/-- The base to the exponent, or one for a negative exponent. -/
def power (base : Nat) (exponent : Int) : Nat := Nat.pow base exponent.toNat

/-- The leading bit of a significand, two to the power 52, which is not stored. -/
def leadingBit : Nat := 0x10000000000000

/-- The integer significand of a finite number. -/
def significand (x : Binary64) : Nat :=
  if x.exponentField = 0 then x.fractionField else x.fractionField + leadingBit

/-- The power of two that scales the significand of a finite number. -/
def scale (x : Binary64) : Int :=
  if x.exponentField = 0 then -1074 else (x.exponentField : Int) - 1075

def isZero (x : Binary64) : Bool := x.exponentField = 0 && x.fractionField = 0

/-- The quotient to the nearest integer, a half going to the even neighbour. -/
def roundQuotient (num den : Nat) : Nat :=
  let q := num / den
  let twice := 2 * (num % den)
  if twice < den then q else if den < twice then q + 1 else if q % 2 = 0 then q else q + 1

def ofParts (sign : Bool) (exponent fraction : Nat) : Binary64 :=
  ⟨UInt64.ofNat ((if sign then 0x8000000000000000 else 0) + exponent * leadingBit + fraction)⟩

def infinite (sign : Bool) : Binary64 := ofParts sign 2047 0

/-- The float that is no number. -/
def undefined : Binary64 := ofParts false 2047 (leadingBit / 2)

/-- The scale of the number with leading bit `2 ^ k`: fifty-three bits, or fewer near zero. -/
def scaleFor (k : Int) : Int := max (k - 52) (-1074)

/-- The double nearest to `num / den`. -/
def ofRatio (sign : Bool) (num den : Nat) : Binary64 :=
  if num = 0 || den = 0 then ofParts sign 0 0
  else
    let guess : Int := (num.log2 : Int) - den.log2
    let below := num * power 2 (-guess) < den * power 2 guess
    let q := scaleFor (if below then guess - 1 else guess)
    let m := roundQuotient (num * power 2 (-q)) (den * power 2 q)
    let (m, q) := if m = 2 * leadingBit then (leadingBit, q + 1) else (m, q)
    if m < leadingBit then ofParts sign 0 m
    else
      let exponent := q + 1075
      if 2047 ≤ exponent then ofParts sign 2047 0 else ofParts sign exponent.toNat (m - leadingBit)

/-- The double nearest to `digits · 10 ^ exponent`. Far beyond both ends of the range the exponent
alone decides, so no huge power is formed. -/
def ofDecimal (sign : Bool) (digits : Nat) (exponent : Int) : Binary64 :=
  let size : Int := (Nat.log2 digits : Int) / 3 + exponent
  if digits = 0 || size < -400 then ofParts sign 0 0
  else if 400 < exponent then ofParts sign 2047 0
  else ofRatio sign (digits * power 10 exponent) (power 10 (-exponent))

/-- The integer part, toward zero; infinities and the number that is none have no integer part. -/
def truncate? (x : Binary64) : Option Int :=
  if !x.isFinite then none
  else
    let size := x.significand * power 2 x.scale / power 2 (-x.scale)
    some (if x.negative then -(size : Int) else size)

/-- The double nearest to an integer; there is none beyond the finite ones. -/
def ofInt? (n : Int) : Option Binary64 :=
  let x := ofRatio (n < 0) n.natAbs 1
  if x.isFinite then some x else none

/-- Two to the power 1074: every finite double is a multiple of its inverse. -/
def stepsOfOne : Nat := power 2 1074

/-- A finite number as a multiple of the finest step between doubles. -/
def steps (x : Binary64) : Int :=
  let size : Int := x.significand * power 2 (x.scale + 1074)
  if x.negative then -size else size

/-- The sum, rounded to the nearest double; infinities of both signs have no sum. -/
def add (x y : Binary64) : Binary64 :=
  if x.isFinite && y.isFinite then
    if x.isZero && y.isZero then ofParts (x.negative && y.negative) 0 0
    else
      let sum := x.steps + y.steps
      ofRatio (sum < 0) sum.natAbs stepsOfOne
  else if x.isNaN || y.isNaN then undefined
  else if x.isFinite then y
  else if y.isFinite || x = y then x
  else undefined

/-- Whether the number lies below zero. -/
def isNegative (x : Binary64) : Bool := x.negative && !x.isZero && !x.isNaN

example : ofDecimal false 15 (-1) = ⟨0x3FF8000000000000⟩ := by decide +kernel

example : (ofDecimal false 15 (-1)).add (ofDecimal true 5 (-1)) = ofDecimal false 1 0 := by
  decide +kernel

example : (ofDecimal true 27 (-1)).truncate? = some (-2) := by decide +kernel

example : ofDecimal false 5 (-324) = ⟨1⟩ ∧ (ofDecimal false 1 400).isFinite = false := by
  decide +kernel

end Binary64

end TraceDiff
