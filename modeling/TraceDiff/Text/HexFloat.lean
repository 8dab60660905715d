import TraceDiff.Decimal.Binary64
import TraceDiff.Text.Hex

/-! Doubles in base sixteen: one digit before the point, thirteen after it, and the exponent of the
power of two that they are scaled by. -/
namespace TraceDiff.Text.HexFloat

open Binary64 (leadingBit)

/-- An exponent with its sign. -/
def signed (e : Int) : List Char :=
  (if e < 0 then '-' else '+') :: Nat.toDigits 10 e.natAbs

/-- The digits and the exponent of a finite number; zero has no digits after the point but one. -/
def magnitude (x : Binary64) : List Char :=
  if x.isZero then "0x0.0p+0".toList
  else
    let lead := if x.significand < leadingBit then '0' else '1'
    ['0', 'x', lead, '.'] ++ Hex.fixed 13 x.fractionField ++ 'p' :: signed (x.scale + 52)

def text (x : Binary64) : String :=
  if x.isNaN then "nan"
  else
    let sign := if x.negative then "-" else ""
    sign ++ if x.isFinite then String.ofList (magnitude x) else "inf"

example : text ⟨0x3FF8000000000000⟩ = "0x1.8000000000000p+0" := by decide +kernel

example : text ⟨0x8000000000000001⟩ = "-0x0.0000000000001p-1022" := by decide +kernel

end TraceDiff.Text.HexFloat
