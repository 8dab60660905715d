import TraceDiff.Decimal.Shortest

/-! Doubles with a given count of places: positional, with an exponent, or whichever of the two is
shorter. The exact value is rounded, and a half goes to the even digit. -/
namespace TraceDiff.Decimal.Places

open Binary64 (power roundQuotient)

/-- The magnitude of a finite number in units of `10 ^ -places`. -/
def scaled (x : Binary64) (places : Int) : Nat :=
  roundQuotient (x.significand * power 2 x.scale * power 10 places)
    (power 2 (-x.scale) * power 10 (-places))

/-- The last `places` digits stand after the point. -/
def pointed (alternate : Bool) (digits : List Char) (places : Nat) : List Char :=
  let padded := List.replicate (places + 1 - digits.length) '0' ++ digits
  let whole := padded.length - places
  padded.take whole ++ (if 0 < places || alternate then ['.'] else []) ++ padded.drop whole

def fixed (alternate : Bool) (places : Nat) (x : Binary64) : List Char :=
  pointed alternate (Nat.toDigits 10 (scaled x places)) places

/-- The digits of a number rounded to `count` digits, and the exponent of the first one. -/
def significant (count : Nat) (x : Binary64) : List Char × Int :=
  if x.isZero then (List.replicate count '0', 0)
  else
    -- the count of digits before the point, from the value itself
    let guess := magnitude x.significand x.scale
    let digitsFor (e : Int) : List Char := Nat.toDigits 10 (scaled x ((count : Int) - 1 - e))
    let attempt? (e : Int) : Option (List Char × Int) :=
      if (digitsFor e).length = count then some (digitsFor e, e) else none
    (([guess - 2, guess - 1, guess, guess + 1].findSome? attempt?).getD (digitsFor guess, guess))

/-- An exponent of at least two digits. -/
def exponent (mark : Char) (e : Int) : List Char :=
  let size := Nat.toDigits 10 e.natAbs
  mark :: (if e < 0 then '-' else '+') :: (if size.length < 2 then '0' :: size else size)

def scientific (alternate : Bool) (places : Nat) (x : Binary64) : List Char :=
  let (digits, e) := significant (places + 1) x
  pointed alternate digits places ++ exponent 'e' e

/-- Drops zeros at the end of the places, and a point with nothing after it. -/
def trimmed (cs : List Char) : List Char :=
  if cs.contains '.' then
    let kept := cs.reverse.dropWhile (· = '0')
    ((if kept.head? = some '.' then kept.tail else kept)).reverse
  else cs

/-- So many significant digits, positional unless the exponent is below -4 or too great for them. -/
def general (alternate : Bool) (count : Nat) (x : Binary64) : List Char :=
  let count := max count 1
  let (digits, e) := significant count x
  let tidy (cs : List Char) : List Char := if alternate then cs else trimmed cs
  if -4 ≤ e && e < count then tidy (pointed alternate digits ((count : Int) - 1 - e).toNat)
  else tidy (pointed alternate digits (count - 1)) ++ exponent 'e' e

end TraceDiff.Decimal.Places
