import TraceDiff.Rpc.Value

/-! Reading JSON text. A number with a fraction or an exponent is a float, any other an integer; of
two fields of one name the later value stands in the earlier place. -/
namespace TraceDiff.Json

open Rpc (Value)

def isSpace (c : Char) : Bool := c = ' ' || c = '\n' || c = '\r' || c = '\t'

def skipSpace (cs : List Char) : List Char := cs.dropWhile isSpace

def hexNat? (cs : List Char) : Option Nat :=
  if cs.all Text.Hex.isDigit then some (Text.Hex.valueOf cs) else none

/-- The character of a code unit; half a pair that stands alone has none and is replaced. -/
def unitChar (n : Nat) : Char := if 0xD800 ≤ n && n < 0xE000 then Char.ofNat 0xFFFD else Char.ofNat n

def plainEscape? (c : Char) : Option Char :=
  if c = '"' || c = '\\' || c = '/' then some c
  else if c = 'b' then some (Char.ofNat 8)
  else if c = 'f' then some (Char.ofNat 12)
  else if c = 'n' then some '\n'
  else if c = 'r' then some '\r'
  else if c = 't' then some '\t'
  else none

/-- Reads up to the closing quote; `acc` holds the characters so far in reverse. -/
def readString (acc : List Char) : List Char → Option (String × List Char)
  | [] => none
  | '"' :: rest => some (String.ofList acc.reverse, rest)
  | '\\' :: 'u' :: a :: b :: c :: d :: '\\' :: 'u' :: e :: f :: g :: h :: rest => do
    let high ← hexNat? [a, b, c, d]
    let low ← hexNat? [e, f, g, h]
    if 0xD800 ≤ high && high < 0xDC00 && 0xDC00 ≤ low && low < 0xE000 then
      readString (Char.ofNat (0x10000 + (high - 0xD800) * 0x400 + (low - 0xDC00)) :: acc) rest
    else readString (unitChar high :: acc) ('\\' :: 'u' :: e :: f :: g :: h :: rest)
  | '\\' :: 'u' :: a :: b :: c :: d :: rest => do
    readString (unitChar (← hexNat? [a, b, c, d]) :: acc) rest
  | '\\' :: c :: rest => do readString ((← plainEscape? c) :: acc) rest
  | c :: rest => if c.toNat < 0x20 then none else readString (c :: acc) rest
termination_by cs => cs.length

def isPlainDigit (c : Char) : Bool := '0' ≤ c && c ≤ '9'

def natOfDigits (cs : List Char) : Nat := cs.foldl (fun n c => n * 10 + (c.toNat - 0x30)) 0

/-- The digits after a point, if there is one; a point without digits is refused. -/
def readFraction : List Char → Option (Option (List Char) × List Char)
  | '.' :: rest =>
    let digits := rest.takeWhile isPlainDigit
    if digits.isEmpty then none else some (some digits, rest.dropWhile isPlainDigit)
  | cs => some (none, cs)

def readExponent : List Char → Option (Option Int × List Char)
  | c :: rest =>
    if c = 'e' || c = 'E' then
      let (negative, rest) := match rest with
        | '-' :: more => (true, more)
        | '+' :: more => (false, more)
        | more => (false, more)
      let digits := rest.takeWhile isPlainDigit
      if digits.isEmpty then none
      else
        let size : Int := natOfDigits digits
        some (some (if negative then -size else size), rest.dropWhile isPlainDigit)
    else some (none, c :: rest)
  | [] => some (none, [])

/-- The names of the floats that are no numbers of digits. -/
def namedFloat? : List Char → Option (Binary64 × List Char)
  | 'N' :: 'a' :: 'N' :: rest => some (.undefined, rest)
  | 'I' :: 'n' :: 'f' :: 'i' :: 'n' :: 'i' :: 't' :: 'y' :: rest => some (.infinite false, rest)
  | '-' :: 'I' :: 'n' :: 'f' :: 'i' :: 'n' :: 'i' :: 't' :: 'y' :: rest =>
    some (.infinite true, rest)
  | _ => none

def readNumber (cs : List Char) : Option (Value × List Char) := do
  let (negative, body) := match cs with
    | '-' :: rest => (true, rest)
    | rest => (false, rest)
  let whole := body.takeWhile isPlainDigit
  if whole.isEmpty || (whole.head? = some '0' && 1 < whole.length) then none
  else
    let (fraction, rest) ← readFraction (body.dropWhile isPlainDigit)
    let (exponent, rest) ← readExponent rest
    match fraction, exponent with
    | none, none =>
      let size : Int := natOfDigits whole
      return (.int (if negative then -size else size), rest)
    | fraction, exponent =>
      let places := fraction.getD []
      return (.float (Binary64.ofDecimal negative (natOfDigits (whole ++ places))
        (exponent.getD 0 - places.length)), rest)

mutual

/-- Each step takes at least one character, so the length of the text is fuel enough. -/
def readValue : (fuel : Nat) → List Char → Option (Value × List Char)
  | 0, _ => none
  | fuel + 1, cs =>
    match skipSpace cs with
    | 'n' :: 'u' :: 'l' :: 'l' :: rest => some (.null, rest)
    | 't' :: 'r' :: 'u' :: 'e' :: rest => some (.bool true, rest)
    | 'f' :: 'a' :: 'l' :: 's' :: 'e' :: rest => some (.bool false, rest)
    | '"' :: rest => (readString [] rest).map fun r => (.text r.1, r.2)
    | '[' :: rest =>
      match skipSpace rest with
      | ']' :: rest => some (.list [], rest)
      | rest => (readItems fuel rest).map fun r => (.list r.1, r.2)
    | '\x7b' :: rest =>
      match skipSpace rest with
      | '\x7d' :: rest => some (.object [], rest)
      | rest => (readFields fuel [] rest).map fun r => (.object r.1, r.2)
    | rest =>
      match namedFloat? rest with
      | some (x, rest) => some (.float x, rest)
      | none => readNumber rest

def readItems : (fuel : Nat) → List Char → Option (List Value × List Char)
  | 0, _ => none
  | fuel + 1, cs => do
    let (v, rest) ← readValue fuel cs
    match skipSpace rest with
    | ',' :: rest =>
      let (vs, rest) ← readItems fuel rest
      return (v :: vs, rest)
    | ']' :: rest => return ([v], rest)
    | _ => none

def readFields : (fuel : Nat) → List (String × Value) → List Char →
    Option (List (String × Value) × List Char)
  | 0, _, _ => none
  | fuel + 1, known, cs => do
    let '"' :: rest := skipSpace cs | none
    let (key, rest) ← readString [] rest
    let ':' :: rest := skipSpace rest | none
    let (v, rest) ← readValue fuel rest
    let known := Value.setField key v known
    match skipSpace rest with
    | ',' :: rest => readFields fuel known rest
    | '\x7d' :: rest => return (known, rest)
    | _ => none

end

/-- Reads one value with nothing but space after it. -/
def read (s : String) : Option Value := do
  let cs := s.toList
  let (v, rest) ← readValue (cs.length + 1) cs
  if (skipSpace rest).isEmpty then some v else none

end TraceDiff.Json
