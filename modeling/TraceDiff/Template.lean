import TraceDiff.Decimal.Places
import TraceDiff.Fault
import TraceDiff.Rpc.Scalar

/-! Texts with places for values. A place is `%`, a name in parentheses, flags, a width, a number of
places and the letter of a form, of which only the letter has to be there; `%%` stands for itself.
Bytes are filled in the same way, as characters of the same numbers. -/
namespace TraceDiff.Template

open Rpc (Value)

/-- How a value is set in its place. -/
structure Layout where
  left : Bool := false
  zeros : Bool := false
  plus : Bool := false
  blank : Bool := false
  alternate : Bool := false
  width : Nat := 0
  places : Option Nat := none
deriving DecidableEq, Repr

/-- The characters of the same numbers as bytes. -/
def ofBytes (b : Bytes) : List Char := b.map fun x => Char.ofNat x.toNat

def toBytes (cs : List Char) : Bytes := cs.map fun c => UInt8.ofNat c.toNat

/-- The values to be set: one that is next, unless it was taken, and all of them by name. -/
structure Supply where
  all : Value
  next : Value
  taken : Bool := false
  /-- Whether the template is made of bytes. -/
  inBytes : Bool := false

namespace Supply

def ofValue (v : Value) (inBytes : Bool := false) : Supply := { all := v, next := v, inBytes }

/-- Values of these kinds may be asked for parts by name, and need not be taken. -/
def hasParts (s : Supply) : Bool :=
  match s.all with
  | .object _ | .list _ => true
  | .bytes _ => !s.inBytes
  | _ => false

def take (s : Supply) : Except Fault (Value × Supply) :=
  if s.taken then .error .wrongKind else .ok (s.next, { s with taken := true })

/-- Makes a named part the next value. No part has bytes for a name. -/
def select (s : Supply) (name : List Char) : Except Fault Supply :=
  match s.all with
  | .object fields =>
    if s.inBytes then .error (.missingKey (.bytes (toBytes name)))
    else do
      return { s with next := ← Rpc.required fields (String.ofList name), taken := false }
  | _ => .error .wrongKind

end Supply

/-- The name up to the parenthesis that closes it, and the rest; parentheses within it match. -/
def readName : (depth : Nat) → List Char → Option (List Char × List Char)
  | _, [] => none
  | 0, ')' :: cs => some ([], cs)
  | depth + 1, ')' :: cs => (readName depth cs).map fun r => (')' :: r.1, r.2)
  | depth, '(' :: cs => (readName (depth + 1) cs).map fun r => ('(' :: r.1, r.2)
  | depth, c :: cs => (readName depth cs).map fun r => (c :: r.1, r.2)

def readFlags (l : Layout) : List Char → Layout × List Char
  | '-' :: cs => readFlags { l with left := true } cs
  | '+' :: cs => readFlags { l with plus := true } cs
  | ' ' :: cs => readFlags { l with blank := true } cs
  | '#' :: cs => readFlags { l with alternate := true } cs
  | '0' :: cs => readFlags { l with zeros := true } cs
  | cs => (l, cs)

def isDigit (c : Char) : Bool := '0' ≤ c && c ≤ '9'

/-- A count of columns or places: digits, or the next value after a star. -/
def readCount (limit : Nat) (s : Supply) (cs : List Char) :
    Except Fault (Option Int × Supply × List Char) :=
  match cs with
  | '*' :: rest => do
    let (v, s) ← s.take
    match v with
    | .int n => if n.natAbs ≤ limit then return (some n, s, rest) else .error .outOfWord
    | .bool b => return (some (if b then 1 else 0), s, rest)
    | _ => .error .wrongKind
  | _ =>
    let digits := cs.takeWhile isDigit
    if digits.isEmpty then .ok (none, s, cs)
    else
      let n := digits.foldl (fun n c => n * 10 + (c.toNat - 0x30)) 0
      if n ≤ limit then .ok (some n, s, cs.dropWhile isDigit) else .error .badTemplate

def maxWidth : Nat := 0x7FFFFFFFFFFFFFFF

def maxPlaces : Nat := 0x7FFFFFFF

def readWidth (l : Layout) (s : Supply) (cs : List Char) :
    Except Fault (Layout × Supply × List Char) := do
  let (width, s, rest) ← readCount maxWidth s cs
  match width with
  | none => return (l, s, rest)
  | some n => return ({ l with width := n.natAbs, left := l.left || n < 0 }, s, rest)

/-- A point without digits asks for no places at all. -/
def readPlaces (l : Layout) (s : Supply) (cs : List Char) :
    Except Fault (Layout × Supply × List Char) :=
  match cs with
  | '.' :: rest => do
    let (places, s, rest) ← readCount maxPlaces s rest
    return ({ l with places := some (places.getD 0).toNat }, s, rest)
  | _ => .ok (l, s, cs)

/-- The letter of a form may follow one that tells a size, which has no meaning. -/
def dropSize : List Char → List Char
  | 'h' :: cs => cs
  | 'l' :: cs => cs
  | 'L' :: cs => cs
  | cs => cs

/-- Sets a text with its sign and marker in the width of its place. -/
def Layout.pad (l : Layout) (isNumber : Bool) (sign marker body : List Char) : List Char :=
  let missing := l.width - (sign.length + marker.length + body.length)
  let fill (c : Char) : List Char := List.replicate missing c
  if l.left then sign ++ marker ++ body ++ fill ' '
  else if isNumber && l.zeros then sign ++ marker ++ fill '0' ++ body
  else fill ' ' ++ sign ++ marker ++ body

def Layout.sign (l : Layout) (isNegative : Bool) : List Char :=
  if isNegative then ['-'] else if l.plus then ['+'] else if l.blank then [' '] else []

/-- Text is cut to the places. -/
def Layout.text (l : Layout) (s : String) : List Char :=
  l.pad false [] [] (match l.places with
    | some n => s.toList.take n
    | none => s.toList)

/-- A number has at least as many digits as places. -/
def Layout.integer (l : Layout) (isNegative : Bool) (marker digits : List Char) : List Char :=
  let zeros := List.replicate (l.places.getD 0 - digits.length) '0'
  l.pad true (l.sign isNegative) (if l.alternate then marker else []) (zeros ++ digits)

/-- The value in quotes, in ASCII. -/
def ascii (v : Value) : String :=
  String.ofList (v.quoted.toList.flatMap fun c =>
    if c.toNat < 0x80 then [c] else Text.Quoted.codePoint c.toNat)

/-- An integer, or a float cut to one. -/
def wholeNumber : Value → Except Fault Int
  | v@(.float _) => v.integer
  | v => v.number

def double : Value → Except Fault Binary64
  | .float x => .ok x
  | v => do
    match Binary64.ofInt? (← v.number) with
    | some x => return x
    | none => .error .beyondFloat

/-- A number other than the finite ones is written in letters. -/
def Layout.float (l : Layout) (x : Binary64)
    (digits : (alternate : Bool) → (places : Nat) → Binary64 → List Char) : List Char :=
  let body :=
    if x.isNaN then "nan".toList
    else if x.isFinite then digits l.alternate (l.places.getD 6) x
    else "inf".toList
  l.pad true (l.sign (x.negative && !x.isNaN)) [] body

def character : Value → Except Fault Char
  | .text s =>
    match s.toList with
    | [c] => .ok c
    | _ => .error .wrongKind
  | v => do
    let n ← v.number
    if 0 ≤ n && n < 0x110000 then return Char.ofNat n.toNat else .error .outOfWord

def upper (cs : List Char) : List Char := cs.map Char.toUpper

/-- A value in the form of a letter. -/
def Layout.set (l : Layout) (form : Char) (v : Value) : Except Fault (List Char) :=
  let decimal (n : Int) : Except Fault (List Char) :=
    if Text.isWritable n then .ok (l.integer (n < 0) [] (Nat.toDigits 10 n.natAbs))
    else .error (.tooManyDigits none)
  match form with
  | 's' => .ok (l.text v.shown)
  | 'r' => .ok (l.text v.quoted)
  | 'a' => .ok (l.text (ascii v))
  | 'd' => wholeNumber v >>= decimal
  | 'i' => wholeNumber v >>= decimal
  | 'u' => wholeNumber v >>= decimal
  | 'o' => do
    let n ← v.number
    return l.integer (n < 0) ['0', 'o'] (Nat.toDigits 8 n.natAbs)
  | 'x' => do
    let n ← v.number
    return l.integer (n < 0) ['0', 'x'] (Text.Hex.ofNat n.natAbs)
  | 'X' => do
    let n ← v.number
    return l.integer (n < 0) ['0', 'X'] (upper (Text.Hex.ofNat n.natAbs))
  | 'f' => do return l.float (← double v) Decimal.Places.fixed
  | 'F' => do return upper (l.float (← double v) Decimal.Places.fixed)
  | 'e' => do return l.float (← double v) Decimal.Places.scientific
  | 'E' => do return upper (l.float (← double v) Decimal.Places.scientific)
  | 'g' => do return l.float (← double v) Decimal.Places.general
  | 'G' => do return upper (l.float (← double v) Decimal.Places.general)
  | 'c' => do return l.pad false [] [] [← character v]
  | _ => .error .badTemplate

/-- A value in the form of a letter, in a template of bytes: texts are no bytes, and all that is
shown is shown in ASCII. -/
def Layout.setInBytes (l : Layout) (form : Char) (v : Value) : Except Fault (List Char) :=
  let bytes : Except Fault Bytes := match v with
    | .bytes b => .ok b
    | _ => .error .wrongKind
  match form with
  | 's' => do return l.text (String.ofList (ofBytes (← bytes)))
  | 'b' => do return l.text (String.ofList (ofBytes (← bytes)))
  | 'r' => .ok (l.text (ascii v))
  | 'c' => do
    match ofBytes (← bytes) with
    | [c] => return l.pad false [] [] [c]
    | _ => .error .wrongKind
  | form => if form.toNat < 0x80 then l.set form v else .error .outOfWord

/-- Sets the value of the place that starts after a `%`. -/
def setPlace (s : Supply) (cs : List Char) : Except Fault (List Char × Supply × List Char) := do
  let (s, cs) ← match cs with
    | '(' :: rest =>
      if s.hasParts then
        match readName 0 rest with
        | some (name, rest) => do
          let s ← s.select name
          pure (s, rest)
        | none => .error .badTemplate
      else .error .wrongKind
    | _ => pure (s, cs)
  let (layout, cs) := readFlags {} cs
  let (layout, s, cs) ← readWidth layout s cs
  let (layout, s, cs) ← readPlaces layout s cs
  match dropSize cs with
  | [] => .error .badTemplate
  | form :: rest =>
    let (v, s) ← s.take
    let written ← if s.inBytes then layout.setInBytes form v else layout.set form v
    return (written, s, rest)

/-- Each step takes a character at least, so the length of the template is fuel enough. -/
def fillFrom : (fuel : Nat) → Supply → List Char → Except Fault (List Char)
  | 0, _, _ => .error .badTemplate
  | fuel + 1, s, cs =>
    match cs with
    | [] => if s.taken || s.hasParts then .ok [] else .error .wrongKind
    | '%' :: '%' :: rest => ('%' :: ·) <$> fillFrom fuel s rest
    | '%' :: rest => do
      let (written, s, rest) ← setPlace s rest
      return written ++ (← fillFrom fuel s rest)
    | c :: rest => (c :: ·) <$> fillFrom fuel s rest

/-- The template with its places filled. A value without parts has to be taken by some place. -/
def fill (template : String) (v : Value) : Except Fault String :=
  let cs := template.toList
  String.ofList <$> fillFrom (cs.length + 1) (.ofValue v) cs

/-- A template of bytes with its places filled. -/
def fillBytes (template : Bytes) (v : Value) : Except Fault Bytes :=
  let cs := ofBytes template
  toBytes <$> fillFrom (cs.length + 1) (.ofValue v true) cs

example : (fill "%(k)s=%(v)03d%%" (.object [("k", .text "a"), ("v", .int 7)])).toOption =
    some "a=007%" := by decide +kernel

end TraceDiff.Template
