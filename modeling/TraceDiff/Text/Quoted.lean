import TraceDiff.Text.Hex
import TraceDiff.Text.Printable

/-! Texts and byte strings in quotes, as messages show them. Single quotes are used unless the text
holds one and no double quote. -/
namespace TraceDiff.Text.Quoted

def singleQuote : Char := '\''

def doubleQuote : Char := '"'

def quoteFor (cs : List Char) : Char :=
  if cs.contains singleQuote && !cs.contains doubleQuote then doubleQuote else singleQuote

/-- A code point in the shortest of the forms of two, four and eight digits. -/
def codePoint (n : Nat) : List Char :=
  if n < 0x100 then '\\' :: 'x' :: Hex.fixed 2 n
  else if n < 0x10000 then '\\' :: 'u' :: Hex.fixed 4 n
  else '\\' :: 'U' :: Hex.fixed 8 n

def escape (quote c : Char) : List Char :=
  if c = quote || c = '\\' then ['\\', c]
  else if c = '\n' then ['\\', 'n']
  else if c = '\r' then ['\\', 'r']
  else if c = '\t' then ['\\', 't']
  else if isVisible c then [c]
  else codePoint c.toNat

def encode (cs : List Char) : List Char :=
  let quote := quoteFor cs
  quote :: cs.flatMap (escape quote) ++ [quote]

def text (s : String) : String := String.ofList (encode s.toList)

/-- Bytes read as characters of the same number; those from `0x7F` on are written as numbers. -/
def encodeBytes (b : Bytes) : List Char :=
  let cs := b.map fun x => Char.ofNat x.toNat
  let quote := quoteFor cs
  let one (c : Char) : List Char := if c.toNat < 0x7F then escape quote c else codePoint c.toNat
  'b' :: quote :: cs.flatMap one ++ [quote]

def bytes (b : Bytes) : String := String.ofList (encodeBytes b)

example : encode "it's".toList = "\"it's\"".toList := by decide +kernel

example : encode "q\"'\n".toList = "'q\"\\'\\n'".toList := by decide +kernel

example : encodeBytes [0xAB, 0x30, 0x0A] = "b'\\xab0\\n'".toList := by decide +kernel

end TraceDiff.Text.Quoted
