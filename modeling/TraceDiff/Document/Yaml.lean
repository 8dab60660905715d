import TraceDiff.Document

/-! Documents as YAML 1.1 in block style. A text that a reader would take for another type stands in
single quotes. -/
namespace TraceDiff.Document.Yaml

/-- Digits of a base or underscores, at least one. -/
def isDigits (isDigit : Char → Bool) (cs : List Char) : Bool :=
  !cs.isEmpty && cs.all fun c => isDigit c || c = '_'

def isOctal (c : Char) : Bool := '0' ≤ c && c ≤ '7'

def isDecimal (c : Char) : Bool := '0' ≤ c && c ≤ '9'

def isBinary (c : Char) : Bool := c = '0' || c = '1'

/-- The integers of YAML 1.1 without sign or colons: binary, octal and hexadecimal with their marks,
and decimal. -/
def isInteger : List Char → Bool
  | '0' :: 'b' :: rest => isDigits isBinary rest
  | '0' :: 'x' :: rest => isDigits Text.Hex.isDigit rest
  | ['0'] => true
  | '0' :: rest => isDigits isOctal rest
  | c :: rest => isDecimal c && rest.all fun d => isDecimal d || d = '_'
  | [] => false

/-- Words that stand for truth values and for nothing. -/
def reserved : List String := [
  "yes", "Yes", "YES", "no", "No", "NO", "true", "True", "TRUE", "false", "False", "FALSE",
  "on", "On", "ON", "off", "Off", "OFF", "null", "Null", "NULL"]

/-- Results hold texts of ASCII letters and digits only; no other kind of text is told apart. -/
def needsQuotes (s : String) : Bool :=
  s.isEmpty || isInteger s.toList || reserved.contains s

def scalar (s : String) : String := if needsQuotes s then "'" ++ s ++ "'" else s

def key : Key → String
  | .name s => scalar s
  | .number n => toString n
  | .truth b => truthText b

/-- The short name of the type that a key is tagged with while it is measured. -/
def tag : Key → String
  | .name _ => "!!str"
  | .number _ => "!!int"
  | .truth _ => "!!bool"

/-- A key on one line with its value is neither empty nor, with its tag, longer than this. -/
def maxKeyLength : Nat := 127

def isSimpleKey (k : Key) : Bool :=
  k.text != "" && (tag k).length + k.text.length ≤ maxKeyLength

def indent (depth : Nat) : String := String.ofList (List.replicate (2 * depth) ' ')

mutual

/-- What follows the colon of a field, with the line's end. A long key stands behind a mark of its
own, and its value on the next line. -/
def value (depth : Nat) : Document → String
  | .null => " null\n"
  | .number n => " " ++ toString n ++ "\n"
  | .truth b => " " ++ truthText b ++ "\n"
  | .text s => " " ++ scalar s ++ "\n"
  | .map fields =>
    match fields with
    | [] => " \x7b\x7d\n"
    | _ => "\n" ++ entries (depth + 1) fields

def entries (depth : Nat) : List (Key × Document) → String
  | [] => ""
  | (k, d) :: fields =>
    let start := if isSimpleKey k then key k else "? " ++ key k ++ "\n" ++ indent depth
    indent depth ++ start ++ ":" ++ value depth d ++ entries depth fields

end

/-- A map that is the whole document starts in the first column. -/
def write : Document → String
  | .map (f :: fields) => entries 0 (f :: fields)
  | d => ((value 0 d).toList.drop 1) |> String.ofList

end TraceDiff.Document.Yaml
