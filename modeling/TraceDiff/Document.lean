import TraceDiff.Json.Writer
import TraceDiff.Rpc.Quantity

/-! The written form of a result, before a format is chosen: numbers, truth values, texts and ordered
maps. -/
namespace TraceDiff

def truthText (b : Bool) : String := if b then "true" else "false"

/-- A name in a map; block numbers are names too. -/
inductive Key where
  | name (s : String)
  | number (n : Int)
  | truth (b : Bool)
deriving DecidableEq, Repr

namespace Key

def text : Key → String
  | name s => s
  | number n => toString n
  | truth b => truthText b

def isWritable : Key → Bool
  | number n => Text.isWritable n
  | _ => true

end Key

inductive Document where
  | null
  | number (n : Int)
  | truth (b : Bool)
  | text (s : String)
  | map (fields : List (Key × Document))

namespace Document

/-- Text or nothing. -/
def ofText? : Option String → Document
  | some s => .text s
  | none => .null

/-- A number, or the truth value that it came as. -/
def ofQuantity (q : Rpc.Quantity) : Document :=
  if q.isTruth then .truth (q.value != 0) else .number q.value

def field? (key : Key) : Document → Option Document
  | .map fields => (fields.find? (·.1 == key)).map (·.2)
  | _ => none

mutual

/-- Whether no number in the document is too long to be written. -/
def isWritable : Document → Bool
  | .number n => Text.isWritable n
  | .map fields => areWritable fields
  | _ => true

def areWritable : List (Key × Document) → Bool
  | [] => true
  | (k, d) :: fields => k.isWritable && d.isWritable && areWritable fields

end

def newline (depth : Nat) : String := String.ofList ('\n' :: List.replicate (2 * depth) ' ')

mutual

/-- JSON with two spaces of indent a level, at the given level. -/
def jsonAt (depth : Nat) : Document → String
  | .null => "null"
  | .number n => toString n
  | .truth b => truthText b
  | .text s => Json.string s
  | .map fields =>
    match fields with
    | [] => "\x7b\x7d"
    | _ => "\x7b" ++ ",".intercalate (jsonFields (depth + 1) fields) ++ newline depth ++ "\x7d"

def jsonFields (depth : Nat) : List (Key × Document) → List String
  | [] => []
  | (k, d) :: fields =>
    (newline depth ++ Json.string k.text ++ ": " ++ jsonAt depth d) :: jsonFields depth fields

end

def json (d : Document) : String := jsonAt 0 d

end Document

end TraceDiff
