import TraceDiff.Settings

/-! The arguments of the command line. An option goes by its name, by a beginning that no other
name shares, or by its letter. -/
namespace TraceDiff.CommandLine

inductive Opt where
  | help | txHash | rpcUrl | out | format | exact | workers | timeout | logLevel | logFormat
deriving DecidableEq, Repr

namespace Opt

def all : List Opt := [
  help, txHash, rpcUrl, out, format, exact, workers, timeout, logLevel, logFormat]

def name : Opt → String
  | help => "--help"
  | txHash => "--tx-hash"
  | rpcUrl => "--rpc-url"
  | out => "--out"
  | format => "--format"
  | exact => "--exact-pre-balances"
  | workers => "--workers"
  | timeout => "--timeout"
  | logLevel => "--log-level"
  | logFormat => "--log-format"

def letter? : Opt → Option Char
  | help => some 'h'
  | txHash => some 't'
  | rpcUrl => some 'r'
  | out => some 'o'
  | _ => none

def takesValue : Opt → Bool
  | help | exact => false
  | _ => true

def ofLetter? (c : Char) : Option Opt := all.find? fun o => o.letter? = some c

/-- The option with exactly this name or letter. -/
def ofText? (cs : List Char) : Option Opt :=
  match cs with
  | ['-', c] => ofLetter? c
  | _ => all.find? fun o => o.name.toList = cs

/-- The options whose names begin so. -/
def startingWith (stem : List Char) : List Opt := all.filter fun o => stem.isPrefixOf o.name.toList

end Opt

/-- An argument by its form: a word, an option by name with the value written onto it, an option by
letter with text right after it, or an option that does not exist. -/
inductive Token where
  | word (s : String)
  | option (o : Opt) (attached : Option String)
  | letter (o : Opt) (text : String)
  | unknown
deriving DecidableEq, Repr

/-- The text before the first `=`, and the text after it if there is one. -/
def splitValue (cs : List Char) : List Char × Option (List Char) :=
  match cs.dropWhile (· != '=') with
  | [] => (cs, none)
  | _ :: value => (cs.takeWhile (· != '='), some value)

/-- A minus sign with a number after it is a word. -/
def isNegativeNumber (cs : List Char) : Bool :=
  let digit (c : Char) : Bool := (Text.decimalDigit? c).isSome
  let cs := if cs.getLast? = some '\n' then cs.dropLast else cs
  match cs with
  | '-' :: body =>
    match body.dropWhile digit with
    | [] => !body.isEmpty
    | '.' :: places => !places.isEmpty && places.all digit
    | _ => false
  | _ => false

namespace Token

/-- An argument that is no option in full: a beginning of a name, or a letter with text after it. A
beginning that several names share makes no sense. -/
def ofAbbreviation (cs : List Char) : Option Token :=
  let plain : Token :=
    if isNegativeNumber cs || cs.contains ' ' then word (String.ofList cs) else unknown
  match cs with
  | '-' :: '-' :: _ =>
    let (stem, value) := splitValue cs
    match Opt.startingWith stem, value with
    | [], _ => some plain
    | [o], none => some (option o none)
    | [o], some value => some (option o (some (String.ofList value)))
    | _, _ => none
  | '-' :: c :: text =>
    match Opt.ofLetter? c with
    | some o => some (letter o (String.ofList text))
    | none => some plain
  | _ => some (word (String.ofList cs))

/-- The token that an argument is; none if the argument makes no sense. -/
def ofArgument (s : String) : Option Token :=
  let cs := s.toList
  match cs with
  | '-' :: _ :: _ =>
    match Opt.ofText? cs with
    | some o => some (option o none)
    | none =>
      let (stem, value) := splitValue cs
      match stem, Opt.ofText? stem, value with
      | ['-', _], some o, some value => some (letter o (String.ofList value))
      | _, some o, some value => some (option o (some (String.ofList value)))
      | _, _, _ => ofAbbreviation cs
  | _ => some (word s)

/-- All arguments after two dashes alone are words, and the dashes have no place themselves. -/
def ofArguments : List String → Option (List Token)
  | [] => some []
  | s :: rest => do
    if s = "--" then return unknown :: rest.map word
    let token ← ofArgument s
    let tokens ← ofArguments rest
    return token :: tokens

end Token

inductive Format where
  | json | yaml
deriving DecidableEq, Repr

def Format.ofName? (s : String) : Option Format :=
  if s = "json" then some .json else if s = "yaml" then some .yaml else none

/-- Why the arguments start no run. -/
inductive Refusal where
  | help
  | usage
deriving DecidableEq, Repr

structure Arguments where
  txHash : String
  out : Option String
  format : Format
  given : Settings.Given
deriving DecidableEq, Repr

namespace Arguments

/-- Arguments as far as they have been read. -/
structure Draft where
  given : Settings.Given
  txHash : Option String := none
  out : Option String := none
  format : Format := .json
  /-- Whether some argument has no place. -/
  leftover : Bool := false
deriving DecidableEq, Repr

def choose (valid : Bool) (d : Draft) : Except Refusal Draft :=
  if valid then .ok d else .error .usage

def Draft.flag (d : Draft) : Opt → Except Refusal Draft
  | .help => .error .help
  | .exact => .ok { d with given := { d.given with exact := .bool true } }
  | _ => .error .usage

/-- Sets an option; one that is set again takes the later value. -/
def Draft.set (d : Draft) (value : String) : Opt → Except Refusal Draft
  | .txHash => .ok { d with txHash := some value }
  | .rpcUrl => .ok { d with given := { d.given with url := .text value } }
  | .out => .ok { d with out := some value }
  | .format =>
    match Format.ofName? value with
    | some format => .ok { d with format }
    | none => .error .usage
  | .workers =>
    match Text.readDecimal value.toList with
    | .ok workers => .ok { d with given := { d.given with workers := .int workers } }
    | .error _ => .error .usage
  | .timeout =>
    match Text.readDecimal value.toList with
    | .ok timeout => .ok { d with given := { d.given with timeout := .int timeout } }
    | .error _ => .error .usage
  | .logLevel =>
    choose (LogLevel.ofName? value).isSome { d with given := { d.given with logLevel := .text value } }
  | .logFormat =>
    choose (LogFormat.ofName? value).isSome { d with given := { d.given with logFormat := .text value } }
  | .help => .error .usage
  | .exact => .error .usage

/-- Letters written onto the one that asks for help: each stands for an option, and all after one
that takes a value are its value. Help comes first, unless a letter or a value is missing. -/
def ofLetters (later : List Token) : List Char → Refusal
  | [] => .usage
  | c :: text =>
    match Opt.ofLetter? c, text, later with
    | none, _, _ => .usage
    | some _, [], .word _ :: _ => .help
    | some o, [], _ => if o.takesValue then .usage else .help
    | some o, _ :: _, _ => if o.takesValue then .help else ofLetters later text

/-- An option that takes a value takes the next word if none is attached; one that takes none refuses
a value. -/
def Draft.read (d : Draft) : List Token → Except Refusal Draft
  | [] => .ok d
  | .option o (some value) :: rest =>
    if o.takesValue then d.set value o >>= fun d => d.read rest else .error .usage
  | .letter o text :: rest =>
    if o.takesValue then d.set text o >>= fun d => d.read rest
    else .error (ofLetters rest text.toList)
  | .option o none :: .word value :: rest =>
    if o.takesValue then d.set value o >>= fun d => d.read rest
    else d.flag o >>= fun d => Draft.read { d with leftover := true } rest
  | .option o none :: rest => d.flag o >>= fun d => d.read rest
  | .word _ :: rest => Draft.read { d with leftover := true } rest
  | .unknown :: rest => Draft.read { d with leftover := true } rest

/-- The transaction has to be named, and every argument has to have a place. -/
def Draft.finish (d : Draft) : Except Refusal Arguments :=
  match d.txHash, d.leftover with
  | some txHash, false => .ok { txHash, out := d.out, format := d.format, given := d.given }
  | _, _ => .error .usage

/-- Reads arguments over settings that hold where an option is not given. -/
def ofList (standard : Settings.Given) (arguments : List String) : Except Refusal Arguments :=
  match Token.ofArguments arguments with
  | none => .error .usage
  | some tokens => Draft.read { given := standard } tokens >>= Draft.finish

end Arguments

end TraceDiff.CommandLine
