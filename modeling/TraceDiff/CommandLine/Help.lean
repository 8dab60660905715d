import TraceDiff.CommandLine.Arguments
import TraceDiff.Template

/-! What the program tells about its options. The words on an option are a template that may name
properties of the option, and the address of the node stands in them as it is set. -/
namespace TraceDiff.CommandLine.Help

open Rpc (Value)

def program : String := "trace-diff"

/-- The name of the value that an option sets. -/
def destination (o : Opt) : String :=
  String.ofList ((o.name.toList.drop 2).map fun c => if c = '-' then '_' else c)

def standardOf (standard : Settings.Given) : Opt → Value
  | .rpcUrl => standard.url
  | .format => .text "json"
  | .exact => standard.exact
  | .workers => standard.workers
  | .timeout => standard.timeout
  | .logLevel => standard.logLevel
  | .logFormat => standard.logFormat
  | .help => .text "==SUPPRESS=="
  | _ => .null

def choices : Opt → List String
  | .format => ["json", "yaml"]
  | .logLevel => LogLevel.all.map LogLevel.name
  | .logFormat => LogFormat.all.map LogFormat.name
  | _ => []

/-- The words on an option, where there are any. -/
def words? (standard : Settings.Given) : Opt → Option String
  | .help => some "show this help message and exit"
  | .txHash => some "Transaction hash"
  | .rpcUrl =>
    some s!"Node JSON-RPC URL with debug_traceTransaction (default: {standard.url.shown})"
  | .out => some "Output file (default: stdout)"
  | .format => some "Output format (default: json)"
  | .exact => some "Replay preceding transactions of the block to get exact pre-balances"
  | .workers => some s!"Concurrent RPC requests (default: {standard.workers.shown})"
  | .timeout => some "RPC timeout in seconds"
  | .logLevel => none
  | .logFormat => none

/-- The properties of an option that its words may name. -/
def properties (standard : Settings.Given) (words : String) (o : Opt) : Value :=
  let names := o.name :: (o.letter?.toList.map fun c => String.ofList ['-', c])
  .object [
    ("option_strings", .list (names.map .text)), ("dest", .text (destination o)),
    ("nargs", if o.takesValue then .null else .int 0), ("const", .null),
    ("default", standardOf standard o),
    ("type", if o = .workers || o = .timeout then .text "int" else .null),
    ("choices",
      if (choices o).isEmpty then .null else .text (", ".intercalate (choices o))),
    ("required", .bool (o = .txHash)), ("help", .text words), ("metavar", .null),
    ("container", .list []), ("prog", .text program)]

/-- An option with the name of its value. -/
def heading (o : Opt) : String :=
  let value := if o.takesValue then " " ++ (destination o).map Char.toUpper else ""
  match o.letter? with
  | some c => o.name ++ value ++ ", " ++ String.ofList ['-', c] ++ value
  | none => o.name ++ value

def line (standard : Settings.Given) (o : Opt) : Except Fault String :=
  match words? standard o with
  | none => .ok ("  " ++ heading o ++ "\n")
  | some words => do
    let told ← Template.fill words (properties standard words o)
    return "  " ++ heading o ++ "  " ++ told ++ "\n"

/-- All options, each on a line, with the settings that hold where it is not given. -/
def text (standard : Settings.Given) : Except Fault String := do
  let lines ← Opt.all.mapM (line standard)
  return s!"usage: {program} --tx-hash TX_HASH [options]\n\noptions:\n" ++ String.join lines

end TraceDiff.CommandLine.Help
