import TraceDiff.Log.Event
import TraceDiff.Rpc.Order

/-! Loggers and what their methods do. A method writes the line of an event, or changes the logger,
or does neither. -/
namespace TraceDiff.Log

open Rpc (Value)

/-- The name of a logger; one without a name is the root of all. -/
def loggerName (v : Value) : Except Fault String :=
  if v.truthy then
    match v with
    | .text s => .ok s
    | _ => .error .wrongKind
  else .ok "root"

structure Logger where
  name : String
  /-- The least severity that is written; zero leaves it to the level of all loggers. -/
  level : Int := 0
deriving DecidableEq, Repr

namespace Logger

def ofValue (v : Value) : Except Fault Logger := (fun name => { name }) <$> loggerName v

def least (l : Logger) (common : Int) : Int := if l.level = 0 then common else l.level

/-- A level by its name in capitals, or by its severity. -/
def levelOf : Value → Except Fault Int
  | .text name =>
    match severities.find? (·.1 == name) with
    | some level => .ok level.2
    | none => .error .badLevel
  | v => v.number

/-- Parts of a logger that are no methods, and methods that take other things than one value. -/
def notCalled : List String := [
  "name", "level", "parent", "propagate", "handlers", "disabled", "bind", "new", "alog",
  "getEffectiveLevel", "hasHandlers", "makeRecord"]

/-- Methods that log later, which nothing waits for. -/
def deferred : List String := [
  "adebug", "ainfo", "awarning", "aerror", "acritical", "afatal", "aexception"]

/-- Methods that take a value alone and write no line. -/
def changing : List String := [
  "setLevel", "unbind", "try_unbind", "findCaller", "removeHandler", "getChild", "isEnabledFor",
  "handle", "callHandlers"]

/-- What a method of these makes of a value. A logger starts without names of its own, so that there
is none to be taken off it, and only a record can be handled. -/
def change (l : Logger) (method : String) (v : Value) : Except Fault Logger :=
  match method with
  | "setLevel" => (fun level => { l with level }) <$> levelOf v
  | "unbind" => .error (if v.isName then .missingKey v else .wrongKind)
  | "getChild" => if v.isText then .ok l else .error .wrongKind
  | "isEnabledFor" => if v.isNumber then .ok l else .error .wrongKind
  | "handle" => .error .wrongShape
  | "callHandlers" => .error .wrongShape
  | _ => .ok l

/-- A method that writes no line, with its value and fields. -/
def quiet (l : Logger) (method : String) (v fields : Value) : Except Fault Logger :=
  let names := fields.fields?.map fun fs => fs.map (·.1)
  if notCalled.contains method then .error .wrongKind
  else if deferred.contains method then
    if names.any fun ns => !ns.contains "self" && !ns.contains "event" then .ok l
    else .error .wrongKind
  else if changing.contains method then
    if names = some [] then l.change method v else .error .wrongKind
  else .error .wrongShape

/-- Whether a method writes the line of an event at once. -/
def isLogging (method : String) : Bool := method = "log" || (Kind.ofMethod? method).isSome

/-- A call of a method: the logger after it, and the line it writes if any. -/
def call (l : Logger) (common : Int) (method message fields : Value) :
    Except Fault (Logger × Option Value) :=
  match method with
  | .text name =>
    if isLogging name then do
      let event ← Event.ofCall l.name name message fields
      return (l, ← event.lineAt (l.least common))
    else (fun l => (l, none)) <$> l.quiet name message fields
  | _ => .error .wrongKind

/-- The lines written for calls, in their order. -/
def lines (common : Int) : Logger → List (Value × Value × Value) → Except Fault (List Value)
  | _, [] => .ok []
  | l, (method, message, fields) :: calls => do
    let (l, line) ← l.call common method message fields
    return line.toList ++ (← lines common l calls)

end Logger

end TraceDiff.Log
