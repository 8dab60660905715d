import TraceDiff.Fault
import TraceDiff.Text.Upper

/-! Levels of logging, and the kinds of events that they let through. -/
namespace TraceDiff.Log

open Rpc (Value)

/-- How severe a level is, by its name in capitals. -/
def severities : List (String × Nat) := [
  ("NOTSET", 0), ("DEBUG", 10), ("INFO", 20), ("WARN", 30), ("WARNING", 30), ("ERROR", 40),
  ("CRITICAL", 50), ("FATAL", 50)]

/-- The least severity that is written, given a level in letters of any case. Two names stand for
other things than levels, a layout and a table, and are refused; all others count as `INFO`. -/
def threshold (level : Value) : Except Fault Nat :=
  match level with
  | .text s =>
    let name := Text.upper s
    if name = "BASIC_FORMAT" then .error .badLevel
    else if name = "_STYLES" then .error .wrongKind
    else .ok (((severities.find? (·.1 == name)).map (·.2)).getD 20)
  | .bytes _ => .error .wrongKind
  | _ => .error .wrongShape

/-- The kinds of events. -/
inductive Kind where
  | debug | info | warning | error | critical
deriving DecidableEq, Repr

namespace Kind

def all : List Kind := [debug, info, warning, error, critical]

def severity : Kind → Nat
  | debug => 10
  | info => 20
  | warning => 30
  | error => 40
  | critical => 50

def name : Kind → String
  | debug => "debug"
  | info => "info"
  | warning => "warning"
  | error => "error"
  | critical => "critical"

/-- The kind of the events that a method of a logger writes. -/
def ofMethod? (method : String) : Option Kind :=
  match method with
  | "debug" => some debug
  | "info" => some info
  | "warning" => some warning
  | "warn" => some warning
  | "error" => some error
  | "exception" => some error
  | "critical" => some critical
  | "fatal" => some critical
  | _ => none

/-- The kind of a severity given as a number; there is none for other values. -/
def ofSeverity (v : Value) : Except Fault Kind :=
  let size? : Option Int := match v with
    | .int n => some n
    | .float x =>
      x.truncate?.filter fun n => Binary64.ofRatio (n < 0) n.natAbs 1 = x
    | _ => none
  match v, all.find? fun k => size? = some (k.severity : Int) with
  | _, some kind => .ok kind
  | .list _, none => .error .wrongKind
  | .object _, none => .error .wrongKind
  | v, none => .error (.missingKey v)

end Kind

end TraceDiff.Log
