import TraceDiff.Log.Level
import TraceDiff.Template
import TraceDiff.Text.Utf8

/-! Events that are logged, and the lines they are written as. -/
namespace TraceDiff.Log

open Rpc (Value)

structure Event where
  logger : String
  kind : Kind
  message : Option Value := none
  fields : List (String × Value) := []

/-- Names that an event has no fields of, since they stand for parts of the call that logs it. -/
def reserved : List String := ["self", "event", "method_name"]

/-- An event by the method that logs it and what the method is called with. The method `log` takes
the severity first, and the message as a field. -/
def Event.ofCall (logger method : String) (message fields : Value) : Except Fault Event :=
  match fields with
  | .object fields =>
    let isNamed (name : String) : Bool := (Value.lookup name fields).isSome
    match Kind.ofMethod? method with
    | some kind =>
      if reserved.any isNamed then .error .wrongKind
      else .ok { logger, kind, fields, message := if message = .null then none else some message }
    | none =>
      if isNamed "self" || isNamed "level" then .error .wrongKind
      else do
        let kind ← Kind.ofSeverity message
        if isNamed "method_name" then throw .wrongKind
        let message := (Value.lookup "event" fields).filter fun v => v != .null
        return { logger, kind, message, fields := fields.filter (·.1 != "event") }
  | _ => .error .wrongKind

/-- How many items a value has. -/
def size : Value → Except Fault Nat
  | .list items => .ok items.length
  | .text s => .ok s.length
  | .bytes b => .ok b.length
  | .object fields => .ok fields.length
  | _ => .error .wrongKind

/-- What a message is filled with: the positional arguments, or an object that is the only one. -/
def arguments (v : Value) : Except Fault Value := do
  if (← size v) = 1 then
    match v with
    | .list [.object (f :: fields)] => return .object (f :: fields)
    | .object _ => .error (.missingKey (.int 0))
    | v => return v
  else return v

/-- The message with its places filled from the positional arguments. -/
def fillMessage (message : Option Value) (v : Value) : Except Fault Value := do
  let v ← arguments v
  match message with
  | none => .error (.missingKey (.text "event"))
  | some (.text s) => return .text (← Template.fill s v)
  | some (.bytes b) => return .bytes (← Template.fillBytes b v)
  | some _ => .error .wrongKind

mutual

/-- Bytes have no form in a line and are shown in quotes. -/
def written : Value → Value
  | .bytes b => .text (Value.bytes b).quoted
  | .list items => .list (writtenAll items)
  | .object fields => .object (writtenFields fields)
  | v => v

def writtenAll : List Value → List Value
  | [] => []
  | v :: vs => written v :: writtenAll vs

def writtenFields : List (String × Value) → List (String × Value)
  | [] => []
  | (k, v) :: fields => (k, written v) :: writtenFields fields

end

/-- A field of a line: bytes of its own are read as text. -/
def field : Value → Value
  | .bytes b => .text (Text.Utf8.decode b)
  | v => written v

/-- Fields that tell how to write a line and are not part of it. -/
def directives : List String := ["positional_args", "stack_info", "exc_info"]

/-- The fields of a line: those of the event, and the logger and the kind in place of any fields of
their names. Positional arguments that count as absent fill nothing. A record, which would tell the
logger, is no value. -/
def Event.line (e : Event) : Except Fault Value := do
  if (Rpc.optional e.fields "_record") != .null then throw .wrongShape
  let positional := (Value.lookup "positional_args" e.fields).filter fun v => v != .null
  let message ← match positional.filter Value.truthy with
    | some v => some <$> fillMessage e.message v
    | none => pure e.message
  let isKept (name : String) : Bool :=
    !directives.contains name || (name = "positional_args" && positional.isNone)
  let fields := (e.fields.filter fun f => isKept f.1) ++
    (message.toList.map fun v => ("event", v))
  let fields := fields.map fun f => (f.1, field f.2)
  let fields := Value.setField "logger" (.text e.logger) fields
  return .object (Value.setField "level" (.text e.kind.name) fields)

/-- The line of an event, if it is severe enough to be written. -/
def Event.lineAt (least : Int) (e : Event) : Except Fault (Option Value) :=
  if least ≤ e.kind.severity then some <$> e.line else .ok none

end TraceDiff.Log
