import TraceDiff.Rpc.Scalar
import TraceDiff.Text.Search
import TraceDiff.Text.Upper

/-! Settings of an extraction: as they are given, in values of any kind, and as they are once they
have been checked. -/
namespace TraceDiff

open Rpc (Value)

inductive LogLevel where
  | debug | info | warning | error | critical
deriving DecidableEq, Repr

namespace LogLevel

def all : List LogLevel := [debug, info, warning, error, critical]

def name : LogLevel → String
  | debug => "DEBUG"
  | info => "INFO"
  | warning => "WARNING"
  | error => "ERROR"
  | critical => "CRITICAL"

def ofName? (s : String) : Option LogLevel := all.find? fun l => l.name = s

@[simp] theorem ofName?_name (l : LogLevel) : ofName? l.name = some l := by
  cases l <;> decide +kernel

end LogLevel

inductive LogFormat where
  | console | json
deriving DecidableEq, Repr

namespace LogFormat

def all : List LogFormat := [console, json]

def name : LogFormat → String
  | console => "console"
  | json => "json"

def ofName? (s : String) : Option LogFormat := all.find? fun f => f.name = s

@[simp] theorem ofName?_name (f : LogFormat) : ofName? f.name = some f := by
  cases f <;> decide +kernel

end LogFormat

namespace Settings

/-- Whether a number is below one; the float that is no number is not. -/
def isBelowOne : Value → Except Fault Bool
  | .int n => .ok (n < 1)
  | .bool b => .ok (!b)
  | .float x => .ok (!x.isNaN && (x.negative || x.exponentField < 1023))
  | _ => .error .wrongKind

end Settings

/-- Where the node is and how long it is waited for is up to the connection, which takes what was
given. -/
structure Settings where
  url : Value
  /-- Seconds that a request may take. -/
  timeout : Value
  /-- Requests that may be under way together. -/
  workers : Value
  /-- Whether balances come from replaying the transactions before the one of interest. -/
  exact : Value
  logLevel : LogLevel
  logFormat : LogFormat
  enough : Settings.isBelowOne workers = .ok false

namespace Settings

/-- Settings before any check; what is not given has a default. -/
structure Given where
  url : Value := .text "http://localhost:8545"
  timeout : Value := .int 30
  workers : Value := .int 8
  exact : Value := .bool false
  logLevel : Value := .text "INFO"
  logFormat : Value := .text "console"
deriving DecidableEq, Repr

namespace Given

/-- Sets what goes by a name. -/
def set (g : Given) (name : String) (v : Value) : Except Fault Given :=
  match name with
  | "rpc_url" => .ok { g with url := v }
  | "request_timeout" => .ok { g with timeout := v }
  | "max_workers" => .ok { g with workers := v }
  | "exact_pre_balances" => .ok { g with exact := v }
  | "log_level" => .ok { g with logLevel := v }
  | "log_format" => .ok { g with logFormat := v }
  | _ => .error .wrongKind

/-- Settings by their names; there are no others. -/
def ofFields (fields : List (String × Value)) : Except Fault Given :=
  fields.foldlM (fun g f => g.set f.1 f.2) {}

/-- The name of a level may be in letters of any case. Bytes have capitals too, but are no name. -/
def level (g : Given) : Except Fault LogLevel :=
  match g.logLevel with
  | .text s =>
    let name := Text.upper s
    match LogLevel.ofName? name with
    | some level => .ok level
    | none => .error (.settings (.logLevel name))
  | .bytes b =>
    let capital (x : UInt8) : UInt8 := if 0x61 ≤ x && x ≤ 0x7A then x - 0x20 else x
    .error (.settings (.logLevel (Value.bytes (b.map capital)).shown))
  | _ => .error .wrongShape

/-- The name of a format is taken as it stands. -/
def format (g : Given) : Except Fault LogFormat :=
  match g.logFormat with
  | .text s =>
    match LogFormat.ofName? s with
    | some format => .ok format
    | none => .error (.settings (.logFormat s))
  | v => .error (.settings (.logFormat v.shown))

def check (g : Given) : Except Fault Settings := do
  let logLevel ← g.level
  let logFormat ← g.format
  match h : isBelowOne g.workers with
  | .ok false =>
    return {
      url := g.url, timeout := g.timeout, workers := g.workers, exact := g.exact
      logLevel, logFormat, enough := h }
  | .ok true => .error (.settings .workers)
  | .error f => .error f

end Given

/-- The variables of the environment that hold settings. -/
def variableNames : List String := [
  "WEB3_PROVIDER_URL", "RPC_TIMEOUT", "WORKERS", "EXACT_PRE_BALANCES", "LOG_LEVEL", "LOG_FORMAT"]

/-- Values of variables by name. -/
abbrev Environment := List (String × Value)

/-- An integer that a variable holds. -/
def Environment.integer (env : Environment) (key : String) (default : Value) :
    Except Fault Value :=
  match Value.lookup key env with
  | none => .ok default
  | some v => .int <$> v.integer

/-- Whether a value is a word for yes. -/
def isYes (v : Value) : Except Fault Bool :=
  if v.truthy then
    match v with
    | .text s =>
      let word := String.ofList (Text.foldCase (Text.trim s.toList))
      .ok (word = "1" || word = "true" || word = "yes" || word = "on")
    | .bytes _ => .ok false
    | _ => .error .wrongShape
  else .ok false

def Given.ofEnvironment (env : Environment) : Except Fault Given := do
  let standard : Given := {}
  let get (key : String) (default : Value) : Value := (Value.lookup key env).getD default
  let timeout ← env.integer "RPC_TIMEOUT" standard.timeout
  let workers ← env.integer "WORKERS" standard.workers
  let exact ← isYes (get "EXACT_PRE_BALANCES" .null)
  return {
    url := get "WEB3_PROVIDER_URL" standard.url
    timeout, workers
    exact := .bool exact
    logLevel := get "LOG_LEVEL" standard.logLevel
    logFormat := get "LOG_FORMAT" standard.logFormat }

def ofEnvironment (env : Environment) : Except Fault Settings :=
  Given.ofEnvironment env >>= Given.check

/-- Checked settings as they could have been given. -/
def given (s : Settings) : Given where
  url := s.url
  timeout := s.timeout
  workers := s.workers
  exact := s.exact
  logLevel := .text s.logLevel.name
  logFormat := .text s.logFormat.name

/-- Checked settings pass the check again, unchanged. -/
theorem check_given (s : Settings) : s.given.check = .ok s := by
  obtain ⟨url, timeout, workers, exact, level, format, enough⟩ := s
  have hl : LogLevel.ofName? (Text.upper level.name) = some level := by
    cases level <;> decide +kernel
  have level_eq : (given ⟨url, timeout, workers, exact, level, format, enough⟩).level =
      .ok level := by
    simp [given, Given.level, hl]
  have format_eq : (given ⟨url, timeout, workers, exact, level, format, enough⟩).format =
      .ok format := by
    simp [given, Given.format]
  unfold Given.check
  rw [level_eq, format_eq]
  simp only [bind, Except.bind]
  split
  · rfl
  · next h => simp [given, enough] at h
  · next h => simp [given, enough] at h

end Settings

end TraceDiff
