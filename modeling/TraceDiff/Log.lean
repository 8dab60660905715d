import TraceDiff.Log.Logger

/-! Structured log lines: which are written at a level, and what their fields are. -/
namespace TraceDiff.Log

open Rpc (Value)

/-- What is logged once logging is set up. -/
def configured (level : Value) (format : String) : Event where
  logger := "evm_state_extractor.logging_config"
  kind := .debug
  message := some (.text "Logging configured")
  fields := [("log_level", level), ("log_format", .text format)]

/-- The lines written for calls of a logger, which is set up at the first of them. -/
def linesOf (common : Int) (logger : Value) (calls : List (Value × Value × Value)) :
    Except Fault (List Value) :=
  if calls.isEmpty then .ok []
  else do (← Logger.ofValue logger).lines common calls

/-- The least severity that is written at a level, and the lines written for calls of a logger once
logging is set up. -/
def run (level logger : Value) (calls : List (Value × Value × Value)) :
    Except Fault (Nat × List Value) := do
  let least ← threshold level
  let first ← (configured level "json").lineAt least
  let lines ← linesOf least logger calls
  return (least, first.toList ++ lines)

end TraceDiff.Log
