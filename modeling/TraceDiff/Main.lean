import TraceDiff.CommandLine.Destination
import TraceDiff.CommandLine.Run
import TraceDiff.Json.Tagged
import TraceDiff.Node.Recorded

/-! The program. What the node answers is read from the standard input, as one object of tables. -/
namespace TraceDiff.CommandLine

/-- The settings that the environment holds. -/
def environment : IO Settings.Environment :=
  Settings.variableNames.filterMapM fun name => do
    return (← IO.getEnv name).map fun value => (name, .text value)

def recorded (text : String) : Node.Recorded :=
  match Json.readTagged text with
  | some (.object fields) => Node.Recorded.ofFields NodeFault.ofName? fields
  | _ => { connected := false }

def save (path text : String) : IO Unit := do
  let current := Destination.names (← IO.currentDir).toString
  let made := Destination.directoryOf current path
  IO.FS.createDirAll ("/" ++ "/".intercalate (made.map String.ofList))
  IO.FS.writeFile path text

/-- Tells on the error output how a run ended, unless it ended well. -/
def tell : Ending → IO Unit
  | .finished => pure ()
  | .failed fault => IO.eprintln s!"Extraction failed: {fault.message}"
  | .interrupted => IO.eprintln "Extraction interrupted by user"
  | .help => pure ()
  | .usage => IO.eprintln s!"usage: {Help.program} --tx-hash TX_HASH [options]"
  | .escaped fault => IO.eprintln fault.message

def program (arguments : List String) : IO UInt32 := do
  let env ← environment
  let node := recorded (← (← IO.getStdin).readToEnd)
  let world : World (List Request) := {
    connect := fun _ _ => { connected := node.connected, node := node.node } }
  let (report, _) := run world env arguments []
  IO.print report.stdout
  if let some (path, text) := report.file then save path text
  tell report.ending
  return report.ending.status.toUInt32

end TraceDiff.CommandLine

def main (arguments : List String) : IO UInt32 := TraceDiff.CommandLine.program arguments
