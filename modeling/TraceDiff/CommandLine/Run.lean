import TraceDiff.CommandLine.Help
import TraceDiff.Document.Yaml
import TraceDiff.Extraction
import TraceDiff.Node

/-! One run of the program: from its arguments to what it leaves behind. Output is all or nothing. -/
namespace TraceDiff.CommandLine

/-- How a run ends. A fault that is none of an extraction escapes. -/
inductive Ending where
  | finished
  | failed (fault : Fault)
  | interrupted
  | help
  | usage
  | escaped (fault : Fault)
deriving DecidableEq, Repr

/-- The status that the run exits with; an escaped fault counts as a failure. -/
def Ending.status : Ending → Nat
  | finished => 0
  | failed _ => 1
  | interrupted => 130
  | help => 0
  | usage => 2
  | escaped _ => 1

/-- What a run has set up and written. -/
structure Report where
  ending : Ending
  logging : Option (LogLevel × LogFormat) := none
  /-- The node that the run turned to, and the seconds it gave each request. -/
  provider : Option (Rpc.Value × Rpc.Value) := none
  stdout : String := ""
  /-- The file written, by its path. -/
  file : Option (String × String) := none
deriving DecidableEq, Repr

/-- What answers at an address of the network. -/
structure Provider (σ : Type) where
  connected : Bool
  node : Node σ
  /-- In which order requests complete that are made together. -/
  completion : Gather.Completion σ := .asMade

/-- The text of a document; one with a number that is too long to be written has none. -/
def Format.render (format : Format) (d : Document) : Except Fault String :=
  if d.isWritable then
    .ok (match format with
      | .json => d.json
      | .yaml => Document.Yaml.write d)
  else .error (.tooManyDigits none)

/-- An interruption, a fault of the chain or trace, and a lost connection end a run in order. -/
def Ending.ofFault : Fault → Ending
  | .node .interrupted _ => interrupted
  | .unreachable url => failed (.unreachable url)
  | f => if f.isExtraction then failed f else escaped f

/-- What the run is given by the world around it: the node at an address and how long it is waited
for, and why a path cannot be written to, if it cannot. -/
structure World (σ : Type) where
  connect : (url timeout : Rpc.Value) → Provider σ
  refuses : (path : String) → Option DestinationFault := fun _ => none

variable {σ : Type}

/-- The file that a result is to be written to, if one is named. -/
def fileNamed (out : Option String) : Option String := out.filter fun path => !path.isEmpty

/-- Writes the text to the file if one is named, otherwise to the output with a newline. -/
def Report.write (r : Report) (world : World σ) (out : Option String) (text : String) : Report :=
  match fileNamed out with
  | none => { r with ending := .finished, stdout := text ++ "\n" }
  | some path =>
    match world.refuses path with
    | some fault => { r with ending := .escaped (.destination fault) }
    | none => { r with ending := .finished, file := some (path, text) }

/-- The written result of an extraction through a provider. -/
def rendering (provider : Provider σ) (settings : Settings) (a : Arguments) : Asking σ String :=
  if provider.connected then do
    let client := provider.node.client settings.workers provider.completion
    let result ← extract client (.ofText a.txHash) settings.exact.truthy settings.exact
    let document ← .ofExcept result.write
    .ofExcept (a.format.render document)
  else .fail (.unreachable settings.url.shown)

/-- A run with arguments and settings that passed their checks. -/
def perform (world : World σ) (settings : Settings) (a : Arguments) (s : σ) : Report × σ :=
  let started (ending : Ending) : Report :=
    { ending
      logging := some (settings.logLevel, settings.logFormat)
      provider := some (settings.url, settings.timeout) }
  match (rendering (world.connect settings.url settings.timeout) settings a).outcome s with
  | (.ok text, s') => ((started .finished).write world a.out text, s')
  | (.error f, s') => (started (.ofFault f), s')

/-- Why a variable cannot be in the environment, if it cannot: names and values are texts without
NUL, and a name is neither empty nor has a `=`. -/
def refusedVariable (name : String) : Rpc.Value → Option Fault
  | .text s =>
    if (name ++ s).toList.contains (Char.ofNat 0) then some (.destination .invalidName)
    else if name.toList.contains '=' then some (.destination .invalidName)
    else if name.isEmpty then some (.node .connection "Invalid argument")
    else none
  | _ => some .wrongKind

/-- The report of a run that its arguments do not start. -/
def refused (standard : Settings.Given) : Refusal → Report
  | .usage => { ending := .usage }
  | .help =>
    match Help.text standard with
    | .ok text => { ending := .help, stdout := text }
    | .error fault => { ending := .escaped fault }

/-- The environment is set up first. Its settings are checked before the arguments are read, and
again with what the arguments change. -/
def prepare (env : Settings.Environment) (arguments : List String) :
    Except Report (Settings × Arguments) := do
  let escaped (fault : Fault) : Report := { ending := .escaped fault }
  match env.findSome? fun e => refusedVariable e.1 e.2 with
  | some fault => throw (escaped fault)
  | none => pure ()
  let standard ← (Settings.ofEnvironment env).mapError escaped
  let a ← (Arguments.ofList standard.given arguments).mapError (refused standard.given)
  let settings ← a.given.check.mapError escaped
  return (settings, a)

def run (world : World σ) (env : Settings.Environment) (arguments : List String) (s : σ) :
    Report × σ :=
  match prepare env arguments with
  | .ok (settings, a) => perform world settings a s
  | .error report => (report, s)

end TraceDiff.CommandLine
