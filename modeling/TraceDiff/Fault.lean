import TraceDiff.Address.Checksum
import TraceDiff.Rpc.Quantity

/-! Everything that can go wrong, by cause, and the words each cause is reported in. -/
namespace TraceDiff

/-- What a trace lacks. -/
inductive Defect where
  /-- A record deeper than the frames that calls have opened. -/
  | depthJump (depth : Int) (frames : Nat)
  | missingOperand (op : String) (depth : Int) (needed : Rpc.Value) (held : Nat)
  /-- The last record of a trace has no result after it. -/
  | missingResult (op : String)
  | noSnapshotToDrop
  | noSnapshotToRestore
deriving DecidableEq, Repr

def Defect.message : Defect → String
  | .depthJump depth frames =>
    s!"depth jumps to {depth} without a call (frame depth {frames})"
  | .missingOperand op depth needed held =>
    s!"{op} at depth {depth} needs {needed.shown} stack operands, trace has {held}"
  | .missingResult op => s!"{op} is the last record; its result is missing"
  | .noSnapshotToDrop => "Snapshot stack underflow on frame return"
  | .noSnapshotToRestore => "Snapshot stack underflow on frame abort"

/-- A rejected trace: the defect, and the record it shows at once replay has reached it, with its
opcode as it came. -/
structure MalformedTrace where
  defect : Defect
  index : Option Nat := none
  op : Rpc.Value := .text ""
deriving DecidableEq, Repr

/-- An account that paid more than it held, with the balance before as it came. -/
structure Underflow where
  address : Address
  pre : Rpc.Value
  credit : Int
  debit : Int
deriving DecidableEq, Repr

def Underflow.message (u : Underflow) : String :=
  s!"Balance underflow for {u.address.text}: pre={u.pre.shown} credit={u.credit} debit={u.debit}"

/-- What a node's client could not supply. -/
inductive ChainFault where
  | transactionNotFound (hash : String)
  | transactionFailed (hash reason : String)
  | blockNotFound (block : String)
  | blockFailed (block reason : String)
  | codeFailed (account reason : String)
  | balanceFailed (account reason : String)
  | traceFailed (hash reason : String)
  | traceNotFound (hash reason : String)
  | traceRefused (hash reason : String)
  | traceUnreadable (hash : String)
  | notInBlock (hash : Bytes) (block : Rpc.Quantity)
  | pending (hash : String)
deriving DecidableEq, Repr

namespace ChainFault

/-- The causes that say a transaction, block or trace does not exist (yet). -/
def isNotFound : ChainFault → Bool
  | .transactionNotFound _ | .blockNotFound _ | .traceNotFound _ _ | .pending _ => true
  | _ => false

def message : ChainFault → String
  | .transactionNotFound hash => s!"Transaction not found: {hash}"
  | .transactionFailed hash reason => s!"Failed to fetch transaction {hash}: {reason}"
  | .blockNotFound block => s!"Block not found: {block}"
  | .blockFailed block reason => s!"Failed to fetch block {block}: {reason}"
  | .codeFailed account reason => s!"Failed to fetch code of {account}: {reason}"
  | .balanceFailed account reason => s!"Failed to fetch balance of {account}: {reason}"
  | .traceFailed hash reason => s!"Failed to trace {hash}: {reason}"
  | .traceNotFound hash reason => s!"Trace not available for {hash}: {reason}"
  | .traceRefused hash reason => s!"Trace error for {hash}: {reason}"
  | .traceUnreadable hash => s!"Unexpected trace format received for {hash}"
  | .notInBlock hash block =>
    s!"Transaction 0x{Text.Hex.toText hash} is not part of block {block.shown}"
  | .pending hash => s!"Transaction {hash} is still pending"

end ChainFault

/-- The kinds of failure a node itself raises. -/
inductive NodeFault where
  | badRequest
  | connection
  | unknownTransaction
  | unknownBlock
  | interrupted
deriving DecidableEq, Repr

/-- Settings that are refused. -/
inductive SettingsFault where
  | logLevel (level : String)
  | logFormat (format : String)
  | workers
deriving DecidableEq, Repr

def SettingsFault.message : SettingsFault → String
  | .logLevel level => s!"Unsupported log level: {level}"
  | .logFormat format => s!"Unsupported log format: {format}"
  | .workers => "max_workers must be at least 1"

/-- Why no file can be written at a path. -/
inductive DestinationFault where
  /-- The path is that of a directory. -/
  | directory
  /-- A directory on the way is missing. -/
  | missing
  | nameTooLong
  /-- A name with a character that no name may hold. -/
  | invalidName
deriving DecidableEq, Repr

def DestinationFault.message : DestinationFault → String
  | .directory => "Is a directory"
  | .missing => "No such file or directory"
  | .nameTooLong => "File name too long"
  | .invalidName => "embedded null byte"

inductive Fault where
  | malformed (trace : MalformedTrace)
  | underflow (account : Underflow)
  | chain (fault : ChainFault)
  | unreachable (url : String)
  | node (fault : NodeFault) (text : String)
  | settings (fault : SettingsFault)
  | destination (fault : DestinationFault)
  | missingKey (key : Rpc.Value)
  /-- A text that is no integer in the base. -/
  | badInteger (base : Nat) (shown : String)
  /-- A value of a kind that has no integer. -/
  | noInteger (kind : String)
  | infiniteInteger
  | undefinedInteger
  /-- An integer too great for a float. -/
  | beyondFloat
  /-- A number with more digits than are read, which are then told, or than are written. -/
  | tooManyDigits (read : Option Nat)
  | badAddress (fault : AddressFault)
  | badHexadecimal
  | nonAsciiHexadecimal
  /-- A number outside the range of 32 unsigned bytes. -/
  | outOfWord
  /-- A value where a text or an object is needed. -/
  | wrongShape
  /-- A value of a kind that an operation does not take. -/
  | wrongKind
  /-- A value whose parts are not pairs, where an object is needed. -/
  | notPairs
  /-- A template with a place that is left open or of an unknown form. -/
  | badTemplate
  /-- A text that names no level of logging. -/
  | badLevel
  | outOfRange
  | rootFrame
  | noBaseline
deriving DecidableEq, Repr

namespace Fault

/-- Trace, balance and chain faults end an extraction with a report. -/
def isExtraction : Fault → Bool
  | .malformed _ | .underflow _ | .chain _ => true
  | _ => false

def message : Fault → String
  | .malformed trace => trace.defect.message
  | .underflow account => account.message
  | .chain fault => fault.message
  | .unreachable url => s!"Could not connect to Web3 provider at {url}"
  | .node _ text => text
  | .settings fault => fault.message
  | .destination fault => fault.message
  | .missingKey key => key.quoted
  | .badInteger base shown =>
    s!"invalid literal for int() with base {base}: {String.ofList (shown.toList.take 200)}"
  | .noInteger kind =>
    s!"int() argument must be a string, a bytes-like object or a real number, not '{kind}'"
  | .infiniteInteger => "cannot convert float infinity to integer"
  | .undefinedInteger => "cannot convert float NaN to integer"
  | .beyondFloat => "int too large to convert to float"
  | .tooManyDigits read =>
    let told := match read with
      | some digits => s!": value has {digits} digits"
      | none => ""
    s!"Exceeds the limit ({Text.maxDecimalDigits} digits) for integer string conversion{told}; " ++
      "use sys.set_int_max_str_digits() to increase the limit"
  | .badAddress fault => fault.message
  | .badHexadecimal => "Non-hexadecimal digit found"
  | .nonAsciiHexadecimal => "ordinal not in range(128)"
  | .outOfWord => "int too big to convert"
  | .wrongShape => "a text or an object is needed"
  | .wrongKind => "a value of another kind is needed"
  | .notPairs => "pairs are needed"
  | .badTemplate => "incomplete or unsupported format"
  | .badLevel => "unknown level"
  | .outOfRange => "index out of range"
  | .rootFrame => "cannot leave the root frame"
  | .noBaseline => "current_balance needs baseline balances"

/-- A fault whose words hold these numbers; a number that is too long to be written is the fault
instead. -/
def spelling (numbers : List Rpc.Value) (f : Fault) : Fault :=
  if numbers.all Rpc.Value.isWritable then f else .tooManyDigits none

/-- The fault of an account that paid more than it held. -/
def ofUnderflow (u : Underflow) : Fault :=
  spelling [u.pre, .int u.credit, .int u.debit] (.underflow u)

/-- The fault of a transaction that its block does not list. -/
def ofNotInBlock (hash : Bytes) (block : Rpc.Quantity) : Fault :=
  spelling [block.toValue] (.chain (.notInBlock hash block))

end Fault

theorem ok_bind {α β : Type} {a : α} {f : α → Except Fault β} : (Except.ok a >>= f) = f a := rfl

theorem bind_eq_ok {α β : Type} {p : Except Fault α} {f : α → Except Fault β} {b : β} :
    p >>= f = .ok b ↔ ∃ a, p = .ok a ∧ f a = .ok b := by
  cases p with
  | error e => exact ⟨fun h => (nomatch h), fun ⟨_, h, _⟩ => (nomatch h)⟩
  | ok a =>
    constructor
    · exact fun h => ⟨a, rfl, h⟩
    · rintro ⟨_, ⟨⟩, h⟩
      exact h

/-- What went wrong, if something did. -/
def faultOf {α : Type} : Except Fault α → Option Fault
  | .ok _ => none
  | .error f => some f

theorem eq_error_of_faultOf {α : Type} {x : Except Fault α} {f : Fault} (h : faultOf x = some f) :
    x = .error f := by
  cases x with
  | error e => exact congrArg Except.error (Option.some.inj h)
  | ok a => nomatch h

theorem eq_ok_of_toOption {α : Type} {x : Except Fault α} {a : α} (h : x.toOption = some a) :
    x = .ok a := by
  cases x with
  | error e => nomatch h
  | ok b => exact congrArg Except.ok (Option.some.inj h)

end TraceDiff
