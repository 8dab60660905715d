import TraceDiff.CallStack
import TraceDiff.Journal
import TraceDiff.Replay.Lookahead

/-! The effects of one record, read off the operands before any of them happens. -/
namespace TraceDiff.Replay

/-- What a replay follows: everything, or balances alone. -/
structure Scope where
  /-- Storage reads and writes, observed accounts and block hashes. -/
  observes : Bool := true
  code : Bool := true
  /-- Whether the balance of an account that destroys itself is known. -/
  baseline : Bool := true
deriving DecidableEq, Repr

inductive Effect where
  /-- An entry in the journal. -/
  | note (entry : Journal.Entry)
  /-- A frame opens over a new snapshot. -/
  | enter (opcode : Opcode) (target : Address) (placeholder : Bool)
  /-- The current frame aborts. -/
  | abort
deriving DecidableEq, Repr

namespace Effect

def noteIf (condition : Bool) (entry : Journal.Entry) : List Effect :=
  if condition then [.note entry] else []

/-- Value moves out of a frame when a frame opened for it; placeholders move nothing. -/
def payment (caller : Frame) (target : Address) (value : Int) (started : Bool) : List Effect :=
  noteIf (value != 0 && !caller.placeholder && started) (.transfer caller.address target value)

def ofCall (scope : Scope) (caller : Frame) (opcode : Opcode) (r : Record) (later : List Record) :
    Except Fault (List Effect) := do
  let target := Address.ofWord (← r.peek 1)
  -- only a plain call can move value to another account
  let value ← if opcode = .call then r.peek 2 else pure 0
  return noteIf scope.code (.reference target) ++ [enter opcode target false] ++
    payment caller target value (frameStarted r later)

def ofCreate (scope : Scope) (creator : Frame) (opcode : Opcode) (r : Record)
    (later : List Record) : Except Fault (List Effect) := do
  let value ← r.peek 0
  match ← createdAddress r later with
  | none => return [enter opcode Address.zero true]
  | some address =>
    return [enter opcode address false] ++ noteIf scope.code (.deploy address) ++
      payment creator address value (frameStarted r later)

def ofSelfdestruct (scope : Scope) (top : Frame) (r : Record) : Except Fault (List Effect) :=
  if top.placeholder then .ok []
  else do
    let beneficiary := Address.ofWord (← r.peek 0)
    return noteIf scope.baseline (.sweep top.address beneficiary) ++
      [note (.touch beneficiary)] ++ noteIf scope.code (.destroy top.address)

def ofSload (top : Frame) (r : Record) (later : List Record) : Except Fault (List Effect) := do
  let slot ← r.peek 0
  let value ← resultOf r later
  return noteIf (!top.placeholder) (.read top.address slot value)

def ofSstore (top : Frame) (r : Record) : Except Fault (List Effect) := do
  let slot ← r.peek 0
  let value ← r.word 1
  return [note (.write top.address slot value)]

def ofBlockhash (r : Record) (later : List Record) : Except Fault (List Effect) := do
  let number ← r.word 0
  let word ← resultOf r later
  return [note (.recordHash number word.value)]

/-- Opcodes that change nothing are followed only by a replay that observes. -/
def ofObservation (scope : Scope) (top : Frame) (opcode : Opcode) (r : Record)
    (later : List Record) : Except Fault (List Effect) :=
  match opcode with
  | .sload => ofSload top r later
  | .sstore => ofSstore top r
  | .balance => do return [note (.touch (Address.ofWord (← r.peek 0)))]
  | .selfbalance => .ok (noteIf (!top.placeholder) (.touch top.address))
  | .blockhash => ofBlockhash r later
  | _ =>
    if opcode.inspectsCode && scope.code then do
      return [note (.reference (Address.ofWord (← r.peek 0)))]
    else .ok []

/-- The effects of an opcode in the frame `top`. -/
def ofOpcode (scope : Scope) (top : Frame) (opcode : Opcode) (r : Record) (later : List Record) :
    Except Fault (List Effect) :=
  if opcode.aborts then .ok [abort]
  else if opcode.isCall then ofCall scope top opcode r later
  else if opcode.isCreate then ofCreate scope top opcode r later
  else if opcode = .selfdestruct then ofSelfdestruct scope top r
  else if scope.observes then ofObservation scope top opcode r later
  else .ok []

/-- The effects of a record in the frame `top`. A record with an error did not execute: its frame
aborts. -/
def ofRecord (scope : Scope) (top : Frame) (r : Record) (later : List Record) :
    Except Fault (List Effect) :=
  if r.error.isSome then .ok [abort]
  else do
    match ← r.op.opcode with
    | none => return []
    | some opcode => ofOpcode scope top opcode r later

end Effect

end TraceDiff.Replay
