import TraceDiff.Node

/-! A node that answers from recorded tables, and the log of what it was asked. -/
namespace TraceDiff

inductive Request where
  | transaction (hash : String)
  | block (id : BlockId) (full : Rpc.Value)
  | code (address : String) (id : BlockId)
  | balance (address : String) (id : BlockId)
  | trace (hash : String)
deriving DecidableEq, Repr

/-- What a tracer is to leave out and to put in: a replay needs stacks and the returned data, and
neither storage nor memory. -/
def Request.traceOptions : List (String × Bool) := [
  ("disableStack", false), ("disableStorage", true), ("enableMemory", false),
  ("enableReturnData", true)]

namespace NodeFault

def name : NodeFault → String
  | badRequest => "bad-request"
  | connection => "connection"
  | unknownTransaction => "unknown-transaction"
  | unknownBlock => "unknown-block"
  | interrupted => "interrupted"

def ofName? (s : String) : Option NodeFault :=
  [badRequest, connection, unknownTransaction, unknownBlock, interrupted].find? fun f => f.name = s

@[simp] theorem ofName?_name (f : NodeFault) : ofName? f.name = some f := by
  cases f <;> decide +kernel

end NodeFault

namespace Node

/-- What a node does with a request: it answers or fails. -/
inductive Reply where
  | answer (v : Rpc.Value)
  | failure (fault : NodeFault) (text : String)

namespace Reply

/-- An object with the one field `$raise`, a kind and a text, is a failure; `kindOf` reads the kind. -/
def ofValue (kindOf : String → Option NodeFault) : Rpc.Value → Reply
  | v@(.object [("$raise", .list [.text kind, .text text])]) =>
    match kindOf kind with
    | some fault => failure fault text
    | none => answer v
  | v => answer v

def toExcept : Reply → Except Fault Rpc.Value
  | answer v => .ok v
  | failure fault text => .error (.node fault text)

end Reply

/-- Replies by the text of what is asked for. -/
abbrev Replies := List (String × Reply)

def Replies.to? (replies : Replies) (key : String) : Option Reply :=
  (replies.find? (·.1 == key)).map (·.2)

def Replies.ofValue (kindOf : String → Option NodeFault) : Rpc.Value → Replies
  | .object fields => fields.map fun f => (f.1, Reply.ofValue kindOf f.2)
  | _ => []

/-- Balances and codes are recorded by the address in small letters, with a block after an `@` or
for every block. -/
structure Recorded where
  connected : Bool := true
  transactions : Replies := []
  blocks : Replies := []
  traces : Replies := []
  balances : Replies := []
  codes : Replies := []

namespace Recorded

def ofFields (kindOf : String → Option NodeFault) (fields : List (String × Rpc.Value)) : Recorded :=
  let table (key : String) : Replies := Replies.ofValue kindOf (Rpc.optional fields key)
  { connected := ((Rpc.Value.lookup "connected" fields).getD (.bool true)).truthy
    transactions := table "transactions"
    blocks := table "blocks"
    traces := table "traces"
    balances := table "balances"
    codes := table "codes" }

def atBlock (replies : Replies) (address : String) (id : BlockId) : Option Reply :=
  let key := address.map Char.toLower
  (replies.to? (key ++ "@" ++ id.text)).or (replies.to? key)

/-- The response to a trace request for an unknown transaction. -/
def unknownTrace (hash : String) : Rpc.Value :=
  .object [("error", .object [
    ("code", .int (-32000)), ("message", .text s!"transaction {hash} not found")])]

/-- The reply to a request. An account without a record has no balance and no code. -/
def reply (r : Recorded) : Request → Reply
  | .transaction hash => (r.transactions.to? hash).getD (.failure .unknownTransaction hash)
  | .block id _ => (r.blocks.to? id.text).getD (.failure .unknownBlock id.text)
  | .code address id => (atBlock r.codes address id).getD (.answer (.bytes []))
  | .balance address id => (atBlock r.balances address id).getD (.answer (.int 0))
  | .trace hash => (r.traces.to? hash).getD (.answer (unknownTrace hash))

/-- Notes the request, also one that fails, and replies. -/
def ask (r : Recorded) (request : Request) : Asking (List Request) Rpc.Value :=
  .ofOutcome fun log => ((r.reply request).toExcept, request :: log)

/-- A request about a block, which cannot be made if the block's number cannot be written. -/
def askAt (r : Recorded) (id : BlockId) (request : Request) : Asking (List Request) Rpc.Value :=
  if id.isWritable then r.ask request else .fail (.tooManyDigits none)

def node (r : Recorded) : Node (List Request) where
  transaction hash := r.ask (.transaction hash)
  block id full := r.askAt id (.block id full)
  code address id := r.askAt id (.code address id)
  balance address id := r.askAt id (.balance address id)
  trace hash := r.ask (.trace hash)

end Recorded

end Node

end TraceDiff
