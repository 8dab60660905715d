import TraceDiff.Client
import TraceDiff.Gather
import TraceDiff.Text.Search

/-! A node that answers requests with plain values, and the client that reads its answers. Every
failure of the node becomes a fault of the chain, but for an interruption. -/
namespace TraceDiff

/-- The five requests; answers are as the node sends them, failures are faults. Addresses are sent
with their checksum. -/
structure Node (σ : Type) where
  transaction : (hash : String) → Asking σ Rpc.Value
  block : BlockId → (full : Rpc.Value) → Asking σ Rpc.Value
  code : (address : String) → BlockId → Asking σ Rpc.Value
  balance : (address : String) → BlockId → Asking σ Rpc.Value
  /-- The whole response, with its `result` or `error` member. -/
  trace : (hash : String) → Asking σ Rpc.Value

namespace Rpc.Value

/-- The value as one of two halves of a field. -/
def asPair? : Value → Except Fault (Option (String × Value))
  | .list [.text key, v] => .ok (some (key, v))
  | .list [.list _, _] => .error .wrongKind
  | .list [.object _, _] => .error .wrongKind
  | .list [_, _] => .ok none
  | .text s =>
    match s.toList with
    | [a, b] => .ok (some (a.toString, .text b.toString))
    | _ => .error .notPairs
  | .bytes [_, _] => .ok none
  | .object [(a, _), (b, _)] => .ok (some (a, .text b))
  | .list _ => .error .notPairs
  | .bytes _ => .error .notPairs
  | .object _ => .error .notPairs
  | _ => .error .wrongKind

/-- The value as an object: an object itself, or a sequence of pairs. -/
def asObject : Value → Except Fault Value
  | .object fields => .ok (.object fields)
  | v => do
    let pairs ← (← v.items).mapM asPair?
    return .object ((pairs.filterMap id).foldl (fun fields p => setField p.1 p.2 fields) [])

/-- A member of a response. A list or a text that mentions the name has no members to give. -/
def member? (key : String) : Value → Except Fault (Option Value)
  | .object fields => .ok (lookup key fields)
  | .list items =>
    if items.any fun v => match v with | .text s => s = key | _ => false then .error .wrongKind
    else .ok none
  | .text s =>
    if Text.containsWord key.toList s.toList then .error .wrongKind else .ok none
  | _ => .error .wrongKind

/-- The words of an error member: its message, or the member as it shows. -/
def errorMessage : Value → Value
  | v@(.object fields) => (lookup "message" fields).getD (.text v.shown)
  | v => .text v.shown

end Rpc.Value

namespace Node

variable {σ α β : Type}

/-- Reports the faults of a request; an interruption passes through. -/
def wrap (report : Fault → Fault) (p : Asking σ α) : Asking σ α :=
  p.mapFault fun
    | .node .interrupted text => .node .interrupted text
    | fault => report fault

def fetchTransaction (node : Node σ) (id : TxId) : Asking σ Transaction := do
  let answer ← wrap (fun
      | .node .unknownTransaction _ => .chain (.transactionNotFound id.hex)
      | fault => .chain (.transactionFailed id.hex fault.message))
    (node.transaction id.hex)
  match answer with
  | .null => .fail (.chain (.transactionNotFound id.hex))
  | v => .ofExcept (v.asObject >>= Transaction.ofValue)

/-- A fault that tells which block was asked for. -/
def blockFault (id : BlockId) (fault : String → ChainFault) : Fault :=
  .spelling [id.toValue] (.chain (fault id.text))

def fetchBlock (node : Node σ) (id : BlockId) (full : Rpc.Value) : Asking σ Block := do
  let answer ← wrap (fun
      | .node .unknownBlock _ => blockFault id .blockNotFound
      | fault => blockFault id fun block => .blockFailed block fault.message)
    (node.block id full)
  match answer with
  | .null => .fail (blockFault id .blockNotFound)
  | v => .ofExcept (v.asObject >>= Block.ofValue)

/-- The account that a value stands for, with its checksum. -/
def checksum (account : Rpc.Value) : Asking σ String :=
  .ofExcept ((account.address >>= Address.checksum).mapError .badAddress)

/-- A fault that tells which account was asked for. -/
def accountFault (account : Rpc.Value) (fault : String → ChainFault) : Fault :=
  .spelling [account] (.chain (fault account.shown))

def fetchCode (node : Node σ) (account : Rpc.Value) (id : BlockId) : Asking σ Bytes := do
  let report (fault : Fault) : Fault := accountFault account fun a => .codeFailed a fault.message
  let answer ← wrap report do
    let text ← checksum account
    node.code text id
  .ofExcept answer.data

def fetchBalance (node : Node σ) (account : Rpc.Value) (id : BlockId) : Asking σ Int := do
  let report (fault : Fault) : Fault :=
    accountFault account fun a => .balanceFailed a fault.message
  wrap report do
    let text ← checksum account
    let answer ← node.balance text id
    .ofExcept answer.integer

/-- Whether requests can be made together by so many workers. Any number will do, since at least
one works and no more than there are requests. -/
def checkWorkers : Rpc.Value → Except Fault Unit
  | .int _ | .bool _ | .float _ => .ok ()
  | _ => .error .wrongKind

/-- Requests made together, if there are any. -/
def gather (workers : Rpc.Value) (request : α → Asking σ β) (items : List α)
    (completion : Gather.Completion σ := .asMade) : Asking σ (List β) := do
  if items.isEmpty then return []
  .ofExcept (checkWorkers workers)
  Gather.all completion request items

/-- Balances of distinct addresses, requested together. -/
def fetchBalances (node : Node σ) (addresses : AddressSet) (id : BlockId)
    (workers : Rpc.Value := .int 8) (completion : Gather.Completion σ := .asMade) :
    Asking σ Balances := do
  let each (a : Address) : Asking σ (Address × Int) :=
    (fun n => (a, n)) <$> node.fetchBalance (.text a.text) id
  return Std.ExtTreeMap.ofList (← gather workers each addresses.toList completion)

/-- Reads the response to a trace request. A response with an error member is a failure, whatever
else it holds. -/
def readTrace (hash : String) (response : Rpc.Value) : Except Fault Trace := do
  match ← response.member? "error" with
  | some error =>
    if !error.isWritable then throw (.tooManyDigits none)
    match error.errorMessage with
    | .text message =>
      if Text.containsWord "not found".toList (Text.foldCase message.toList) then
        .error (.chain (.traceNotFound hash message))
      else .error (.chain (.traceRefused hash message))
    | .bytes _ => .error .wrongKind
    | _ => .error .wrongShape
  | none =>
    match ← response.member? "result" with
    | some result => Trace.ofValue result
    | none => .error (.chain (.traceUnreadable hash))

def fetchTrace (node : Node σ) (id : TxId) : Asking σ Trace := do
  let response ← wrap (fun fault => .chain (.traceFailed id.hex fault.message)) (node.trace id.hex)
  .ofExcept (readTrace id.hex response)

/-- Traces in the order of the hashes, requested together. -/
def fetchTraces (node : Node σ) (ids : List TxId) (workers : Rpc.Value := .int 8)
    (completion : Gather.Completion σ := .asMade) : Asking σ (List Trace) :=
  gather workers node.fetchTrace ids completion

/-- The client of a node, with so many workers for requests made together. -/
def client (node : Node σ) (workers : Rpc.Value := .int 8)
    (completion : Gather.Completion σ := .asMade) : Client σ where
  transaction := node.fetchTransaction
  block := node.fetchBlock
  code address := node.fetchCode (.text address.text)
  balance address := node.fetchBalance (.text address.text)
  balances addresses id := node.fetchBalances addresses id workers completion
  trace := node.fetchTrace
  traces ids := node.fetchTraces ids workers completion

end Node

end TraceDiff
