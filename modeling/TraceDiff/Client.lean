import TraceDiff.Asking
import TraceDiff.Rpc.Trace
import TraceDiff.Rpc.Transaction

/-! What an extraction asks of a chain: typed answers to a handful of questions. -/
namespace TraceDiff

/-- A block by number, or by a name such as `latest` or its hash in hexadecimal text. Values of
other kinds name no block, but a node may be asked for one by them. -/
inductive BlockId where
  | number (n : Int)
  | name (s : String)
  | other (v : Rpc.Value)
deriving DecidableEq, Repr

namespace BlockId

def latest : BlockId := .name "latest"

def ofHash (hash : Bytes) : BlockId := .name ("0x" ++ Text.Hex.toText hash)

/-- A block by its number, which may have come as a truth value. -/
def ofQuantity (q : Rpc.Quantity) : BlockId :=
  if q.isTruth then .other q.toValue else .number q.value

/-- The block that a value stands for as it is. -/
def verbatim : Rpc.Value → BlockId
  | .int n => .number n
  | .text s => .name s
  | v => .other v

/-- The block that a value stands for, where bytes are its hash. -/
def ofValue : Rpc.Value → BlockId
  | .bytes b => .ofHash b
  | v => .verbatim v

def toValue : BlockId → Rpc.Value
  | .number n => .int n
  | .name s => .text s
  | .other v => v

def text (id : BlockId) : String := id.toValue.shown

/-- Whether the block has a number that is too long to be written. -/
def isWritable (id : BlockId) : Bool := id.toValue.isWritable

end BlockId

/-- A transaction by its hash. -/
structure TxId where
  /-- The hash as it is sent. -/
  hex : String
  /-- The hash as a message shows it where it was given. -/
  quoted : String
deriving DecidableEq, Repr

namespace TxId

def ofText (s : String) : TxId := ⟨s, Text.Quoted.text s⟩

def ofBytes (b : Bytes) : TxId := ⟨"0x" ++ Text.Hex.toText b, Text.Quoted.bytes b⟩

/-- Text is sent as it stands, bytes and integers in hexadecimal. -/
def ofValue : Rpc.Value → Except Fault TxId
  | .text s => .ok (ofText s)
  | .bytes b => .ok (ofBytes b)
  | v@(.int n) => .ok ⟨Rpc.Value.markedHex n, v.quoted⟩
  | v@(.bool b) => .ok ⟨if b then "0x1" else "0x0", v.quoted⟩
  | _ => .error .wrongKind

end TxId

/-- Code and balances are those right after the block. -/
structure Client (σ : Type) where
  transaction : TxId → Asking σ Transaction
  /-- `full` asks for full transactions, and is sent as it stands. -/
  block : BlockId → (full : Rpc.Value) → Asking σ Block
  code : Address → BlockId → Asking σ Bytes
  balance : Address → BlockId → Asking σ Int
  balances : AddressSet → BlockId → Asking σ Balances
  trace : TxId → Asking σ Trace
  traces : List TxId → Asking σ (List Trace)

end TraceDiff
