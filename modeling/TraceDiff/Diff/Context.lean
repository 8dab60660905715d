import TraceDiff.Diff.Written
import TraceDiff.Document
import TraceDiff.Rpc.Trace
import TraceDiff.Rpc.Transaction

/-! The transaction and block that a state diff belongs to. -/
namespace TraceDiff.Diff

structure Context where
  hash : Bytes
  chainId : Option Rpc.Quantity
  sender : Option Address
  target : Option Address
  input : Bytes
  value : Int
  gasLimit : Rpc.Quantity
  gasPrice : Option Int
  feeCap : Option Int
  priorityFee : Option Int
  blockNumber : Rpc.Quantity
  blockHash : Option Bytes
  timestamp : Rpc.Quantity
  difficulty : Rpc.Quantity
  nonce : Rpc.Quantity
  succeeded : Bool
  returnData : Bytes
  gasUsed : Rpc.Quantity
  coinbase : Option Address
  baseFee : Option Int
  mixHash : Option Bytes
deriving DecidableEq, Repr

namespace Context

def ofChain (tx : Transaction) (block : Block) (trace : Trace) : Context where
  hash := tx.hash
  chainId := tx.chainId
  sender := tx.sender
  target := tx.target
  input := tx.input
  value := tx.value
  gasLimit := tx.gas
  gasPrice := some tx.gasPrice
  feeCap := tx.maxFeePerGas
  priorityFee := tx.maxPriorityFeePerGas
  blockNumber := block.number
  blockHash := some block.hash
  timestamp := block.timestamp
  difficulty := block.difficulty
  nonce := tx.nonce
  succeeded := !trace.failed
  returnData := trace.returnValue
  gasUsed := trace.gasUsed
  coinbase := block.coinbase
  baseFee := block.baseFeePerGas
  mixHash := block.mixHash

/-- A missing chain is chain zero, and so is one of no value. -/
def chain : Option Rpc.Quantity → Rpc.Quantity
  | some id => if id.value = 0 then .ofInt 0 else id
  | none => .ofInt 0

/-- The status is one for success and zero for failure. -/
def write (c : Context) : Except Fault Document := do
  let value ← word c.value
  let gasPrice ← word? c.gasPrice
  let feeCap ← word? c.feeCap
  let priorityFee ← word? c.priorityFee
  let baseFee ← word? c.baseFee
  return .map [
    (.name "tx_hash", .text ("0x" ++ Text.Hex.toText c.hash)),
    (.name "chain_id", .ofQuantity (chain c.chainId)),
    (.name "from", .text (address? c.sender)),
    (.name "to", .text (address? c.target)),
    (.name "input", .text (Text.Hex.toText c.input)),
    (.name "value", .text value),
    (.name "gas_limit", .ofQuantity c.gasLimit),
    (.name "gas_price", .text gasPrice),
    (.name "fee_cap", .text feeCap),
    (.name "priority_fee", .text priorityFee),
    (.name "block_number", .ofQuantity c.blockNumber),
    (.name "block_hash", .text (bytes? c.blockHash)),
    (.name "timestamp", .ofQuantity c.timestamp),
    (.name "difficulty", .ofQuantity c.difficulty),
    (.name "nonce", .ofQuantity c.nonce),
    (.name "status", .number (if c.succeeded then 1 else 0)),
    (.name "return_data", .text (Text.Hex.toText c.returnData)),
    (.name "gas_used", .ofQuantity c.gasUsed),
    (.name "coinbase", .text (address? c.coinbase)),
    (.name "base_fee", .text baseFee),
    (.name "mix_hash", .text (bytes? c.mixHash))]

end Context

end TraceDiff.Diff
