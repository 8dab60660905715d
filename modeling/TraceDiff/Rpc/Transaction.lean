import TraceDiff.Rpc.Scalar

/-! Transactions and blocks. -/
namespace TraceDiff

/-- A transaction without a target creates a contract; one without a block is still pending. -/
structure Transaction where
  hash : Bytes
  sender : Option Address
  target : Option Address
  nonce : Rpc.Quantity
  value : Int
  input : Bytes
  gas : Rpc.Quantity
  gasPrice : Int
  chainId : Option Rpc.Quantity := none
  blockHash : Option Bytes := none
  blockNumber : Option Int := none
  index : Option Int := none
  maxPriorityFeePerGas : Option Int := none
  maxFeePerGas : Option Int := none
deriving DecidableEq, Repr

namespace Transaction

def isCreation (tx : Transaction) : Bool := tx.target.isNone

/-- The input is also accepted under its older name, unless the newer one is there. -/
def ofFields (fields : List (String × Rpc.Value)) : Except Fault Transaction := do
  let field := Rpc.optional fields
  let hash ← (field "hash").data
  let sender ← (← Rpc.required fields "from").address?
  let target ← (field "to").address?
  let nonce ← (field "nonce").amount
  let value ← (field "value").quantity
  let input ← ((Rpc.Value.lookup "input" fields).getD (field "data")).data
  let gas ← (field "gas").amount
  let gasPrice ← (field "gasPrice").quantity
  let chainId ← Rpc.amountUnlessNull (field "chainId")
  let blockHash ← Rpc.dataUnlessNull (field "blockHash")
  let blockNumber ← Rpc.quantityUnlessNull (field "blockNumber")
  let index ← Rpc.quantityUnlessNull (field "transactionIndex")
  let maxPriorityFeePerGas ← Rpc.quantityUnlessNull (field "maxPriorityFeePerGas")
  let maxFeePerGas ← Rpc.quantityUnlessNull (field "maxFeePerGas")
  return {
    hash, sender, target, nonce, value, input, gas, gasPrice, chainId, blockHash, blockNumber,
    index, maxPriorityFeePerGas, maxFeePerGas }

def ofValue (v : Rpc.Value) : Except Fault Transaction := v.fields >>= ofFields

end Transaction

structure Block where
  number : Rpc.Quantity
  hash : Bytes
  timestamp : Rpc.Quantity
  difficulty : Rpc.Quantity := .ofInt 0
  mixHash : Option Bytes := none
  coinbase : Option Address := none
  baseFeePerGas : Option Int := none
  transactions : List Transaction := []
deriving DecidableEq, Repr

/-- Transactions given by their hash alone are left out. -/
def Block.ofValue (v : Rpc.Value) : Except Fault Block := do
  let fields ← v.fields
  let field := Rpc.optional fields
  let entries ← (field "transactions").itemsOrNone
  let transactions ← (entries.filterMap Rpc.Value.fields?).mapM Transaction.ofFields
  let number ← (← Rpc.required fields "number").amount
  let hash ← (← Rpc.required fields "hash").data
  let timestamp ← (field "timestamp").amount
  let difficulty ← (field "difficulty").amount
  let mixHash ← Rpc.dataUnlessNull (field "mixHash")
  let coinbase ← (field "miner").address?
  let baseFeePerGas ← Rpc.quantityUnlessNull (field "baseFeePerGas")
  return { number, hash, timestamp, difficulty, mixHash, coinbase, baseFeePerGas, transactions }

end TraceDiff
