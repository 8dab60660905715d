import TraceDiff.Node
import TraceDiff.Rpc.Order

/-! Requests to a node by values of any kind. -/
namespace TraceDiff.Node.Given

open Rpc (Value)

variable {σ : Type}

def transaction (node : Node σ) (id : Value) : Asking σ Transaction := do
  node.fetchTransaction (← .ofExcept (TxId.ofValue id))

def trace (node : Node σ) (id : Value) : Asking σ Trace := do
  node.fetchTrace (← .ofExcept (TxId.ofValue id))

/-- Code right after a block, which is the latest one unless another is given. -/
def code (node : Node σ) (account block : Value) : Asking σ Bytes :=
  node.fetchCode account (if block = .null then .latest else .verbatim block)

def balance (node : Node σ) (account block : Value) : Asking σ Int :=
  node.fetchBalance account (.verbatim block)

/-- Distinct accounts in ascending order. -/
def accounts (v : Value) : Except Fault (List Value) := do
  let items ← v.items
  if !items.all Value.isName then throw .wrongKind
  let names := Value.distinct items
  if Value.haveOrder names then return names.mergeSort Value.mayPrecede else throw .wrongKind

/-- Balances of distinct accounts right after a block, requested together. -/
def balances (node : Node σ) (of block workers : Value) : Asking σ (List (Value × Int)) := do
  let each (account : Value) : Asking σ (Value × Int) :=
    (fun n => (account, n)) <$> balance node account block
  gather workers each (← .ofExcept (accounts of))

/-- Traces in the order of the transactions, requested together. -/
def traces (node : Node σ) (ids workers : Value) : Asking σ (List Trace) := do
  gather workers (trace node) (← .ofExcept ids.itemsOrNone)

end TraceDiff.Node.Given
