import TraceDiff.Diff.Written
import TraceDiff.Document
import TraceDiff.Ledger

/-! The state of one account before and after a transaction. -/
namespace TraceDiff.Diff

structure Account where
  preBalance : Int
  postBalance : Int
  preStorage : Slots := ∅
  postStorage : Slots := ∅
  preCode : Option Bytes := none
  postCode : Option Bytes := none

/-- Slots in ascending order, each with its value. -/
def writeSlots : List (Int × Rpc.Quantity) → Except Fault (List (Key × Document))
  | [] => .ok []
  | (slot, q) :: rest => do
    let name ← word slot
    let written ← word q.value
    let more ← writeSlots rest
    return (.name name, .text written) :: more

/-- The parts of an account's diff under their names. -/
def accountMap (preBalance postBalance : String) (preStorage postStorage : List (Key × Document))
    (preCode postCode : Option String) : Document :=
  .map [
    (.name "pre_balance", .text preBalance),
    (.name "post_balance", .text postBalance),
    (.name "pre_storage", .map preStorage),
    (.name "post_storage", .map postStorage),
    (.name "pre_code", .ofText? preCode),
    (.name "post_code", .ofText? postCode)]

def Account.write (a : Account) : Except Fault Document := do
  let preBalance ← word a.preBalance
  let postBalance ← word a.postBalance
  let preStorage ← writeSlots a.preStorage.toList
  let postStorage ← writeSlots a.postStorage.toList
  return accountMap preBalance postBalance preStorage postStorage (code a.preCode) (code a.postCode)

end TraceDiff.Diff
