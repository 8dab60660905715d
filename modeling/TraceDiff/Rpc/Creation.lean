import TraceDiff.Address.Create
import TraceDiff.Rpc.Transaction

/-! The account that a transaction runs as. -/
namespace TraceDiff.Rpc

mutual

/-- A value as an item with length prefixes; negative numbers, floats, objects and nothing at all
are no items. -/
def Value.item : Value → Except Fault Rlp
  | .int n => if 0 ≤ n then .ok (Rlp.ofNat n.toNat) else .error .wrongKind
  | .bool b => .ok (Rlp.ofNat (if b then 1 else 0))
  | .bytes b => .ok (.string b)
  | .text s => .ok (.string s.toUTF8.toList)
  | .list items => Rlp.list <$> Value.itemAll items
  | _ => .error .wrongKind

def Value.itemAll : List Value → Except Fault (List Rlp)
  | [] => .ok []
  | v :: vs => do
    let item ← v.item
    let more ← Value.itemAll vs
    return item :: more

end

/-- The address of the contract that a sender creates at a nonce. The sender is hexadecimal text of
any length. -/
def createAddress (sender nonce : Value) : Except Fault Address := do
  let creator ← match sender with
    | .text s => bytesOfHex s.toList
    | _ => .error .wrongKind
  let item ← nonce.item
  return Address.created creator item

end TraceDiff.Rpc

namespace TraceDiff

/-- The target, or the contract that the transaction creates. -/
def Transaction.account (tx : Transaction) : Except Fault Address :=
  match tx.target with
  | some target => .ok target
  | none =>
    let sender := match tx.sender with
      | some a => Rpc.Value.text a.text
      | none => .null
    Rpc.createAddress sender (.int tx.nonce.value)

end TraceDiff
