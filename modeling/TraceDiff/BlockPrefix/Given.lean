import TraceDiff.BlockPrefix
import TraceDiff.Node.Given

/-! Balances before a transaction of accounts that are named by values of any kind. Only texts name
accounts that the transactions of a prefix can change. -/
namespace TraceDiff.BlockPrefix.Given

open Rpc (Value)

/-- Distinct accounts, those with names other than texts apart. -/
structure Accounts where
  addresses : AddressSet
  others : List Value

def addressOf? : Value → Option Address
  | .text s => some ⟨s⟩
  | _ => none

def Accounts.ofValue (v : Value) : Except Fault Accounts := do
  let items ← v.items
  if !items.all Value.isName then throw .wrongKind
  return {
    addresses := Std.ExtTreeSet.ofList (items.filterMap addressOf?)
    others := Value.distinct (items.filter fun v => !v.isText) }

/-- Balances at a parent block, of which none are known if none are given. -/
def parentBalances (v : Value) : Except Fault (AddressMap Value) := do
  if !v.truthy then return ∅
  let known ← v.asObject >>= Value.fields
  return Std.ExtTreeMap.ofList (known.map fun e => ((⟨e.1⟩ : Address), e.2))

variable {σ β : Type} [Holding β]

def named {β : Type} (balances : List (Address × β)) : List (Value × β) :=
  balances.map fun e => (.text e.1.text, e.2)

/-- Names of several kinds have no order to ask for their balances in. -/
def checkOrder (missing : List Address) (others : List Value) : Except Fault Unit :=
  if missing.isEmpty || others.isEmpty then .ok () else .error .wrongKind

/-- The balances of accounts right before the target. -/
def fetch (p : BlockPrefix) (node : Node σ) (workers : Value) (accounts : Accounts)
    (parentBalances : AddressMap β) : Asking (Traced σ) (List (Value × β)) := do
  .ofExcept (checkOrder (unknown accounts.addresses parentBalances) accounts.others)
  let others ← Asking.beside
    (Node.Given.balances node (.list accounts.others) (.int p.parent) workers)
  let known ← p.preBalances (node.client workers) accounts.addresses parentBalances
  return named known.toList ++ others.map fun e => (e.1, Holding.ofInt e.2)

/-- The balances of accounts right before the target, and those at the parent block, by values. -/
def preBalances (p : BlockPrefix) (node : Node σ) (workers accounts parent : Value) :
    Asking (Traced σ) (List (Value × Value)) := do
  let accounts ← .ofExcept (Accounts.ofValue accounts)
  let known ← .ofExcept (parentBalances parent)
  fetch p node workers accounts known

/-- Balances known so far or fetched now. Those of accounts with names other than texts are not
remembered. -/
def resolve (p : BlockPrefix) (node : Node σ) (workers accounts : Value) :
    Asking (Baselines × Traced σ) (List (Value × Int)) := do
  let accounts ← .ofExcept (Accounts.ofValue accounts)
  let (b, _) ← get
  .ofExcept (checkOrder (b.missing accounts.addresses) accounts.others)
  let alone : Accounts := { addresses := ∅, others := accounts.others }
  let others ←
    if accounts.others.isEmpty then pure []
    else Asking.beside (fetch p node workers alone (∅ : Balances))
  let known ← Baselines.resolve (p.baseline (node.client workers)) accounts.addresses
  return named known ++ others

/-- The balance of one account. -/
def get (p : BlockPrefix) (node : Node σ) (workers account : Value) :
    Asking (Baselines × Traced σ) Int := do
  match account with
  | .text s => Baselines.get (p.baseline (node.client workers)) ⟨s⟩
  | v =>
    match ← resolve p node workers (.list [v]) with
    | e :: _ => return e.2
    | [] => .fail (.missingKey v)

end TraceDiff.BlockPrefix.Given
