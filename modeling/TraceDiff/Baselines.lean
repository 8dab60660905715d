import TraceDiff.Asking

/-! Balances before the transaction, asked for once and remembered. A balance is a number wherever
it is reckoned with; remembering takes values of any type. -/
namespace TraceDiff

/-- Where balances come from: one at a time, and perhaps many at once. -/
structure BaselineSource (σ : Type) (β : Type := Int) where
  one : Address → Asking σ β
  many : Option (AddressSet → Asking σ (AddressMap β)) := none

/-- The balances known so far. -/
structure Baselines (β : Type := Int) where
  known : AddressMap β := ∅
deriving DecidableEq

namespace Baselines

variable {σ β : Type}

/-- Remembers a balance unless one is known. -/
def remember (b : Baselines β) (address : Address) (balance : β) : Baselines β :=
  ⟨b.known.insertIfNew address balance⟩

def rememberAll (b : Baselines β) (balances : List (Address × β)) : Baselines β :=
  balances.foldl (fun b e => b.remember e.1 e.2) b

def get (source : BaselineSource σ β) (address : Address) : Asking (Baselines β × σ) β :=
  .ofOutcome fun (b, s) =>
    match b.known[address]? with
    | some balance => (.ok balance, (b, s))
    | none =>
      match (source.one address).outcome s with
      | (.ok balance, s') => (.ok balance, (b.remember address balance, s'))
      | (.error f, s') => (.error f, (b, s'))

def missing (b : Baselines β) (addresses : AddressSet) : List Address :=
  addresses.toList.filter fun a => !b.known.contains a

/-- Balances of all given addresses, one after another. -/
def fetchEach (one : Address → Asking σ β) : List Address → Asking σ (List (Address × β))
  | [] => pure []
  | a :: rest => do
    let balance ← one a
    let more ← fetchEach one rest
    return (a, balance) :: more

/-- Balances of the unknown addresses, in one request where the source has one. -/
def fetchMissing (source : BaselineSource σ β) (addresses : List Address) :
    Asking σ (List (Address × β)) :=
  if addresses.isEmpty then pure []
  else match source.many with
    | some many => (·.toList) <$> many (Std.ExtTreeSet.ofList addresses)
    | none => fetchEach source.one addresses

/-- The known balances of the addresses; one that is unknown is a missing key. -/
def select (b : Baselines β) : List Address → Except Fault (List (Address × β))
  | [] => .ok []
  | a :: rest =>
    match b.known[a]? with
    | none => .error (.missingKey (.text a.text))
    | some balance => ((a, balance) :: ·) <$> b.select rest

/-- Balances of all the addresses; those not known are fetched first. -/
def resolve (source : BaselineSource σ β) (addresses : AddressSet) :
    Asking (Baselines β × σ) (List (Address × β)) :=
  .ofOutcome fun (b, s) =>
    match (fetchMissing source (b.missing addresses)).outcome s with
    | (.error f, s') => (.error f, (b, s'))
    | (.ok fetched, s') =>
      let b := b.rememberAll fetched
      (b.select addresses.toList, (b, s'))

end Baselines

end TraceDiff
