import TraceDiff.Client
import TraceDiff.Replay
import TraceDiff.Rpc.Creation

/-! Exact balances before a transaction. A node reports balances at block boundaries only, so the
transactions before it in its block are replayed from the parent block on, for balances alone. -/
namespace TraceDiff

/-- The transactions of a block that execute before a target. -/
structure BlockPrefix where
  /-- The number of the parent block. -/
  parent : Int
  transactions : List Transaction
deriving DecidableEq, Repr

/-- The net change of every account that a transaction moved balance for. Of a failed transaction
only the fee remains. -/
def balanceEffects {σ : Type} (source : BaselineSource σ) (tx : Transaction) (trace : Trace) :
    Asking σ Balances := do
  let target ← .ofExcept tx.account
  let sources : Sources σ := { baseline := some source }
  let run : Replay.Run σ Unit := do
    Replay.seed sources true tx trace.gasUsed.value
    if trace.failed then Replay.replay sources true [] true
    else Replay.replay sources true trace.records false
  .ofOutcome fun s =>
    match run.outcome (.start target, s) with
    | (.error f, (_, s')) => (.error f, s')
    | (.ok _, (m, s')) =>
      let change (a : Address) : Address × Int := (a, m.journal.ledger.net a)
      (.ok (Std.ExtTreeMap.ofList (m.journal.balanceAccounts.toList.map change)), s')

namespace BlockPrefix

variable {σ β : Type}

/-- The transactions before the first one with the given hash, if there is one. -/
def before? (hash : Bytes) : List Transaction → Option (List Transaction)
  | [] => none
  | tx :: rest => if tx.hash = hash then some [] else (tx :: ·) <$> before? hash rest

def of (block : Block) (tx : Transaction) : Except Fault BlockPrefix :=
  match before? tx.hash block.transactions with
  | some transactions => .ok { parent := block.number.value - 1, transactions }
  | none => .error (.ofNotInBlock tx.hash block.number)

/-- The outside, with the traces of the prefix once they have been fetched. -/
abbrev Traced (σ : Type) := Option (List Trace) × σ

/-- The traces of the prefix, fetched at most once. -/
def traces (p : BlockPrefix) (client : Client σ) : Asking (Traced σ) (List Trace) :=
  .ofOutcome fun (known, s) =>
    match known with
    | some traces => (.ok traces, (known, s))
    | none =>
      match (client.traces (p.transactions.map fun tx => .ofBytes tx.hash)).outcome s with
      | (.ok traces, s') => (.ok traces, (some traces, s'))
      | (.error f, s') => (.error f, (none, s'))

/-- Balances during the prefix: tracked ones are known, others are taken from the parent block. -/
def running [Holding β] (p : BlockPrefix) (client : Client σ) (balances : AddressMap β) :
    BaselineSource σ where
  one a :=
    match balances[a]? with
    | some balance => .ofExcept (Holding.number balance)
    | none => client.balance a (.number p.parent)

/-- Applies the net changes of tracked accounts; a changed balance below zero is an error. -/
def applyChanges [Holding β] (tracked : AddressSet) (balances : AddressMap β) :
    List (Address × Int) → Except Fault (AddressMap β)
  | [] => .ok balances
  | (a, change) :: rest =>
    if !tracked.contains a || change = 0 then applyChanges tracked balances rest
    else match balances[a]? with
      | none => .error (.missingKey (.text a.text))
      | some balance => do
        let updated ← Holding.plus balance change
        if Holding.isNegative updated then
          .error (.ofUnderflow ⟨a, Holding.toValue balance, max change 0, max (-change) 0⟩)
        else applyChanges tracked (balances.insert a updated) rest

def advance [Holding β] (p : BlockPrefix) (client : Client σ) (tracked : AddressSet) :
    List (Transaction × Trace) → AddressMap β → Asking σ (AddressMap β)
  | [], balances => pure balances
  | (tx, trace) :: rest, balances => do
    let effects ← balanceEffects (p.running client balances) tx trace
    let balances ← .ofExcept (applyChanges tracked balances effects.toList)
    p.advance client tracked rest balances

/-- The balances of the addresses out of a map that should hold them all. -/
def select (balances : AddressMap β) : List Address → Except Fault (AddressMap β)
  | [] => .ok ∅
  | a :: rest =>
    match balances[a]? with
    | none => .error (.missingKey (.text a.text))
    | some balance => (·.insert a balance) <$> select balances rest

/-- Accounts whose balances at the parent block have to be fetched. -/
def unknown (addresses : AddressSet) (parentBalances : AddressMap β) : List Address :=
  addresses.toList.filter fun a => !parentBalances.contains a

/-- The balances of accounts right before the target. Balances at the parent block that are already
known need not be fetched. -/
def preBalances [Holding β] (p : BlockPrefix) (client : Client σ) (addresses : AddressSet)
    (parentBalances : AddressMap β := ∅) : Asking (Traced σ) (AddressMap β) := do
  let missing := unknown addresses parentBalances
  let fetched ←
    if missing.isEmpty then pure ∅
    else Asking.beside (client.balances (Std.ExtTreeSet.ofList missing) (.number p.parent))
  let traces ← p.traces client
  let start := parentBalances ∪ fetched.map fun _ n => Holding.ofInt n
  let balances ← Asking.beside (p.advance client addresses (p.transactions.zip traces) start)
  .ofExcept (select balances addresses.toList)

/-- Baselines served from the prefix instead of the parent block. -/
def baseline (p : BlockPrefix) (client : Client σ) : BaselineSource (Traced σ) where
  one a := do
    let balances ← p.preBalances client (Std.ExtTreeSet.ofList [a])
    match balances[a]? with
    | some balance => return balance
    | none => .fail (.missingKey (.text a.text))
  many := some fun addresses => p.preBalances client addresses

end BlockPrefix

end TraceDiff
