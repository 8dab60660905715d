import TraceDiff.Baselines
import TraceDiff.Holding
import TraceDiff.Snapshots

/-! The ledger with its snapshots, and everything observed beside it: first-read storage, fetched
code, touched accounts, block hashes and baseline balances. Snapshots cover the ledger alone, so
observations survive every rollback. -/
namespace TraceDiff

open Rpc (Quantity)

/-- Where code comes from: that of an account before the transaction, and after it. -/
structure CodeSource (σ : Type) where
  before : Address → Asking σ Bytes
  after : Address → Asking σ Bytes

/-- What replay may ask for. Either part may be missing: a replay without code follows balances and
storage only, one without baselines moves nothing when an account destroys itself. -/
structure Sources (σ : Type) where
  code : Option (CodeSource σ) := none
  baseline : Option (BaselineSource σ) := none

structure Journal where
  ledger : Ledger := {}
  snapshots : Snapshots := {}
  preStorage : Storage := ∅
  preCode : AddressMap Bytes := ∅
  touched : AddressSet := ∅
  blockHashes : Std.ExtTreeMap Int Bytes := ∅
  /-- Truth values that numbers of blocks came as when their hashes were first observed. -/
  truthBlocks : Std.ExtTreeSet Bool := ∅
  baselines : Baselines := {}

namespace Journal

variable {σ β : Type}

def push (j : Journal) : Journal := { j with snapshots := j.snapshots.push j.ledger }

/-- Drops the newest snapshot and keeps the ledger. -/
def pop (j : Journal) : Except Fault (Ledger × Journal) :=
  match j.snapshots.pop with
  | .ok (l, snapshots) => .ok (l, { j with snapshots })
  | .error f => .error f

/-- Goes back to the newest snapshot. -/
def rollback (j : Journal) : Except Fault Journal :=
  match j.snapshots.rollback with
  | .ok (ledger, snapshots) => .ok { j with ledger, snapshots }
  | .error f => .error f

/-- A read tells the value before the transaction unless one is known, or the transaction itself
wrote the slot. -/
def read (j : Journal) (account : Address) (slot : Int) (value : Quantity) : Journal :=
  if (j.preStorage.get? account slot).isSome || (j.ledger.storage.get? account slot).isSome then j
  else { j with preStorage := j.preStorage.set account slot value }

def write (j : Journal) (account : Address) (slot : Int) (value : Quantity) : Journal :=
  { j with ledger := j.ledger.write account slot value }

def touch (j : Journal) (account : Address) : Journal :=
  { j with touched := j.touched.insert account }

def credit (j : Journal) (account : Address) (amount : Int) : Journal :=
  { j.touch account with ledger := j.ledger.credit account amount }

def debit (j : Journal) (account : Address) (amount : Int) : Journal :=
  { j.touch account with ledger := j.ledger.debit account amount }

def transfer (j : Journal) (sender recipient : Address) (amount : Int) : Journal :=
  (j.debit sender amount).credit recipient amount

/-- Clears the code of an account that destroyed itself. -/
def destroy (j : Journal) (account : Address) : Journal :=
  { j with ledger := j.ledger.setCode account [] }

/-- A hash observed for a block number, as 32 bytes. -/
def recordHash (j : Journal) (number : Quantity) (word : Int) : Except Fault Journal :=
  if Word.Fits word then
    .ok { j with
      blockHashes := j.blockHashes.insert number.value (Bytes.ofNat 32 word.toNat)
      truthBlocks :=
        if number.isTruth && !j.blockHashes.contains number.value then
          j.truthBlocks.insert (number.value != 0)
        else j.truthBlocks }
  else .error .outOfWord

/-- The code of an account before the transaction, fetched at its first reference. -/
def reference (source : CodeSource σ) (account : Address) (j : Journal) :
    Asking σ (Bytes × Journal) :=
  match j.preCode[account]? with
  | some code => pure (code, j)
  | none => do
    let code ← source.before account
    return (code, { j with preCode := j.preCode.insert account code })

/-- Notes the code that a creation left behind. -/
def deploy (source : CodeSource σ) (account : Address) (j : Journal) :
    Asking σ (Bytes × Journal) := do
  let code ← source.after account
  return (code, { j with ledger := j.ledger.setCode account code })

/-- The balance at this point: the baseline and the net change so far. -/
def currentBalance (source : Option (BaselineSource σ)) (account : Address) (j : Journal) :
    Asking σ (Int × Journal) :=
  match source with
  | none => .fail .noBaseline
  | some source => .ofOutcome fun s =>
    match (Baselines.get source account).outcome (j.baselines, s) with
    | (.ok balance, (baselines, s')) =>
      (.ok (balance + j.ledger.net account, { j with baselines }), s')
    | (.error f, (_, s')) => (.error f, s')

/-- Moves the whole current balance of an account, if it is positive. -/
def sweep (source : Option (BaselineSource σ)) (account recipient : Address) (j : Journal) :
    Asking σ Journal := do
  let (balance, j) ← j.currentBalance source account
  return if 0 < balance then j.transfer account recipient balance else j

/-- Accounts whose balance was observed or changed. -/
def balanceAccounts (j : Journal) : AddressSet :=
  (j.touched.insertMany j.ledger.credits.keys).insertMany j.ledger.debits.keys

/-- Accounts that any part of the journal mentions. -/
def accounts (j : Journal) : AddressSet :=
  let stored := (j.balanceAccounts.insertMany j.preStorage.keys).insertMany j.ledger.storage.keys
  (stored.insertMany j.preCode.keys).insertMany j.ledger.code.keys

/-- Storage afterwards: the surviving writes, and the read value of every slot not written. -/
def postStorage (j : Journal) : Storage := j.ledger.storage.orElse j.preStorage

/-- Code afterwards: what creations and destructions left, and the rest as before. -/
def postCode (j : Journal) : AddressMap Bytes := j.preCode ∪ j.ledger.code

/-- Balances afterwards, in the order of the balances before. The first account that would end
below zero is an error. -/
def resolve [Holding β] (l : Ledger) : List (Address × β) → Except Fault (List (Address × β))
  | [] => .ok []
  | (account, pre) :: rest => do
    let received ← Holding.plus pre (l.credited account)
    let post ← Holding.plus received (-l.debited account)
    if Holding.isNegative post then
      .error (.ofUnderflow
        ⟨account, Holding.toValue pre, l.credited account, l.debited account⟩)
    else return (account, post) :: (← resolve l rest)

/-- The operations that the parts of a journal share one ledger for. -/
inductive Entry where
  | read (account : Address) (slot : Int) (value : Quantity)
  | write (account : Address) (slot : Int) (value : Quantity)
  | touch (account : Address)
  | credit (account : Address) (amount : Int)
  | debit (account : Address) (amount : Int)
  | transfer (sender recipient : Address) (amount : Int)
  | sweep (account recipient : Address)
  | reference (account : Address)
  | deploy (account : Address)
  | destroy (account : Address)
  | recordHash (number : Quantity) (word : Int)
  | push
  | pop
  | rollback
deriving DecidableEq, Repr

/-- Without a source of code, references and deployments do nothing. -/
def Entry.apply (sources : Sources σ) (e : Entry) (j : Journal) : Asking σ Journal :=
  match e with
  | .read account slot value => pure (j.read account slot value)
  | .write account slot value => pure (j.write account slot value)
  | .touch account => pure (j.touch account)
  | .credit account amount => pure (j.credit account amount)
  | .debit account amount => pure (j.debit account amount)
  | .transfer sender recipient amount => pure (j.transfer sender recipient amount)
  | .sweep account recipient => j.sweep sources.baseline account recipient
  | .reference account =>
    match sources.code with
    | some source => (·.2) <$> j.reference source account
    | none => pure j
  | .deploy account =>
    match sources.code with
    | some source => (·.2) <$> j.deploy source account
    | none => pure j
  | .destroy account => pure (j.destroy account)
  | .recordHash number word => .ofExcept (j.recordHash number word)
  | .push => pure j.push
  | .pop => .ofExcept ((·.2) <$> j.pop)
  | .rollback => .ofExcept j.rollback

@[simp] theorem ledger_push (j : Journal) : j.push.ledger = j.ledger := rfl

@[simp] theorem ledger_touch (j : Journal) (a : Address) : (j.touch a).ledger = j.ledger := rfl

@[simp] theorem ledger_transfer (j : Journal) (s r : Address) (n : Int) :
    (j.transfer s r n).ledger = j.ledger.transfer s r n := rfl

@[simp] theorem ledger_read (j : Journal) (a : Address) (k : Int) (v : Quantity) :
    (j.read a k v).ledger = j.ledger := by
  unfold read
  split <;> rfl

end Journal

end TraceDiff
