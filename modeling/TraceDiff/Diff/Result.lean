import TraceDiff.Diff.Account
import TraceDiff.Diff.Context
import TraceDiff.Journal

/-! The state diff of a transaction: every account it touched, the block hashes it saw, and its
context. -/
namespace TraceDiff.Diff

structure Result where
  accounts : AddressMap Account
  blockHashes : Std.ExtTreeMap Int Bytes
  /-- Truth values that numbers of blocks came as. -/
  truthBlocks : Std.ExtTreeSet Bool := ∅
  context : Context

def lookupBalance {β : Type} (balances : List (Address × β)) (a : Address) : Except Fault β :=
  match balances.find? (·.1 = a) with
  | some e => .ok e.2
  | none => .error (.missingKey (.text a.text))

/-- The state that a journal leaves behind, worked out once for all accounts. -/
structure Final where
  storage : Storage
  code : AddressMap Bytes

def finalOf (j : Journal) : Final where
  storage := j.postStorage
  code := j.postCode

/-- The diff of one account, with its balances before and after. -/
def accountOf (j : Journal) (final : Final) (a : Address) (pre post : Int) : Account where
  preBalance := pre
  postBalance := post
  preStorage := j.preStorage.getD a ∅
  postStorage := final.storage.getD a ∅
  preCode := j.preCode[a]?
  postCode := final.code[a]?

/-- The balances of accounts before and after. -/
def pairBalances {β : Type} (pre post : List (Address × β)) :
    List Address → Except Fault (List (Address × β × β))
  | [] => .ok []
  | a :: rest => do
    let before ← lookupBalance pre a
    let after ← lookupBalance post a
    let more ← pairBalances pre post rest
    return (a, before, after) :: more

/-- The diffs of accounts, whose balances have to be whole numbers. -/
def accountsOf {β : Type} [Holding β] (j : Journal) (final : Final) :
    List (Address × β × β) → Except Fault (AddressMap Account)
  | [] => .ok ∅
  | (a, before, after) :: rest => do
    let pre ← (Holding.number before).mapError fun _ => .wrongShape
    let post ← (Holding.number after).mapError fun _ => .wrongShape
    let more ← accountsOf j final rest
    return more.insert a (accountOf j final a pre post)

/-- Settles the balances and gathers every account the journal mentions. -/
def assemble {β : Type} [Holding β] (j : Journal) (pre : List (Address × β)) (context : Context) :
    Except Fault Result := do
  let post ← Journal.resolve j.ledger pre
  let balances ← pairBalances pre post j.accounts.toList
  let accounts ← accountsOf j (finalOf j) balances
  return { accounts, blockHashes := j.blockHashes, truthBlocks := j.truthBlocks, context }

def writeAccounts : List (Address × Account) → Except Fault (List (Key × Document))
  | [] => .ok []
  | (a, diff) :: rest => do
    let written ← diff.write
    let more ← writeAccounts rest
    return (.name a.bare, written) :: more

/-- The truth value that counts as a number, if one does. -/
def truthOf? (number : Int) : Option Bool :=
  if number = 0 then some false else if number = 1 then some true else none

/-- A number of a block, or the truth value that it came as. -/
def Result.blockKey (r : Result) (number : Int) : Key :=
  match truthOf? number with
  | some b => if r.truthBlocks.contains b then .truth b else .number number
  | none => .number number

/-- Accounts, slots and block numbers ascend. -/
def Result.write (r : Result) : Except Fault Document := do
  let accounts ← writeAccounts r.accounts.toList
  let context ← r.context.write
  return .map [
    (.name "accounts", .map accounts),
    (.name "block_hashes",
      .map (r.blockHashes.toList.map fun e => (r.blockKey e.1, .text (Text.Hex.toText e.2)))),
    (.name "context", context)]

end TraceDiff.Diff
