import TraceDiff.Journal
import TraceDiff.Rpc.Pairs

/-! Entries of a journal given by values of any kind. -/
namespace TraceDiff.Journal.Given

open Rpc (Quantity Value)

/-- A slot, or the number of a block. A float stands for its integer part. -/
def slot : Value → Except Fault Int
  | .float x =>
    match x.truncate? with
    | some n => .ok n
    | none => .error .wrongKind
  | v => v.number

/-- A value of a slot as it came. -/
def quantity (v : Value) : Except Fault Quantity := do
  return { value := ← v.number, isTruth := v.isTruth }

def read (j : Journal) (account : Address) (position value : Value) : Except Fault Journal := do
  return j.read account (← slot position) (← quantity value)

def write (j : Journal) (account : Address) (position value : Value) : Except Fault Journal := do
  return j.write account (← slot position) (← quantity value)

/-- What an amount adds to a sum; one that counts as absent adds nothing. -/
def amount (v : Value) : Except Fault Int := if v.truthy then v.number else .ok 0

/-- A hash observed for a block number; the hash is looked at first. -/
def recordHash (j : Journal) (number word : Value) : Except Fault Journal := do
  let word ← word.number.mapError fun _ => .wrongShape
  if !Word.Fits word then throw .outOfWord
  j.recordHash (.ofInt (← slot number)) word

/-- Balances after a transaction from pairs of accounts and balances before, in their order. -/
def resolve (l : Ledger) (pairs : List (Value × Value)) : Except Fault (List (Value × Value)) := do
  let post ← Journal.resolve l (pairs.map fun p => ((⟨p.1.shown⟩ : Address), p.2))
  return List.zipWith (fun p e => (p.1, e.2)) pairs post

end TraceDiff.Journal.Given
