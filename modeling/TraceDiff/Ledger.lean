import TraceDiff.Address
import TraceDiff.Bytes
import TraceDiff.Rpc.Quantity

/-! What a transaction changes and a revert undoes: written storage, deployed code, and the amounts
each account received and sent. -/
namespace TraceDiff

open Rpc (Quantity)

/-- Values of slots as they came. -/
abbrev Slots := Std.ExtTreeMap Int Quantity

/-- Values of slots by account. -/
abbrev Storage := AddressMap Slots

namespace Storage

def get? (s : Storage) (account : Address) (slot : Int) : Option Quantity :=
  match s[account]? with
  | some slots => slots[slot]?
  | none => none

def set (s : Storage) (account : Address) (slot : Int) (value : Quantity) : Storage :=
  s.insert account ((s.getD account ∅).insert slot value)

/-- Adds the slots of `t` that `s` has no value for. -/
def orElse (s t : Storage) : Storage :=
  (t ∪ s).map fun account _ => t.getD account ∅ ∪ s.getD account ∅

@[simp] theorem get?_empty (a : Address) (k : Int) : get? ∅ a k = none := by simp [get?]

/-- A write is read back, and nothing else changes. -/
theorem get?_set (s : Storage) (a b : Address) (k l : Int) (v : Quantity) :
    (s.set a k v).get? b l = if a = b ∧ k = l then some v else s.get? b l := by
  unfold get? set
  rw [Std.ExtTreeMap.getElem?_insert]
  by_cases ha : a = b
  · subst ha
    simp only [Std.ReflCmp.compare_self, ↓reduceIte, Std.ExtTreeMap.getElem?_insert, true_and,
      Std.LawfulEqCmp.compare_eq_iff_eq]
    split
    · rfl
    · cases h : s[a]? <;> simp [Std.ExtTreeMap.getD_eq_getD_getElem?, h]
  · have : compare a b ≠ .eq := fun h => ha (Std.LawfulEqCmp.eq_of_compare h)
    simp [this, ha]

theorem get?_eq_getD (s : Storage) (a : Address) (k : Int) : s.get? a k = (s.getD a ∅)[k]? := by
  unfold get?
  cases h : s[a]? <;> simp [Std.ExtTreeMap.getD_eq_getD_getElem?, h]

theorem get?_orElse (s t : Storage) (a : Address) (k : Int) :
    (s.orElse t).get? a k = (s.get? a k).or (t.get? a k) := by
  rw [get?_eq_getD s, get?_eq_getD t]
  unfold get? orElse
  rw [Std.ExtTreeMap.getElem?_map, Std.ExtTreeMap.getElem?_union]
  cases hs : s[a]? <;> cases ht : t[a]? <;>
    simp [Std.ExtTreeMap.getD_eq_getD_getElem?, Std.ExtTreeMap.getElem?_union, hs, ht]

end Storage

/-- The four maps that a frame can change and an abort restores. -/
structure Ledger where
  storage : Storage := ∅
  code : AddressMap Bytes := ∅
  credits : Balances := ∅
  debits : Balances := ∅
deriving DecidableEq

namespace Ledger

def empty : Ledger := {}

def write (l : Ledger) (account : Address) (slot : Int) (value : Quantity) : Ledger :=
  { l with storage := l.storage.set account slot value }

def setCode (l : Ledger) (account : Address) (code : Bytes) : Ledger :=
  { l with code := l.code.insert account code }

/-- Adds to an account's sum; nothing is noted for an amount of zero. -/
def addTo (sums : Balances) (account : Address) (amount : Int) : Balances :=
  if amount = 0 then sums else sums.insert account (sums.getD account 0 + amount)

def credit (l : Ledger) (account : Address) (amount : Int) : Ledger :=
  { l with credits := addTo l.credits account amount }

def debit (l : Ledger) (account : Address) (amount : Int) : Ledger :=
  { l with debits := addTo l.debits account amount }

def transfer (l : Ledger) (sender recipient : Address) (amount : Int) : Ledger :=
  (l.debit sender amount).credit recipient amount

def credited (l : Ledger) (account : Address) : Int := l.credits.getD account 0

def debited (l : Ledger) (account : Address) : Int := l.debits.getD account 0

/-- Received less sent. -/
def net (l : Ledger) (account : Address) : Int := l.credited account - l.debited account

/-- The ledger with truth values as the numbers that they are equal to. -/
def plain (l : Ledger) : Ledger :=
  { l with storage := l.storage.map fun _ slots => slots.map fun _ q => .ofInt q.value }

/-- The sizes of the four maps in one line. -/
def summary (l : Ledger) : String :=
  s!"LedgerState(storage={l.storage.size}, code={l.code.size}, " ++
    s!"credits={l.credits.size}, debits={l.debits.size})"

theorem getD_addTo (sums : Balances) (a b : Address) (n : Int) :
    (addTo sums a n).getD b 0 = sums.getD b 0 + if a = b then n else 0 := by
  unfold addTo
  by_cases hn : n = 0
  · simp [hn]
  · rw [if_neg hn, Std.ExtTreeMap.getD_insert]
    by_cases hab : a = b
    · simp [hab]
    · have : compare a b ≠ .eq := fun h => hab (Std.LawfulEqCmp.eq_of_compare h)
      simp [this, hab]

end Ledger

end TraceDiff
