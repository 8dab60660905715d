import Mathlib.Algebra.BigOperators.Group.Finset.Piecewise
import Mathlib.Algebra.Order.BigOperators.Group.Finset
import Mathlib.Algebra.Order.Group.Int
import TraceDiff.Ledger

/-! Sums over the accounts of a map. Amounts that move from one account to another leave what all
accounts received and what all accounts sent equally far apart. -/
namespace TraceDiff

variable {β : Type}

/-- The sum of `f` over everything that the map holds. -/
def sumBy (f : β → Int) (m : AddressMap β) : Int := m.toList.foldr (fun e n => f e.2 + n) 0

/-- Accounts that the map holds nothing for may be counted in. -/
theorem sumBy_eq_sum (f : β → Int) {m : AddressMap β} {accounts : Finset Address}
    (covers : ∀ a ∈ m, a ∈ accounts) : sumBy f m = ∑ a ∈ accounts, m[a]?.elim 0 f := by
  have listed : sumBy f m = (m.keys.map fun a => m[a]?.elim 0 f).sum := by
    have summed : sumBy f m = (m.toList.map fun e => f e.2).sum := by
      rw [List.sum_eq_foldr, List.foldr_map]
      rfl
    rw [summed, ← Std.ExtTreeMap.map_fst_toList_eq_keys, List.map_map]
    refine congrArg List.sum (List.map_congr_left ?_)
    rintro ⟨a, x⟩ held
    have found := Std.ExtTreeMap.mem_toList_iff_getElem?_eq_some.1 held
    simp only [Function.comp, found, Option.elim_some]
  rw [listed, ← List.sum_toFinset _ Std.ExtTreeMap.nodup_keys]
  refine Finset.sum_subset ?_ ?_
  · intro a ha
    exact covers a (Std.ExtTreeMap.mem_keys.1 (List.mem_toFinset.1 ha))
  · intro a _ absent
    have missing : a ∉ m := fun ha => absent (List.mem_toFinset.2 (Std.ExtTreeMap.mem_keys.2 ha))
    rw [Std.ExtTreeMap.getElem?_eq_none missing, Option.elim_none]

/-- What all accounts come to. -/
def total (sums : Balances) : Int := sumBy id sums

theorem total_eq_sum {sums : Balances} {accounts : Finset Address}
    (covers : ∀ a ∈ sums, a ∈ accounts) : total sums = ∑ a ∈ accounts, sums.getD a 0 := by
  rw [total, sumBy_eq_sum id covers]
  refine Finset.sum_congr rfl fun a _ => ?_
  rw [Std.ExtTreeMap.getD_eq_getD_getElem?]
  cases sums[a]? <;> rfl

namespace Ledger

theorem total_addTo (sums : Balances) (a : Address) (n : Int) :
    total (addTo sums a n) = total sums + n := by
  -- one set of accounts for both sums, so that they can be compared account by account
  let accounts : Finset Address :=
    insert a (sums.keys.toFinset ∪ (addTo sums a n).keys.toFinset)
  have before : ∀ b ∈ sums, b ∈ accounts := by
    intro b hb
    simp [accounts, Std.ExtTreeMap.mem_keys, hb]
  have after : ∀ b ∈ addTo sums a n, b ∈ accounts := by
    intro b hb
    simp [accounts, Std.ExtTreeMap.mem_keys, hb]
  have here : a ∈ accounts := Finset.mem_insert_self a _
  calc total (addTo sums a n)
      = ∑ b ∈ accounts, (addTo sums a n).getD b 0 := total_eq_sum after
    _ = ∑ b ∈ accounts, (sums.getD b 0 + if a = b then n else 0) := by
        simp only [getD_addTo]
    _ = ∑ b ∈ accounts, sums.getD b 0 + n := by
        rw [Finset.sum_add_distrib, Finset.sum_ite_eq, if_pos here]
    _ = total sums + n := by rw [total_eq_sum before]

/-- All that was sent was received, but for the fee. -/
def Conserves (fee : Int) (l : Ledger) : Prop := total l.credits + fee = total l.debits

theorem conserves_empty : Conserves 0 {} := rfl

variable {fee : Int} {l : Ledger}

theorem Conserves.debit (h : l.Conserves fee) (a : Address) (n : Int) :
    (l.debit a n).Conserves (fee + n) := by
  unfold Conserves at *
  have sent : total (l.debit a n).debits = total l.debits + n := total_addTo l.debits a n
  have received : total (l.debit a n).credits = total l.credits := rfl
  omega

theorem Conserves.credit (h : l.Conserves fee) (a : Address) (n : Int) :
    (l.credit a n).Conserves (fee - n) := by
  unfold Conserves at *
  have sent : total (l.credit a n).debits = total l.debits := rfl
  have received : total (l.credit a n).credits = total l.credits + n := total_addTo l.credits a n
  omega

theorem Conserves.transfer (h : l.Conserves fee) (a b : Address) (n : Int) :
    (l.transfer a b n).Conserves fee := by
  have moved := (h.debit a n).credit b n
  rwa [Int.add_sub_cancel] at moved

end Ledger

end TraceDiff
