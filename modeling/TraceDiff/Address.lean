import Std.Data.ExtTreeMap
import Std.Data.ExtTreeSet
import TraceDiff.Text.Hex
import TraceDiff.Word

/-! Accounts by their written address. An address met in a trace is `0x` and forty lowercase
digits; other texts are kept as they are and are different accounts. -/
namespace TraceDiff

structure Address where
  text : String
deriving DecidableEq, Repr

namespace Address

instance : Ord Address := ⟨compareOn text⟩

instance : Std.TransOrd Address := inferInstanceAs (Std.TransCmp (compareOn Address.text))

instance : Std.LawfulEqOrd Address where
  eq_of_compare {a b} h := by
    have same : compare a.text b.text = .eq := h
    have text : a.text = b.text := Std.LawfulEqCmp.eq_of_compare same
    cases a; cases b; simp_all

def ofDigits (digits : List Char) : Address := ⟨String.ofList ('0' :: 'x' :: digits)⟩

/-- The address of the lowest 160 bits of `n`. -/
def ofNat (n : Nat) : Address := ofDigits (Text.Hex.fixed 40 n)

/-- The address in the low twenty bytes of a stack word. -/
def ofWord (word : Int) : Address := ofNat (word % Word.addressBound).toNat

def zero : Address := ofNat 0

/-- Digits of the canonical form: no capital letters. -/
def isCanonicalDigit (c : Char) : Bool := Text.Hex.isDigit c && !c.isUpper

/-- The address is `0x` and forty lowercase digits. -/
def Canonical (a : Address) : Prop :=
  ∃ digits : List Char, digits.length = 40 ∧ (∀ c ∈ digits, isCanonicalDigit c = true) ∧
    a = ofDigits digits

/-- The text without a leading `0x`. -/
def bare (a : Address) : String :=
  match a.text.toList with
  | '0' :: 'x' :: rest => String.ofList rest
  | _ => a.text

theorem ofDigits_inj {xs ys : List Char} : ofDigits xs = ofDigits ys ↔ xs = ys := by
  simp [ofDigits, String.ofList_inj]

@[simp] theorem bare_ofDigits (digits : List Char) :
    (ofDigits digits).bare = String.ofList digits := by
  simp [bare, ofDigits]

theorem isCanonicalDigit_digit {n : Nat} (h : n < 16) :
    isCanonicalDigit (Text.Hex.digit n) = true := by
  revert n
  decide

theorem canonical_ofNat (n : Nat) : (ofNat n).Canonical := by
  refine ⟨_, Text.Hex.length_fixed 40 n, ?_, rfl⟩
  generalize 40 = width
  induction width generalizing n with
  | zero => simp [Text.Hex.fixed]
  | succ width ih =>
    intro c hc
    rcases List.mem_append.1 hc with hc | hc
    · exact ih _ c hc
    · obtain rfl : c = _ := by simpa using hc
      exact isCanonicalDigit_digit (Nat.mod_lt _ (by decide))

theorem canonical_ofWord (word : Int) : (ofWord word).Canonical := canonical_ofNat _

/-- Two words name the same account exactly when their low 160 bits agree. -/
theorem ofWord_eq_iff {v w : Int} :
    ofWord v = ofWord w ↔ v % Word.addressBound = w % Word.addressBound := by
  have room : Nat.pow 16 40 = 0x10000000000000000000000000000000000000000 := by decide
  have fits (u : Int) : (u % Word.addressBound).toNat < Nat.pow 16 40 := by
    simp only [room, Word.addressBound]
    omega
  constructor
  · intro h
    have same := Text.Hex.fixed_inj (fits v) (fits w) (ofDigits_inj.1 h)
    simp only [Word.addressBound] at same ⊢
    omega
  · intro h
    rw [ofWord, ofWord, h]

@[simp] theorem ofWord_add_multiple (w k : Int) :
    ofWord (w + k * Word.addressBound) = ofWord w := by
  rw [ofWord_eq_iff]
  exact Int.add_mul_emod_self_right w k _

theorem ofWord_eq_zero_iff {w : Int} : ofWord w = zero ↔ w % Word.addressBound = 0 := by
  have : zero = ofWord 0 := by simp [zero, ofWord]
  rw [this, ofWord_eq_iff]
  simp

end Address

abbrev AddressMap := Std.ExtTreeMap Address

abbrev AddressSet := Std.ExtTreeSet Address

abbrev Balances := AddressMap Int

end TraceDiff
