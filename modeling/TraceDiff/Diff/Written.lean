import TraceDiff.Address
import TraceDiff.Fault

/-! How words, addresses and byte strings are written in a result: digits without a marker. -/
namespace TraceDiff.Diff

/-- Stands for a word or an address that is missing. -/
def missing : String := "00"

/-- A number as 64 digits; it must fit 32 unsigned bytes. -/
def word (n : Int) : Except Fault String :=
  if Word.Fits n then .ok (String.ofList (Text.Hex.fixed 64 n.toNat))
  else .error .outOfWord

def word? : Option Int → Except Fault String
  | some n => word n
  | none => .ok missing

def address? : Option Address → String
  | some a => a.bare
  | none => missing

def bytes? : Option Bytes → String
  | some b => Text.Hex.toText b
  | none => missing

/-- Code, which may be missing altogether. -/
def code (b : Option Bytes) : Option String := b.map Text.Hex.toText

/-- A number is refused exactly when it does not fit. -/
theorem word_eq_error_iff {n : Int} {f : Fault} :
    word n = .error f ↔ ¬Word.Fits n ∧ f = .outOfWord := by
  unfold word
  by_cases h : Word.Fits n
  · rw [if_pos h]
    exact ⟨fun e => by simp at e, fun e => absurd h e.1⟩
  · rw [if_neg h]
    exact ⟨fun e => ⟨h, (Except.error.inj e).symm⟩, fun e => congrArg _ e.2.symm⟩

/-- Two numbers that are written are told apart. -/
theorem word_inj {m n : Int} {s : String} (hm : word m = .ok s) (hn : word n = .ok s) : m = n := by
  have room : Nat.pow 16 64 = 0x10000000000000000000000000000000000000000000000000000000000000000 := by
    decide
  have fits {k : Int} (h : Word.Fits k) : k.toNat < Nat.pow 16 64 := by
    simp only [Word.Fits, Word.bound] at h
    omega
  unfold word at hm hn
  split at hm
  · next fm =>
    split at hn
    · next fn =>
      have digits := String.ofList_inj.1 ((Except.ok.inj hm).trans (Except.ok.inj hn).symm)
      have same := Text.Hex.fixed_inj (fits fm) (fits fn) digits
      have := fm.1
      have := fn.1
      omega
    · simp at hn
  · simp at hm

end TraceDiff.Diff
