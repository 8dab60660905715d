/-! Machine words: numbers that fit 32 unsigned bytes, and the part of a word that is an address. -/
namespace TraceDiff.Word

/-- Two to the power 256. -/
abbrev bound : Int := 0x10000000000000000000000000000000000000000000000000000000000000000

/-- Two to the power 160. -/
abbrev addressBound : Int := 0x10000000000000000000000000000000000000000

def Fits (n : Int) : Prop := 0 ≤ n ∧ n < bound

instance (n : Int) : Decidable (Fits n) := inferInstanceAs (Decidable (0 ≤ n ∧ n < bound))

theorem bound_eq : bound = Int.pow 2 256 := by decide

theorem addressBound_eq : addressBound = Int.pow 2 160 := by decide

end TraceDiff.Word
