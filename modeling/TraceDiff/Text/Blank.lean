/-! Blank characters of a text, and trimming them off both ends. -/
namespace TraceDiff.Text

/-- The white space of all scripts, with the four separators below the space. -/
def isBlank (c : Char) : Bool :=
  let n := c.toNat
  (0x09 ≤ n && n ≤ 0x0D) || (0x1C ≤ n && n ≤ 0x20) || n == 0x85 || n == 0xA0 || n == 0x1680 ||
    (0x2000 ≤ n && n ≤ 0x200A) || n == 0x2028 || n == 0x2029 || n == 0x202F || n == 0x205F ||
    n == 0x3000

def trimBy (blank : Char → Bool) (cs : List Char) : List Char :=
  ((cs.dropWhile blank).reverse.dropWhile blank).reverse

abbrev trim : List Char → List Char := trimBy isBlank

/-- Text that neither starts nor ends with a blank is already trimmed. -/
theorem trimBy_eq_self {blank : Char → Bool} {cs : List Char}
    (first : ∀ c, cs.head? = some c → blank c = false)
    (last : ∀ c, cs.getLast? = some c → blank c = false) : trimBy blank cs = cs := by
  have drop : ∀ {ds : List Char}, (∀ c, ds.head? = some c → blank c = false) →
      ds.dropWhile blank = ds := by
    intro ds h
    cases ds with
    | nil => rfl
    | cons d ds => simp [h d rfl]
  unfold trimBy
  rw [drop first, drop (by simpa using last), List.reverse_reverse]

example : trim " \t0x \n".toList = "0x".toList := by decide +kernel

end TraceDiff.Text
