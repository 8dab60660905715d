/-! Byte strings and their value as big-endian numbers. -/
namespace TraceDiff

abbrev Bytes := List UInt8

namespace Bytes

/-- The number written by the bytes, most significant first. -/
def toNat (b : Bytes) : Nat := b.foldl (fun n x => n * 256 + x.toNat) 0

/-- The lowest `count` bytes of `n`, most significant first. -/
def ofNat : (count n : Nat) → Bytes
  | 0, _ => []
  | count + 1, n => ofNat count (n / 256) ++ [UInt8.ofNat (n % 256)]

/-- The fewest bytes that write `n`; none for zero. -/
def minimal (n : Nat) : Bytes :=
  if n = 0 then [] else minimal (n / 256) ++ [UInt8.ofNat (n % 256)]
termination_by n

theorem toNat_append_singleton (b : Bytes) (x : UInt8) :
    toNat (b ++ [x]) = toNat b * 256 + x.toNat := by
  simp [toNat]

@[simp] theorem length_ofNat (count n : Nat) : (ofNat count n).length = count := by
  induction count generalizing n with
  | zero => rfl
  | succ count ih => simp [ofNat, ih]

theorem toNat_ofNat (count n : Nat) : toNat (ofNat count n) = n % Nat.pow 256 count := by
  induction count generalizing n with
  | zero => exact (Nat.mod_one n).symm
  | succ count ih =>
    have power : Nat.pow 256 (count + 1) = 256 * Nat.pow 256 count := Nat.mul_comm _ _
    rw [ofNat, toNat_append_singleton, ih, power, Nat.mod_mul]
    simp only [UInt8.toNat_ofNat']
    omega

theorem toNat_minimal (n : Nat) : toNat (minimal n) = n := by
  induction n using Nat.strongRecOn with
  | _ n ih =>
    rw [minimal]
    split
    · simp_all [toNat]
    · next h =>
      rw [toNat_append_singleton, ih (n / 256) (by omega)]
      simp
      omega

end Bytes

end TraceDiff
