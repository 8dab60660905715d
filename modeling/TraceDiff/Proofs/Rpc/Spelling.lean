import Mathlib.Algebra.Group.Nat.Defs
import Mathlib.Data.List.Induction
import TraceDiff.Rpc.Transaction

/-! The spellings of a number, of a byte string and of an account that a node may use, and that each
of them reads as what it spells. -/
namespace TraceDiff

namespace Text.Hex

/-- What holds of each ASCII character that is a digit holds of every digit. -/
theorem forall_digit {P : Char → Prop} [DecidablePred P]
    (h : ∀ n : Fin 128, isDigit (Char.ofNat n) = true → P (Char.ofNat n)) {c : Char}
    (hc : isDigit c = true) : P c := by
  have ascii : c.toNat < 128 := by
    unfold isDigit value? at hc
    dsimp only at hc
    split at hc
    · next h => simp at h; omega
    split at hc
    · next h => simp at h; omega
    split at hc
    · next h => simp at h; omega
    · exact nomatch hc
  simpa using h ⟨c.toNat, ascii⟩ (by simpa using hc)

theorem ne_of_isDigit {c d : Char} (hc : isDigit c = true) (hd : isDigit d = false) : c ≠ d :=
  fun same => Bool.false_ne_true (hd.symm.trans (same ▸ hc))

theorem toLower_of_ge {c : Char} (h : 128 ≤ c.toNat) : c.toLower = c := by
  unfold Char.toLower
  split
  · next letter =>
    have : c.toNat ≤ 90 := by simpa [UInt32.le_iff_toNat_le] using letter.2
    omega
  · rfl

@[simp] theorem value?_toLower (c : Char) : value? c.toLower = value? c := by
  by_cases ascii : c.toNat < 128
  · have all : ∀ n : Fin 128, value? (Char.ofNat n).toLower = value? (Char.ofNat n) := by decide
    simpa using all ⟨c.toNat, ascii⟩
  · rw [toLower_of_ge (by omega)]

@[simp] theorem isDigit_toLower (c : Char) : isDigit c.toLower = isDigit c := by
  simp [isDigit]

theorem isDigit_digit {n : Nat} (h : n < 16) : isDigit (digit n) = true := by
  simp [isDigit, h]

/-- Bytes are read alike from digits of either case. -/
theorem decode_map_toLower : ∀ cs : List Char, decode (cs.map Char.toLower) = decode cs
  | [] => rfl
  | [_] => rfl
  | a :: b :: rest => by simp [decode, decode_map_toLower rest]

theorem valueOf_map_toLower (cs : List Char) : valueOf (cs.map Char.toLower) = valueOf cs := by
  simp [valueOf, List.foldl_map]

theorem valueOf_ofNat (n : Nat) : valueOf (ofNat n) = n := by
  induction n using Nat.strongRecOn with
  | _ n ih =>
    rw [ofNat]
    split
    · next h => simp [valueOf, h]
    · next h =>
      rw [valueOf_append_singleton, ih (n / 16) (by omega), value?_digit (Nat.mod_lt _ (by decide)),
        Option.getD_some]
      omega

theorem valueOf_replicate_zero (zeros : Nat) (cs : List Char) :
    valueOf (List.replicate zeros '0' ++ cs) = valueOf cs := by
  have zero : (value? '0').getD 0 = 0 := by decide
  induction zeros with
  | zero => rfl
  | succ zeros ih => simpa [List.replicate_succ, valueOf, zero] using ih

theorem ofNat_ne_nil (n : Nat) : ofNat n ≠ [] := by
  rw [ofNat]
  split <;> simp

theorem ofNat_eq_append {n : Nat} (h : 16 ≤ n) : ofNat n = ofNat (n / 16) ++ [digit (n % 16)] := by
  rw [ofNat, if_neg (by omega)]

theorem fixed_zero (width : Nat) : fixed width 0 = List.replicate width '0' := by
  induction width with
  | zero => rfl
  | succ width ih => rw [fixed, ih, List.replicate_succ']; rfl

/-- A fixed count of digits is the shortest one after zeros. -/
theorem fixed_eq_replicate_append {width n : Nat} (h : n < Nat.pow 16 (width + 1)) :
    ∃ zeros, fixed (width + 1) n = List.replicate zeros '0' ++ ofNat n := by
  induction width generalizing n with
  | zero =>
    have small : n < 16 := h
    exact ⟨0, by simp [fixed, ofNat, small, Nat.mod_eq_of_lt small]⟩
  | succ width ih =>
    by_cases small : n < 16
    · refine ⟨width + 1, ?_⟩
      rw [fixed, Nat.div_eq_of_lt small, fixed_zero, Nat.mod_eq_of_lt small, ofNat, if_pos small]
    · have power : Nat.pow 16 (width + 1 + 1) = Nat.pow 16 (width + 1) * 16 := rfl
      obtain ⟨zeros, digits⟩ := ih (n := n / 16) (by omega)
      refine ⟨zeros, ?_⟩
      rw [fixed, digits, List.append_assoc, ← ofNat_eq_append (by omega)]

theorem isDigit_of_mem_ofNat {n : Nat} {c : Char} (hc : c ∈ ofNat n) : isDigit c = true := by
  induction n using Nat.strongRecOn with
  | _ n ih =>
    rw [ofNat] at hc
    split at hc
    · next h =>
      obtain rfl : c = _ := by simpa using hc
      exact isDigit_digit h
    · next h =>
      rcases List.mem_append.1 hc with high | low
      · exact ih (n / 16) (by omega) high
      · obtain rfl : c = _ := by simpa using low
        exact isDigit_digit (Nat.mod_lt _ (by decide))

theorem exists_of_mem_fixed {width n : Nat} {c : Char} (hc : c ∈ fixed width n) :
    ∃ k < 16, c = digit k := by
  induction width generalizing n with
  | zero => nomatch hc
  | succ width ih =>
    rcases List.mem_append.1 hc with high | low
    · exact ih high
    · exact ⟨n % 16, Nat.mod_lt _ (by decide), by simpa using low⟩

theorem decode_of_digits : ∀ {cs : List Char}, cs.length % 2 = 0 →
    (∀ c ∈ cs, isDigit c = true) → ∃ b, decode cs = some b
  | [], _, _ => ⟨[], rfl⟩
  | [_], even, _ => by simp at even
  | c :: d :: cs, even, hex => by
    obtain ⟨first, second, rest⟩ : isDigit c ∧ isDigit d ∧ ∀ c ∈ cs, isDigit c = true := by
      simpa [List.forall_mem_cons] using hex
    obtain ⟨high, hhigh⟩ := Option.isSome_iff_exists.1 first
    obtain ⟨low, hlow⟩ := Option.isSome_iff_exists.1 second
    have even : cs.length % 2 = 0 := by
      simp only [List.length_cons] at even
      omega
    obtain ⟨b, hb⟩ := decode_of_digits even rest
    exact ⟨_, by simp only [decode, hhigh, hlow, hb]; rfl⟩

theorem toLower_digit {n : Nat} (h : n < 16) : (digit n).toLower = digit n := by
  revert n
  decide

theorem map_toLower_fixed (width n : Nat) :
    (fixed width n).map Char.toLower = fixed width n := by
  refine (List.map_congr_left fun c hc => ?_).trans (List.map_id _)
  obtain ⟨k, small, rfl⟩ := exists_of_mem_fixed hc
  exact toLower_digit small

theorem encode_append (a b : Bytes) : encode (a ++ b) = encode a ++ encode b := by
  induction a with
  | nil => rfl
  | cons x a ih => simp [encode, ih]

/-- The digits of bytes are those of their number, at the width of the bytes. -/
theorem encode_eq_fixed (b : Bytes) : encode b = fixed (2 * b.length) (Bytes.toNat b) := by
  induction b using List.reverseRecOn with
  | nil => rfl
  | append_singleton b x ih =>
    have hx : x.toNat < 256 := x.toNat_lt
    have width : 2 * (b ++ [x]).length = 2 * b.length + 1 + 1 := by simp; omega
    have rest : (Bytes.toNat b * 256 + x.toNat) / 16 / 16 = Bytes.toNat b := by omega
    have high : (Bytes.toNat b * 256 + x.toNat) / 16 % 16 = x.toNat / 16 := by omega
    have low : (Bytes.toNat b * 256 + x.toNat) % 16 = x.toNat % 16 := by omega
    rw [encode_append, ih, width, Bytes.toNat_append_singleton, fixed, fixed, rest, high, low]
    simp [encode]

theorem isDigit_of_mem_encode {b : Bytes} {c : Char} (hc : c ∈ encode b) : isDigit c = true := by
  rw [encode_eq_fixed] at hc
  obtain ⟨k, small, rfl⟩ := exists_of_mem_fixed hc
  exact isDigit_digit small

end Text.Hex

namespace Bytes

theorem toNat_lt (b : Bytes) : toNat b < 256 ^ b.length := by
  induction b using List.reverseRecOn with
  | nil => decide
  | append_singleton b x ih =>
    have hx : x.toNat < 256 := x.toNat_lt
    rw [toNat_append_singleton, List.length_append, List.length_singleton, Nat.pow_succ]
    omega

theorem toNat_replicate_zero (zeros : Nat) (b : Bytes) :
    toNat (List.replicate zeros 0 ++ b) = toNat b := by
  induction zeros with
  | zero => rfl
  | succ zeros ih => simpa [List.replicate_succ, toNat] using ih

end Bytes

namespace Rpc

/-- What may stand before hexadecimal digits. -/
def markers : List (List Char) := [[], ['0', 'x'], ['0', 'X']]

/-- The text writes the digits in either case, marked or not. -/
def Writes (s : String) (digits : List Char) : Prop :=
  ∃ marker ∈ markers, ∃ cs, s.toList = marker ++ cs ∧ cs.map Char.toLower = digits

/-- The spellings of a natural number: the integer, its hexadecimal text, or its big-endian bytes,
the latter two after any number of zeros. -/
inductive SpellsNumber : Value → Nat → Prop
  | int (n : Nat) : SpellsNumber (.int n) n
  | text {s : String} {n : Nat} (zeros : Nat)
      (writes : Writes s (List.replicate zeros '0' ++ Text.Hex.ofNat n)) : SpellsNumber (.text s) n
  | bytes (zeros n : Nat) : SpellsNumber (.bytes (List.replicate zeros 0 ++ Bytes.minimal n)) n

/-- The spellings of a byte string: the bytes, or their hexadecimal text. -/
inductive SpellsData : Value → Bytes → Prop
  | bytes (b : Bytes) : SpellsData (.bytes b) b
  | text {s : String} {b : Bytes} (writes : Writes s (Text.Hex.encode b)) : SpellsData (.text s) b

/-- An account is spelled by its twenty bytes, or by their forty digits. -/
def SpellsAccount (v : Value) (b : Bytes) : Prop := b.length = 20 ∧ SpellsData v b

/-- The text is these hexadecimal digits, marked or not. -/
def Holds (s : String) (cs : List Char) : Prop :=
  (∃ marker ∈ markers, s.toList = marker ++ cs) ∧ ∀ c ∈ cs, Text.Hex.isDigit c = true

namespace Value

/-- A value where a number is to stand: a number in any spelling, or nothing. -/
inductive IsNumber : Value → Prop
  | null : IsNumber .null
  | truth (b : Bool) : IsNumber (.bool b)
  | int (n : Int) : IsNumber (.int n)
  | bytes (b : Bytes) : IsNumber (.bytes b)
  | empty {s : String} (h : s.toList ∈ [[], ['0', 'x']]) : IsNumber (.text s)
  | text {s : String} {cs : List Char} (some : cs ≠ []) (holds : Holds s cs) : IsNumber (.text s)

/-- A value where a byte string is to stand. -/
inductive IsData : Value → Prop
  | null : IsData .null
  | bytes (b : Bytes) : IsData (.bytes b)
  | text {s : String} {cs : List Char} (holds : Holds s cs) : IsData (.text s)

/-- A value where an account is to stand. -/
inductive IsAccount : Value → Prop
  | null : IsAccount .null
  | bytes {b : Bytes} (length : b.length = 20) : IsAccount (.bytes b)
  | text {s : String} {cs : List Char} (length : cs.length = 40) (holds : Holds s cs) :
    IsAccount (.text s)

end Value

open Text Text.Hex

theorem isDigit_of_map {cs digits : List Char} (lower : cs.map Char.toLower = digits)
    (hex : ∀ c ∈ digits, isDigit c = true) : ∀ c ∈ cs, isDigit c = true := by
  intro c hc
  have := hex c.toLower (lower ▸ List.mem_map_of_mem hc)
  rwa [isDigit_toLower] at this

theorem isBlank_of_isDigit {c : Char} (hc : isDigit c = true) : isBlank c = false :=
  forall_digit (P := fun c => isBlank c = false) (by decide) hc

theorem digitValue?_of_isDigit {c : Char} (hc : isDigit c = true) :
    digitValue? 16 c = some ((value? c).getD 0) :=
  forall_digit (P := fun c => digitValue? 16 c = some ((value? c).getD 0)) (by decide) hc

theorem isBlank_marked {marker cs : List Char} (known : marker ∈ markers)
    (hex : ∀ c ∈ cs, isDigit c = true) : ∀ c ∈ marker ++ cs, isBlank c = false := by
  intro c hc
  rcases List.mem_append.1 hc with hc | hc
  · have all : (markers.all fun marker => marker.all fun c => !isBlank c) = true := by decide
    simpa using List.all_eq_true.1 (List.all_eq_true.1 all marker known) c hc
  · exact isBlank_of_isDigit (hex c hc)

/-- Marked digits have no blank to trim. -/
theorem trimBy_marked {blank : Char → Bool} (weaker : ∀ c, isBlank c = false → blank c = false)
    {marker cs : List Char} (known : marker ∈ markers) (hex : ∀ c ∈ cs, isDigit c = true) :
    trimBy blank (marker ++ cs) = marker ++ cs := by
  have none := isBlank_marked known hex
  refine trimBy_eq_self (fun c hc => weaker c (none c ?_)) fun c hc => weaker c (none c ?_)
  · exact List.mem_of_head? hc
  · exact List.mem_of_getLast? hc

theorem dropMarker_digits {cs : List Char} (hex : ∀ c ∈ cs, isDigit c = true) :
    Address.dropMarker cs = cs := by
  unfold Address.dropMarker
  split
  · exact absurd rfl (ne_of_isDigit (hex 'x' (by simp)) (by decide))
  · exact absurd rfl (ne_of_isDigit (hex 'X' (by simp)) (by decide))
  · rfl

theorem dropMarker_marked {marker cs : List Char} (known : marker ∈ markers)
    (hex : ∀ c ∈ cs, isDigit c = true) : Address.dropMarker (marker ++ cs) = cs := by
  simp only [markers, List.mem_cons, List.not_mem_nil, or_false] at known
  rcases known with rfl | rfl | rfl
  · exact dropMarker_digits hex
  · rfl
  · rfl

/-- Only a marker alone holds no digits. -/
theorem eq_nil_of_isEmptyHex {marker cs : List Char} (known : marker ∈ markers)
    (hex : ∀ c ∈ cs, isDigit c = true) (empty : isEmptyHex (marker ++ cs) = true) : cs = [] := by
  have dropped := dropMarker_marked known hex
  simp only [isEmptyHex, Bool.or_eq_true, List.isEmpty_iff, decide_eq_true_eq] at empty
  rcases empty with empty | empty
  · exact (List.append_eq_nil_iff.1 empty).2
  · rw [empty] at dropped
    exact dropped.symm

theorem readGrouped_digits {cs : List Char} (hex : ∀ c ∈ cs, isDigit c = true) (acc : Nat) :
    readGrouped 16 acc cs = some (cs.foldl (fun n c => n * 16 + (value? c).getD 0) acc) := by
  induction cs generalizing acc with
  | nil => rfl
  | cons c cs ih =>
    have digit := hex c List.mem_cons_self
    have plain : c ≠ '_' := ne_of_isDigit digit (by decide)
    have rest := ih fun d hd => hex d (List.mem_cons_of_mem c hd)
    rw [readGrouped.eq_3 _ _ _ _ fun _ _ h _ => plain h, digitValue?_of_isDigit digit]
    exact rest _

theorem readDigits_digits {cs : List Char} (some : cs ≠ []) (hex : ∀ c ∈ cs, isDigit c = true) :
    readDigits 16 cs = .some (valueOf cs) := by
  obtain ⟨c, rest, rfl⟩ := List.exists_cons_of_ne_nil some
  have digit := hex c List.mem_cons_self
  have tail := readGrouped_digits fun d hd => hex d (List.mem_cons_of_mem c hd)
  simp [readDigits, digitValue?_of_isDigit digit, tail, valueOf]

theorem readUnsigned_marked {marker cs : List Char} (known : marker ∈ markers) (some : cs ≠ [])
    (hex : ∀ c ∈ cs, isDigit c = true) : readUnsigned 16 (marker ++ cs) = .some (valueOf cs) := by
  have zero : digitValue? 16 '0' = .some 0 := by decide
  have foreign {d : Char} (hd : isDigit d = false) : d ∉ cs :=
    fun member => ne_of_isDigit (hex d member) hd rfl
  have grouped : ∀ rest, cs = '_' :: rest → False :=
    fun rest same => foreign (d := '_') (by decide) (by simp [same])
  simp only [markers, List.mem_cons, List.not_mem_nil, or_false] at known
  rcases known with rfl | rfl | rfl
  · rw [List.nil_append, readUnsigned.eq_5, readDigits_digits some hex]
    · exact fun z rest _ same => foreign (d := 'x') (by decide) (by simp [same])
    · exact fun z rest _ same => foreign (d := 'X') (by decide) (by simp [same])
    · exact fun z rest _ same => foreign (d := 'x') (by decide) (by simp [same])
    · exact fun z rest _ same => foreign (d := 'X') (by decide) (by simp [same])
  · exact (readUnsigned.eq_3 '0' cs grouped).trans
      ((if_pos zero).trans (readDigits_digits some hex))
  · exact (readUnsigned.eq_4 '0' cs grouped).trans
      ((if_pos zero).trans (readDigits_digits some hex))

theorem readHexadecimal_marked {marker cs : List Char} (known : marker ∈ markers) (some : cs ≠ [])
    (hex : ∀ c ∈ cs, isDigit c = true) :
    readHexadecimal (marker ++ cs) = .some (valueOf cs : Int) := by
  have unsigned {sign : Char} (hs : isDigit sign = false) (hm : ∀ m ∈ markers, sign ∉ m) :
      ∀ rest, marker ++ cs = sign :: rest → False := by
    intro rest same
    have member : sign ∈ marker ++ cs := by simp [same]
    rcases List.mem_append.1 member with member | member
    · exact hm marker known member
    · exact ne_of_isDigit (hex sign member) hs rfl
  have trimmed : trimBy isNumeralBlank (marker ++ cs) = marker ++ cs :=
    trimBy_marked (fun c hc => by simp [isNumeralBlank, hc]) known hex
  rw [readHexadecimal, trimmed, readSigned.eq_3 _ _ (unsigned (by decide) (by decide))
    (unsigned (by decide) (by decide)), readUnsigned_marked known some hex]
  rfl

theorem Writes.holds {s : String} {digits : List Char} (writes : Writes s digits)
    (hex : ∀ c ∈ digits, isDigit c = true) :
    ∃ cs, Holds s cs ∧ cs.map Char.toLower = digits := by
  obtain ⟨marker, known, cs, text, lower⟩ := writes
  exact ⟨cs, ⟨⟨marker, known, text⟩, isDigit_of_map lower hex⟩, lower⟩

theorem Holds.trim {s : String} {cs : List Char} (holds : Holds s cs) :
    Text.trim s.toList = s.toList := by
  obtain ⟨⟨marker, known, text⟩, hex⟩ := holds
  rw [text]
  exact trimBy_marked (fun _ h => h) known hex

theorem Holds.dropMarker {s : String} {cs : List Char} (holds : Holds s cs) :
    Address.dropMarker s.toList = cs := by
  obtain ⟨⟨marker, known, text⟩, hex⟩ := holds
  rw [text]
  exact dropMarker_marked known hex

theorem Holds.eq_nil {s : String} {cs : List Char} (holds : Holds s cs)
    (empty : isEmptyHex s.toList = true) : cs = [] := by
  obtain ⟨⟨marker, known, text⟩, hex⟩ := holds
  rw [text] at empty
  exact eq_nil_of_isEmptyHex known hex empty

/-- Digits of which there are some are read as their number. -/
theorem Holds.quantity? {s : String} {cs : List Char} (holds : Holds s cs) (some : cs ≠ []) :
    (Value.text s).quantity? = .ok (.some (valueOf cs : Int)) := by
  have nonempty : isEmptyHex s.toList = false :=
    Bool.eq_false_iff.2 fun empty => some (holds.eq_nil empty)
  have read : readHexadecimal s.toList = .some (valueOf cs : Int) := by
    obtain ⟨⟨marker, known, text⟩, hex⟩ := holds
    rw [text, readHexadecimal_marked known some hex]
  simp [Value.quantity?, holds.trim, nonempty, read]

/-- The text of a number holds some digits, and they are those of the number. -/
theorem Writes.number {s : String} {zeros n : Nat}
    (writes : Writes s (List.replicate zeros '0' ++ ofNat n)) :
    ∃ cs, cs ≠ [] ∧ Holds s cs ∧ valueOf cs = n := by
  have hex : ∀ c ∈ List.replicate zeros '0' ++ ofNat n, isDigit c = true := by
    intro c hc
    rcases List.mem_append.1 hc with zero | digit
    · rw [List.eq_of_mem_replicate zero]; decide
    · exact isDigit_of_mem_ofNat digit
  obtain ⟨cs, holds, lower⟩ := writes.holds hex
  refine ⟨cs, ?_, holds, ?_⟩
  · rintro rfl
    exact ofNat_ne_nil n (List.append_eq_nil_iff.1 lower.symm).2
  · rw [← valueOf_map_toLower, lower, valueOf_replicate_zero, valueOf_ofNat]

/-- Every spelling of a number reads as the number. -/
theorem SpellsNumber.quantity? {v : Value} {n : Nat} (spells : SpellsNumber v n) :
    v.quantity? = .ok (some (n : Int)) := by
  cases spells with
  | int => rfl
  | bytes zeros =>
    have number := (Bytes.toNat_replicate_zero zeros _).trans (Bytes.toNat_minimal n)
    simp [Value.quantity?, number]
  | text zeros writes =>
    obtain ⟨cs, some, holds, number⟩ := writes.number
    rw [holds.quantity? some, number]

/-- Digits are read as bytes, after a marker or without one, and as those they decode to if they
come in pairs. -/
theorem bytesOfHex_of_digits {text cs : List Char} (dropped : Address.dropMarker text = cs)
    (hex : ∀ c ∈ cs, isDigit c = true) :
    ∃ b, bytesOfHex text = .ok b ∧ (cs.length % 2 = 0 → decode cs = some b) := by
  have read {ds : List Char} (even : ds.length % 2 = 0) (hex : ∀ c ∈ ds, isDigit c = true) :
      ∃ b, decode ds = some b ∧ ds.any (fun c => decide (0x7F < c.toNat)) = false := by
    obtain ⟨b, decoded⟩ := decode_of_digits even hex
    refine ⟨b, decoded, List.any_eq_false.2 fun c hc => ?_⟩
    exact forall_digit (P := fun c => ¬ decide (0x7F < c.toNat) = true) (by decide) (hex c hc)
  unfold bytesOfHex
  by_cases even : cs.length % 2 = 0
  · obtain ⟨b, decoded, ascii⟩ := read even hex
    exact ⟨b, by simp only [dropped, even, if_true, ascii, decoded]; rfl, fun _ => decoded⟩
  · have padded : ('0' :: cs).length % 2 = 0 := by
      simp only [List.length_cons]
      omega
    obtain ⟨b, decoded, ascii⟩ := read padded (List.forall_mem_cons.2 ⟨by decide, hex⟩)
    refine ⟨b, ?_, fun h => absurd h even⟩
    simp only [dropped, even, if_false, ascii, decoded]
    rfl

/-- Hexadecimal text is read as bytes, and as those its digits decode to if they come in pairs. -/
theorem Holds.data {s : String} {cs : List Char} (holds : Holds s cs) :
    ∃ b, (Value.text s).data = .ok b ∧ (cs.length % 2 = 0 → decode cs = some b) := by
  by_cases empty : isEmptyHex s.toList = true
  · refine ⟨[], by simp only [Value.data, holds.trim, empty, if_true], fun _ => ?_⟩
    rw [holds.eq_nil empty]
    rfl
  · obtain ⟨b, read, decoded⟩ := bytesOfHex_of_digits holds.dropMarker holds.2
    refine ⟨b, ?_, decoded⟩
    simp only [Value.data, holds.trim, empty, if_false, Bool.false_eq_true, read]

/-- Forty digits are read as the account that they write in lower case. -/
theorem Holds.address {s : String} {cs : List Char} (holds : Holds s cs) (forty : cs.length = 40) :
    (Value.text s).address = .ok (Address.ofDigits (cs.map Char.toLower)) := by
  have all : cs.all isDigit = true := List.all_eq_true.2 holds.2
  have canonical : (cs.map Char.toLower).all Address.isCanonicalDigit = true := by
    refine List.all_eq_true.2 fun c hc => ?_
    obtain ⟨d, hd, rfl⟩ := List.mem_map.1 hc
    exact forall_digit (P := fun c => Address.isCanonicalDigit c.toLower = true) (by decide)
      (holds.2 d hd)
  simp only [Value.address, Address.ofText, holds.dropMarker, all, if_true, Address.ofLowerDigits,
    List.length_map, forty, canonical]
  rfl

theorem length_of_lower {cs : List Char} {b : Bytes} (lower : cs.map Char.toLower = encode b) :
    cs.length = 2 * b.length := by
  rw [← length_encode, ← lower, List.length_map]

/-- Every spelling of a byte string reads as the byte string. -/
theorem SpellsData.data {v : Value} {b : Bytes} (spells : SpellsData v b) : v.data = .ok b := by
  cases spells with
  | bytes => rfl
  | text writes =>
    obtain ⟨cs, holds, lower⟩ := writes.holds fun c hc => isDigit_of_mem_encode hc
    have decoded : decode cs = some b := by
      rw [← decode_map_toLower, lower, decode_encode]
    have even : cs.length % 2 = 0 := by
      rw [length_of_lower lower]
      omega
    obtain ⟨b', read, same⟩ := holds.data
    rw [read, Option.some.inj ((same even).symm.trans decoded)]

theorem address_bytes {b : Bytes} (length : b.length = 20) :
    (Value.bytes b).address = .ok (Address.ofDigits (encode b)) := by
  have forty : (encode b).length = 40 := by rw [length_encode, length]
  have key : Address.ofNat (Bytes.toNat b) = Address.ofDigits (encode b) := by
    rw [encode_eq_fixed, length]
    rfl
  have canonical : (encode b).all Address.isCanonicalDigit = true := by
    obtain ⟨digits, -, lower, same⟩ := Address.canonical_ofNat (Bytes.toNat b)
    rw [key, Address.ofDigits_inj] at same
    exact same ▸ List.all_eq_true.2 lower
  simp [Value.address, Address.ofBytes, Address.ofLowerDigits, forty, canonical]

/-- Every spelling of an account reads as the address of its number. -/
theorem SpellsAccount.address {v : Value} {b : Bytes} (spells : SpellsAccount v b) :
    v.address = .ok (Address.ofNat (Bytes.toNat b)) := by
  obtain ⟨length, spells⟩ := spells
  have key : Address.ofNat (Bytes.toNat b) = Address.ofDigits (encode b) := by
    rw [encode_eq_fixed, length]
    rfl
  rw [key]
  cases spells with
  | bytes => exact address_bytes length
  | text writes =>
    obtain ⟨cs, holds, lower⟩ := writes.holds fun c hc => isDigit_of_mem_encode hc
    rw [holds.address (by rw [length_of_lower lower, length]), lower]

theorem SpellsNumber.quantity {v : Value} {n : Nat} (spells : SpellsNumber v n) :
    v.quantity = .ok (n : Int) := by
  rw [Value.quantity, spells.quantity?]
  rfl

theorem SpellsNumber.amount {v : Value} {n : Nat} (spells : SpellsNumber v n) :
    v.amount = .ok (.ofInt n) := by
  have plain : v.isTruth = false := by cases spells <;> rfl
  rw [Value.amount, spells.quantity, plain]
  rfl

theorem SpellsNumber.unlessNull {v : Value} {n : Nat} (spells : SpellsNumber v n) :
    quantityUnlessNull v = .ok (some (n : Int)) ∧ amountUnlessNull v = .ok (some (.ofInt n)) := by
  have quantity := spells.quantity
  have amount := spells.amount
  cases spells <;> simp only [quantityUnlessNull, amountUnlessNull, quantity, amount] <;>
    exact ⟨rfl, rfl⟩

theorem SpellsData.unlessNull {v : Value} {b : Bytes} (spells : SpellsData v b) :
    dataUnlessNull v = .ok (some b) := by
  have data := spells.data
  cases spells <;> simp only [dataUnlessNull, data] <;> rfl

theorem SpellsAccount.address? {v : Value} {b : Bytes} (spells : SpellsAccount v b) :
    v.address? = .ok (some (Address.ofNat (Bytes.toNat b))) := by
  have address := spells.address
  obtain ⟨-, spells⟩ := spells
  cases spells <;> simp only [Value.address?, address] <;> rfl

theorem SpellsNumber.isNumber {v : Value} {n : Nat} (spells : SpellsNumber v n) : v.IsNumber := by
  cases spells with
  | int => exact .int n
  | bytes => exact .bytes _
  | text zeros writes =>
    obtain ⟨cs, some, holds, -⟩ := writes.number
    exact .text some holds

theorem SpellsData.isData {v : Value} {b : Bytes} (spells : SpellsData v b) : v.IsData := by
  cases spells with
  | bytes => exact .bytes b
  | text writes =>
    obtain ⟨cs, holds, -⟩ := writes.holds fun c hc => isDigit_of_mem_encode hc
    exact .text holds

theorem SpellsAccount.isAccount {v : Value} {b : Bytes} (spells : SpellsAccount v b) :
    v.IsAccount := by
  obtain ⟨length, spells⟩ := spells
  cases spells with
  | bytes => exact .bytes length
  | text writes =>
    obtain ⟨cs, holds, lower⟩ := writes.holds fun c hc => isDigit_of_mem_encode hc
    exact .text (by rw [length_of_lower lower, length]) holds

namespace Value

variable {v : Value}

theorem IsNumber.quantity? (h : v.IsNumber) : ∃ n, v.quantity? = .ok n := by
  cases h with
  | null => exact ⟨_, rfl⟩
  | truth b => exact ⟨_, rfl⟩
  | int n => exact ⟨_, rfl⟩
  | bytes b => exact ⟨_, rfl⟩
  | @empty s h =>
    have blank : s.toList = [] ∨ s.toList = ['0', 'x'] := by simpa using h
    refine ⟨none, ?_⟩
    rcases blank with h | h <;> simp only [Value.quantity?, h] <;> rfl
  | text some holds => exact ⟨_, holds.quantity? some⟩

theorem IsNumber.quantity (h : v.IsNumber) : ∃ n, v.quantity = .ok n := by
  obtain ⟨n, read⟩ := h.quantity?
  exact ⟨_, by rw [Value.quantity, read]; rfl⟩

theorem IsNumber.amount (h : v.IsNumber) : ∃ n, v.amount = .ok n := by
  obtain ⟨n, read⟩ := h.quantity
  exact ⟨_, by rw [Value.amount, read]; rfl⟩

theorem IsNumber.quantityUnlessNull (h : v.IsNumber) : ∃ n, quantityUnlessNull v = .ok n := by
  obtain ⟨n, read⟩ := h.quantity
  unfold Rpc.quantityUnlessNull
  split
  · exact ⟨_, rfl⟩
  · exact ⟨_, by rw [read]; rfl⟩

theorem IsNumber.amountUnlessNull (h : v.IsNumber) : ∃ n, amountUnlessNull v = .ok n := by
  obtain ⟨n, read⟩ := h.amount
  unfold Rpc.amountUnlessNull
  split
  · exact ⟨_, rfl⟩
  · exact ⟨_, by rw [read]; rfl⟩

theorem IsData.data (h : v.IsData) : ∃ b, v.data = .ok b := by
  cases h with
  | null => exact ⟨_, rfl⟩
  | bytes b => exact ⟨_, rfl⟩
  | text holds =>
    obtain ⟨b, read, -⟩ := holds.data
    exact ⟨b, read⟩

theorem IsData.dataUnlessNull (h : v.IsData) : ∃ b, dataUnlessNull v = .ok b := by
  obtain ⟨b, read⟩ := h.data
  unfold Rpc.dataUnlessNull
  split
  · exact ⟨_, rfl⟩
  · exact ⟨_, by rw [read]; rfl⟩

theorem IsAccount.address? (h : v.IsAccount) : ∃ a, v.address? = .ok a := by
  cases h with
  | null => exact ⟨_, rfl⟩
  | bytes length => exact ⟨_, by simp only [Value.address?, address_bytes length]; rfl⟩
  | text forty holds => exact ⟨_, by simp only [Value.address?, holds.address forty]; rfl⟩

end Value

/-- The digits of a fixed width spell the number that they write. -/
theorem SpellsNumber.fixed {width n : Nat} (h : n < Nat.pow 16 (width + 1)) :
    SpellsNumber (.text (String.ofList (Text.Hex.fixed (width + 1) n))) n := by
  obtain ⟨zeros, digits⟩ := fixed_eq_replicate_append h
  exact .text zeros ⟨[], by decide, _, String.toList_ofList,
    (map_toLower_fixed _ n).trans digits⟩

theorem SpellsData.toText (b : Bytes) : SpellsData (.text (Text.Hex.toText b)) b := by
  refine .text ⟨[], by decide, _, String.toList_ofList, ?_⟩
  rw [encode_eq_fixed, map_toLower_fixed]

/-- The number of an account is what a stack word names it by, whatever stands above its low
twenty bytes. -/
theorem ofWord_of_length {b : Bytes} (length : b.length = 20) (k : Nat) :
    Address.ofWord (Bytes.toNat b + k * Word.addressBound) = Address.ofNat (Bytes.toNat b) := by
  have below : Bytes.toNat b < 256 ^ 20 := length ▸ Bytes.toNat_lt b
  have low : ((Bytes.toNat b : Int) % Word.addressBound).toNat = Bytes.toNat b := by
    simp only [Word.addressBound]
    omega
  rw [Address.ofWord_add_multiple, Address.ofWord, low]

end Rpc

end TraceDiff
