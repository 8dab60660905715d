import TraceDiff.Address.Create
import TraceDiff.Proofs.Rpc.Spelling
import TraceDiff.Rpc.Creation

/-! Accounts and the forms that they are sent in. Whatever a value or a creation says, an account
that is read is written in lower case; and two such accounts differ in their checksum forms too. -/
namespace TraceDiff

open Text.Hex (encode forall_digit)

theorem Keccak.length_hash (message : Bytes) : (hash message).length = 32 := by
  simp [hash, wordBytes, List.length_flatMap, List.map_const']

namespace Address

variable {a b : Address} {text : String} {digits : List Char}

/-- Twenty bytes make an address. -/
theorem canonical_encode {bytes : Bytes} (length : bytes.length = 20) :
    (ofDigits (encode bytes)).Canonical := by
  rw [Text.Hex.encode_eq_fixed, length]
  exact canonical_ofNat (Bytes.toNat bytes)

theorem canonical_created (creator : Bytes) (nonce : Rlp) : (created creator nonce).Canonical :=
  canonical_encode (by rw [List.length_drop, Keccak.length_hash])

theorem canonical_of_ofLowerDigits {shown : String} (h : ofLowerDigits shown digits = .ok a) :
    a.Canonical := by
  unfold ofLowerDigits at h
  split at h
  · next fits =>
    obtain rfl := Except.ok.inj h
    simp only [Bool.and_eq_true, decide_eq_true_eq, List.all_eq_true] at fits
    exact ⟨_, fits.1, fits.2, rfl⟩
  · nomatch h

theorem toLower_of_canonical (canonical : ∀ c ∈ digits, isCanonicalDigit c = true) :
    digits.map Char.toLower = digits := by
  refine (List.map_congr_left fun c hc => ?_).trans (List.map_id _)
  obtain ⟨hex, small⟩ := Bool.and_eq_true_iff.1 (canonical c hc)
  exact forall_digit (P := fun c => (!c.isUpper) = true → c.toLower = c) (by decide) hex small

/-- An account is read from its own text. -/
theorem ofText_of_canonical (canonical : a.Canonical) : ofText a.text = .ok a := by
  obtain ⟨digits, forty, lower, rfl⟩ := canonical
  have hex : ∀ c ∈ digits, Text.Hex.isDigit c = true := fun c hc =>
    (Bool.and_eq_true_iff.1 (lower c hc)).1
  have holds : Rpc.Holds (ofDigits digits).text digits :=
    ⟨⟨['0', 'x'], by simp [Rpc.markers], by simp [ofDigits]⟩, hex⟩
  have read := holds.address forty
  rwa [toLower_of_canonical lower] at read

/-- An account is sent in the checksum form of what its text reads as. -/
theorem bind_ofText_checksum (a : Address) : (ofText a.text >>= checksum) = a.checksum := by
  cases read : ofText a.text with
  | error e => simp only [checksum, read, Except.bind, bind]
  | ok b =>
    have again := ofText_of_canonical (canonical_of_ofText read)
    show b.checksum = a.checksum
    simp only [checksum, read, again]

/-- The digits in the checksum form, in the case that their hash tells. -/
def checksumDigits (digits : List Char) : List Char :=
  List.zipWith checksumDigit digits
    (encode (Keccak.hash (digits.map fun c => UInt8.ofNat c.toNat)))

theorem checksum_ofDigits (canonical : (ofDigits digits).Canonical) :
    (ofDigits digits).checksum = .ok (String.ofList ('0' :: 'x' :: checksumDigits digits)) := by
  have dropped : dropMarker (ofDigits digits).text.toList = digits := by
    simp [ofDigits, dropMarker]
  simp only [checksum, ofText_of_canonical canonical, bind, Except.bind, dropped]
  rfl

theorem checksum_of_canonical (canonical : a.Canonical) : ∃ text, a.checksum = .ok text := by
  obtain ⟨digits, forty, lower, rfl⟩ := canonical
  exact ⟨_, checksum_ofDigits ⟨digits, forty, lower, rfl⟩⟩

/-- Only the case of the letters changes. -/
theorem toLower_checksumDigits (forty : digits.length = 40)
    (lower : ∀ c ∈ digits, isCanonicalDigit c = true) :
    (checksumDigits digits).map Char.toLower = digits := by
  have each : ∀ c ∈ digits, ∀ h, (checksumDigit c h).toLower = c := by
    intro c hc h
    obtain ⟨hex, small⟩ := Bool.and_eq_true_iff.1 (lower c hc)
    have both : c.toLower = c ∧ c.toUpper.toLower = c :=
      forall_digit (P := fun c => (!c.isUpper) = true → c.toLower = c ∧ c.toUpper.toLower = c)
        (by decide) hex small
    unfold checksumDigit
    split
    · exact both.2
    · exact both.1
  unfold checksumDigits
  generalize hashed : encode (Keccak.hash (digits.map fun c => UInt8.ofNat c.toNat)) = hash
  have enough : digits.length ≤ hash.length := by
    rw [← hashed, Text.Hex.length_encode, Keccak.length_hash, forty]
    decide
  clear hashed forty lower
  induction digits generalizing hash with
  | nil => rfl
  | cons c digits ih =>
    cases hash with
    | nil => simp at enough
    | cons h hash =>
      obtain ⟨first, rest⟩ := List.forall_mem_cons.1 each
      rw [List.zipWith_cons_cons, List.map_cons, first, ih rest hash (by simpa using enough)]

/-- The checksum form tells the account. -/
theorem checksum_inj (ha : a.Canonical) (hb : b.Canonical) (sa : a.checksum = .ok text)
    (sb : b.checksum = .ok text) : a = b := by
  obtain ⟨xs, forty, lower, rfl⟩ := ha
  obtain ⟨ys, forty', lower', rfl⟩ := hb
  rw [checksum_ofDigits ⟨xs, forty, lower, rfl⟩] at sa
  rw [checksum_ofDigits ⟨ys, forty', lower', rfl⟩, ← Except.ok.inj sa] at sb
  have same : checksumDigits ys = checksumDigits xs := by
    simpa [String.ofList_inj] using sb
  rw [← toLower_checksumDigits forty lower, ← same, toLower_checksumDigits forty' lower']

end Address

open Address (canonical_of_ofText canonical_of_ofLowerDigits canonical_created)

theorem Rpc.Value.canonical_of_address {v : Value} {a : Address} (h : v.address = .ok a) :
    a.Canonical := by
  cases v with
  | text s => exact canonical_of_ofText h
  | bytes b => exact canonical_of_ofLowerDigits h
  | int n =>
    unfold address at h
    dsimp only at h
    split at h
    · exact canonical_of_ofLowerDigits h
    · nomatch h
  | _ => nomatch h

theorem Rpc.Value.canonical_of_address? {v : Value} {a : Address} (h : v.address? = .ok (some a)) :
    a.Canonical := by
  unfold address? at h
  split at h
  · nomatch h
  · cases read : v.address with
    | error e =>
      rw [read] at h
      nomatch h
    | ok b =>
      rw [read] at h
      obtain rfl := Option.some.inj (Except.ok.inj h)
      exact canonical_of_address read

namespace Transaction

variable {tx : Transaction} {a : Address}

/-- The sender and the target of a transaction that was read are written in lower case. -/
theorem canonical_of_ofValue {v : Rpc.Value} (read : ofValue v = .ok tx)
    (party : tx.sender = some a ∨ tx.target = some a) : a.Canonical := by
  obtain ⟨fields, -, read⟩ := bind_eq_ok.1 read
  obtain ⟨hash, -, read⟩ := bind_eq_ok.1 read
  obtain ⟨from_, -, read⟩ := bind_eq_ok.1 read
  obtain ⟨sender, sent, read⟩ := bind_eq_ok.1 read
  obtain ⟨target, went, read⟩ := bind_eq_ok.1 read
  -- the other fields play no part
  iterate 11 obtain ⟨_, -, read⟩ := bind_eq_ok.1 read
  obtain rfl := Except.ok.inj read
  rcases party with rfl | rfl
  · exact Rpc.Value.canonical_of_address? sent
  · exact Rpc.Value.canonical_of_address? went

/-- So is the account that it runs as. -/
theorem canonical_account (party : ∀ a ∈ tx.target, a.Canonical) (runs : tx.account = .ok a) :
    a.Canonical := by
  unfold account at runs
  split at runs
  · next target there =>
    obtain rfl := Except.ok.inj runs
    exact party _ there
  · cases sent : tx.sender with
    | none =>
      rw [sent] at runs
      nomatch runs
    | some sender =>
      rw [sent] at runs
      obtain ⟨creator, -, runs⟩ := bind_eq_ok.1 runs
      obtain ⟨nonce, -, runs⟩ := bind_eq_ok.1 runs
      obtain rfl := Except.ok.inj runs
      exact canonical_created creator nonce

end Transaction

end TraceDiff
