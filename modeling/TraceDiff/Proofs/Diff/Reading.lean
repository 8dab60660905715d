import Mathlib.Data.List.Forall2
import TraceDiff.Diff.Result
import TraceDiff.Proofs.Rpc.Spelling

/-! Results as they are written: when they can be, in what order their parts stand, and that reading
them back loses nothing. -/
namespace TraceDiff

open Rpc (Value Quantity)

/-- A name as the value that is read. -/
def Key.value : Key → Value
  | .name s => .text s
  | .number n => .int n
  | .truth b => .bool b

namespace Document

/-- What is no map, as the value that is read. -/
def value : Document → Value
  | .null => .null
  | .number n => .int n
  | .truth b => .bool b
  | .text s => .text s
  | .map _ => .object []

def fields : Document → List (Key × Document)
  | .map fields => fields
  | _ => []

@[simp] theorem value_text (s : String) : (text s).value = .text s := rfl

@[simp] theorem fields_map (fields : List (Key × Document)) : (map fields).fields = fields := rfl

def part (d : Document) (name : String) : Document := (d.field? (.name name)).getD .null

end Document

namespace Diff

/-- Numbers under the same slots. Whether one came as a truth value does not count. -/
def SameSlots (s t : Slots) : Prop := ∀ slot : Int, s[slot]?.map (·.value) = t[slot]?.map (·.value)

structure Account.Same (a b : Account) : Prop where
  preBalance : a.preBalance = b.preBalance
  postBalance : a.postBalance = b.postBalance
  preStorage : SameSlots a.preStorage b.preStorage
  postStorage : SameSlots a.postStorage b.postStorage
  preCode : a.preCode = b.preCode
  postCode : a.postCode = b.postCode

def SameAccounts (m n : AddressMap Account) : Prop :=
  ∀ a : Address, Option.Rel Account.Same m[a]? n[a]?

/-- Two results are equal as maps, in whatever order their entries were set. -/
structure Result.Same (r r' : Result) : Prop where
  accounts : SameAccounts r.accounts r'.accounts
  blockHashes : ∀ number : Int, r.blockHashes[number]? = r'.blockHashes[number]?
  truthBlocks : ∀ b, b ∈ r.truthBlocks ↔ b ∈ r'.truthBlocks
  context : r.context = r'.context

/-- All slots and their values fit a word. -/
def SlotsFit (s : Slots) : Prop :=
  ∀ (slot : Int) (q : Quantity), s[slot]? = some q → Word.Fits slot ∧ Word.Fits q.value

structure Account.Fits (a : Account) : Prop where
  preBalance : Word.Fits a.preBalance
  postBalance : Word.Fits a.postBalance
  preStorage : SlotsFit a.preStorage
  postStorage : SlotsFit a.postStorage

/-- The amounts that are there fit a word. -/
structure Context.Fits (c : Context) : Prop where
  value : Word.Fits c.value
  amounts : ∀ amount ∈ [c.gasPrice, c.feeCap, c.priorityFee, c.baseFee], ∀ n ∈ amount, Word.Fits n

structure Result.Fits (r : Result) : Prop where
  accounts : ∀ (a : Address) account, r.accounts[a]? = some account → account.Fits
  context : r.context.Fits

/-! ## When something is written -/

/-- Writing comes through exactly if the parts fit, and is refused for no other reason. -/
structure WritesIff {α : Type} (x : Except Fault α) (fits : Prop) : Prop where
  value : ∀ a, x = .ok a → fits
  fault : ∀ f, x = .error f → f = .outOfWord ∧ ¬fits

namespace WritesIff

variable {α β : Type} {x : Except Fault α} {g : α → Except Fault β} {p q : Prop}

theorem pure (a : α) : WritesIff (pure a) True :=
  ⟨fun _ _ => trivial, fun _ h => (nomatch h)⟩

theorem bind (first : WritesIff x p) (second : ∀ a, WritesIff (g a) q) :
    WritesIff (x >>= g) (p ∧ q) := by
  cases h : x with
  | error e =>
    obtain ⟨cause, unfit⟩ := first.fault e h
    exact ⟨fun _ h => (nomatch h), fun f h =>
      ⟨Except.error.inj h ▸ cause, fun both => unfit both.1⟩⟩
  | ok a =>
    have fit := first.value a h
    exact ⟨fun b hb => ⟨fit, (second a).value b hb⟩, fun f hf =>
      ⟨((second a).fault f hf).1, fun both => ((second a).fault f hf).2 both.2⟩⟩

theorem congr (writes : WritesIff x p) (same : p ↔ q) : WritesIff x q :=
  ⟨fun a h => same.1 (writes.value a h), fun f h =>
    ⟨(writes.fault f h).1, fun hq => (writes.fault f h).2 (same.2 hq)⟩⟩

theorem eq_error_iff (writes : WritesIff x p) {f : Fault} :
    x = .error f ↔ f = .outOfWord ∧ ¬p := by
  constructor
  · exact writes.fault f
  · rintro ⟨rfl, unfit⟩
    cases h : x with
    | ok a => exact absurd (writes.value a h) unfit
    | error e => exact congrArg _ (writes.fault e h).1

theorem exists_ok (writes : WritesIff x p) (fit : p) : ∃ a, x = .ok a := by
  cases h : x with
  | ok a => exact ⟨a, rfl⟩
  | error e => exact absurd fit (writes.fault e h).2

end WritesIff

theorem writesIff_word (n : Int) : WritesIff (word n) (Word.Fits n) where
  value s h := by
    unfold word at h
    split at h
    · assumption
    · nomatch h
  fault f h := (word_eq_error_iff.1 h).symm

theorem writesIff_word? (n : Option Int) : WritesIff (word? n) (∀ m ∈ n, Word.Fits m) := by
  cases n with
  | none => exact (WritesIff.pure missing).congr (by simp)
  | some n => exact (writesIff_word n).congr (by simp)

theorem writesIff_writeSlots (l : List (Int × Quantity)) :
    WritesIff (writeSlots l) (∀ e ∈ l, Word.Fits e.1 ∧ Word.Fits e.2.value) := by
  induction l with
  | nil => exact (WritesIff.pure []).congr (by simp)
  | cons e rest ih =>
    refine ((writesIff_word e.1).bind fun _ => (writesIff_word e.2.value).bind fun _ =>
      ih.bind fun _ => .pure _).congr ?_
    simp [and_assoc]

theorem slotsFit_iff {s : Slots} :
    SlotsFit s ↔ ∀ e ∈ s.toList, Word.Fits e.1 ∧ Word.Fits e.2.value := by
  simp [SlotsFit, Std.ExtTreeMap.mem_toList_iff_getElem?_eq_some]

theorem Account.writesIff (a : Account) : WritesIff a.write a.Fits := by
  refine ((writesIff_word a.preBalance).bind fun _ => (writesIff_word a.postBalance).bind fun _ =>
    (writesIff_writeSlots a.preStorage.toList).bind fun _ =>
      (writesIff_writeSlots a.postStorage.toList).bind fun _ => .pure _).congr ?_
  rw [← slotsFit_iff, ← slotsFit_iff]
  exact ⟨fun ⟨pre, post, before, after, _⟩ => ⟨pre, post, before, after⟩,
    fun ⟨pre, post, before, after⟩ => ⟨pre, post, before, after, trivial⟩⟩

theorem Context.writesIff (c : Context) : WritesIff c.write c.Fits := by
  refine ((writesIff_word c.value).bind fun _ => (writesIff_word? c.gasPrice).bind fun _ =>
    (writesIff_word? c.feeCap).bind fun _ => (writesIff_word? c.priorityFee).bind fun _ =>
      (writesIff_word? c.baseFee).bind fun _ => .pure _).congr ?_
  constructor
  · rintro ⟨value, price, cap, tip, base, -⟩
    exact ⟨value, by simpa using ⟨price, cap, tip, base⟩⟩
  · rintro ⟨value, amounts⟩
    obtain ⟨price, cap, tip, base⟩ := by simpa using amounts
    exact ⟨value, price, cap, tip, base, trivial⟩

theorem writesIff_writeAccounts (l : List (Address × Account)) :
    WritesIff (writeAccounts l) (∀ e ∈ l, e.2.Fits) := by
  induction l with
  | nil => exact (WritesIff.pure []).congr (by simp)
  | cons e rest ih =>
    refine (e.2.writesIff.bind fun _ => ih.bind fun _ => .pure _).congr ?_
    simp

theorem Result.writesIff (r : Result) : WritesIff r.write r.Fits := by
  refine ((writesIff_writeAccounts r.accounts.toList).bind fun _ =>
    r.context.writesIff.bind fun _ => .pure _).congr ?_
  constructor
  · rintro ⟨accounts, context, -⟩
    exact ⟨fun a account h =>
      accounts (a, account) (Std.ExtTreeMap.mem_toList_iff_getElem?_eq_some.2 h), context⟩
  · rintro ⟨accounts, context⟩
    exact ⟨fun e h => accounts e.1 e.2 (Std.ExtTreeMap.mem_toList_iff_getElem?_eq_some.1 h),
      context, trivial⟩

/-! ## The same maps are written alike -/

def plainSlots (s : Slots) : Slots := s.map fun _ q => .ofInt q.value

/-- The account with its storage as plain numbers. -/
def Account.plain (a : Account) : Account :=
  { a with preStorage := plainSlots a.preStorage, postStorage := plainSlots a.postStorage }

def plainAccounts (m : AddressMap Account) : AddressMap Account := m.map fun _ a => a.plain

theorem sameSlots_iff {s t : Slots} : SameSlots s t ↔ plainSlots s = plainSlots t := by
  have inj : Function.Injective Quantity.ofInt := fun a b h => congrArg Quantity.value h
  have lookup (s : Slots) (slot : Int) :
      (plainSlots s)[slot]? = (s[slot]?.map (·.value)).map Quantity.ofInt := by
    simp [plainSlots, Function.comp_def]
  constructor
  · intro same
    exact Std.ExtTreeMap.ext_getElem? fun slot => by rw [lookup, lookup, same slot]
  · intro same slot
    have := congrArg (fun s : Slots => s[slot]?) same
    rw [lookup, lookup] at this
    exact Option.map_injective inj this

theorem Account.same_iff {a b : Account} : a.Same b ↔ a.plain = b.plain := by
  cases a
  cases b
  simp only [plain, Account.mk.injEq, ← sameSlots_iff]
  exact ⟨fun ⟨h₁, h₂, h₃, h₄, h₅, h₆⟩ => ⟨h₁, h₂, h₃, h₄, h₅, h₆⟩,
    fun ⟨h₁, h₂, h₃, h₄, h₅, h₆⟩ => ⟨h₁, h₂, h₃, h₄, h₅, h₆⟩⟩

theorem sameAccounts_iff {m n : AddressMap Account} :
    SameAccounts m n ↔ plainAccounts m = plainAccounts n := by
  have lookup (m : AddressMap Account) (a : Address) :
      (plainAccounts m)[a]? = m[a]?.map Account.plain := by
    simp [plainAccounts]
  have rel {x y : Option Account} :
      Option.Rel Account.Same x y ↔ x.map Account.plain = y.map Account.plain := by
    cases x <;> cases y <;> simp [Account.same_iff]
  constructor
  · intro same
    exact Std.ExtTreeMap.ext_getElem? fun a => by rw [lookup, lookup, rel.1 (same a)]
  · intro same a
    rw [rel, ← lookup, ← lookup, same]

theorem plainSlots_plainSlots (s : Slots) : plainSlots (plainSlots s) = plainSlots s :=
  Std.ExtTreeMap.ext_getElem? fun slot => by simp [plainSlots]

theorem Account.plain_plain (a : Account) : a.plain.plain = a.plain := by
  simp [plain, plainSlots_plainSlots]

theorem sameAccounts_plain (m : AddressMap Account) : SameAccounts (plainAccounts m) m :=
  sameAccounts_iff.2 (Std.ExtTreeMap.ext_getElem? fun a => by
    simp [plainAccounts, Account.plain_plain])

theorem writeSlots_plain (s : Slots) : writeSlots (plainSlots s).toList = writeSlots s.toList := by
  have each (l : List (Int × Quantity)) :
      writeSlots (l.map fun e => (e.1, .ofInt e.2.value)) = writeSlots l := by
    induction l with
    | nil => rfl
    | cons e rest ih => simp [writeSlots, ih]
  rw [plainSlots, Std.ExtTreeMap.toList_map, each]

theorem Account.write_plain (a : Account) : a.plain.write = a.write := by
  simp only [write, plain, writeSlots_plain]

theorem writeAccounts_plain (m : AddressMap Account) :
    writeAccounts (plainAccounts m).toList = writeAccounts m.toList := by
  have each (l : List (Address × Account)) :
      writeAccounts (l.map fun e => (e.1, e.2.plain)) = writeAccounts l := by
    induction l with
    | nil => rfl
    | cons e rest ih => simp [writeAccounts, ih, Account.write_plain]
  rw [plainAccounts, Std.ExtTreeMap.toList_map, each]

theorem Result.Same.write_eq {r r' : Result} (same : r.Same r') : r.write = r'.write := by
  obtain ⟨accounts, hashes, truths, context⟩ := same
  have written : writeAccounts r.accounts.toList = writeAccounts r'.accounts.toList := by
    rw [← writeAccounts_plain, sameAccounts_iff.1 accounts, writeAccounts_plain]
  have blocks : r.blockHashes = r'.blockHashes := Std.ExtTreeMap.ext_getElem? hashes
  have flagged : r.truthBlocks = r'.truthBlocks := Std.ExtTreeSet.ext_mem truths
  have key : r.blockKey = r'.blockKey := funext fun number => by rw [blockKey, blockKey, flagged]
  simp only [write, written, blocks, key, context]

/-! ## Reading back -/

section Reading

variable {α β : Type} [Ord α] [Std.TransOrd α] [Std.LawfulEqOrd α]

/-- Reads a map: each name by `key`, and what stands under it by `item`. -/
def readMap (key : Value → Except Fault α) (item : Document → Except Fault β) :
    List (Key × Document) → Except Fault (Std.ExtTreeMap α β)
  | [] => .ok ∅
  | (k, d) :: rest => do
    let name ← key k.value
    let value ← item d
    let more ← readMap key item rest
    return more.insert name value

/-- The names, as `key` reads them, ascend strictly; so no two of them are one. -/
def Ascends (key : Value → Except Fault α) (written : List (Key × Document)) : Prop :=
  ∃ names : List α, written.map (fun e => key e.1.value) = names.map .ok ∧
    names.Pairwise fun a b => compare a b = .lt

theorem getElem?_foldr_insert {l : List (α × β)}
    (distinct : l.Pairwise fun e f => ¬compare e.1 f.1 = .eq) {k : α} {v : β} :
    (l.foldr (fun e (m : Std.ExtTreeMap α β) => m.insert e.1 e.2) ∅)[k]? = some v ↔
      (k, v) ∈ l := by
  induction l with
  | nil => simp
  | cons e rest ih =>
    obtain ⟨fresh, distinct⟩ := List.pairwise_cons.1 distinct
    rw [List.foldr_cons, Std.ExtTreeMap.getElem?_insert, List.mem_cons]
    split
    · next same =>
      obtain rfl := Std.LawfulEqOrd.eq_of_compare same
      have unlisted : (e.1, v) ∉ rest := fun member => fresh _ member Std.ReflCmp.compare_self
      simp [unlisted, Prod.ext_iff, eq_comm]
    · next other =>
      have : k ≠ e.1 := fun h => other (h ▸ Std.ReflCmp.compare_self)
      rw [ih distinct]
      simp [Prod.ext_iff, this]

theorem foldr_insert_toList (t : Std.ExtTreeMap α β) :
    t.toList.foldr (fun e (m : Std.ExtTreeMap α β) => m.insert e.1 e.2) ∅ = t := by
  refine Std.ExtTreeMap.ext_getElem? fun k => Option.ext fun v => ?_
  rw [getElem?_foldr_insert Std.ExtTreeMap.distinct_keys_toList,
    Std.ExtTreeMap.mem_toList_iff_getElem?_eq_some]

/-- What is written entry by entry from a map reads back as the map, in ascending order. -/
theorem readMap_eq_ok {key : Value → Except Fault α} {item : Document → Except Fault β}
    {t : Std.ExtTreeMap α β} {written : List (Key × Document)}
    (reads : List.Forall₂ (fun e p => key e.1.value = .ok p.1 ∧ item e.2 = .ok p.2)
      written t.toList) :
    readMap key item written = .ok t ∧ Ascends key written := by
  have each {w : List (Key × Document)} {l : List (α × β)}
      (reads : List.Forall₂ (fun e p => key e.1.value = .ok p.1 ∧ item e.2 = .ok p.2) w l) :
      readMap key item w = .ok (l.foldr (fun e m => m.insert e.1 e.2) ∅) ∧
        w.map (fun e => key e.1.value) = (l.map (·.1)).map .ok := by
    induction reads with
    | nil => exact ⟨rfl, rfl⟩
    | cons head _ ih =>
      constructor
      · rw [readMap, head.1, ok_bind, head.2, ok_bind, ih.1]
        rfl
      · rw [List.map_cons, ih.2, head.1]
        rfl
  obtain ⟨read, names⟩ := each reads
  exact ⟨foldr_insert_toList t ▸ read, _, names,
    List.pairwise_map.2 Std.ExtTreeMap.ordered_keys_toList⟩

end Reading

def readNumber (d : Document) : Except Fault Quantity := .ofInt <$> d.value.quantity

def readSlots : List (Key × Document) → Except Fault Slots := readMap Value.quantity readNumber

/-- Nothing means no code, the empty text empty code. -/
def readAccount (d : Document) : Except Fault Account := do
  let preBalance ← (d.part "pre_balance").value.quantity
  let postBalance ← (d.part "post_balance").value.quantity
  let preStorage ← readSlots (d.part "pre_storage").fields
  let postStorage ← readSlots (d.part "post_storage").fields
  let preCode ← Rpc.dataUnlessNull (d.part "pre_code").value
  let postCode ← Rpc.dataUnlessNull (d.part "post_code").value
  return { preBalance, postBalance, preStorage, postStorage, preCode, postCode }

def readAddress (v : Value) : Except Fault Address := v.address.mapError .badAddress

def readAccounts : List (Key × Document) → Except Fault (AddressMap Account) :=
  readMap readAddress readAccount

def readHashes : List (Key × Document) → Except Fault (Std.ExtTreeMap Int Bytes) :=
  readMap Value.quantity fun d => d.value.data

/-- A number that is written reads as itself. -/
theorem quantity_of_word {n : Int} {s : String} (written : word n = .ok s) :
    (Value.text s).quantity = .ok n := by
  unfold word at written
  split at written
  · next fits =>
    obtain rfl := Except.ok.inj written
    obtain ⟨nonneg, below⟩ := fits
    have room : Nat.pow 16 (63 + 1) = Word.bound.toNat := by decide
    have small : n.toNat < Nat.pow 16 (63 + 1) := by
      rw [room]
      omega
    rw [(Rpc.SpellsNumber.fixed small).quantity, Int.toNat_of_nonneg nonneg]
  · nomatch written

theorem readAddress_bare {a : Address} (canonical : a.Canonical) :
    readAddress (.text a.bare) = .ok a := by
  obtain ⟨digits, forty, plain, rfl⟩ := canonical
  have hex : ∀ c ∈ digits, Text.Hex.isDigit c = true := fun c hc =>
    (Bool.and_eq_true_iff.1 (plain c hc)).1
  have lower : digits.map Char.toLower = digits := by
    refine (List.map_congr_left fun c hc => ?_).trans (List.map_id _)
    have small : c.isUpper = false := by simpa using (Bool.and_eq_true_iff.1 (plain c hc)).2
    exact Text.Hex.forall_digit (P := fun c => c.isUpper = false → c.toLower = c) (by decide)
      (hex c hc) small
  have address : (Value.text (Address.ofDigits digits).bare).address =
      .ok (Address.ofDigits digits) := by
    rw [Address.bare_ofDigits, Value.address, Address.ofText, String.toList_ofList,
      Rpc.dropMarker_digits hex]
    simp only [List.all_eq_true.2 hex, if_true, lower, Address.ofLowerDigits, forty,
      List.all_eq_true.2 plain]
    rfl
  rw [readAddress, address]
  rfl

theorem reads_of_writeSlots {l : List (Int × Quantity)} {w : List (Key × Document)}
    (written : writeSlots l = .ok w) :
    List.Forall₂ (fun e p => e.1.value.quantity = .ok p.1 ∧ readNumber e.2 = .ok p.2) w
      (l.map fun p => (p.1, .ofInt p.2.value)) := by
  induction l generalizing w with
  | nil =>
    obtain rfl := Except.ok.inj written
    exact .nil
  | cons p rest ih =>
    obtain ⟨name, hname, written⟩ := bind_eq_ok.1 written
    obtain ⟨value, hvalue, written⟩ := bind_eq_ok.1 written
    obtain ⟨more, hmore, written⟩ := bind_eq_ok.1 written
    obtain rfl := Except.ok.inj written
    have number : readNumber (.text value) = .ok (.ofInt p.2.value) := by
      rw [readNumber, Document.value, quantity_of_word hvalue]
      rfl
    exact .cons ⟨quantity_of_word hname, number⟩ (ih hmore)

/-- Slots that are written read back as their numbers, and ascend. -/
theorem readSlots_of_write {s : Slots} {w : List (Key × Document)}
    (written : writeSlots s.toList = .ok w) :
    readSlots w = .ok (plainSlots s) ∧ Ascends Value.quantity w := by
  refine readMap_eq_ok ?_
  rw [plainSlots, Std.ExtTreeMap.toList_map]
  exact reads_of_writeSlots written

theorem dataUnlessNull_of_code (b : Option Bytes) :
    Rpc.dataUnlessNull (Document.ofText? (code b)).value = .ok b := by
  cases b with
  | none => rfl
  | some b => exact (Rpc.SpellsData.toText b).unlessNull

theorem parts_of_accountMap {pre post : String} {before after : List (Key × Document)}
    {preCode postCode : Option String} {d : Document}
    (map : d = accountMap pre post before after preCode postCode) :
    (d.part "pre_balance" = .text pre ∧ d.part "post_balance" = .text post) ∧
      (d.part "pre_storage" = .map before ∧ d.part "post_storage" = .map after) ∧
      d.part "pre_code" = .ofText? preCode ∧ d.part "post_code" = .ofText? postCode := by
  subst map
  exact ⟨⟨rfl, rfl⟩, ⟨rfl, rfl⟩, rfl, rfl⟩

theorem readAccount_of_write {a : Account} {d : Document} (written : a.write = .ok d) :
    readAccount d = .ok a.plain ∧ Ascends Value.quantity (d.part "pre_storage").fields ∧
      Ascends Value.quantity (d.part "post_storage").fields := by
  obtain ⟨pre, hpre, written⟩ := bind_eq_ok.1 written
  obtain ⟨post, hpost, written⟩ := bind_eq_ok.1 written
  obtain ⟨before, hbefore, written⟩ := bind_eq_ok.1 written
  obtain ⟨after, hafter, written⟩ := bind_eq_ok.1 written
  obtain ⟨⟨partPre, partPost⟩, ⟨partBefore, partAfter⟩, partCode, partCode'⟩ :=
    parts_of_accountMap (Except.ok.inj written).symm
  obtain ⟨readBefore, ascendsBefore⟩ := readSlots_of_write hbefore
  obtain ⟨readAfter, ascendsAfter⟩ := readSlots_of_write hafter
  rw [partBefore, partAfter]
  refine ⟨?_, ascendsBefore, ascendsAfter⟩
  simp only [readAccount, partPre, partPost, partBefore, partAfter, partCode, partCode',
    Document.value_text, Document.fields_map, quantity_of_word hpre, quantity_of_word hpost,
    readBefore, readAfter, dataUnlessNull_of_code, ok_bind]
  rfl

/-- Every account entry reads back, and its slots ascend. -/
theorem reads_of_writeAccounts {l : List (Address × Account)} {w : List (Key × Document)}
    (canonical : ∀ e ∈ l, e.1.Canonical) (written : writeAccounts l = .ok w) :
    List.Forall₂ (fun e p => readAddress e.1.value = .ok p.1 ∧ readAccount e.2 = .ok p.2) w
        (l.map fun p => (p.1, p.2.plain)) ∧
      ∀ e ∈ w, Ascends Value.quantity (e.2.part "pre_storage").fields ∧
        Ascends Value.quantity (e.2.part "post_storage").fields := by
  induction l generalizing w with
  | nil =>
    obtain rfl := Except.ok.inj written
    exact ⟨.nil, by simp⟩
  | cons p rest ih =>
    obtain ⟨d, hd, written⟩ := bind_eq_ok.1 written
    obtain ⟨more, hmore, written⟩ := bind_eq_ok.1 written
    obtain rfl := Except.ok.inj written
    obtain ⟨read, ascends⟩ := readAccount_of_write hd
    obtain ⟨reads, ascend⟩ := ih (fun e he => canonical e (List.mem_cons_of_mem p he)) hmore
    have name := readAddress_bare (canonical p List.mem_cons_self)
    exact ⟨.cons ⟨name, read⟩ reads, List.forall_mem_cons.2 ⟨ascends, ascend⟩⟩

/-- Accounts that are written read back with their storage as plain numbers, and ascend. -/
theorem readAccounts_of_write {m : AddressMap Account} {w : List (Key × Document)}
    (canonical : ∀ a ∈ m, a.Canonical) (written : writeAccounts m.toList = .ok w) :
    (readAccounts w = .ok (plainAccounts m) ∧ Ascends readAddress w) ∧
      ∀ e ∈ w, Ascends Value.quantity (e.2.part "pre_storage").fields ∧
        Ascends Value.quantity (e.2.part "post_storage").fields := by
  have listed : ∀ e ∈ m.toList, e.1.Canonical := fun e he => by
    have held := Std.ExtTreeMap.mem_toList_iff_getElem?_eq_some.1 he
    exact canonical e.1 (Std.ExtTreeMap.mem_iff_isSome_getElem?.2 (by rw [held]; rfl))
  obtain ⟨reads, ascend⟩ := reads_of_writeAccounts listed written
  refine ⟨readMap_eq_ok ?_, ascend⟩
  rw [plainAccounts, Std.ExtTreeMap.toList_map]
  exact reads

/-- Whether it is written as a truth value or not, the number of a block reads back. -/
theorem Result.quantity_blockKey (r : Result) (number : Int) :
    (r.blockKey number).value.quantity = .ok number := by
  unfold blockKey truthOf?
  by_cases zero : number = 0
  · subst zero
    simp only [if_true]
    split <;> rfl
  by_cases one : number = 1
  · subst one
    simp only [if_neg zero, if_true]
    split <;> rfl
  · simp only [if_neg zero, if_neg one]
    rfl

/-- Block hashes read back under their numbers. -/
theorem readHashes_written (r : Result) :
    let written := r.blockHashes.toList.map fun e =>
      (r.blockKey e.1, Document.text (Text.Hex.toText e.2))
    readHashes written = .ok r.blockHashes ∧ Ascends Value.quantity written :=
  readMap_eq_ok (List.forall₂_map_left_iff.2 (List.forall₂_same.2 fun e _ =>
    ⟨r.quantity_blockKey e.1, (Rpc.SpellsData.toText e.2).data⟩))

theorem Result.parts_of_write {r : Result} {d : Document} (written : r.write = .ok d) :
    ∃ w, writeAccounts r.accounts.toList = .ok w ∧ d.part "accounts" = .map w ∧
      d.part "block_hashes" = .map (r.blockHashes.toList.map fun e =>
        (r.blockKey e.1, .text (Text.Hex.toText e.2))) := by
  obtain ⟨w, hw, written⟩ := bind_eq_ok.1 written
  obtain ⟨context, -, written⟩ := bind_eq_ok.1 written
  obtain rfl := Except.ok.inj written
  exact ⟨w, hw, rfl, rfl⟩

/-- A result is written in one way, whatever order its entries were set in. It cannot be written
exactly when an amount lies outside of the words, and what is written reads back as the accounts and
block hashes that it was written from, with accounts, slots and block numbers each in ascending
order. -/
theorem Result.write_faithful (r : Result) (canonical : ∀ a ∈ r.accounts, a.Canonical) :
    (∀ r', r.Same r' → r'.write = r.write) ∧
    (∀ f, r.write = .error f ↔ f = .outOfWord ∧ ¬r.Fits) ∧
    (r.Fits → ∃ d, r.write = .ok d ∧
      Ascends readAddress (d.part "accounts").fields ∧
      (∀ e ∈ (d.part "accounts").fields,
        Ascends Value.quantity (e.2.part "pre_storage").fields ∧
        Ascends Value.quantity (e.2.part "post_storage").fields) ∧
      Ascends Value.quantity (d.part "block_hashes").fields ∧
      (∃ accounts, readAccounts (d.part "accounts").fields = .ok accounts ∧
        SameAccounts accounts r.accounts) ∧
      readHashes (d.part "block_hashes").fields = .ok r.blockHashes) := by
  refine ⟨fun r' same => same.write_eq.symm, fun f => r.writesIff.eq_error_iff, fun fits => ?_⟩
  obtain ⟨d, written⟩ := r.writesIff.exists_ok fits
  obtain ⟨w, hw, accounts, blocks⟩ := parts_of_write written
  obtain ⟨⟨read, ascend⟩, slotsAscend⟩ := readAccounts_of_write canonical hw
  obtain ⟨readBlocks, numbersAscend⟩ := readHashes_written r
  refine ⟨d, written, ?_⟩
  rw [accounts, blocks]
  exact ⟨ascend, slotsAscend, numbersAscend, ⟨_, read, sameAccounts_plain r.accounts⟩, readBlocks⟩

/-- An account that received one, with two slots and empty code. -/
def receiver (slots : Slots) : Account :=
  { preBalance := 1, postBalance := 2, preStorage := slots, preCode := some [] }

def payer : Account := { preBalance := 5, postBalance := 4 }

def paymentContext : Context :=
  .ofChain
    { hash := [1], sender := some (.ofNat 0xB), target := some (.ofNat 0xA), nonce := .ofInt 0,
      value := 1, input := [], gas := .ofInt 0, gasPrice := 0 }
    { number := .ofInt 9, hash := [2], timestamp := .ofInt 0 } ⟨false, .ofInt 0, [], []⟩

def ascendingSlots : Slots := ((∅ : Slots).insert 1 (.ofInt 1)).insert 2 (.ofInt 8)

/-- The same slots set in descending order, one value as a truth value. -/
def descendingSlots : Slots := ((∅ : Slots).insert 2 (.ofInt 8)).insert 1 ⟨1, true⟩

/-- A payment with its entries set in ascending order. -/
def payment : Result where
  accounts := ((∅ : AddressMap Account).insert (.ofNat 0xA) (receiver ascendingSlots)).insert
    (.ofNat 0xB) payer
  blockHashes := ((∅ : Std.ExtTreeMap Int Bytes).insert 7 [0x77]).insert 8 [0x88]
  context := paymentContext

/-- The same payment with its entries set in descending order. -/
def paymentReversed : Result where
  accounts := ((∅ : AddressMap Account).insert (.ofNat 0xB) payer).insert (.ofNat 0xA)
    (receiver descendingSlots)
  blockHashes := ((∅ : Std.ExtTreeMap Int Bytes).insert 8 [0x88]).insert 7 [0x77]
  context := paymentContext

theorem sameSlots_descending : SameSlots ascendingSlots descendingSlots := by
  intro slot
  simp only [ascendingSlots, descendingSlots, Std.ExtTreeMap.getElem?_insert,
    Std.LawfulEqOrd.compare_eq_iff_eq]
  by_cases one : 1 = slot
  · simp [← one]
  · simp [one]

theorem payment_same : payment.Same paymentReversed where
  accounts a := by
    have apart : Address.ofNat 0xA ≠ Address.ofNat 0xB := by decide +kernel
    simp only [payment, paymentReversed, Std.ExtTreeMap.getElem?_insert,
      Std.LawfulEqOrd.compare_eq_iff_eq]
    by_cases ha : Address.ofNat 0xA = a
    · subst ha
      rw [if_neg apart.symm, if_pos rfl, if_pos rfl]
      exact .some ⟨rfl, rfl, sameSlots_descending, fun _ => rfl, rfl, rfl⟩
    · by_cases hb : Address.ofNat 0xB = a
      · rw [if_pos hb, if_neg ha, if_pos hb]
        exact .some (Account.same_iff.2 rfl)
      · rw [if_neg hb, if_neg ha, if_neg ha, if_neg hb]
        exact .none
  blockHashes number := by
    simp only [payment, paymentReversed, Std.ExtTreeMap.getElem?_insert,
      Std.LawfulEqOrd.compare_eq_iff_eq]
    by_cases seven : 7 = number
    · simp [← seven]
    · simp [seven]
  truthBlocks _ := .rfl
  context := rfl

theorem payment_fits : payment.Fits where
  accounts a account held := by
    simp only [payment, Std.ExtTreeMap.getElem?_insert] at held
    split at held
    · obtain rfl := Option.some.inj held
      exact ⟨by decide, by decide, fun _ _ h => by simp [payer] at h, fun _ _ h => by
        simp [payer] at h⟩
    · split at held
      · obtain rfl := Option.some.inj held
        refine ⟨by decide, by decide, fun slot q h => ?_, fun _ _ h => by simp [receiver] at h⟩
        simp only [receiver, ascendingSlots, Std.ExtTreeMap.getElem?_insert,
          Std.LawfulEqOrd.compare_eq_iff_eq] at h
        split at h
        · next two =>
          obtain rfl := Option.some.inj h
          exact two ▸ ⟨by decide, by decide⟩
        · split at h
          · next one =>
            obtain rfl := Option.some.inj h
            exact one ▸ ⟨by decide, by decide⟩
          · simp at h
      · simp at held
  context := ⟨by decide, by decide⟩

/-- The payment is written as the one whose entries were set the other way round, and reads back. -/
theorem Result.write_faithful_payment :
    paymentReversed.write = payment.write ∧ ∃ d, payment.write = .ok d ∧
      (∃ accounts, readAccounts (d.part "accounts").fields = .ok accounts ∧
        SameAccounts accounts payment.accounts) ∧
      readHashes (d.part "block_hashes").fields = .ok payment.blockHashes := by
  have canonical : ∀ a ∈ payment.accounts, a.Canonical := by
    intro a ha
    simp only [payment, Std.ExtTreeMap.mem_insert, Std.LawfulEqOrd.compare_eq_iff_eq,
      Std.ExtTreeMap.not_mem_empty, or_false] at ha
    rcases ha with rfl | rfl
    · exact Address.canonical_ofNat _
    · exact Address.canonical_ofNat _
  obtain ⟨same, -, reads⟩ := write_faithful payment canonical
  obtain ⟨d, written, -, -, -, accounts, hashes⟩ := reads payment_fits
  exact ⟨same paymentReversed payment_same, d, written, accounts, hashes⟩

end Diff

end TraceDiff
