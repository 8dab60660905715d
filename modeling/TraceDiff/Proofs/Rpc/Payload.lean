import Mathlib.Data.List.Forall2
import TraceDiff.Proofs.Rpc.Spelling
import TraceDiff.Rpc.Trace

/-! Payloads whose fields are of the right types are read, and those that agree field by field up to
spelling are read as one transaction, block or trace. -/
namespace TraceDiff

namespace Rpc

/-- Two fields agree: as `Same` has it, or in that both spell one thing. -/
def AgreeAs (Same : Value → Value → Prop) {δ : Type} (Spells : Value → δ → Prop)
    (v w : Value) : Prop :=
  Same v w ∨ ∃ d, Spells v d ∧ Spells w d

/-- Neither field is there. -/
def Absent (v w : Value) : Prop := v = .null ∧ w = .null

def voids : List Value := [.null, .text "", .bytes [], .list [], .object []]

/-- Two lists agree item by item; an empty one may as well be absent or null. -/
def ListsAgree (Same R : Value → Value → Prop) (v w : Value) : Prop :=
  Same v w ∨ (v ∈ voids ∧ w ∈ voids) ∨
    ∃ vs ws, v = .list vs ∧ w = .list ws ∧ List.Forall₂ R vs ws

def ObjectsAgree (R : List (String × Value) → List (String × Value) → Prop) (v w : Value) : Prop :=
  ∃ fs gs, v = .object fs ∧ w = .object gs ∧ R fs gs

/-- The value is absent or empty, or a list of such items. -/
def IsListOf (P : Value → Prop) (v : Value) : Prop :=
  v ∈ voids ∨ ∃ vs, v = .list vs ∧ ∀ w ∈ vs, P w

def HoldsField (P : Value → Prop) (key : String) (fs : List (String × Value)) : Prop :=
  ∃ v, Value.lookup key fs = some v ∧ P v

/-- Both payloads hold the field, and agree in it. -/
def HoldAlike (R : Value → Value → Prop) (key : String) (fs gs : List (String × Value)) : Prop :=
  ∃ v w, Value.lookup key fs = some v ∧ Value.lookup key gs = some w ∧ R v w

end Rpc

open Rpc

namespace Transaction

def numberFields : List String :=
  ["nonce", "value", "gas", "gasPrice", "chainId", "blockNumber", "transactionIndex",
    "maxPriorityFeePerGas", "maxFeePerGas"]

def inputField (fields : List (String × Value)) : Value :=
  (Value.lookup "input" fields).getD (optional fields "data")

/-- The fields of a transaction, all of the right types. -/
structure WellTyped (fs : List (String × Value)) : Prop where
  sender : HoldsField Value.IsAccount "from" fs
  target : (optional fs "to").IsAccount
  input : (inputField fs).IsData
  data : ∀ key ∈ ["hash", "blockHash"], (optional fs key).IsData
  numbers : ∀ key ∈ numberFields, (optional fs key).IsNumber

/-- Two payloads of a transaction that agree up to spelling. -/
structure Agree (Same : Value → Value → Prop) (fs gs : List (String × Value)) : Prop where
  sender : HoldAlike (AgreeAs Same SpellsAccount) "from" fs gs
  target : AgreeAs Same SpellsAccount (optional fs "to") (optional gs "to")
  input : AgreeAs Same SpellsData (inputField fs) (inputField gs)
  data : ∀ key ∈ ["hash", "blockHash"],
    AgreeAs Same SpellsData (optional fs key) (optional gs key)
  numbers : ∀ key ∈ numberFields, AgreeAs Same SpellsNumber (optional fs key) (optional gs key)

end Transaction

/-- The fields of a block, all of the right types. An entry of the list of transactions that is no
object may be anything. -/
structure Block.WellTyped (fs : List (String × Value)) : Prop where
  number : HoldsField Value.IsNumber "number" fs
  hash : HoldsField Value.IsData "hash" fs
  mixHash : (optional fs "mixHash").IsData
  coinbase : (optional fs "miner").IsAccount
  numbers : ∀ key ∈ ["timestamp", "difficulty", "baseFeePerGas"], (optional fs key).IsNumber
  transactions : IsListOf (fun v => ∀ gs, v.fields? = some gs → Transaction.WellTyped gs)
    (optional fs "transactions")

/-- Two payloads of a block that agree up to spelling. An entry of the list of transactions that is
no object does not count, whatever it is. -/
structure Block.Agree (Same : Value → Value → Prop) (fs gs : List (String × Value)) : Prop where
  number : HoldAlike (AgreeAs Same SpellsNumber) "number" fs gs
  hash : HoldAlike (AgreeAs Same SpellsData) "hash" fs gs
  mixHash : AgreeAs Same SpellsData (optional fs "mixHash") (optional gs "mixHash")
  coinbase : AgreeAs Same SpellsAccount (optional fs "miner") (optional gs "miner")
  numbers : ∀ key ∈ ["timestamp", "difficulty", "baseFeePerGas"],
    AgreeAs Same SpellsNumber (optional fs key) (optional gs key)
  transactions : ListsAgree Same
    (fun v w => v.fields? = none ∧ w.fields? = none ∨ ObjectsAgree (Transaction.Agree Same) v w)
    (optional fs "transactions") (optional gs "transactions")

/-- The fields of a record, all of the right types. -/
structure Record.WellTyped (fs : List (String × Value)) : Prop where
  op : HoldsField (fun _ => True) "op" fs
  depth : HoldsField (fun v => ∃ d, v.integer = .ok d) "depth" fs
  stack : IsListOf Value.IsNumber (optional fs "stack")
  pc : (optional fs "pc").IsNumber

/-- Two payloads of a record that agree up to spelling. Its opcode and its depth have one spelling
only; of the fields that are no error none tells from another. -/
structure Record.Agree (Same : Value → Value → Prop) (fs gs : List (String × Value)) : Prop where
  op : HoldAlike (· = ·) "op" fs gs
  depth : HoldAlike (fun v w => v = w ∧ ∃ d, v.integer = .ok d) "depth" fs gs
  stack : ListsAgree Same (AgreeAs Same SpellsNumber) (optional fs "stack") (optional gs "stack")
  error : optional fs "error" = optional gs "error" ∨
    optional fs "error" ∈ voids ∧ optional gs "error" ∈ voids
  pc : AgreeAs Same SpellsNumber (optional fs "pc") (optional gs "pc")

/-- The fields of a trace, all of the right types. -/
structure Trace.WellTyped (fs : List (String × Value)) : Prop where
  gasUsed : (optional fs "gas").IsNumber
  returnValue : (optional fs "returnValue").IsData
  records : IsListOf (fun v => ∃ gs, v = .object gs ∧ Record.WellTyped gs)
    (optional fs "structLogs")

/-- Two payloads of a trace that agree up to spelling. -/
structure Trace.Agree (Same : Value → Value → Prop) (fs gs : List (String × Value)) : Prop where
  failed : optional fs "failed" = optional gs "failed"
  gasUsed : AgreeAs Same SpellsNumber (optional fs "gas") (optional gs "gas")
  returnValue : AgreeAs Same SpellsData (optional fs "returnValue") (optional gs "returnValue")
  records : ListsAgree Same (ObjectsAgree (Record.Agree Same))
    (optional fs "structLogs") (optional gs "structLogs")

namespace Rpc

variable {α β δ : Type} {Same R : Value → Value → Prop} {Spells : Value → δ → Prop}
  {f : Value → Except Fault β} {v w : Value}

/-- All spellings of one thing are read alike. -/
def Reads (f : Value → Except Fault β) (Spells : Value → δ → Prop) : Prop :=
  ∀ d, ∃ b, ∀ v, Spells v d → f v = .ok b

theorem Reads.congr (reads : Reads f Spells) (agree : AgreeAs (· = ·) Spells v w) : f v = f w := by
  rcases agree with same | ⟨d, hv, hw⟩
  · exact congrArg f same
  · obtain ⟨b, read⟩ := reads d
    rw [read v hv, read w hw]

theorem reads_quantity : Reads Value.quantity SpellsNumber :=
  fun _ => ⟨_, fun _ spells => spells.quantity⟩

theorem reads_amount : Reads Value.amount SpellsNumber :=
  fun _ => ⟨_, fun _ spells => spells.amount⟩

theorem reads_quantityUnlessNull : Reads quantityUnlessNull SpellsNumber :=
  fun _ => ⟨_, fun _ spells => spells.unlessNull.1⟩

theorem reads_amountUnlessNull : Reads amountUnlessNull SpellsNumber :=
  fun _ => ⟨_, fun _ spells => spells.unlessNull.2⟩

theorem reads_data : Reads Value.data SpellsData :=
  fun _ => ⟨_, fun _ spells => spells.data⟩

theorem reads_dataUnlessNull : Reads dataUnlessNull SpellsData :=
  fun _ => ⟨_, fun _ spells => spells.unlessNull⟩

theorem reads_address? : Reads Value.address? SpellsAccount :=
  fun _ => ⟨_, fun _ spells => spells.address?⟩

/-- A field that is absent or spelled is of the type that takes both. -/
theorem AgreeAs.typed {P : Value → Prop} (null : P .null) (spelled : ∀ v d, Spells v d → P v)
    (agree : AgreeAs Absent Spells v w) : P v := by
  rcases agree with ⟨rfl, -⟩ | ⟨d, hv, -⟩
  · exact null
  · exact spelled v d hv

theorem AgreeAs.isNumber (agree : AgreeAs Absent SpellsNumber v w) : v.IsNumber :=
  agree.typed .null fun _ _ => SpellsNumber.isNumber

theorem AgreeAs.isData (agree : AgreeAs Absent SpellsData v w) : v.IsData :=
  agree.typed .null fun _ _ => SpellsData.isData

theorem AgreeAs.isAccount (agree : AgreeAs Absent SpellsAccount v w) : v.IsAccount :=
  agree.typed .null fun _ _ => SpellsAccount.isAccount

theorem AgreeAs.of_absent (agree : AgreeAs Absent Spells v w) : AgreeAs (· = ·) Spells v w :=
  agree.imp_left fun ⟨hv, hw⟩ => hv.trans hw.symm

theorem HoldAlike.imp {S : Value → Value → Prop} {key : String} {fs gs : List (String × Value)}
    (alike : HoldAlike R key fs gs) (imp : ∀ v w, R v w → S v w) : HoldAlike S key fs gs :=
  let ⟨v, w, hv, hw, agree⟩ := alike
  ⟨v, w, hv, hw, imp v w agree⟩

theorem HoldAlike.holdsField {P : Value → Prop} {key : String} {fs gs : List (String × Value)}
    (alike : HoldAlike R key fs gs) (imp : ∀ v w, R v w → P v) : HoldsField P key fs :=
  let ⟨v, w, hv, _, agree⟩ := alike
  ⟨v, hv, imp v w agree⟩

theorem ListsAgree.of_absent {S : Value → Value → Prop} (agree : ListsAgree Absent R v w)
    (imp : ∀ v w, R v w → S v w) : ListsAgree (· = ·) S v w := by
  rcases agree with ⟨hv, hw⟩ | voids | ⟨vs, ws, hv, hw, items⟩
  · exact .inl (hv.trans hw.symm)
  · exact .inr (.inl voids)
  · exact .inr (.inr ⟨vs, ws, hv, hw, items.imp imp⟩)

theorem itemsOrNone_of_void (void : v ∈ voids) : v.itemsOrNone = .ok [] := by
  simp only [voids, List.mem_cons, List.not_mem_nil, or_false] at void
  rcases void with rfl | rfl | rfl | rfl | rfl <;> rfl

theorem itemsOrNone_list (vs : List Value) : (Value.list vs).itemsOrNone = .ok vs := by
  cases vs <;> rfl

theorem ListsAgree.congr {g : List Value → Except Fault β} (agree : ListsAgree (· = ·) R v w)
    (items : ∀ vs ws, List.Forall₂ R vs ws → g vs = g ws) :
    v.itemsOrNone >>= g = w.itemsOrNone >>= g := by
  rcases agree with same | ⟨hv, hw⟩ | ⟨vs, ws, rfl, rfl, agree⟩
  · rw [same]
  · rw [itemsOrNone_of_void hv, itemsOrNone_of_void hw]
  · rw [itemsOrNone_list, itemsOrNone_list, ok_bind, ok_bind, items vs ws agree]

theorem ListsAgree.isListOf {P : Value → Prop} (agree : ListsAgree Absent R v w)
    (imp : ∀ v w, R v w → P v) : IsListOf P v := by
  rcases agree with ⟨rfl, -⟩ | ⟨hv, -⟩ | ⟨vs, ws, rfl, -, agree⟩
  · exact .inl (by simp [voids])
  · exact .inl hv
  · refine .inr ⟨vs, rfl, fun x hx => ?_⟩
    obtain ⟨i, hi, rfl⟩ := List.getElem_of_mem hx
    exact imp _ _ (agree.get hi (agree.length_eq ▸ hi))

/-- A list that is absent or empty has no items, and any other has its own. -/
theorem IsListOf.items {P : Value → Prop} (list : IsListOf P v) :
    ∃ vs, v.itemsOrNone = .ok vs ∧ ∀ w ∈ vs, P w := by
  rcases list with void | ⟨vs, rfl, typed⟩
  · exact ⟨[], itemsOrNone_of_void void, fun _ h => nomatch h⟩
  · exact ⟨vs, itemsOrNone_list vs, typed⟩

theorem mapM_congr {ι : Type} {S : ι → ι → Prop} {g : ι → Except Fault β}
    (read : ∀ x y, S x y → g x = g y) {xs ys : List ι} (agree : List.Forall₂ S xs ys) :
    xs.mapM g = ys.mapM g := by
  induction agree with
  | nil => rfl
  | cons head _ ih => rw [List.mapM_cons, List.mapM_cons, read _ _ head, ih]

theorem mapM_total {ι : Type} {P : ι → Prop} {g : ι → Except Fault β}
    (read : ∀ x, P x → ∃ b, g x = .ok b) {xs : List ι} (typed : ∀ x ∈ xs, P x) :
    ∃ bs, xs.mapM g = .ok bs := by
  induction xs with
  | nil => exact ⟨[], rfl⟩
  | cons x xs ih =>
    obtain ⟨head, tail⟩ := List.forall_mem_cons.1 typed
    obtain ⟨b, hb⟩ := read x head
    obtain ⟨bs, hbs⟩ := ih tail
    exact ⟨b :: bs, by rw [List.mapM_cons, hb, ok_bind, hbs]; rfl⟩

end Rpc

namespace Transaction

variable {fs gs : List (String × Value)}

theorem Agree.of_absent (agree : Agree Absent fs gs) : Agree (· = ·) fs gs where
  sender := agree.sender.imp fun _ _ => .of_absent
  target := agree.target.of_absent
  input := agree.input.of_absent
  data key known := (agree.data key known).of_absent
  numbers key known := (agree.numbers key known).of_absent

theorem ofFields_congr (agree : Agree (· = ·) fs gs) : ofFields fs = ofFields gs := by
  obtain ⟨v, w, hv, hw, sender⟩ := agree.sender
  have number {β : Type} {f : Value → Except Fault β} (reads : Reads f SpellsNumber) (key : String)
      (known : key ∈ numberFields) : f (optional fs key) = f (optional gs key) :=
    reads.congr (agree.numbers key known)
  have input := reads_data.congr agree.input
  unfold inputField at input
  simp only [ofFields, required, hv, hw, ok_bind, reads_address?.congr sender, input,
    reads_address?.congr agree.target, reads_data.congr (agree.data "hash" (by decide)),
    reads_dataUnlessNull.congr (agree.data "blockHash" (by decide)),
    number reads_amount "nonce" (by decide), number reads_quantity "value" (by decide),
    number reads_amount "gas" (by decide), number reads_quantity "gasPrice" (by decide),
    number reads_amountUnlessNull "chainId" (by decide),
    number reads_quantityUnlessNull "blockNumber" (by decide),
    number reads_quantityUnlessNull "transactionIndex" (by decide),
    number reads_quantityUnlessNull "maxPriorityFeePerGas" (by decide),
    number reads_quantityUnlessNull "maxFeePerGas" (by decide)]

theorem ofFields_total (typed : WellTyped fs) : ∃ tx, ofFields fs = .ok tx := by
  obtain ⟨v, hv, sent⟩ := typed.sender
  have number (key : String) (known : key ∈ numberFields) : (optional fs key).IsNumber :=
    typed.numbers key known
  have input := typed.input.data
  unfold inputField at input
  obtain ⟨input, hinput⟩ := input
  obtain ⟨hash, hhash⟩ := (typed.data "hash" (by decide)).data
  obtain ⟨sender, hsender⟩ := sent.address?
  obtain ⟨target, htarget⟩ := typed.target.address?
  obtain ⟨nonce, hnonce⟩ := (number "nonce" (by decide)).amount
  obtain ⟨value, hvalue⟩ := (number "value" (by decide)).quantity
  obtain ⟨gas, hgas⟩ := (number "gas" (by decide)).amount
  obtain ⟨price, hprice⟩ := (number "gasPrice" (by decide)).quantity
  obtain ⟨chain, hchain⟩ := (number "chainId" (by decide)).amountUnlessNull
  obtain ⟨block, hblock⟩ := (typed.data "blockHash" (by decide)).dataUnlessNull
  obtain ⟨height, hheight⟩ := (number "blockNumber" (by decide)).quantityUnlessNull
  obtain ⟨index, hindex⟩ := (number "transactionIndex" (by decide)).quantityUnlessNull
  obtain ⟨tip, htip⟩ := (number "maxPriorityFeePerGas" (by decide)).quantityUnlessNull
  obtain ⟨cap, hcap⟩ := (number "maxFeePerGas" (by decide)).quantityUnlessNull
  simp only [ofFields, required, hv, ok_bind, hhash, hsender, htarget, hnonce, hvalue, hinput, hgas,
    hprice, hchain, hblock, hheight, hindex, htip, hcap]
  exact ⟨_, rfl⟩

theorem Agree.wellTyped (agree : Agree Absent fs gs) : WellTyped fs where
  sender := agree.sender.holdsField fun _ _ => AgreeAs.isAccount
  target := agree.target.isAccount
  input := agree.input.isData
  data key known := (agree.data key known).isData
  numbers key known := (agree.numbers key known).isNumber

end Transaction

namespace Block

variable {fs gs : List (String × Value)}

/-- Of two lists of transactions that agree, the objects agree. -/
theorem fields_agree {Same : Value → Value → Prop} {vs ws : List Value}
    (agree : List.Forall₂ (fun v w => v.fields? = none ∧ w.fields? = none ∨
      ObjectsAgree (Transaction.Agree Same) v w) vs ws) :
    List.Forall₂ (Transaction.Agree Same) (vs.filterMap Value.fields?)
      (ws.filterMap Value.fields?) := by
  induction agree with
  | nil => exact .nil
  | cons head _ ih =>
    rcases head with ⟨hv, hw⟩ | ⟨fs, gs, rfl, rfl, agree⟩
    · rwa [List.filterMap_cons_none hv, List.filterMap_cons_none hw]
    · exact .cons agree ih

theorem Agree.of_absent (agree : Agree Absent fs gs) : Agree (· = ·) fs gs where
  number := agree.number.imp fun _ _ => .of_absent
  hash := agree.hash.imp fun _ _ => .of_absent
  mixHash := agree.mixHash.of_absent
  coinbase := agree.coinbase.of_absent
  numbers key known := (agree.numbers key known).of_absent
  transactions := agree.transactions.of_absent fun _ _ item =>
    item.imp_right fun ⟨fs, gs, hv, hw, agree⟩ => ⟨fs, gs, hv, hw, agree.of_absent⟩

theorem ofValue_congr (agree : Agree (· = ·) fs gs) :
    ofValue (.object fs) = ofValue (.object gs) := by
  obtain ⟨v, w, hv, hw, number⟩ := agree.number
  obtain ⟨x, y, hx, hy, hash⟩ := agree.hash
  have listed : ((optional fs "transactions").itemsOrNone >>= fun entries =>
      (entries.filterMap Value.fields?).mapM Transaction.ofFields) =
      ((optional gs "transactions").itemsOrNone >>= fun entries =>
        (entries.filterMap Value.fields?).mapM Transaction.ofFields) :=
    agree.transactions.congr fun vs ws items =>
      mapM_congr (g := Transaction.ofFields) (fun _ _ => Transaction.ofFields_congr)
        (fields_agree items)
  simp only [ofValue, Value.fields, Value.fields?, ok_bind, required, hv, hw, hx, hy, ← bind_assoc,
    listed, reads_amount.congr number, reads_data.congr hash,
    reads_dataUnlessNull.congr agree.mixHash, reads_address?.congr agree.coinbase,
    reads_amount.congr (agree.numbers "timestamp" (by decide)),
    reads_amount.congr (agree.numbers "difficulty" (by decide)),
    reads_quantityUnlessNull.congr (agree.numbers "baseFeePerGas" (by decide))]

theorem ofValue_total (typed : WellTyped fs) : ∃ block, ofValue (.object fs) = .ok block := by
  obtain ⟨v, hv, numbered⟩ := typed.number
  obtain ⟨x, hx, hashed⟩ := typed.hash
  obtain ⟨vs, hvs, items⟩ := typed.transactions.items
  have entries : ∀ gs ∈ vs.filterMap Value.fields?, Transaction.WellTyped gs := by
    intro gs hgs
    obtain ⟨w, hw, fields⟩ := List.mem_filterMap.1 hgs
    exact items w hw gs fields
  obtain ⟨listed, hlisted⟩ := mapM_total (fun _ => Transaction.ofFields_total) entries
  obtain ⟨number, hnumber⟩ := numbered.amount
  obtain ⟨hash, hhash⟩ := hashed.data
  obtain ⟨time, htime⟩ := (typed.numbers "timestamp" (by decide)).amount
  obtain ⟨difficulty, hdifficulty⟩ := (typed.numbers "difficulty" (by decide)).amount
  obtain ⟨mix, hmix⟩ := typed.mixHash.dataUnlessNull
  obtain ⟨miner, hminer⟩ := typed.coinbase.address?
  obtain ⟨fee, hfee⟩ := (typed.numbers "baseFeePerGas" (by decide)).quantityUnlessNull
  simp only [ofValue, Value.fields, Value.fields?, ok_bind, required, hv, hx, hvs, hlisted, hnumber,
    hhash, htime, hdifficulty, hmix, hminer, hfee]
  exact ⟨_, rfl⟩

theorem Agree.wellTyped (agree : Agree Absent fs gs) : WellTyped fs where
  number := agree.number.holdsField fun _ _ => AgreeAs.isNumber
  hash := agree.hash.holdsField fun _ _ => AgreeAs.isData
  mixHash := agree.mixHash.isData
  coinbase := agree.coinbase.isAccount
  numbers key known := (agree.numbers key known).isNumber
  transactions := agree.transactions.isListOf fun v w item fs fields => by
    rcases item with ⟨none, -⟩ | ⟨gs, hs, rfl, -, agree⟩
    · rw [none] at fields
      nomatch fields
    · obtain rfl : gs = fs := Option.some.inj fields
      exact agree.wellTyped

end Block

namespace Record

variable {fs gs : List (String × Value)}

theorem Agree.of_absent (agree : Agree Absent fs gs) : Agree (· = ·) fs gs where
  op := agree.op
  depth := agree.depth
  stack := agree.stack.of_absent fun _ _ => .of_absent
  error := agree.error
  pc := agree.pc.of_absent

theorem not_truthy_of_void {v : Value} (void : v ∈ voids) : v.truthy = false := by
  simp only [voids, List.mem_cons, List.not_mem_nil, or_false] at void
  rcases void with rfl | rfl | rfl | rfl | rfl <;> rfl

theorem Agree.error_eq {Same : Value → Value → Prop} (agree : Agree Same fs gs) :
    (if (optional fs "error").truthy then some (optional fs "error") else none) =
      if (optional gs "error").truthy then some (optional gs "error") else none := by
  rcases agree.error with same | ⟨hv, hw⟩
  · rw [same]
  · rw [not_truthy_of_void hv, not_truthy_of_void hw]
    rfl

theorem ofValue_congr (agree : Agree (· = ·) fs gs) :
    ofValue (.object fs) = ofValue (.object gs) := by
  obtain ⟨v, w, hv, hw, op⟩ := agree.op
  obtain ⟨x, y, hx, hy, depth, -⟩ := agree.depth
  have words : ((optional fs "stack").itemsOrNone >>= fun vs => vs.mapM Value.amount) =
      ((optional gs "stack").itemsOrNone >>= fun vs => vs.mapM Value.amount) :=
    agree.stack.congr fun vs ws items =>
      mapM_congr (g := Value.amount) (fun _ _ => reads_amount.congr) items
  simp only [ofValue, Value.fields, Value.fields?, ok_bind, required, hv, hw, hx, hy, op, depth,
    ← bind_assoc, words, agree.error_eq, reads_quantity.congr agree.pc]

theorem ofValue_total (typed : WellTyped fs) : ∃ r, ofValue (.object fs) = .ok r := by
  obtain ⟨v, hv, -⟩ := typed.op
  obtain ⟨x, hx, depth, hdepth⟩ := typed.depth
  obtain ⟨vs, hvs, items⟩ := typed.stack.items
  obtain ⟨words, hwords⟩ := mapM_total (fun _ => Value.IsNumber.amount) items
  obtain ⟨pc, hpc⟩ := typed.pc.quantity
  simp only [ofValue, Value.fields, Value.fields?, ok_bind, required, hv, hx, hdepth, hvs, hwords,
    hpc]
  exact ⟨_, rfl⟩

theorem Agree.wellTyped (agree : Agree Absent fs gs) : WellTyped fs where
  op := agree.op.holdsField fun _ _ _ => trivial
  depth := agree.depth.holdsField fun _ _ same => same.2
  stack := agree.stack.isListOf fun _ _ => AgreeAs.isNumber
  pc := agree.pc.isNumber

end Record

namespace Trace

variable {fs gs : List (String × Value)}

theorem Agree.of_absent (agree : Agree Absent fs gs) : Agree (· = ·) fs gs where
  failed := agree.failed
  gasUsed := agree.gasUsed.of_absent
  returnValue := agree.returnValue.of_absent
  records := agree.records.of_absent fun _ _ ⟨fs, gs, hv, hw, agree⟩ =>
    ⟨fs, gs, hv, hw, agree.of_absent⟩

theorem ofValue_congr (agree : Agree (· = ·) fs gs) :
    ofValue (.object fs) = ofValue (.object gs) := by
  have records : ((optional fs "structLogs").itemsOrNone >>= fun vs => vs.mapM Record.ofValue) =
      ((optional gs "structLogs").itemsOrNone >>= fun vs => vs.mapM Record.ofValue) :=
    agree.records.congr fun vs ws items => mapM_congr
      (fun _ _ ⟨_, _, hv, hw, agree⟩ => hv ▸ hw ▸ Record.ofValue_congr agree) items
  simp only [ofValue, Value.fields, Value.fields?, ok_bind, agree.failed, ← bind_assoc, records,
    reads_amount.congr agree.gasUsed, reads_data.congr agree.returnValue]

theorem ofValue_total (typed : WellTyped fs) : ∃ trace, ofValue (.object fs) = .ok trace := by
  obtain ⟨vs, hvs, items⟩ := typed.records.items
  obtain ⟨records, hrecords⟩ :=
    mapM_total (fun _ ⟨_, hv, typed⟩ => hv ▸ Record.ofValue_total typed) items
  obtain ⟨gas, hgas⟩ := typed.gasUsed.amount
  obtain ⟨value, hvalue⟩ := typed.returnValue.data
  simp only [ofValue, Value.fields, Value.fields?, ok_bind, hvs, hrecords, hgas, hvalue]
  exact ⟨_, rfl⟩

theorem Agree.wellTyped (agree : Agree Absent fs gs) : WellTyped fs where
  gasUsed := agree.gasUsed.isNumber
  returnValue := agree.returnValue.isData
  records := agree.records.isListOf fun _ _ ⟨fs, _, hv, _, agree⟩ => ⟨fs, hv, agree.wellTyped⟩

end Trace

/-- The sender and the target that a transaction is read with are those of its payload. -/
theorem Transaction.parties_of_ofFields {fs : List (String × Value)} {tx : Transaction}
    (read : ofFields fs = .ok tx) :
    (required fs "from" >>= Value.address?) = .ok tx.sender ∧
      (optional fs "to").address? = .ok tx.target := by
  obtain ⟨hash, -, read⟩ := bind_eq_ok.1 read
  obtain ⟨v, held, read⟩ := bind_eq_ok.1 read
  obtain ⟨sender, hsender, read⟩ := bind_eq_ok.1 read
  obtain ⟨target, htarget, read⟩ := bind_eq_ok.1 read
  obtain ⟨nonce, -, read⟩ := bind_eq_ok.1 read
  obtain ⟨value, -, read⟩ := bind_eq_ok.1 read
  obtain ⟨input, -, read⟩ := bind_eq_ok.1 read
  obtain ⟨gas, -, read⟩ := bind_eq_ok.1 read
  obtain ⟨price, -, read⟩ := bind_eq_ok.1 read
  obtain ⟨chain, -, read⟩ := bind_eq_ok.1 read
  obtain ⟨block, -, read⟩ := bind_eq_ok.1 read
  obtain ⟨height, -, read⟩ := bind_eq_ok.1 read
  obtain ⟨index, -, read⟩ := bind_eq_ok.1 read
  obtain ⟨tip, -, read⟩ := bind_eq_ok.1 read
  obtain ⟨cap, -, read⟩ := bind_eq_ok.1 read
  obtain rfl := Except.ok.inj read
  exact ⟨bind_eq_ok.2 ⟨v, held, hsender⟩, htarget⟩

/-- One value has one parse. Payloads that agree up to spelling are read as one transaction, block
or trace, and they are read where nothing but spellings stands in their fields. An account is the
key that a stack word of its number names, whatever the word has above its low twenty bytes, and so
are the sender and the target. -/
theorem Rpc.ofValue_of_agree :
    ((∀ fs gs, Transaction.Agree (· = ·) fs gs →
        Transaction.ofValue (.object fs) = Transaction.ofValue (.object gs)) ∧
      (∀ fs gs, Block.Agree (· = ·) fs gs →
        Block.ofValue (.object fs) = Block.ofValue (.object gs)) ∧
      ∀ fs gs, Trace.Agree (· = ·) fs gs →
        Trace.ofValue (.object fs) = Trace.ofValue (.object gs)) ∧
    ((∀ fs gs, Transaction.Agree Absent fs gs → ∃ tx,
        Transaction.ofValue (.object fs) = .ok tx ∧ Transaction.ofValue (.object gs) = .ok tx) ∧
      (∀ fs gs, Block.Agree Absent fs gs → ∃ block,
        Block.ofValue (.object fs) = .ok block ∧ Block.ofValue (.object gs) = .ok block) ∧
      ∀ fs gs, Trace.Agree Absent fs gs → ∃ trace,
        Trace.ofValue (.object fs) = .ok trace ∧ Trace.ofValue (.object gs) = .ok trace) ∧
    ∀ v b, SpellsAccount v b → ∀ (k : Nat) key,
      key = Address.ofWord (Bytes.toNat b + k * Word.addressBound) →
        v.address = .ok key ∧
        ∀ fs tx, Transaction.ofValue (.object fs) = .ok tx →
          (Value.lookup "from" fs = some v → tx.sender = some key) ∧
          (Value.lookup "to" fs = some v → tx.target = some key) := by
  refine ⟨⟨fun _ _ => Transaction.ofFields_congr, fun _ _ => Block.ofValue_congr,
    fun _ _ => Trace.ofValue_congr⟩, ⟨fun fs gs agree => ?_, fun fs gs agree => ?_,
    fun fs gs agree => ?_⟩, fun v b spells k key hkey => ?_⟩
  · obtain ⟨tx, read⟩ := Transaction.ofFields_total agree.wellTyped
    exact ⟨tx, read, (Transaction.ofFields_congr agree.of_absent).symm.trans read⟩
  · obtain ⟨block, read⟩ := Block.ofValue_total agree.wellTyped
    exact ⟨block, read, (Block.ofValue_congr agree.of_absent).symm.trans read⟩
  · obtain ⟨trace, read⟩ := Trace.ofValue_total agree.wellTyped
    exact ⟨trace, read, (Trace.ofValue_congr agree.of_absent).symm.trans read⟩
  · obtain rfl : key = Address.ofNat (Bytes.toNat b) := hkey.trans (ofWord_of_length spells.1 k)
    refine ⟨spells.address, fun fs tx read => ?_⟩
    obtain ⟨sender, target⟩ := Transaction.parties_of_ofFields read
    constructor
    · intro held
      rw [required, held, ok_bind, spells.address?] at sender
      exact (Except.ok.inj sender).symm
    · intro held
      rw [optional, held, Option.getD_some, spells.address?] at target
      exact (Except.ok.inj target).symm

/-- A transfer in marked texts and capitals, and the same in bytes. -/
def markedTransfer : List (String × Value) :=
  [("from", .text "0x00000000000000000000000000000000000000Ab"),
    ("to", .text "00000000000000000000000000000000000000CD"), ("value", .text "0X00ff"),
    ("input", .text "A1")]

def rawTransfer : List (String × Value) :=
  [("from", .bytes (List.replicate 19 0 ++ [0xAB])), ("to", .bytes (List.replicate 19 0 ++ [0xCD])),
    ("value", .bytes [0, 0xFF]), ("input", .bytes [0xA1])]

theorem spells_marked_ab : SpellsAccount (.text "0x00000000000000000000000000000000000000Ab")
    (List.replicate 19 0 ++ [0xAB]) :=
  ⟨rfl, .text ⟨['0', 'x'], by decide, "00000000000000000000000000000000000000Ab".toList, rfl, by
    decide +kernel⟩⟩

theorem agree_transfer : Transaction.Agree Absent markedTransfer rawTransfer where
  sender := ⟨_, _, rfl, rfl, .inr ⟨_, spells_marked_ab, rfl, .bytes _⟩⟩
  target := .inr ⟨_, ⟨rfl, .text ⟨[], by decide, "00000000000000000000000000000000000000CD".toList,
    rfl, by decide +kernel⟩⟩, rfl, .bytes _⟩
  input := .inr ⟨_, .text ⟨[], by decide, "A1".toList, rfl, by decide +kernel⟩, .bytes _⟩
  data key known := by
    simp only [List.mem_cons, List.not_mem_nil, or_false] at known
    rcases known with rfl | rfl <;> exact .inl ⟨by decide +kernel, by decide +kernel⟩
  numbers key known := by
    simp only [Transaction.numberFields, List.mem_cons, List.not_mem_nil, or_false] at known
    rcases known with rfl | rfl | rfl | rfl | rfl | rfl | rfl | rfl | rfl
    case inr.inl =>
      have minimal : Bytes.minimal 255 = [0xFF] := by decide +kernel
      have raw : SpellsNumber (.bytes [0, 0xFF]) 255 := minimal ▸ .bytes 1 255
      exact .inr ⟨255, .text 2 ⟨['0', 'X'], by decide, "00ff".toList, rfl, by decide +kernel⟩, raw⟩
    all_goals exact .inl ⟨by decide +kernel, by decide +kernel⟩

def markedBlock : List (String × Value) :=
  [("number", .text "10"), ("hash", .text "0xEF"),
    ("transactions", .list [.text "0x01", .object markedTransfer])]

def rawBlock : List (String × Value) :=
  [("number", .int 16), ("hash", .bytes [0xEF]),
    ("transactions", .list [.bytes [1], .object rawTransfer])]

theorem agree_block : Block.Agree Absent markedBlock rawBlock where
  number := ⟨_, _, rfl, rfl, .inr ⟨16, .text 0 ⟨[], by decide, "10".toList, rfl, by decide +kernel⟩,
    .int 16⟩⟩
  hash := ⟨_, _, rfl, rfl, .inr ⟨[0xEF], .text ⟨['0', 'x'], by decide, "EF".toList, rfl, by
    decide +kernel⟩, .bytes _⟩⟩
  mixHash := .inl ⟨by decide +kernel, by decide +kernel⟩
  coinbase := .inl ⟨by decide +kernel, by decide +kernel⟩
  numbers key known := by
    simp only [List.mem_cons, List.not_mem_nil, or_false] at known
    rcases known with rfl | rfl | rfl <;> exact .inl ⟨by decide +kernel, by decide +kernel⟩
  transactions := .inr (.inr ⟨_, _, rfl, rfl,
    .cons (.inl ⟨rfl, rfl⟩) (.cons (.inr ⟨_, _, rfl, rfl, agree_transfer⟩) .nil)⟩)

/-- A record without operands: neither a stack nor an error is told, or both are told as nothing. -/
def plainRecord : List (String × Value) := [("op", .text "STOP"), ("depth", .int 1)]

def paddedRecord : List (String × Value) :=
  [("op", .text "STOP"), ("depth", .int 1), ("stack", .list []), ("error", .text ""),
    ("pc", .null)]

theorem agree_record : Record.Agree Absent plainRecord paddedRecord where
  op := ⟨_, _, rfl, rfl, rfl⟩
  depth := ⟨_, _, rfl, rfl, rfl, 1, rfl⟩
  stack := .inr (.inl ⟨by decide +kernel, by decide +kernel⟩)
  error := .inr ⟨by decide +kernel, by decide +kernel⟩
  pc := .inl ⟨by decide +kernel, by decide +kernel⟩

theorem agree_trace : Trace.Agree Absent [("structLogs", .list [.object plainRecord])]
    [("structLogs", .list [.object paddedRecord])] where
  failed := by decide +kernel
  gasUsed := .inl ⟨by decide +kernel, by decide +kernel⟩
  returnValue := .inl ⟨by decide +kernel, by decide +kernel⟩
  records := .inr (.inr ⟨_, _, rfl, rfl, .cons ⟨_, _, rfl, rfl, agree_record⟩ .nil⟩)

/-- The two transfers, alone and in a block, and the two traces are read as one; the sender is the
account that the word `0x100…00ab` names as well. -/
theorem Rpc.ofValue_of_agree_transfer :
    Transaction.ofValue (.object markedTransfer) = Transaction.ofValue (.object rawTransfer) ∧
    Block.ofValue (.object markedBlock) = Block.ofValue (.object rawBlock) ∧
    Trace.ofValue (.object [("structLogs", .list [.object plainRecord])]) =
      Trace.ofValue (.object [("structLogs", .list [.object paddedRecord])]) ∧
    (∃ block, Block.ofValue (.object markedBlock) = .ok block ∧
      Block.ofValue (.object rawBlock) = .ok block) ∧
    (∃ trace, Trace.ofValue (.object [("structLogs", .list [.object plainRecord])]) = .ok trace ∧
      Trace.ofValue (.object [("structLogs", .list [.object paddedRecord])]) = .ok trace) ∧
    ∃ tx, Transaction.ofValue (.object markedTransfer) = .ok tx ∧
      Transaction.ofValue (.object rawTransfer) = .ok tx ∧
      tx.sender = some (Address.ofWord (0xAB + Word.addressBound)) := by
  obtain ⟨⟨transaction, block, trace⟩, ⟨transactions, blocks, traces⟩, key⟩ := ofValue_of_agree
  obtain ⟨tx, marked, raw⟩ := transactions _ _ agree_transfer
  exact ⟨transaction _ _ agree_transfer.of_absent, block _ _ agree_block.of_absent,
    trace _ _ agree_trace.of_absent, blocks _ _ agree_block, traces _ _ agree_trace, tx, marked,
    raw, ((key _ _ spells_marked_ab 1 _ (by decide +kernel)).2 _ tx marked).1 rfl⟩

end TraceDiff
