import TraceDiff.Rpc.Creation
import TraceDiff.Rpc.Trace

/-! Interruptions and the other faults that a node raises come from a node alone: nothing that only
reads a value fails with one of them. -/
namespace TraceDiff

variable {α β : Type}

/-- Whether the fault is one that a node raises. -/
def Fault.isNode : Fault → Bool
  | .node _ _ => true
  | _ => false

/-- Whether the fault is an interruption, which the client of a node lets through. -/
def Fault.isInterruption : Fault → Bool
  | .node .interrupted _ => true
  | _ => false

theorem Fault.isNode_of_isInterruption {f : Fault} (interruption : f.isInterruption = true) :
    f.isNode = true := by
  cases f with
  | node => rfl
  | _ => nomatch interruption

theorem Fault.isInterruption_of_isNode {f : Fault} (own : f.isNode = false) :
    f.isInterruption = false :=
  Bool.eq_false_iff.2 fun interruption => Bool.false_ne_true
    (own.symm.trans (isNode_of_isInterruption interruption))

@[simp] theorem Fault.isNode_spelling {numbers : List Rpc.Value} {f : Fault}
    (own : f.isNode = false) : (spelling numbers f).isNode = false := by
  unfold spelling
  split
  · exact own
  · rfl

/-- The result is no fault that a node raises. -/
def Calm (r : Except Fault α) : Prop := ∀ f, r = .error f → f.isNode = false

namespace Calm

@[simp] theorem ok (a : α) : Calm (.ok a : Except Fault α) := fun _ h => nomatch h

@[simp] theorem pure (a : α) : Calm (Pure.pure a : Except Fault α) := ok a

@[simp] theorem error_iff {f : Fault} :
    Calm (.error f : Except Fault α) ↔ f.isNode = false :=
  ⟨fun h => h f rfl, fun h _ same => Except.error.inj same ▸ h⟩

theorem bind {p : Except Fault α} {f : α → Except Fault β} (hp : Calm p) (hf : ∀ a, Calm (f a)) :
    Calm (p >>= f) := by
  cases p with
  | error e => exact error_iff.2 (error_iff.1 hp)
  | ok a => exact hf a

@[simp] theorem map {p : Except Fault α} (g : α → β) (hp : Calm p) : Calm (g <$> p) := by
  cases p with
  | error e => exact error_iff.2 (error_iff.1 hp)
  | ok a => exact ok (g a)

theorem mapError {ε : Type} {p : Except ε α} {g : ε → Fault}
    (hg : ∀ e, (g e).isNode = false) : Calm (p.mapError g) := by
  cases p with
  | error e => exact error_iff.2 (hg e)
  | ok a => exact ok a

theorem mapM {f : α → Except Fault β} (hf : ∀ a, Calm (f a)) (items : List α) :
    Calm (items.mapM f) := by
  induction items with
  | nil => exact ok []
  | cons a items ih =>
    rw [List.mapM_cons]
    exact (hf a).bind fun b => ih.bind fun bs => ok (b :: bs)

end Calm

namespace Rpc

namespace Value

variable (v : Value)

@[simp] theorem calm_quantity? : Calm v.quantity? := by
  cases v with
  | text s =>
    simp only [quantity?]
    split
    · exact .ok none
    · split <;> simp [Fault.isNode]
  | _ => simp [quantity?, Fault.isNode]

@[simp] theorem calm_quantity : Calm v.quantity := (calm_quantity? v).map _

@[simp] theorem calm_amount : Calm v.amount := (calm_quantity v).bind fun _ => .ok _

theorem calm_bytesOfHex (cs : List Char) : Calm (bytesOfHex cs) := by
  unfold bytesOfHex
  dsimp only
  generalize (if (Address.dropMarker cs).length % 2 = 0 then Address.dropMarker cs
    else '0' :: Address.dropMarker cs) = digits
  split
  · simp [Fault.isNode]
  · split <;> simp [Fault.isNode]

@[simp] theorem calm_data : Calm v.data := by
  cases v with
  | text s =>
    simp only [data]
    split
    · exact .ok []
    · exact calm_bytesOfHex _
  | _ => simp [data, Fault.isNode]

@[simp] theorem calm_address? : Calm v.address? := by
  cases v <;> first
    | exact .ok none
    | exact (Calm.mapError fun _ => rfl).map _

@[simp] theorem calm_number : Calm v.number := by
  cases v <;> simp [number, Fault.isNode]

@[simp] theorem calm_integer : Calm v.integer := by
  have decimal (shown : String) (e : Text.NumeralFault) :
      (notDecimal shown e).isNode = false := by
    cases e <;> rfl
  cases v with
  | float x =>
    simp only [integer]
    split
    · simp [Fault.isNode]
    · split <;> simp [Fault.isNode]
  | text s => exact Calm.mapError (decimal _)
  | bytes b => exact Calm.mapError (decimal _)
  | _ => simp [integer, Fault.isNode]

@[simp] theorem calm_items : Calm v.items := by
  cases v <;> simp [items, Fault.isNode]

@[simp] theorem calm_itemsOrNone : Calm v.itemsOrNone := by
  unfold itemsOrNone
  split <;> simp

@[simp] theorem calm_fields : Calm v.fields := by
  unfold fields
  split <;> simp [Fault.isNode]

@[simp] theorem calm_quantityUnlessNull : Calm (quantityUnlessNull v) := by
  unfold quantityUnlessNull
  split <;> simp

@[simp] theorem calm_amountUnlessNull : Calm (amountUnlessNull v) := by
  unfold amountUnlessNull
  split <;> simp

@[simp] theorem calm_dataUnlessNull : Calm (dataUnlessNull v) := by
  unfold dataUnlessNull
  split <;> simp

end Value

@[simp] theorem calm_required (fields : List (String × Value)) (key : String) :
    Calm (required fields key) := by
  unfold required
  split <;> simp [Fault.isNode]

end Rpc

open Rpc

@[simp] theorem Transaction.calm_ofFields (fields : List (String × Value)) :
    Calm (ofFields fields) := by
  unfold ofFields
  repeat' refine Calm.bind ?_ fun _ => ?_
  all_goals simp

@[simp] theorem Transaction.calm_ofValue (v : Value) : Calm (ofValue v) :=
  (Value.calm_fields v).bind calm_ofFields

@[simp] theorem Block.calm_ofValue (v : Value) : Calm (ofValue v) := by
  unfold ofValue
  repeat' refine Calm.bind ?_ fun _ => ?_
  all_goals simp [Calm.mapM]

@[simp] theorem Record.calm_ofValue (v : Value) : Calm (ofValue v) := by
  unfold ofValue
  repeat' refine Calm.bind ?_ fun _ => ?_
  all_goals simp [Calm.mapM]

@[simp] theorem Trace.calm_ofValue (v : Value) : Calm (ofValue v) := by
  unfold ofValue
  repeat' refine Calm.bind ?_ fun _ => ?_
  all_goals simp [Calm.mapM]

end TraceDiff
