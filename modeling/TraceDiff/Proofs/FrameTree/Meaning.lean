import TraceDiff.Proofs.FrameTree
import TraceDiff.Proofs.Journal

/-! What a tree of frames does to a journal, by recursion on the tree. There is no stack of frames
and no snapshot: a frame that is undone gives the ledger back that it was opened with, and keeps
everything that was observed. -/
namespace TraceDiff

open Replay (Scope)
open Rpc (Quantity)

variable {σ : Type}

/-- The entry, made only on a condition. -/
def Journal.entryIf (condition : Bool) (e : Journal.Entry) : List Journal.Entry :=
  if condition then [e] else []

@[simp] theorem Journal.entryIf_false (e : Journal.Entry) : entryIf false e = [] := rfl

theorem Journal.mem_entryIf {condition : Bool} {e x : Journal.Entry} :
    x ∈ entryIf condition e ↔ condition = true ∧ x = e := by
  cases condition <;> simp [entryIf]

namespace FrameTree

open Journal (entryIf)

/-- What a record notes in the frame `f` that opens no frame, given the result that follows it. -/
def observed (scope : Scope) (f : Frame) (opcode : Option Opcode) (r : Record)
    (result : Quantity) : List Journal.Entry :=
  if !scope.observes then []
  else match opcode with
    | some .sstore => [.write f.address (r.arg 0).value (r.arg 1)]
    | some .sload => entryIf (!f.placeholder) (.read f.address (r.arg 0).value result)
    | some .balance => [.touch (.ofWord (r.arg 0).value)]
    | some .selfbalance => entryIf (!f.placeholder) (.touch f.address)
    | some .blockhash => [.recordHash (r.arg 0) result.value]
    | some o => entryIf (o.inspectsCode && scope.code) (.reference (.ofWord (r.arg 0).value))
    | none => []

theorem of_mem_observed {scope : Scope} {f : Frame} {o : Option Opcode} {r : Record}
    {result : Quantity} {e : Journal.Entry} (he : e ∈ observed scope f o r result) :
    (o = some .sstore ∧ e = .write f.address (r.arg 0).value (r.arg 1)) ∨
      ((o = some .sload ∧ f.placeholder = false) ∧ e = .read f.address (r.arg 0).value result) ∨
      (o = some .blockhash ∧ e = .recordHash (r.arg 0) result.value) ∨
      ∃ a, e = .touch a ∨ e = .reference a := by
  unfold observed at he
  split at he
  · simp at he
  split at he
  · exact .inl ⟨rfl, List.mem_singleton.1 he⟩
  · obtain ⟨real, rfl⟩ := Journal.mem_entryIf.1 he
    exact .inr (.inl ⟨⟨rfl, by simpa using real⟩, rfl⟩)
  · exact .inr (.inr (.inr ⟨_, .inl (List.mem_singleton.1 he)⟩))
  · exact .inr (.inr (.inr ⟨_, .inl (Journal.mem_entryIf.1 he).2⟩))
  · exact .inr (.inr (.inl ⟨rfl, List.mem_singleton.1 he⟩))
  · exact .inr (.inr (.inr ⟨_, .inr (Journal.mem_entryIf.1 he).2⟩))
  · simp at he

/-- What the record notes that closes the frame `f`. A creation that failed destroys nothing. -/
def closing (scope : Scope) (f : Frame) (ending : Ending) (r : Record) : List Journal.Entry :=
  if ending = .selfdestruct ∧ f.placeholder = false then
    let beneficiary := Address.ofWord (r.arg 0).value
    entryIf scope.baseline (.sweep f.address beneficiary) ++ [.touch beneficiary] ++
      entryIf scope.code (.destroy f.address)
  else []

theorem of_mem_closing {scope : Scope} {f : Frame} {ending : Ending} {r : Record}
    {e : Journal.Entry} (he : e ∈ closing scope f ending r) :
    (scope.baseline = true ∧ ∃ a b, e = .sweep a b) ∨ ∃ a, e = .touch a ∨ e = .destroy a := by
  unfold closing at he
  split at he
  · simp only [List.mem_append, Journal.mem_entryIf, List.mem_singleton] at he
    rcases he with (⟨known, rfl⟩ | rfl) | ⟨-, rfl⟩
    · exact .inl ⟨known, _, _, rfl⟩
    · exact .inr ⟨_, .inl rfl⟩
    · exact .inr ⟨_, .inr rfl⟩
  · simp at he

/-- What a call notes before its frame opens: the code that it runs. -/
def called (scope : Scope) (o : Opcode) (r : Record) : List Journal.Entry :=
  entryIf (o.isCall && scope.code) (.reference (.ofWord (r.arg 1).value))

theorem of_mem_called {scope : Scope} {o : Opcode} {r : Record} {e : Journal.Entry}
    (he : e ∈ called scope o r) : ∃ a, e = .reference a := ⟨_, (Journal.mem_entryIf.1 he).2⟩

/-- The value that a call or creation moves when its frame starts. -/
def sent (o : Opcode) (r : Record) : Int :=
  if o = .call then (r.arg 2).value else if o.isCreate then (r.arg 0).value else 0

/-- What is noted when the frame starts that `r` opens in the frame `f`: the code of a new contract
and the value that moves to it. A creation that failed has neither, and moves nothing. -/
def started (scope : Scope) (f : Frame) (o : Opcode) (r : Record) (result : Quantity) :
    List Journal.Entry :=
  if o.createsNothing result then []
  else
    entryIf (o.isCreate && scope.code) (.deploy (.ofWord result.value)) ++
      entryIf (sent o r != 0 && !f.placeholder)
        (.transfer f.address (o.callee r result) (sent o r))

theorem of_mem_started {scope : Scope} {f : Frame} {o : Opcode} {r : Record} {result : Quantity}
    {e : Journal.Entry} (he : e ∈ started scope f o r result) :
    (∃ a, e = .deploy a) ∨ ∃ a b n, e = .transfer a b n := by
  unfold started at he
  split at he
  · simp at he
  · rcases List.mem_append.1 he with he | he
    · exact .inl ⟨_, (Journal.mem_entryIf.1 he).2⟩
    · exact .inr ⟨_, _, _, (Journal.mem_entryIf.1 he).2⟩

/-- The journal after the tree has been executed in the frame `f`. -/
def meaning (sources : Sources σ) (scope : Scope) (f : Frame) :
    FrameTree → Journal → Asking σ Journal
  | close ending r, j => Journal.noteAll sources (closing scope f ending r) j
  | plain opcode r rest, j => do
    let j ← Journal.noteAll sources (observed scope f opcode r rest.result) j
    rest.meaning sources scope f j
  | unstarted o r rest, j => do
    let j ← Journal.noteAll sources (called scope o r) j
    rest.meaning sources scope f j
  | nested o r child rest, j => do
    let before ← Journal.noteAll sources (called scope o r) j
    let inside ← Journal.noteAll sources (started scope f o r rest.result) before
    let after ← child.meaning sources scope (f.child o r rest.result) inside
    let ledger := if child.isUndone o rest.result then before.ledger else after.ledger
    rest.meaning sources scope f { after with ledger }

end FrameTree

end TraceDiff
