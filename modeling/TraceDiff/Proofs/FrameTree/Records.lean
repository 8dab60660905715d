import TraceDiff.Proofs.FrameTree.Meaning
import TraceDiff.Proofs.Replay

/-! What the records of a tree of frames tell a replay: which call started a frame, what a creation
produced, and with them the effects of every record. -/
namespace TraceDiff

open Replay (Scope)
open Rpc (Quantity)

namespace FrameTree

theorem records_eq_cons (t : FrameTree) : ∃ later, t.records = t.first :: later := by
  cases t <;> exact ⟨_, rfl⟩

theorem WellFormed.depth_first {t : FrameTree} {d : Int} (wf : t.WellFormed d) :
    t.first.depth = d := by
  cases t <;> exact wf.1

/-- No record of a frame, or of a frame inside it, is less deep than the frame. -/
theorem WellFormed.le_depth {t : FrameTree} {d : Int} (wf : t.WellFormed d) :
    ∀ r ∈ t.records, d ≤ r.depth := by
  induction t generalizing d with
  | close ending r =>
    intro x hx
    obtain rfl := List.mem_singleton.1 hx
    exact Int.le_of_eq wf.1.symm
  | plain o r rest ih =>
    obtain ⟨hd, -, -, hrest⟩ := wf
    intro x hx
    rcases List.mem_cons.1 hx with rfl | hx
    · exact Int.le_of_eq hd.symm
    · exact ih hrest x hx
  | unstarted o r rest ih =>
    obtain ⟨hd, -, -, -, hrest⟩ := wf
    intro x hx
    rcases List.mem_cons.1 hx with rfl | hx
    · exact Int.le_of_eq hd.symm
    · exact ih hrest x hx
  | nested o r child rest ihc ih =>
    obtain ⟨hd, -, -, -, hchild, hrest⟩ := wf
    intro x hx
    rcases List.mem_cons.1 hx with rfl | hx
    · exact Int.le_of_eq hd.symm
    rcases List.mem_append.1 hx with hx | hx
    · have := ihc hchild x hx
      omega
    · exact ih hrest x hx

end FrameTree

namespace Replay

theorem createdAddress_append {r : Record} {passed : List Record}
    (h : ∀ x ∈ passed, x.depth ≠ r.depth) (later : List Record) :
    createdAddress r (passed ++ later) = createdAddress r later := by
  induction passed with
  | nil => rfl
  | cons x passed ih =>
    obtain ⟨hx, hrest⟩ := List.forall_mem_cons.1 h
    rw [List.cons_append, createdAddress, if_neg hx, ih hrest]

theorem createdAddress_of_result {r : Record} {rest : FrameTree} (hd : rest.first.depth = r.depth)
    (hs : rest.first.stack ≠ []) (later : List Record) :
    createdAddress r (rest.records ++ later) =
      .ok (if Address.ofWord rest.result.value = .zero then none
        else some (.ofWord rest.result.value)) := by
  obtain ⟨more, hr⟩ := rest.records_eq_cons
  rw [hr, List.cons_append, createdAddress, if_pos hd,
    Record.peek_eq_arg (List.length_pos_iff.2 hs)]
  rfl

theorem resultOf_of_result (r : Record) {rest : FrameTree} (hs : rest.first.stack ≠ [])
    (later : List Record) : resultOf r (rest.records ++ later) = .ok rest.result := by
  obtain ⟨more, hr⟩ := rest.records_eq_cons
  rw [hr]
  exact Record.word_eq_arg (List.length_pos_iff.2 hs)

theorem frameStarted_records (r : Record) (t : FrameTree) (later : List Record) :
    frameStarted r (t.records ++ later) = decide (r.depth < t.first.depth) := by
  obtain ⟨more, hr⟩ := t.records_eq_cons
  rw [hr]
  rfl

namespace Effect

theorem ofRecord_of_executes {r : Record} {o : Opcode} (h : r.Executes (some o)) (scope : Scope)
    (f : Frame) (later : List Record) :
    ofRecord scope f r later = ofOpcode scope f o r later := by
  simp [ofRecord, h.1, h.2.1, bind, Except.bind]

theorem ofRecord_of_noOpcode {r : Record} (h : r.Executes none) (scope : Scope)
    (f : Frame) (later : List Record) : ofRecord scope f r later = .ok [] := by
  simp [ofRecord, h.1, h.2.1, bind, Except.bind]
  rfl

theorem ofRecord_of_aborts {r : Record} (h : r.Aborts) (scope : Scope) (f : Frame)
    (later : List Record) : ofRecord scope f r later = .ok [abort] := by
  unfold ofRecord
  by_cases he : r.error.isSome
  · simp [he]
  · obtain ⟨o, ho, ha⟩ := h.resolve_left (by simpa using he)
    simp [he, ho, bind, Except.bind, ofOpcode, ha]

theorem map_entryIf (condition : Bool) (e : Journal.Entry) :
    (Journal.entryIf condition e).map note = noteIf condition e := by
  cases condition <;> rfl

theorem ofRecord_closing {r : Record} {ending : Ending} (fits : ending.Fits r)
    (h : ending ≠ .abort) (scope : Scope) (f : Frame) (later : List Record) :
    ofRecord scope f r later = .ok ((FrameTree.closing scope f ending r).map .note) := by
  cases ending with
  | abort => exact absurd rfl h
  | stop => simpa [FrameTree.closing] using ofRecord_of_noOpcode fits scope f later
  | selfdestruct =>
    have operand : r.peek 0 = .ok (r.arg 0).value := Record.peek_eq_arg fits.2.2
    rw [ofRecord_of_executes fits]
    change ofSelfdestruct scope f r = _
    unfold ofSelfdestruct FrameTree.closing
    cases hp : f.placeholder with
    | true => rfl
    | false =>
      simp only [operand, and_self, if_true, List.map_append, map_entryIf]
      rfl

theorem ofRecord_observed {r : Record} {o : Option Opcode} {rest : FrameTree}
    (hx : r.Executes o) (ho : ∀ x ∈ o, x.staysInFrame = true ∧ rest.ShowsResult x) (scope : Scope)
    (f : Frame) (later : List Record) :
    ofRecord scope f r (rest.records ++ later) =
      .ok ((FrameTree.observed scope f o r rest.result).map .note) := by
  cases o with
  | none =>
    rw [ofRecord_of_noOpcode hx]
    unfold FrameTree.observed
    split <;> rfl
  | some o =>
    obtain ⟨stays, shows⟩ := ho o rfl
    have operands : o.operands ≤ r.stack.length := hx.2.2
    have followed : ofOpcode scope f o r (rest.records ++ later) =
        if scope.observes then ofObservation scope f o r (rest.records ++ later) else .ok [] := by
      cases o <;> first | rfl | simp [Opcode.staysInFrame] at stays
    rw [ofRecord_of_executes hx, followed]
    unfold FrameTree.observed
    cases scope.observes with
    | false => rfl
    | true =>
      simp only [if_true, Bool.not_true, Bool.false_eq_true, if_false]
      cases o with
      | sload =>
        have shown : resultOf r (rest.records ++ later) = .ok rest.result :=
          resultOf_of_result r shows later
        simp only [ofObservation, ofSload, Record.peek_eq_arg operands, shown, map_entryIf]
        rfl
      | blockhash =>
        have shown : resultOf r (rest.records ++ later) = .ok rest.result :=
          resultOf_of_result r shows.1 later
        simp only [ofObservation, ofBlockhash, Record.word_eq_arg operands, shown]
        rfl
      | sstore =>
        have hk : 0 < r.stack.length := Nat.lt_of_succ_lt operands
        simp only [ofObservation, ofSstore, Record.peek_eq_arg hk, Record.word_eq_arg operands]
        rfl
      | balance =>
        simp only [ofObservation, Record.peek_eq_arg operands]
        rfl
      | selfbalance => simp only [ofObservation, map_entryIf]
      | extcodesize | extcodecopy | extcodehash =>
        simp only [ofObservation, Record.peek_eq_arg operands]
        cases scope.code <;> rfl
      | _ => simp [Opcode.staysInFrame] at stays

theorem ofRecord_creation {r : Record} {o : Opcode} {later : List Record}
    {created : Option Address} (hx : r.Executes (some o)) (hc : o.isCreate = true)
    (look : createdAddress r later = .ok created) (scope : Scope) (f : Frame) :
    ofRecord scope f r later = .ok (created.elim [enter o Address.zero true] fun a =>
      [enter o a false] ++ noteIf scope.code (.deploy a) ++
        payment f a (r.arg 0).value (frameStarted r later)) := by
  have operands : o.operands = 1 := by cases o <;> first | rfl | simp [Opcode.isCreate] at hc
  have opcode : ofOpcode scope f o r later = ofCreate scope f o r later := by
    cases o <;> first | rfl | simp [Opcode.isCreate] at hc
  have value : r.peek 0 = .ok (r.arg 0).value := by
    apply Record.peek_eq_arg
    have enough : o.operands ≤ r.stack.length := hx.2.2
    omega
  rw [ofRecord_of_executes hx, opcode, ofCreate, value, look]
  cases created <;> rfl

theorem ofRecord_call {r : Record} {o : Opcode} (hx : r.Executes (some o)) (hc : o.isCall = true)
    (scope : Scope) (f : Frame) (later : List Record) :
    ofRecord scope f r later =
      .ok (noteIf scope.code (.reference (.ofWord (r.arg 1).value)) ++
        [enter o (.ofWord (r.arg 1).value) false] ++
        payment f (.ofWord (r.arg 1).value) (FrameTree.sent o r) (frameStarted r later)) := by
  have enough : o.operands ≤ r.stack.length := hx.2.2
  have operands : 2 ≤ o.operands ∧ (o = .call → o.operands = 3) := by
    cases o <;> first | exact ⟨by decide, by decide⟩ | simp [Opcode.isCall] at hc
  have opcode : ofOpcode scope f o r later = ofCall scope f o r later := by
    cases o <;> first | rfl | simp [Opcode.isCall] at hc
  have noCreation : o.isCreate = false := by
    cases o <;> first | rfl | simp [Opcode.isCall] at hc
  rw [ofRecord_of_executes hx, opcode, ofCall, Record.peek_eq_arg (by omega)]
  unfold FrameTree.sent
  by_cases h : o = .call
  · have three := operands.2 h
    simp only [if_pos h, Record.peek_eq_arg (by omega : 2 < r.stack.length)]
    rfl
  · simp only [if_neg h, noCreation]
    rfl

/-- What a call or creation does, when the records after it show whether its frame started and
what it created. Of a frame that did not start only the code of a call is noted. -/
theorem ofRecord_opening {r : Record} {o : Opcode} {later : List Record} {result : Quantity}
    {begun : Bool} (hx : r.Executes (some o)) (ho : o.opensFrame = true)
    (hb : frameStarted r later = begun)
    (look : o.isCreate = true → createdAddress r later =
      .ok (if Address.ofWord result.value = .zero then none else some (.ofWord result.value)))
    (unbegun : begun = false → o.isCreate = true → Address.ofWord result.value = .zero)
    (scope : Scope) (f : Frame) :
    ofRecord scope f r later =
      .ok ((FrameTree.called scope o r).map .note ++
        (enter o (o.callee r result) (o.createsNothing result) ::
          (if begun then FrameTree.started scope f o r result else []).map .note)) := by
  cases hc : o.isCreate with
  | true =>
    have noCall : o.isCall = false ∧ FrameTree.sent o r = (r.arg 0).value := by
      cases o <;> first | exact ⟨rfl, rfl⟩ | simp [Opcode.isCreate] at hc
    have calls : FrameTree.called scope o r = [] := by
      simp [FrameTree.called, noCall.1]
    rw [ofRecord_creation hx hc (look hc), calls]
    unfold FrameTree.started Opcode.callee Opcode.createsNothing
    by_cases hz : Address.ofWord result.value = .zero
    · simp [hz, hc]
    · obtain rfl : begun = true := by
        cases begun with
        | true => rfl
        | false => exact absurd (unbegun rfl hc) hz
      simp [hz, hc, hb, noCall.2, payment, map_entryIf]
  | false =>
    have isCall : o.isCall = true := by simpa [Opcode.opensFrame, hc] using ho
    rw [ofRecord_call hx isCall]
    unfold FrameTree.called FrameTree.started Opcode.callee Opcode.createsNothing
    cases begun with
    | true => simp [isCall, hc, hb, payment, map_entryIf]
    | false => simp [isCall, hc, hb, payment, map_entryIf, noteIf]

end Effect

end Replay

end TraceDiff
