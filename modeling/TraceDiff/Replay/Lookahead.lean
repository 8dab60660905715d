import TraceDiff.Rpc.Trace

/-! What later records tell about an opcode: whether a call opened a frame, and what address a
creation produced. -/
namespace TraceDiff.Replay

/-- A call opens a frame exactly when the next record is deeper. A call that cannot start leaves no
other sign. -/
def frameStarted (r : Record) (later : List Record) : Bool :=
  match later with
  | [] => false
  | next :: _ => r.depth < next.depth

/-- The address that the creation `r` produced: the top of the stack of the first later record at
its depth. None if the creation failed or nothing at its depth follows. -/
def createdAddress (r : Record) : (later : List Record) → Except Fault (Option Address)
  | [] => .ok none
  | next :: later =>
    if next.depth = r.depth then do
      let address := Address.ofWord (← next.peek 0)
      return if address = Address.zero then none else some address
    else createdAddress r later

/-- The record after `r`, whose stack holds the result of `r`. -/
def resultOf (r : Record) (later : List Record) : Except Fault Rpc.Quantity :=
  match later with
  | [] => .error (.malformed { defect := .missingResult r.op.shown })
  | next :: _ => next.word 0

end TraceDiff.Replay
