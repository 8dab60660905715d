import TraceDiff.Replay.Effect
import TraceDiff.Rpc.Transaction

/-! The machine that replays a trace: the journal, the frames that are open, and the ledger to fall
back to when the transaction as a whole fails. -/
namespace TraceDiff.Replay

structure Machine where
  journal : Journal := {}
  frames : CallStack
  /-- The ledger right after the fee was charged. -/
  rootLedger : Option Ledger := none
  rootAborted : Bool := false
  /-- The account executing at each replayed record, the last record first. -/
  visited : List Address := []

namespace Machine

variable {σ : Type}

def start (root : Address) : Machine := { frames := .ofRoot root }

def depth (m : Machine) : Nat := m.frames.depth

/-- The account executing at each replayed record, in their order. -/
def contexts (m : Machine) : List Address := m.visited.reverse

def enter (m : Machine) (opcode : Opcode) (target : Address) (placeholder : Bool) : Machine :=
  { m with
    journal := m.journal.push
    frames := m.frames.enter opcode target placeholder }

/-- The transaction failed: the ledger goes back to the fee alone. Later aborts change nothing. -/
def abortRoot (m : Machine) : Machine :=
  if m.rootAborted then m
  else
    let ledger := m.rootLedger.getD m.journal.ledger
    { m with rootAborted := true, journal := { m.journal with ledger } }

/-- The current frame aborts: it closes, and the ledger goes back to where it opened. -/
def abort (m : Machine) : Except Fault Machine :=
  match m.frames.leave with
  | .error _ => .ok m.abortRoot
  | .ok (_, frames) => (fun journal => { m with frames, journal }) <$> m.journal.rollback

/-- Settles the snapshots of frames that returned. A creation that deployed nothing is undone. -/
def settle (j : Journal) : List Frame → Except Fault Journal
  | [] => .ok j
  | f :: closed => do
    let j ← if f.isFailedCreation then j.rollback else (·.2) <$> j.pop
    settle j closed

/-- The frames above `depth` returned. -/
def returnTo (m : Machine) (depth : Int) : Except Fault Machine :=
  let (closed, frames) := m.frames.unwind depth
  (fun journal => { m with frames, journal }) <$> settle m.journal closed

/-- Makes the machine ready for a record: it may not be deeper than the open frames, and if it is
less deep the frames above it have returned. -/
def arrive (m : Machine) (r : Record) : Except Fault Machine :=
  if (m.depth : Int) < r.depth then
    .error (.spelling [.int r.depth] (.malformed { defect := .depthJump r.depth m.depth }))
  else
    (fun m => { m with visited := m.frames.current :: m.visited }) <$>
      if r.depth < m.depth then m.returnTo r.depth else .ok m

def apply (sources : Sources σ) (m : Machine) : Effect → Asking σ Machine
  | .note entry => (fun journal => { m with journal }) <$> entry.apply sources m.journal
  | .enter opcode target placeholder => pure (m.enter opcode target placeholder)
  | .abort => .ofExcept m.abort

end Machine

end TraceDiff.Replay
