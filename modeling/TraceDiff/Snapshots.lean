import TraceDiff.Fault
import TraceDiff.Ledger

/-! Ledgers kept for the frames that are open, and counts of how each was settled. -/
namespace TraceDiff

/-- The kept ledgers, the newest first. A frame that returns drops its ledger, one that aborts goes
back to it. -/
structure Snapshots where
  held : List Ledger := []
  pushes : Nat := 0
  pops : Nat := 0
  rollbacks : Nat := 0
deriving DecidableEq

namespace Snapshots

def push (s : Snapshots) (l : Ledger) : Snapshots :=
  { s with held := l :: s.held, pushes := s.pushes + 1 }

/-- The newest ledger and the rest, counted as dropped. -/
def pop (s : Snapshots) : Except Fault (Ledger × Snapshots) :=
  match s.held with
  | [] => .error (.malformed { defect := .noSnapshotToDrop })
  | l :: held => .ok (l, { s with held, pops := s.pops + 1 })

/-- The newest ledger and the rest, counted as restored. -/
def rollback (s : Snapshots) : Except Fault (Ledger × Snapshots) :=
  match s.held with
  | [] => .error (.malformed { defect := .noSnapshotToRestore })
  | l :: held => .ok (l, { s with held, rollbacks := s.rollbacks + 1 })

/-- Every push is still held, or was settled once. -/
def Balanced (s : Snapshots) : Prop := s.pushes = s.pops + s.rollbacks + s.held.length

theorem balanced_push {s : Snapshots} (h : s.Balanced) (l : Ledger) : (s.push l).Balanced := by
  simp only [Balanced, push, List.length_cons] at *
  omega

end Snapshots

end TraceDiff
