import TraceDiff.Opcode
import TraceDiff.Rpc.Scalar

/-! Which account is executing at each call depth. The root frame has depth one and is always
there. -/
namespace TraceDiff

/-- An execution context. A placeholder stands for a creation that the trace shows to have failed:
it has no real address, and nothing done in it lasts. -/
structure Frame where
  address : Address
  opcode : Option Opcode := none
  placeholder : Bool := false
deriving DecidableEq, Repr

/-- The frame of a creation that failed. -/
def Frame.isFailedCreation (f : Frame) : Bool :=
  f.placeholder && f.opcode.any Opcode.isCreate

/-- The root frame and the frames opened inside it, the innermost first. -/
structure CallStack where
  root : Frame
  inner : List Frame := []
deriving DecidableEq, Repr

namespace CallStack

def ofRoot (address : Address) : CallStack := { root := { address } }

def depth (s : CallStack) : Nat := s.inner.length + 1

def top (s : CallStack) : Frame := s.inner.head?.getD s.root

/-- The account whose storage and balance the running code works on. -/
def current (s : CallStack) : Address := s.top.address

/-- The frame that an opcode opens: one that keeps its context runs as the frame it is called
from. -/
def opened (s : CallStack) (opcode : Opcode) (target : Address) (placeholder : Bool) : Frame :=
  if opcode.keepsContext then ⟨s.top.address, some opcode, s.top.placeholder⟩
  else ⟨target, some opcode, placeholder⟩

def enter (s : CallStack) (opcode : Opcode) (target : Address) (placeholder : Bool) : CallStack :=
  { s with inner := s.opened opcode target placeholder :: s.inner }

/-- Closes the innermost frame; the root frame cannot be left. -/
def leave (s : CallStack) : Except Fault (Frame × CallStack) :=
  match s.inner with
  | [] => .error .rootFrame
  | f :: inner => .ok (f, { s with inner })

/-- How many frames stand above `depth`; the root frame stays. -/
def above (s : CallStack) (depth : Int) : Nat := ((s.depth : Int) - max depth 1).toNat

/-- Closes the frames above `depth`, the innermost first. -/
def unwind (s : CallStack) (depth : Int) : List Frame × CallStack :=
  (s.inner.take (s.above depth), { s with inner := s.inner.drop (s.above depth) })

/-- A depth by a value of any kind. Any number will do; floats beyond all depths are alike. -/
def depthAt (s : CallStack) : Rpc.Value → Except Fault Int
  | .float x => .ok ((x.truncate?).getD (if x.negative then 1 else s.depth))
  | v => v.number

@[simp] theorem depth_ofRoot (a : Address) : (ofRoot a).depth = 1 := rfl

@[simp] theorem depth_enter (s : CallStack) (o : Opcode) (a : Address) (p : Bool) :
    (s.enter o a p).depth = s.depth + 1 := rfl

@[simp] theorem top_enter (s : CallStack) (o : Opcode) (a : Address) (p : Bool) :
    (s.enter o a p).top = s.opened o a p := rfl

theorem depth_pos (s : CallStack) : 1 ≤ s.depth := by simp [depth]

/-- Unwinding leaves the given depth, or the root, and never opens a frame. -/
theorem depth_unwind (s : CallStack) (depth : Int) :
    ((s.unwind depth).2.depth : Int) = min (s.depth : Int) (max depth 1) := by
  have := s.depth_pos
  simp only [unwind, CallStack.depth, List.length_drop, above] at *
  omega

theorem length_unwind (s : CallStack) (depth : Int) :
    (s.unwind depth).1.length + (s.unwind depth).2.depth = s.depth := by
  simp only [unwind, CallStack.depth, List.length_take, List.length_drop, above]
  omega

end CallStack

end TraceDiff
