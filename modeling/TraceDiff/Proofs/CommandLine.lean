import TraceDiff.CommandLine.Run
import TraceDiff.Proofs.Diff.Reading
import TraceDiff.Proofs.Extraction.Chain
import TraceDiff.Proofs.Extraction.Interruptions

/-! What a run of the program comes to, and what it leaves behind. The result is written whole, or
not at all; then the fault that ended the run tells what it returns. -/
namespace TraceDiff

/-- The completion of requests beside a state of one's own. -/
def Gather.Completion.beside {σ τ : Type} (completion : Completion σ) : Completion (τ × σ) where
  order w := completion.order w.2
  perm w := completion.perm w.2

namespace CommandLine

variable {σ : Type}

/-- What the run returns: nothing, if it only tells what arguments there are or if a fault
escapes. -/
def Ending.returned : Ending → Option Nat
  | finished => some 0
  | failed _ => some 1
  | interrupted => some 130
  | help | usage | escaped _ => none

/-- The world with all exchanges with its nodes taken down. -/
def World.noting (world : World σ) : World (List Exchange × σ) where
  connect url timeout :=
    let provider := world.connect url timeout
    { connected := provider.connected
      node := provider.node.noting
      completion := provider.completion.beside }
  refuses := world.refuses

section Run

variable (world : World σ) (settings : Settings) (a : Arguments) (s : σ)

/-- The node that the settings name. -/
def World.provider : Provider σ := world.connect settings.url settings.timeout

end Run

variable {world : World σ} {settings : Settings} {a : Arguments} {s : σ}

/-- The node of the payments, over a disk that takes all files. -/
def paying : World Unit where
  connect _ _ := { connected := true, node := Extraction.nodeOfPayments }

/-- The same node, interrupted whenever it is asked for a balance. -/
def interrupted : World Unit where
  connect _ _ := {
    connected := true
    node := { Extraction.nodeOfPayments with
      balance := fun _ _ => .fail (.node .interrupted "stopped") } }

end CommandLine

end TraceDiff
