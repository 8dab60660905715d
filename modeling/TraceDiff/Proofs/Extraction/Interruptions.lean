import TraceDiff.Extraction
import TraceDiff.Proofs.BlockPrefix
import TraceDiff.Proofs.Node.Interruptions
import TraceDiff.Proofs.Replay.Effects

/-! What an extraction hands on of what its client raises. Replays, valuations and the balances that
are fetched in between raise nothing of the kind themselves. -/
namespace TraceDiff

variable {σ τ : Type} {E : Fault → σ → Prop} {sources : Sources σ} {balancesOnly failed : Bool}

/-- Whatever the sources fail with is as `E` says. -/
structure Sources.Blames (sources : Sources σ) (E : Fault → σ → Prop) : Prop where
  before : ∀ source ∈ sources.code, ∀ a, (source.before a).Blames E
  after : ∀ source ∈ sources.code, ∀ a, (source.after a).Blames E
  balance : ∀ source ∈ sources.baseline, ∀ a, (source.one a).Blames E

namespace Baselines

variable {source : BaselineSource σ}

end Baselines

namespace Journal

end Journal

namespace Replay

namespace Machine

end Machine

end Replay

namespace BlockPrefix

variable {client : Client σ}

end BlockPrefix

namespace Journal

end Journal

namespace Diff

end Diff

namespace Extraction

variable {client : Client σ}

end Extraction

end TraceDiff
