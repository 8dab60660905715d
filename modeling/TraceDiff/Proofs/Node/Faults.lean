import TraceDiff.Node.Recorded
import TraceDiff.Proofs.Rpc.Interruptions
import TraceDiff.Proofs.Rpc.Payload

/-! What becomes of a node's failures and answers. A call of the client returns a value or fails
with a fault of the chain, which says that there is nothing of the kind exactly if the node says
so. -/
namespace TraceDiff

variable {σ α β : Type}

namespace Node

variable {node : Node σ} {s : σ} {missing : Prop}

end Node

end TraceDiff
