import TraceDiff.BlockPrefix
import TraceDiff.Diff.Result

/-! The state diff of one transaction, from the transaction, its block and its trace. -/
namespace TraceDiff

namespace Extraction

variable {σ : Type}

/-- Everything known about the transaction before its trace is replayed. -/
structure Subject where
  tx : Transaction
  block : Block
  trace : Trace
  target : Address

def subject (client : Client σ) (id : TxId) (full : Rpc.Value) : Asking σ Subject := do
  let tx ← client.transaction id
  let hash ← match tx.blockHash with
    | some hash => pure hash
    | none => .fail (.chain (.pending id.quoted))
  let block ← client.block (.ofHash hash) full
  let trace ← client.trace id
  let target ← .ofExcept tx.account
  return { tx, block, trace, target }

/-- Baselines are the balances at the parent block, or those right before the transaction. -/
def baselineOf (client : Client σ) (x : Subject) (exact : Bool) :
    Except Fault (BaselineSource (BlockPrefix.Traced σ)) :=
  if exact then (·.baseline client) <$> BlockPrefix.of x.block x.tx
  else
    let parent := BlockId.number (x.block.number.value - 1)
    .ok {
      one := fun a => Asking.beside (client.balance a parent)
      many := some fun addresses => Asking.beside (client.balances addresses parent) }

/-- Code before the transaction is that of the parent block, code after it that of its own. -/
def codeOf (client : Client σ) (x : Subject) : CodeSource (BlockPrefix.Traced σ) where
  before a := Asking.beside (client.code a (.number (x.block.number.value - 1)))
  after a := Asking.beside (client.code a (.ofQuantity x.block.number))

/-- A run over the machine's baselines alone. -/
def withBaselines {α τ : Type} (p : Asking (Baselines × τ) α) : Replay.Run τ α :=
  .ofOutcome fun (m, s) =>
    let (r, (baselines, s)) := p.outcome (m.journal.baselines, s)
    (r, ({ m with journal := { m.journal with baselines } }, s))

/-- What asking for the balance of a missing sender comes to. Among other accounts to be asked for
it has no place in their order; alone it is asked for, and has no address. -/
def missingSender (j : Journal) : Fault :=
  if (j.baselines.missing j.accounts).isEmpty then
    .chain (.balanceFailed Rpc.Value.null.shown AddressFault.absent.message)
  else .wrongKind

/-- Replays the transaction and settles its balances. The baselines that valued accounts during the
replay are the ones that the result is settled against. -/
def settle (baseline : BaselineSource (BlockPrefix.Traced σ))
    (code : CodeSource (BlockPrefix.Traced σ)) (x : Subject) :
    Replay.Run (BlockPrefix.Traced σ) Diff.Result := do
  let sources : Sources (BlockPrefix.Traced σ) := { code := some code, baseline := some baseline }
  Replay.seed sources false x.tx x.trace.gasUsed.value
  Replay.replay sources false x.trace.records x.trace.failed
  let (m, _) ← get
  if x.tx.sender.isNone then .fail (missingSender m.journal)
  let pre ← withBaselines (Baselines.resolve baseline m.journal.accounts)
  .ofExcept (Diff.assemble m.journal pre (Diff.Context.ofChain x.tx x.block x.trace))

end Extraction

/-- The pre- and post-state of every account that a transaction touched. With `exact`, balances
before it come from replaying the transactions before it in its block, which the node is asked for
in full. -/
def extract {σ : Type} (client : Client σ) (id : TxId) (exact : Bool)
    (full : Rpc.Value := .bool exact) : Asking σ Diff.Result := do
  let x ← Extraction.subject client id full
  let baseline ← .ofExcept (Extraction.baselineOf client x exact)
  .ofOutcome fun s =>
    let run := Extraction.settle baseline (Extraction.codeOf client x) x
    let (r, (_, (_, s))) := run.outcome (.start x.target, (none, s))
    (r, s)

end TraceDiff
