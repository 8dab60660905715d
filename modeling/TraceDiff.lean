import TraceDiff.Address
import TraceDiff.Address.Checksum
import TraceDiff.Address.Create
import TraceDiff.Asking
import TraceDiff.Baselines
import TraceDiff.BlockPrefix
import TraceDiff.BlockPrefix.Given
import TraceDiff.Bytes
import TraceDiff.CallStack
import TraceDiff.Client
import TraceDiff.CommandLine.Arguments
import TraceDiff.CommandLine.Destination
import TraceDiff.CommandLine.Help
import TraceDiff.CommandLine.Run
import TraceDiff.Decimal.Binary64
import TraceDiff.Decimal.Places
import TraceDiff.Decimal.Shortest
import TraceDiff.Diff.Account
import TraceDiff.Diff.Context
import TraceDiff.Diff.Given
import TraceDiff.Diff.Result
import TraceDiff.Diff.Written
import TraceDiff.Document
import TraceDiff.Document.Yaml
import TraceDiff.Extraction
import TraceDiff.Fault
import TraceDiff.Gather
import TraceDiff.Holding
import TraceDiff.Journal
import TraceDiff.Journal.Given
import TraceDiff.Json.Reader
import TraceDiff.Json.Tagged
import TraceDiff.Json.Writer
import TraceDiff.Keccak
import TraceDiff.Ledger
import TraceDiff.Log
import TraceDiff.Log.Event
import TraceDiff.Log.Level
import TraceDiff.Log.Logger
import TraceDiff.Main
import TraceDiff.Node
import TraceDiff.Node.Given
import TraceDiff.Node.Recorded
import TraceDiff.Opcode
import TraceDiff.Proofs.BalanceEffects
import TraceDiff.Proofs.BlockPrefix
import TraceDiff.Proofs.FrameTree
import TraceDiff.Proofs.FrameTree.Balances
import TraceDiff.Proofs.FrameTree.Meaning
import TraceDiff.Proofs.FrameTree.Records
import TraceDiff.Proofs.FrameTree.Replay
import TraceDiff.Proofs.FrameTree.Steps
import TraceDiff.Proofs.FrameTree.Storage
import TraceDiff.Proofs.Gather
import TraceDiff.Proofs.Journal
import TraceDiff.Proofs.Node
import TraceDiff.Proofs.Replay
import TraceDiff.Replay
import TraceDiff.Replay.Effect
import TraceDiff.Replay.Given
import TraceDiff.Replay.Lookahead
import TraceDiff.Replay.Machine
import TraceDiff.Rlp
import TraceDiff.Rpc.Creation
import TraceDiff.Rpc.Order
import TraceDiff.Rpc.Pairs
import TraceDiff.Rpc.Quantity
import TraceDiff.Rpc.Scalar
import TraceDiff.Rpc.Trace
import TraceDiff.Rpc.Transaction
import TraceDiff.Rpc.Value
import TraceDiff.Settings
import TraceDiff.Snapshots
import TraceDiff.Template
import TraceDiff.Text.Blank
import TraceDiff.Text.Digit
import TraceDiff.Text.Hex
import TraceDiff.Text.HexFloat
import TraceDiff.Text.Numeral
import TraceDiff.Text.Printable
import TraceDiff.Text.Quoted
import TraceDiff.Text.Search
import TraceDiff.Text.Upper
import TraceDiff.Text.Utf8
import TraceDiff.Word
import TraceDiff.Proofs.Replay.Effects
import TraceDiff.Proofs.Replay.Invariants
import TraceDiff.Proofs.Replay.Origins
import TraceDiff.Proofs.Replay.Exits
import TraceDiff.Proofs.Replay.RootAbort
import TraceDiff.Proofs.Ledger
import TraceDiff.Proofs.Replay.Conservation
import TraceDiff.Proofs.Extraction
import TraceDiff.Proofs.Replay.Payments
import TraceDiff.Proofs.Replay.Alignment
import TraceDiff.Proofs.Replay.Settlement
import TraceDiff.Proofs.Replay.Rejection
import TraceDiff.Proofs.Replay.Contexts
import TraceDiff.Proofs.Replay.SameBalances
import TraceDiff.Proofs.Replay.BalancesOnly
import TraceDiff.Proofs.BlockPrefix.Spared
import TraceDiff.Proofs.Extraction.Chain
import TraceDiff.Proofs.Rpc.Spelling
import TraceDiff.Proofs.Rpc.Payload
import TraceDiff.Proofs.Diff.Reading
import TraceDiff.Proofs.Extraction.First
import TraceDiff.Proofs.Baselines
import TraceDiff.Proofs.Extraction.Faults
import TraceDiff.Proofs.Client
import TraceDiff.Proofs.BlockPrefix.Faults
import TraceDiff.Proofs.Replay.Creations
import TraceDiff.Proofs.BlockPrefix.Destroyed
import TraceDiff.Proofs.BlockPrefix.Sequence
import TraceDiff.Proofs.Replay.Observations
import TraceDiff.Proofs.Diff.Assembly
import TraceDiff.Proofs.Replay.Atomicity
import TraceDiff.Proofs.Replay.Placeholders
import TraceDiff.Proofs.Address
import TraceDiff.Proofs.Node.Together
import TraceDiff.Proofs.Node.Faults
import TraceDiff.Proofs.Node.Exchanges
import TraceDiff.Proofs.Node.Interruptions
import TraceDiff.Proofs.Rpc.Interruptions
import TraceDiff.Proofs.Replay.Asked
import TraceDiff.Proofs.Extraction.Requests
import TraceDiff.Proofs.Extraction.Interruptions
import TraceDiff.Proofs.CommandLine
import TraceDiff.Proofs.Snapshots
