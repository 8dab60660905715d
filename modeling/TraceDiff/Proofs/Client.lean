import TraceDiff.Client
import TraceDiff.Rpc.Creation
import TraceDiff.Proofs.Replay.Alignment
import TraceDiff.Proofs.Rpc.Spelling

/-! Clients that answer with values of the right types, or with faults of the chain; and the faults
that are reports on what was found. -/
namespace TraceDiff

variable {σ α β : Type}

namespace Fault

/-- The fault is a report on a trace, a balance or the chain, and does not tell that frames and
snapshots do not match. -/
def IsReport (f : Fault) : Prop := f.isExtraction = true ∧ f.isMisaligned = false

/-- The fault is a report, or what comes of a report that tells numbers of a kind. -/
def Reported (Q : List Rpc.Value → Prop) (f : Fault) : Prop :=
  f.IsReport ∨ f = .tooManyDigits none ∧
    ∃ numbers, Q numbers ∧ numbers.all Rpc.Value.isWritable = false

/-- A fault of the chain, for whatever reason. -/
def IsChain (f : Fault) : Prop := ∃ cause, f = .chain cause

theorem IsChain.isReport {f : Fault} (h : f.IsChain) : f.IsReport := by
  obtain ⟨cause, rfl⟩ := h
  exact ⟨rfl, rfl⟩

theorem IsLack.isReport {f : Fault} (h : f.IsLack true) : f.IsReport := by
  obtain ⟨-, defect, op, rfl, aligned⟩ | ⟨untold, -⟩ := h
  · exact ⟨rfl, aligned⟩
  · nomatch untold

theorem Reported.mono {Q Q' : List Rpc.Value → Prop} {f : Fault} (h : f.Reported Q)
    (wider : ∀ numbers, Q numbers → Q' numbers) : f.Reported Q' :=
  h.imp_right fun ⟨tooLong, numbers, told, long⟩ => ⟨tooLong, numbers, wider numbers told, long⟩

end Fault

/-- The numbers that the report of an underflow tells. -/
def Underflow.numbers (u : Underflow) : List Rpc.Value := [u.pre, .int u.credit, .int u.debit]

/-- All numbers that the report of an underflow tells can be written. -/
def Underflow.isWritable (u : Underflow) : Bool :=
  u.numbers.all Rpc.Value.isWritable

section Typed

/-- The sender is there, the accounts are written in lower case, and the nonce is not negative. -/
structure Transaction.Typed (tx : Transaction) : Prop where
  sender : ∃ a, tx.sender = some a ∧ a.Canonical
  target : ∀ a ∈ tx.target, a.Canonical
  nonce : 0 ≤ tx.nonce.value

def Block.Typed (block : Block) : Prop := ∀ tx ∈ block.transactions, tx.Typed

/-- The record has a name, and its stack holds words. -/
structure Record.Typed (r : Record) : Prop where
  op : ∃ name, r.op = .text name
  stack : ∀ q ∈ r.stack, Word.Fits q.value

def Trace.Typed (trace : Trace) : Prop := ∀ r ∈ trace.records, r.Typed

/-- `p` ends with an answer of a kind, or with a fault of the chain. -/
def Asking.Gives (p : Asking σ α) (good : α → Prop) : Prop :=
  p.Safe (fun _ => True) good Fault.IsChain

/-- The client answers with values of the right types, and with all the balances and traces that it
was asked for. -/
structure Client.Typed (client : Client σ) : Prop where
  transaction : ∀ id, (client.transaction id).Gives Transaction.Typed
  block : ∀ id full, (client.block id full).Gives Block.Typed
  code : ∀ a id, (client.code a id).Gives fun _ => True
  balance : ∀ a id, (client.balance a id).Gives fun _ => True
  balances : ∀ addresses id, (client.balances addresses id).Gives fun known =>
    ∀ a ∈ addresses, a ∈ known
  trace : ∀ id, (client.trace id).Gives Trace.Typed
  traces : ∀ ids, (client.traces ids).Gives fun traces =>
    traces.length = ids.length ∧ ∀ trace ∈ traces, trace.Typed

/-- Some time `p` gives this answer. -/
def Asking.MayGive (p : Asking σ α) (a : α) : Prop := ∃ s, (p.outcome s).1 = .ok a

theorem Asking.Gives.safe {p : Asking σ α} {good : α → Prop} (h : p.Gives good)
    (Q : List Rpc.Value → Prop) : p.Safe (fun _ => True) good (Fault.Reported Q) :=
  h.mono (fun _ ha => ha) fun _ hf => .inl hf.isReport

/-- The digits of an address are read as bytes. -/
theorem Rpc.bytesOfHex_of_canonical {a : Address} (canonical : a.Canonical) :
    ∃ b, bytesOfHex a.text.toList = .ok b := by
  obtain ⟨digits, length, lower, rfl⟩ := canonical
  have hex : ∀ c ∈ digits, Text.Hex.isDigit c = true := fun c hc =>
    (Bool.and_eq_true_iff.1 (lower c hc)).1
  have dropped : Address.dropMarker (Address.ofDigits digits).text.toList = digits := by
    simp [Address.ofDigits, Address.dropMarker]
  obtain ⟨b, read, -⟩ := bytesOfHex_of_digits dropped hex
  exact ⟨b, read⟩

theorem Transaction.Typed.account {tx : Transaction} (typed : tx.Typed) (kind : Fault → Prop) :
    Within (fun _ => True) kind tx.account := by
  obtain ⟨sender, sent, canonical⟩ := typed.sender
  unfold Transaction.account
  cases tx.target with
  | some target => trivial
  | none =>
    obtain ⟨b, read⟩ := Rpc.bytesOfHex_of_canonical canonical
    simp only [sent, Rpc.createAddress, read, Rpc.Value.item, if_pos typed.nonce]
    trivial

end Typed

end TraceDiff
