import TraceDiff.Proofs.Ledger
import TraceDiff.Proofs.Replay.Invariants

/-! Replays neither make nor lose money. At every point, what all accounts received and the fee are
what all accounts sent; the ledgers that frames go back to are no exception. -/
namespace TraceDiff

variable {σ : Type} {sources : Sources σ} {balancesOnly : Bool} {fee : Int}

/-- Of the entries that records make, only transfers and sweeps move money. -/
theorem Journal.Entry.conserves_of_leads {e : Entry} (recorded : e.isRecorded = true)
    {j j' : Journal} (leads : e.Leads sources j j') (h : j.ledger.Conserves fee) :
    j'.ledger.Conserves fee := by
  by_cases still : e.keepsBalances = true
  · obtain ⟨⟨credits, debits⟩, -⟩ := balances_of_leads still leads
    unfold Ledger.Conserves
    rw [credits, debits]
    exact h
  · cases e with
    | transfer a b n =>
      obtain rfl := leads
      exact h.transfer a b n
    | sweep a b =>
      obtain ⟨source, -, n, baselines, s, s', -, rfl⟩ := leads
      dsimp only
      split
      · exact h.transfer a b _
      · exact h
    | read | write | touch | reference | deploy | destroy | recordHash => exact absurd rfl still
    | credit | debit | push | pop | rollback => nomatch recorded

namespace Replay

theorem conserves_invariant : Invariant sources (Machine.Everywhere (Ledger.Conserves fee)) :=
  Machine.Everywhere.invariant fun _ recorded _ _ leads h =>
    Journal.Entry.conserves_of_leads recorded leads h

/-- What a transaction pays for its gas; nothing if there is none. -/
def feeOf (paid : Option (Transaction × Int)) : Int :=
  paid.elim 0 fun (tx, gasUsed) => gasUsed * tx.gasPrice

section

variable {paid : Option (Transaction × Int)} {root : Address}

theorem conserves_charge {tx : Transaction} {sender : Address} (pays : tx.sender = some sender)
    (gasUsed : Int) :
    (charge tx gasUsed (Machine.start root)).Everywhere
      (Ledger.Conserves (gasUsed * tx.gasPrice)) := by
  let feeOnly := Ledger.debit {} sender (gasUsed * tx.gasPrice)
  have charged : feeOnly.Conserves (gasUsed * tx.gasPrice) := by
    have debited := Ledger.conserves_empty.debit sender (gasUsed * tx.gasPrice)
    rwa [Int.zero_add] at debited
  refine ⟨?_, ?_, ?_⟩
  · simp only [charge, pays]
    exact charged.transfer sender root tx.value
  · have none : (charge tx gasUsed (Machine.start root)).journal.snapshots.held = [] := by
      simp only [charge, pays]
      rfl
    rw [none]
    exact List.forall_mem_nil _
  · intro l hl
    simp only [charge, pays] at hl
    obtain rfl := Option.some.inj hl
    exact charged

/-- Seeding, too, may come to an end early: code may be missing. Only a transaction with a sender has
somebody to pay for it. -/
theorem conserves_prepare {m : Machine} {s s' : σ} {x : Except Fault Unit}
    (pays : ∀ p ∈ paid, p.1.sender.isSome)
    (prepared : (prepare sources balancesOnly paid).outcome (Machine.start root, s) =
      (x, (m, s'))) :
    m.Everywhere (Ledger.Conserves (feeOf paid)) := by
  cases paid with
  | none =>
    obtain ⟨rfl, -⟩ := Prod.mk.inj (Prod.mk.inj prepared).2
    exact ⟨Ledger.conserves_empty, nofun, nofun⟩
  | some p =>
    obtain ⟨tx, gasUsed⟩ := p
    obtain ⟨sender, hsender⟩ := Option.isSome_iff_exists.1 (pays _ rfl)
    refine after_seed prepared ?_ (conserves_charge hsender gasUsed)
    intro e a looks m j leads h
    have recorded : e.isRecorded = true := by rcases looks with rfl | rfl <;> rfl
    exact h.note recorded leads (Journal.Entry.conserves_of_leads recorded leads h.live)

/-- The ledger conserves money in the machine that a replay starts from, after every record, and
wherever the replay ends or fails. -/
def ConservesThroughout (sources : Sources σ) (balancesOnly : Bool) (fee : Int)
    (records : List Record) (failed : Bool) (w : Machine × σ) : Prop :=
  w.1.journal.ledger.Conserves fee ∧
    (∀ w' ∈ trail sources balancesOnly 0 records (anchor w.1, w.2),
      w'.1.journal.ledger.Conserves fee) ∧
    ((replay sources balancesOnly records failed).outcome w).2.1.journal.ledger.Conserves fee

theorem conservesThroughout_of_prepare (pays : ∀ p ∈ paid, p.1.sender.isSome)
    (records : List Record) (failed : Bool) (s : σ) :
    ConservesThroughout sources balancesOnly (feeOf paid) records failed
      ((prepare sources balancesOnly paid).outcome (Machine.start root, s)).2 := by
  rcases prepared : (prepare sources balancesOnly paid).outcome (Machine.start root, s)
    with ⟨x, m, s'⟩
  have h := conserves_prepare pays prepared
  have inv : Invariant sources (Machine.Everywhere (Ledger.Conserves (feeOf paid))) :=
    conserves_invariant
  refine ⟨h.live, ?_, ?_⟩
  · intro w hw
    exact (inv.trail 0 records (inv.anchor m h) w hw).live
  · exact (inv.keeps_replay records failed m s' h).live

end

end Replay

end TraceDiff
