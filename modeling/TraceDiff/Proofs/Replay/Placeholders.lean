import TraceDiff.Proofs.Extraction
import TraceDiff.Proofs.Replay.Alignment
import TraceDiff.Proofs.Replay.Observations
import TraceDiff.Proofs.Replay.Origins

/-! Whose accounts the state after a replay is about. A creation that failed runs as the zero
address, and may write as that one; but it leaves nothing behind. For the frames that run so lie at
or above the frame of a failed creation, and what the ledger came to there is undone when that frame
closes, however it does. -/
namespace TraceDiff

variable {σ : Type} {sources : Sources σ} {balancesOnly failed : Bool} {K : Address → Prop}

theorem AddressMap.of_mem_insert {β : Type} {m : AddressMap β} {a b : Address} {x : β}
    (h : b ∈ m.insert a x) : b ∈ m ∨ b = a := by
  rw [Std.ExtTreeMap.mem_insert, Std.LawfulEqCmp.compare_eq_iff_eq] at h
  exact h.symm.imp_right Eq.symm

theorem AddressSet.of_mem_insert {s : AddressSet} {a b : Address} (h : b ∈ s.insert a) :
    b ∈ s ∨ b = a := by
  rw [Std.ExtTreeSet.mem_insert, Std.LawfulEqCmp.compare_eq_iff_eq] at h
  exact h.symm.imp_right Eq.symm

namespace Ledger

/-- The account occurs in one of the maps. -/
def Mentions (l : Ledger) (a : Address) : Prop :=
  a ∈ l.storage ∨ a ∈ l.code ∨ a ∈ l.credits ∨ a ∈ l.debits

variable {l : Ledger} {a b : Address}

theorem mentions_write {k : Int} {v : Rpc.Quantity} (h : (l.write a k v).Mentions b) :
    l.Mentions b ∨ b = a := by
  rcases h with h | h
  · exact (AddressMap.of_mem_insert h).imp_left .inl
  · exact .inl (.inr h)

theorem mentions_setCode {code : Bytes} (h : (l.setCode a code).Mentions b) :
    l.Mentions b ∨ b = a := by
  rcases h with h | h | h
  · exact .inl (.inl h)
  · exact (AddressMap.of_mem_insert h).imp_left fun h => .inr (.inl h)
  · exact .inl (.inr (.inr h))

theorem of_mem_addTo {sums : Balances} {n : Int} (h : b ∈ addTo sums a n) : b ∈ sums ∨ b = a := by
  unfold addTo at h
  split at h
  · exact .inl h
  · exact AddressMap.of_mem_insert h

theorem mentions_credit {n : Int} (h : (l.credit a n).Mentions b) : l.Mentions b ∨ b = a := by
  rcases h with h | h | h | h
  · exact .inl (.inl h)
  · exact .inl (.inr (.inl h))
  · exact (of_mem_addTo h).imp_left fun h => .inr (.inr (.inl h))
  · exact .inl (.inr (.inr (.inr h)))

theorem mentions_debit {n : Int} (h : (l.debit a n).Mentions b) : l.Mentions b ∨ b = a := by
  rcases h with h | h | h | h
  · exact .inl (.inl h)
  · exact .inl (.inr (.inl h))
  · exact .inl (.inr (.inr (.inl h)))
  · exact (of_mem_addTo h).imp_left fun h => .inr (.inr (.inr h))

end Ledger

/-- The account was observed in some way. -/
def Observations.Mentions (o : Observations) (a : Address) : Prop :=
  a ∈ o.touched ∨ a ∈ o.preStorage ∨ a ∈ o.preCode

namespace Journal

theorem mentions_iff {j : Journal} {a : Address} :
    j.Mentions a ↔ j.observations.Mentions a ∨ j.ledger.Mentions a := by
  unfold Mentions Observations.Mentions Ledger.Mentions observations
  tauto

/-- On the way from one journal to another only accounts of `A` come into the ledger, and only those
of `B` are observed anew. -/
structure Gains (A B : Address → Prop) (j j' : Journal) : Prop where
  mentioned : ∀ b, j'.ledger.Mentions b → j.ledger.Mentions b ∨ A b
  observed : ∀ b, j'.observations.Mentions b → j.observations.Mentions b ∨ B b

variable {A A' B B' : Address → Prop} {j j' j'' : Journal} {a b : Address}

theorem Gains.of_same (ledger : j'.ledger = j.ledger)
    (observed : ∀ a, j'.observations.Mentions a → j.observations.Mentions a) : j.Gains A B j' :=
  ⟨fun _ h => .inl (ledger ▸ h), fun b h => .inl (observed b h)⟩

theorem Gains.trans (first : j.Gains A B j') (second : j'.Gains A B j'') : j.Gains A B j'' where
  mentioned b h := (second.mentioned b h).elim (first.mentioned b) .inr
  observed b h := (second.observed b h).elim (first.observed b) .inr

theorem Gains.mono (gains : j.Gains A B j') (altered : ∀ b, A b → A' b) (seen : ∀ b, B b → B' b) :
    j.Gains A' B' j' where
  mentioned b h := (gains.mentioned b h).imp_right (altered b)
  observed b h := (gains.observed b h).imp_right (seen b)

theorem gains_touch (j : Journal) (a : Address) : j.Gains A (· = a) (j.touch a) where
  mentioned _ h := .inl h
  observed b h := by
    rcases h with h | h
    · exact (AddressSet.of_mem_insert h).imp_left .inl
    · exact .inl (.inr h)

theorem gains_debit (j : Journal) (a : Address) (n : Int) :
    j.Gains (· = a) (· = a) (j.debit a n) where
  mentioned _ h := Ledger.mentions_debit h
  observed b h := (j.gains_touch (A := fun _ => False) a).observed b h

theorem gains_credit (j : Journal) (a : Address) (n : Int) :
    j.Gains (· = a) (· = a) (j.credit a n) where
  mentioned _ h := Ledger.mentions_credit h
  observed b h := (j.gains_touch (A := fun _ => False) a).observed b h

theorem gains_transfer (j : Journal) (a b : Address) (n : Int) :
    j.Gains (fun c => c = a ∨ c = b) (fun c => c = a ∨ c = b) (j.transfer a b n) :=
  ((j.gains_debit a n).mono (fun _ => .inl) fun _ => .inl).trans
    (((j.debit a n).gains_credit b n).mono (fun _ => .inr) fun _ => .inr)

theorem gains_read (j : Journal) (a : Address) (k : Int) (v : Rpc.Quantity) :
    j.Gains A (· = a) (j.read a k v) := by
  refine ⟨fun b h => .inl (j.ledger_read a k v ▸ h), fun b h => ?_⟩
  unfold read at h
  split at h
  · exact .inl h
  · rcases h with h | h | h
    · exact .inl (.inl h)
    · exact (AddressMap.of_mem_insert h).imp_left fun h => .inr (.inl h)
    · exact .inl (.inr (.inr h))

namespace Entry

/-- The entry can bring the account into the ledger. -/
def Alters : Entry → Address → Prop
  | write a _ _, b | deploy a, b | destroy a, b | credit a _, b | debit a _, b => b = a
  | transfer a c _, b | sweep a c, b => b = a ∨ b = c
  | _, _ => False

/-- The entry can observe the account. -/
def Sees : Entry → Address → Prop
  | read a _ _, b | touch a, b | reference a, b | credit a _, b | debit a _, b => b = a
  | transfer a c _, b | sweep a c, b => b = a ∨ b = c
  | _, _ => False

/-- An entry brings no account into the journal that it does not name. -/
theorem gains_of_apply {e : Entry} {s s' : σ} (flat : e.isFlat = true)
    (applied : (e.apply sources j).outcome s = (.ok j', s')) : j.Gains e.Alters e.Sees j' := by
  have leads := leads_of_apply applied
  cases e with
  | read a k v =>
    obtain rfl := leads
    exact j.gains_read a k v
  | write a k v =>
    obtain rfl := leads
    exact ⟨fun _ h => Ledger.mentions_write h, fun _ => .inl⟩
  | touch a =>
    obtain rfl := leads
    exact j.gains_touch a
  | credit a n =>
    obtain rfl := leads
    exact j.gains_credit a n
  | debit a n =>
    obtain rfl := leads
    exact j.gains_debit a n
  | transfer a b n =>
    obtain rfl := leads
    exact j.gains_transfer a b n
  | sweep a b =>
    obtain ⟨source, -, n, baselines, -, -, -, rfl⟩ := leads
    have known : j.Gains (Entry.sweep a b).Alters (Entry.sweep a b).Sees { j with baselines } :=
      .of_same rfl fun _ => id
    dsimp only
    split
    · exact known.trans (gains_transfer { j with baselines } a b _)
    · exact known
  | reference a =>
    rcases apply_reference_eq_ok applied with ⟨rfl, -⟩ | ⟨-, source, -, code, -, rfl⟩
    · exact .of_same rfl fun _ => id
    · refine ⟨fun _ => .inl, fun b h => ?_⟩
      rcases h with h | h | h
      · exact .inl (.inl h)
      · exact .inl (.inr (.inl h))
      · exact (AddressMap.of_mem_insert h).imp_left fun h => .inr (.inr h)
  | deploy a =>
    rcases apply_deploy_eq_ok applied with ⟨rfl, -⟩ | ⟨source, -, code, -, rfl⟩
    · exact .of_same rfl fun _ => id
    · exact ⟨fun _ h => Ledger.mentions_setCode h, fun _ => .inl⟩
  | destroy a =>
    obtain rfl := leads
    exact ⟨fun _ h => Ledger.mentions_setCode h, fun _ => .inl⟩
  | recordHash number word =>
    obtain ⟨hashes, truths, rfl⟩ := leads
    exact .of_same rfl fun _ => id
  | push | pop | rollback => nomatch flat

end Entry

end Journal

namespace Replay

/-- A creation that failed is among the frames, so that what happens in the innermost is undone. -/
def Doomed (frames : List Frame) : Prop := ∃ f ∈ frames, f.isFailedCreation = true

theorem not_doomed_nil : ¬ Doomed [] := by simp [Doomed]

theorem doomed_cons {f : Frame} {outer : List Frame} :
    Doomed (f :: outer) ↔ f.isFailedCreation = true ∨ Doomed outer := by simp [Doomed]

end Replay

open Replay (Doomed Creates IsOwn doomed_cons not_doomed_nil)

/-- The ledger is about accounts of `K` alone, unless it is to be undone. -/
def Ledger.About (K : Address → Prop) (frames : List Frame) (l : Ledger) : Prop :=
  ¬ Doomed frames → ∀ a, l.Mentions a → K a

namespace Journal.Entry.Stems

variable {scope : Replay.Scope} {top : Frame} {r : Record} {later : List Record} {e : Entry}
  {a : Address}

theorem isFlat (stems : e.Stems scope top r later) : e.isFlat = true := by
  cases e <;> first | rfl | exact stems.elim

theorem sees (stems : e.Stems scope top r later) (seen : e.Sees a) :
    IsOwn top a ∨ r.Names a ∨ Creates r later a := by
  cases e with
  | read b k v =>
    obtain rfl := seen
    exact .inl stems
  | touch b =>
    obtain rfl := seen
    exact stems.imp_right .inl
  | reference b =>
    obtain rfl := seen
    exact .inr (.inl stems.2)
  | transfer b c n =>
    rcases seen with rfl | rfl
    · exact .inl stems.1
    · exact .inr stems.2
  | sweep b c =>
    rcases seen with rfl | rfl
    · exact .inl stems.1
    · exact .inr (.inl stems.2)
  | credit | debit => exact stems.elim
  | write | deploy | destroy | recordHash | push | pop | rollback => exact seen.elim

/-- A write is made as the account that the frame runs as, be it a real one or not. -/
theorem alters (stems : e.Stems scope top r later) (altered : e.Alters a) :
    a = top.address ∨ r.Names a ∨ Creates r later a := by
  cases e with
  | write b k v =>
    obtain rfl := altered
    exact .inl stems
  | transfer b c n =>
    rcases altered with rfl | rfl
    · exact .inl stems.1.1
    · exact .inr stems.2
  | sweep b c =>
    rcases altered with rfl | rfl
    · exact .inl stems.1.1
    · exact .inr (.inl stems.2)
  | deploy b =>
    obtain rfl := altered
    exact .inr (.inr stems.2)
  | destroy b =>
    obtain rfl := altered
    exact .inl stems.2.1
  | credit | debit => exact stems.elim
  | read | touch | reference | recordHash | push | pop | rollback => exact altered.elim

end Journal.Entry.Stems

namespace Replay

/-- Each frame runs as an account of `K`, or else what happens in it is to be undone. The ledger
that it opened over is held for it. -/
inductive Opened (K : Address → Prop) : List Frame → List Ledger → Prop
  | root : Opened K [] []
  | frame {f : Frame} {outer : List Frame} {l : Ledger} {older : List Ledger}
      (real : f.placeholder = false → K f.address)
      (doomed : f.placeholder = true → Doomed (f :: outer)) (below : l.About K outer)
      (opened : Opened K outer older) : Opened K (f :: outer) (l :: older)

/-- All that the machine keeps is about accounts of `K`, or it is to be undone. -/
structure Machine.About (K : Address → Prop) (m : Machine) : Prop where
  live : m.journal.ledger.About K m.frames.inner
  opened : Opened K m.frames.inner m.journal.snapshots.held
  observed : ∀ a, m.journal.observations.Mentions a → K a
  base : ∀ l ∈ m.rootLedger, ∀ a, l.Mentions a → K a
  root : m.frames.root.placeholder = false ∧ K m.frames.root.address

namespace Machine.About

variable {m m' : Machine}

/-- The current frame runs as an account of `K`, or what happens in it is to be undone. -/
theorem top (h : m.About K) : (m.frames.top.placeholder = false → K m.frames.top.address) ∧
    (m.frames.top.placeholder = true → Doomed m.frames.inner) := by
  have opened := h.opened
  have top : m.frames.top = m.frames.inner.head?.getD m.frames.root := rfl
  rw [top]
  generalize m.frames.inner = inner, m.journal.snapshots.held = held at opened
  cases opened with
  | root => exact ⟨fun _ => h.root.2, fun fake => absurd fake (by simp [h.root.1])⟩
  | frame real doomed below opened => exact ⟨real, doomed⟩

/-- As frames return, a failed creation goes back to the ledger that it opened over; any other frame
is no reason to undo the ledger. -/
theorem settle {j j' : Journal} {closed outer : List Frame}
    (settled : Machine.settle j closed = .ok j')
    (live : j.ledger.About K (closed ++ outer))
    (opened : Opened K (closed ++ outer) j.snapshots.held) :
    j'.ledger.About K outer ∧ Opened K outer j'.snapshots.held := by
  induction closed generalizing j with
  | nil =>
    obtain rfl := Except.ok.inj settled
    exact ⟨live, opened⟩
  | cons f closed ih =>
    obtain ⟨l, older, hheld, settled⟩ := Machine.settle_cons_eq_ok settled
    rw [hheld] at opened
    cases opened with
    | frame real doomed below opened =>
      refine ih settled ?_ (by rwa [Journal.held_returned])
      rw [Journal.ledger_returned]
      split
      · exact below
      · next returns =>
        intro safe
        refine live fun doomed => ?_
        exact (doomed_cons.1 doomed).elim returns safe

theorem returnTo {depth : Int} (returned : m.returnTo depth = .ok m') (h : m.About K) :
    m'.About K := by
  have same := observations_of_returnTo returned
  obtain ⟨j, settled, rfl⟩ := Machine.returnTo_eq_ok returned
  have split : (m.frames.unwind depth).1 ++ (m.frames.unwind depth).2.inner = m.frames.inner :=
    List.take_append_drop _ _
  obtain ⟨live, opened⟩ := settle settled (split ▸ h.live) (split ▸ h.opened)
  exact ⟨live, opened, same ▸ h.observed, h.base, h.root⟩

theorem abortRoot (h : m.About K) : m.abortRoot.About K := by
  unfold Machine.abortRoot
  split
  · exact h
  · refine ⟨fun safe => ?_, h.opened, h.observed, h.base, h.root⟩
    cases base : m.rootLedger with
    | none => exact h.live safe
    | some l => exact h.base l base

theorem abort (aborted : m.abort = .ok m') (h : m.About K) : m'.About K := by
  rcases Machine.abort_eq_ok aborted with ⟨-, rfl⟩ | ⟨f, outer, l, older, inner, held, rfl⟩
  · exact h.abortRoot
  · have opened := h.opened
    rw [inner, held] at opened
    cases opened with
    | frame real doomed below opened => exact ⟨below, opened, h.observed, h.base, h.root⟩

theorem arrive {r : Record} (arrived : m.arrive r = .ok m') (h : m.About K) : m'.About K := by
  obtain ⟨-, m₁, returned, rfl⟩ := Machine.arrive_eq_ok arrived
  have h₁ := h.returnTo returned
  exact ⟨h₁.live, h₁.opened, h₁.observed, h₁.base, h₁.root⟩

theorem anchor (h : m.About K) (outermost : m.frames.inner = []) : (anchor m).About K := by
  refine ⟨h.live, h.opened, h.observed, ?_, h.root⟩
  intro l hl
  cases base : m.rootLedger with
  | none =>
    obtain rfl : m.journal.ledger = l := by simpa [Replay.anchor, base] using hl
    exact h.live (outermost ▸ not_doomed_nil)
  | some l₁ =>
    obtain rfl : l₁ = l := by simpa [Replay.anchor, base] using hl
    exact h.base l₁ base

/-- A frame may open as an account of `K`, or as none for a creation that failed. -/
theorem enter {o : Opcode} {a : Address} {p : Bool} (real : p = false → K a)
    (creates : p = true → o.isCreate = true) (h : m.About K) : (m.enter o a p).About K := by
  obtain ⟨topReal, topDoomed⟩ := h.top
  refine ⟨fun safe => h.live fun doomed => safe (doomed_cons.2 (.inr doomed)), ?_, h.observed,
    h.base, h.root⟩
  refine .frame ?_ ?_ h.live h.opened
  · unfold CallStack.opened
    split
    · exact topReal
    · exact real
  · intro fake
    rw [doomed_cons, CallStack.isFailedCreation_opened]
    unfold CallStack.opened at fake
    split at fake
    · exact .inr (topDoomed fake)
    · exact .inl (by rw [show p = true from fake, creates fake]; rfl)

/-- What an entry brings into the ledger may be about any account if it is to be undone. -/
theorem note {e : Journal.Entry} {j : Journal} {s s' : σ} (flat : e.isFlat = true)
    (applied : (e.apply sources m.journal).outcome s = (.ok j, s'))
    (altered : ¬ Doomed m.frames.inner → ∀ a, e.Alters a → K a) (seen : ∀ a, e.Sees a → K a)
    (h : m.About K) : ({ m with journal := j } : Machine).About K := by
  have gains := Journal.Entry.gains_of_apply flat applied
  have held := Journal.snapshots_of_leads flat (Journal.Entry.leads_of_apply applied)
  refine ⟨fun safe a ha => ?_, ?_, fun a ha => ?_, h.base, h.root⟩
  · exact (gains.mentioned a ha).elim (h.live safe a) (altered safe a)
  · rw [held]
    exact h.opened
  · exact (gains.observed a ha).elim (h.observed a) (seen a)

/-- An effect of a record is about the frame that the record was read in, even if it happens in one
that the record opened. -/
theorem apply {scope : Scope} {top : Frame} {e : Effect} {r : Record} {later : List Record}
    {s s' : σ} (stems : e.Stems scope top r later) (lasts : e ≠ .abort)
    (own : (top.placeholder = false → K top.address) ∧
      (top.placeholder = true → Doomed m.frames.inner))
    (known : ∀ a, r.Names a ∨ Creates r later a → K a)
    (applied : (m.apply sources e).outcome s = (.ok m', s')) (h : m.About K) :
    m'.About K ∧ (Doomed m.frames.inner → Doomed m'.frames.inner) := by
  cases e with
  | abort => exact absurd rfl lasts
  | enter o a p =>
    obtain rfl := Except.ok.inj (Prod.mk.inj applied).1
    refine ⟨h.enter ?_ ?_, fun doomed => doomed_cons.2 (.inr doomed)⟩
    · rintro rfl
      exact known a stems
    · rintro rfl
      exact stems.2
  | note entry =>
    obtain ⟨j, done, rfl⟩ := Machine.apply_note_eq_ok.1 applied
    refine ⟨h.note (Journal.Entry.Stems.isFlat stems) done ?_ ?_, id⟩
    · intro safe a altered
      rcases Journal.Entry.Stems.alters stems altered with rfl | origin
      · exact own.1 (Bool.eq_false_iff.2 fun fake => safe (own.2 fake))
      · exact known a origin
    · intro a seen
      rcases Journal.Entry.Stems.sees stems seen with ⟨rfl, real⟩ | origin
      · exact own.1 real
      · exact known a origin

end Machine.About

section Run

variable {r : Record} {later records : List Record}

theorem keeps_about (known : ∀ a, r.Names a ∨ Creates r later a → K a) (i : Nat) :
    Keeps (Machine.About K) (step sources balancesOnly i r later) := by
  refine keeps_step (fun _ _ arrived h => h.arrive arrived) ?_ i
  intro m effects read h s
  rcases Effect.abort_or_makes read with ⟨-, rfl⟩ | lasting
  · refine keeps_performAll (P := Machine.About K) (fun e he => ?_) m s h
    obtain rfl := List.mem_singleton.1 he
    exact fun _ _ _ _ applied h => h.abort (Prod.mk.inj applied).1
  · have stems := Effect.allStem_ofRecord read
    obtain ⟨real, doomed⟩ := h.top
    -- a record may open a frame, and then make entries about the one that it was read in
    have kept : Keeps (fun x : Machine => x.About K ∧
        (m.frames.top.placeholder = true → Doomed x.frames.inner))
        (performAll sources effects) := by
      refine keeps_performAll fun e he x t x' t' applied ⟨about, doomed⟩ => ?_
      have lasts : e ≠ .abort := by
        rintro rfl
        exact lasting _ he
      obtain ⟨about', stays⟩ := about.apply (stems e he) lasts ⟨real, doomed⟩ known applied
      exact ⟨about', fun fake => stays (doomed fake)⟩
    exact (kept m s ⟨h, doomed⟩).1

/-- The accounts that a replay can be about: the one that the transaction goes to, its sender, and
those that records name or show to be created. -/
inductive Known (root : Address) (paid : Option (Transaction × Int)) (records : List Record) :
    Address → Prop
  | root : Known root paid records root
  | sender {p : Transaction × Int} {a : Address} (there : p ∈ paid) (sent : p.1.sender = some a) :
    Known root paid records a
  | named {r : Record} {a : Address} (there : r ∈ records) (names : r.Names a) :
    Known root paid records a
  | created {r : Record} {later : List Record} {a : Address} (there : r :: later <:+ records)
    (creates : Creates r later a) : Known root paid records a

variable {root : Address} {paid : Option (Transaction × Int)} {s : σ} {began : Except Fault Unit}
  {w w' : Machine × σ}

theorem gains_charge (tx : Transaction) (gasUsed : Int) (m : Machine) :
    let A (a : Address) := tx.sender = some a ∨ a = m.frames.root.address
    ∃ j, (charge tx gasUsed m).rootLedger = some j.ledger ∧ m.journal.Gains A A j ∧
      m.journal.Gains A A (charge tx gasUsed m).journal := by
  intro A
  have debited (j : Journal) (n : Int) : j.Gains A A (j.debitBy tx.sender n) := by
    cases sent : tx.sender with
    | none => exact .of_same rfl fun _ => id
    | some sender =>
      refine (j.gains_debit sender n).mono ?_ ?_ <;> rintro _ rfl <;> exact .inl sent
  have touched (j : Journal) : j.Gains A A (j.touch m.frames.root.address) :=
    (j.gains_touch (A := A) _).mono (fun _ => id) fun _ => .inr
  have credited (j : Journal) (n : Int) : j.Gains A A (j.credit m.frames.root.address n) :=
    (j.gains_credit _ n).mono (fun _ => .inr) fun _ => .inr
  have charged := (debited m.journal (gasUsed * tx.gasPrice)).trans (touched _)
  rw [charge_eq]
  exact ⟨_, rfl, charged, (charged.trans (debited _ tx.value)).trans (credited _ tx.value)⟩

theorem about_start (known : K root) : (Machine.start root).About K := by
  have blank : ∀ a, ¬ (Machine.start root).journal.Mentions a := by
    simp [Machine.start, Journal.Mentions]
  refine ⟨fun _ a h => ?_, .root, fun a h => ?_, fun _ hl => ?_, rfl, known⟩
  · exact absurd (Journal.mentions_iff.2 (.inr h)) (blank a)
  · exact absurd (Journal.mentions_iff.2 (.inl h)) (blank a)
  · exact absurd hl (Option.not_mem_none _)

theorem about_charge {tx : Transaction} (gasUsed : Int)
    (party : ∀ a, tx.sender = some a ∨ a = root → K a) :
    (charge tx gasUsed (.start root)).About K := by
  have start := about_start (party root (.inr rfl))
  obtain ⟨j, base, charged, seeded⟩ := gains_charge tx gasUsed (.start root)
  refine ⟨fun safe a h => ?_, ?_, fun a h => ?_, ?_, start.root⟩
  · exact (seeded.mentioned a h).elim (start.live safe a) (party a)
  · rw [snapshots_charge]
    exact .root
  · exact (seeded.observed a h).elim (start.observed a) (party a)
  · intro l hl a h
    obtain rfl : j.ledger = l := Option.some.inj (base.symm.trans hl)
    exact (charged.mentioned a h).elim (start.live not_doomed_nil a) (party a)

theorem about_of_prepare
    (prepared : (prepare sources balancesOnly paid).outcome (.start root, s) = (began, w))
    (known : ∀ a, Known root paid [] a → K a) : w.1.About K := by
  cases paid with
  | none =>
    obtain ⟨-, rfl⟩ := Prod.mk.inj prepared
    exact about_start (known root .root)
  | some p =>
    obtain ⟨tx, gasUsed⟩ := p
    have party : ∀ a, tx.sender = some a ∨ a = root → K a := by
      rintro a (sent | rfl)
      · exact known a (.sender rfl sent)
      · exact known a .root
    have kept : Keeps (Machine.About K) (performAll sources
        ((seeding (scopeOf sources balancesOnly) tx root).map .note)) := by
      refine keeps_performAll fun e he m t m' t' applied h => ?_
      obtain ⟨entry, hentry, rfl⟩ := List.mem_map.1 he
      obtain ⟨j, done, rfl⟩ := Machine.apply_note_eq_ok.1 applied
      rcases of_mem_seeding hentry with rfl | rfl
      · exact h.note rfl done (fun _ a same => same ▸ known root .root) nofun
      · exact h.note rfl done (fun _ => nofun) fun a same => same ▸ known root .root
    simp only [prepare, outcome_seed] at prepared
    exact kept.after prepared (about_charge gasUsed party)

/-- All accounts in the state after a replay are known from the transaction and the trace. -/
theorem known_of_replay
    (prepared : (prepare sources balancesOnly paid).outcome (.start root, s) = (began, w))
    (replayed : (replay sources balancesOnly records failed).outcome w = (.ok (), w')) :
    ∀ a, w'.1.journal.Mentions a → Known root paid records a := by
  obtain ⟨m, t⟩ := w
  obtain ⟨m', t'⟩ := w'
  have about : m.About (Known root paid records) := by
    refine about_of_prepare prepared fun a known => ?_
    cases known with
    | root => exact .root
    | sender there sent => exact .sender there sent
    | named there => nomatch there
    | created there => nomatch List.suffix_nil.1 there
  have outermost : m.frames.inner = [] := by
    rw [(Machine.unused_prepare prepared).frames]
    rfl
  obtain ⟨m₁, ran, finished⟩ := replay_eq_ok.1 replayed
  obtain ⟨m₂, returned, rfl⟩ := finish_eq_ok.1 finished
  have kept : Keeps (Machine.About (Known root paid records))
      (steps sources balancesOnly 0 records) := by
    refine keeps_steps (fun i r later there => keeps_about (fun a origin => ?_) i) 0
    rcases origin with names | creates
    · exact .named (there.mem List.mem_cons_self) names
    · exact .created there creates
  have ended := ((kept.after ran (about.anchor outermost)).returnTo returned)
  have closed := Machine.root_of_returnTo returned
  have final : (if failed then m₂.abortRoot else m₂).About (Known root paid records) ∧
      (if failed then m₂.abortRoot else m₂).frames.inner = [] := by
    split
    · exact ⟨ended.abortRoot, by rw [m₂.frames_abortRoot, closed]⟩
    · exact ⟨ended, closed⟩
  obtain ⟨about, inner⟩ := final
  intro a mentioned
  rcases Journal.mentions_iff.1 mentioned with seen | held
  · exact about.observed a seen
  · exact about.live (inner ▸ not_doomed_nil) a held

theorem ne_zero_of_createdAddress {a : Address} (created : createdAddress r later = .ok (some a)) :
    a ≠ .zero := by
  induction later with
  | nil => nomatch created
  | cons next later ih =>
    unfold createdAddress at created
    split at created
    · obtain ⟨word, -, created⟩ := bind_eq_ok.1 created
      dsimp only at created
      split at created
      · cases created
      · next real =>
        obtain rfl := Option.some.inj (Except.ok.inj created)
        exact real
    · exact ih created

/-- A failed creation does not leak the zero address. If neither the transaction nor a record names
it, a replay that comes through ends in a state that does not mention it, whatever was opened inside
the creations that failed. -/
theorem zero_unmentioned (real : root ≠ .zero) (sent : ∀ p ∈ paid, p.1.sender ≠ some .zero)
    (named : ∀ r ∈ records, ∀ word, r.NamesWord word → word % Word.addressBound ≠ 0)
    (prepared : (prepare sources balancesOnly paid).outcome (.start root, s) = (began, w))
    (replayed : (replay sources balancesOnly records failed).outcome w = (.ok (), w')) :
    let j := w'.1.journal
    Address.zero ∉ j.accounts ∧
      (Address.zero ∉ j.ledger.storage ∧ Address.zero ∉ j.ledger.code ∧
        Address.zero ∉ j.ledger.credits ∧ Address.zero ∉ j.ledger.debits) ∧
      Address.zero ∉ j.preStorage ∧ Address.zero ∉ j.preCode ∧ Address.zero ∉ j.touched := by
  intro j
  have unmentioned : ¬ j.Mentions .zero := by
    intro mentioned
    have known := known_of_replay prepared replayed _ mentioned
    generalize same : Address.zero = a at known
    cases known with
    | root => exact real same.symm
    | sender there from_zero => exact sent _ there (same ▸ from_zero)
    | named there names =>
      obtain ⟨word, names, rfl⟩ := names
      exact named _ there word names (Address.ofWord_eq_zero_iff.1 same.symm)
    | created there creates => exact ne_zero_of_createdAddress creates same.symm
  refine ⟨mt Journal.mem_accounts.1 unmentioned, ?_⟩
  simp only [Journal.Mentions, not_or] at unmentioned
  obtain ⟨touched, credits, debits, preStorage, storage, preCode, code⟩ := unmentioned
  exact ⟨⟨storage, code, credits, debits⟩, preStorage, preCode, touched⟩

/-- A creation that fails after it wrote, ran foreign code as itself, and there created an account
that wrote as well. -/
def nestedCreations : List Record :=
  [.named .create 1 [0], .named .sstore 2 [5, 9], .named .delegatecall 2 [0, 3],
    .named .sstore 3 [6, 9], .named .create 3 [4], .named .sstore 4 [7, 1], .idle 3 [8],
    .idle 1 [0]]

/-- The machine that a transaction seeded. -/
def seededBySender : Machine × Unit :=
  ((prepare .sevenEach false (some (Extraction.sender, 3))).outcome (.start (.ofNat 1), ())).2

theorem zero_unmentioned_nestedCreations :
    let ended := (replay .sevenEach false nestedCreations false).outcome seededBySender
    ended.1 = .ok () ∧
      ((trail .sevenEach false 0 nestedCreations (anchor seededBySender.1, ()))[5]?.map fun w =>
          (w.1.frames.inner, w.1.journal.ledger.storage.contains .zero)) =
        some ([⟨.ofNat 8, some .create, false⟩, ⟨.zero, some .delegatecall, true⟩,
          ⟨.zero, some .create, true⟩], true) ∧
      Address.zero ∉ ended.2.1.journal.accounts := by
  intro ended
  have through : ended.1 = .ok () := eq_ok_of_toOption (by decide +kernel)
  have ran : ended = (.ok (), ended.2) := Prod.fst_eq_iff.1 through
  have named : ∀ r ∈ nestedCreations, ∀ word ∈ r.namedWord?, word % Word.addressBound ≠ 0 := by
    decide +kernel
  have sent : ∀ p ∈ some (Extraction.sender, (3 : Int)), p.1.sender ≠ some .zero := by
    rintro _ ⟨⟩
    decide +kernel
  have ended_without := zero_unmentioned (by decide +kernel) sent
    (fun r hr word names => named r hr word (Record.namesWord_iff.1 names)) (Prod.eta _).symm ran
  exact ⟨through, by decide +kernel, ended_without.1⟩

end Run

end Replay

end TraceDiff
