import TraceDiff.Proofs.Replay.Effects
import TraceDiff.Proofs.Replay.Machine

/-! What every state of a replay has. A property that the machine keeps as it returns, aborts and
performs one effect holds after every record, and also in the state that a failing record leaves. -/
namespace TraceDiff

variable {σ α β : Type} {sources : Sources σ} {balancesOnly : Bool}

theorem Journal.snapshots_of_leads {e : Entry} (flat : e.isFlat = true) {j j' : Journal}
    (leads : e.Leads sources j j') : j'.snapshots = j.snapshots := by
  cases e with
  | read a k v =>
    obtain rfl := leads
    unfold Journal.read
    split <;> rfl
  | sweep a b =>
    obtain ⟨source, -, n, baselines, s, s', -, rfl⟩ := leads
    dsimp only
    split <;> rfl
  | reference a => obtain ⟨preCode, rfl⟩ := leads; rfl
  | deploy a => obtain ⟨code, rfl⟩ := leads; rfl
  | recordHash number word => obtain ⟨hashes, truths, rfl⟩ := leads; rfl
  | push | pop | rollback => simp [Entry.isFlat] at flat
  | write | touch | credit | debit | transfer | destroy => obtain rfl := leads; rfl

namespace Replay

theorem Machine.level_of_arrive {m m' : Machine} {r : Record} (arrived : m.arrive r = .ok m') :
    r.level = m'.frames.inner.length + 1 := (depth_of_arrive arrived).symm

/-- Whatever the run comes to, it leaves a machine with `P` if it found one. -/
def Keeps (P : Machine → Prop) (p : Run σ α) : Prop :=
  ∀ m s, P m → P (p.outcome (m, s)).2.1

section Keeps

variable {P : Machine → Prop}

theorem Keeps.after {p : Run σ α} (kept : Keeps P p) {m m' : Machine} {s s' : σ}
    {x : Except Fault α} (done : p.outcome (m, s) = (x, (m', s'))) (h : P m) : P m' := by
  have at_end := kept m s h
  rw [done] at at_end
  exact at_end

theorem keeps_pure (a : α) : Keeps P (pure a : Run σ α) := fun _ _ h => h

theorem Keeps.bind {p : Run σ α} {f : α → Run σ β} (hp : Keeps P p) (hf : ∀ a, Keeps P (f a)) :
    Keeps P (p >>= f) := by
  intro m s h
  have first := hp m s h
  rw [Asking.outcome_bind]
  rcases made : p.outcome (m, s) with ⟨_ | a, m₁, s₁⟩
  · rw [made] at first
    exact first
  · rw [made] at first
    exact hf a m₁ s₁ first

/-- What is read off the machine may tell how the run goes on. -/
theorem keeps_get_bind {f : Machine × σ → Run σ β} (hf : ∀ w, P w.1 → P ((f w).outcome w).2.1) :
    Keeps P ((get : Run σ (Machine × σ)) >>= f) := fun m s h => hf (m, s) h

theorem Keeps.mapFault {p : Run σ α} (hp : Keeps P p) (g : Fault → Fault) :
    Keeps P (Asking.mapFault g p) := by
  intro m s h
  have first := hp m s h
  simp only [Asking.mapFault, Asking.outcome_ofOutcome]
  rcases made : p.outcome (m, s) with ⟨_ | a, w⟩ <;> rw [made] at first <;> exact first

theorem keeps_change {f : Machine → Except Fault Machine}
    (hf : ∀ m m', f m = .ok m' → P m → P m') : Keeps P (change f : Run σ Unit) := by
  intro m s h
  simp only [change, Asking.outcome_ofOutcome]
  cases made : f m with
  | error e => exact h
  | ok m' => exact hf m m' made h

theorem keeps_perform {e : Effect}
    (he : ∀ m s m' s', (m.apply sources e).outcome s = (.ok m', s') → P m → P m') :
    Keeps P (perform sources e) := by
  intro m s h
  simp only [perform, Asking.outcome_ofOutcome]
  rcases applied : (m.apply sources e).outcome s with ⟨_ | m', s'⟩
  · exact h
  · exact he m s m' s' applied h

theorem keeps_performAll {effects : List Effect}
    (he : ∀ e ∈ effects, ∀ m s m' s', (m.apply sources e).outcome s = (.ok m', s') → P m → P m') :
    Keeps P (performAll sources effects) := by
  induction effects with
  | nil => exact keeps_pure ()
  | cons e effects ih =>
    obtain ⟨first, rest⟩ := List.forall_mem_cons.1 he
    exact (keeps_perform first).bind fun _ => ih rest

/-- Effects without an abort keep what entries of their kind and frames that open keep. -/
theorem keeps_lasting {kind : Journal.Entry → Prop} {effects : List Effect}
    (lasting : ∀ e ∈ effects, e.Lasting kind)
    (noted : ∀ e, kind e → ∀ m j, e.Leads sources m.journal j → P m → P { m with journal := j })
    (entered : ∀ m o a p, P m → P (m.enter o a p)) : Keeps P (performAll sources effects) := by
  refine keeps_performAll fun e he => ?_
  intro m s m' s' applied h
  cases e with
  | note entry =>
    obtain ⟨j, done, rfl⟩ := Machine.apply_note_eq_ok.1 applied
    exact noted entry (lasting _ he) m j (Journal.Entry.leads_of_apply done) h
  | enter o a p =>
    obtain rfl := Except.ok.inj (Prod.mk.inj applied).1
    exact entered m o a p h
  | abort => exact (lasting _ he).elim

theorem keeps_notes {kind : Journal.Entry → Prop} {effects : List Effect}
    (notes : Effect.Notes kind effects)
    (h : ∀ e, kind e → ∀ m j, e.Leads sources m.journal j → P m → P { m with journal := j }) :
    Keeps P (performAll sources effects) := by
  obtain ⟨entries, rfl, hentries⟩ := notes
  refine keeps_performAll fun e he => ?_
  obtain ⟨entry, hentry, rfl⟩ := List.mem_map.1 he
  intro m s m' s' applied holds
  obtain ⟨j, noted, rfl⟩ := Machine.apply_note_eq_ok.1 applied
  exact h entry (hentries entry hentry) m j (Journal.Entry.leads_of_apply noted) holds

/-- Seeds the transaction, if there is one to pay for, with the gas that it used. -/
def prepare (sources : Sources σ) (balancesOnly : Bool) : Option (Transaction × Int) → Run σ Unit
  | some (tx, gasUsed) => seed sources balancesOnly tx gasUsed
  | none => pure ()

/-- What the entries of a seed keep holds after seeding if it holds of the machine charged. -/
theorem after_seed {tx : Transaction} {gasUsed : Int} {m m' : Machine} {s s' : σ}
    {x : Except Fault Unit}
    (seeded : (seed sources balancesOnly tx gasUsed).outcome (m, s) = (x, (m', s')))
    (looks : ∀ (e : Journal.Entry) (a : Address), e = .deploy a ∨ e = .reference a → ∀ m j,
      e.Leads sources m.journal j → P m → P { m with journal := j })
    (charged : P (charge tx gasUsed m)) : P m' := by
  have notes : Effect.Notes
      (· ∈ seeding (scopeOf sources balancesOnly) tx m.frames.root.address)
      ((seeding (scopeOf sources balancesOnly) tx m.frames.root.address).map .note) :=
    ⟨_, rfl, fun _ he => he⟩
  rw [outcome_seed] at seeded
  refine (keeps_notes notes fun e he => ?_).after seeded charged
  exact looks e m.frames.root.address (of_mem_seeding he)

section Run

variable {r : Record} {later records : List Record} {failed : Bool}

/-- A record keeps what arriving at it keeps and what its effects keep where they are read off. -/
theorem keeps_step (arrived : ∀ m m', m.arrive r = .ok m' → P m → P m')
    (performed : ∀ m effects,
      Effect.ofRecord (scopeOf sources balancesOnly) m.frames.top r later = .ok effects →
        P m → ∀ s, P ((performAll sources effects).outcome (m, s)).2.1) (i : Nat) :
    Keeps P (step sources balancesOnly i r later) := by
  refine Keeps.mapFault ?_ _
  refine (keeps_change arrived).bind fun _ => ?_
  refine keeps_get_bind fun (m, s) h => ?_
  rw [Asking.outcome_bind, Asking.outcome_ofExcept]
  cases read : Effect.ofRecord (scopeOf sources balancesOnly) m.frames.top r later with
  | error f => exact h
  | ok effects => exact performed m effects read h s

theorem keeps_steps
    (kept : ∀ i r later, r :: later <:+ records → Keeps P (step sources balancesOnly i r later))
    (i : Nat) : Keeps P (steps sources balancesOnly i records) := by
  induction records generalizing i with
  | nil => exact keeps_pure ()
  | cons r later ih =>
    refine (kept i r later (List.suffix_refl _)).bind fun _ => ih ?_ (i + 1)
    exact fun i x rest h => kept i x rest (h.trans (List.suffix_cons r later))

theorem keeps_replay (anchored : ∀ m, P m → P (anchor m))
    (kept : ∀ i r later, r :: later <:+ records → Keeps P (step sources balancesOnly i r later))
    (finished : ∀ m m', finish failed m = .ok m' → P m → P m') :
    Keeps P (replay sources balancesOnly records failed) := by
  refine Keeps.bind ?_ fun _ => (keeps_steps kept 0).bind fun _ => keeps_change finished
  refine keeps_change fun m m' anchoring h => ?_
  obtain rfl := Except.ok.inj anchoring
  exact anchored m h

/-- What every record keeps holds after every record. -/
theorem keeps_trail
    (kept : ∀ i r later, r :: later <:+ records → Keeps P (step sources balancesOnly i r later))
    (i : Nat) {w : Machine × σ} (h : P w.1) :
    ∀ w' ∈ trail sources balancesOnly i records w, P w'.1 := by
  induction records generalizing i w with
  | nil => simp [trail]
  | cons r later ih =>
    have reached := kept i r later (List.suffix_refl _) w.1 w.2 h
    have rest : ∀ i x rest, x :: rest <:+ later → Keeps P (step sources balancesOnly i x rest) :=
      fun i x rest h => kept i x rest (h.trans (List.suffix_cons r later))
    intro w' hw'
    unfold trail at hw'
    split at hw'
    · next w₁ done =>
      rw [done] at reached
      rcases List.mem_cons.1 hw' with rfl | hw'
      · exact reached
      · exact ih rest (i + 1) reached w' hw'
    · simp at hw'

end Run

end Keeps

/-- A property of machines that everything keeps that a replay does. -/
structure Invariant (sources : Sources σ) (P : Machine → Prop) : Prop where
  anchor : ∀ m, P m → P (anchor m)
  visit : ∀ m, P m → P m.visit
  returnTo : ∀ m depth m', m.returnTo depth = .ok m' → P m → P m'
  abortRoot : ∀ m, P m → P m.abortRoot
  apply : ∀ e : Effect, e.isRecorded = true →
    ∀ m s m' s', (m.apply sources e).outcome s = (.ok m', s') → P m → P m'

namespace Invariant

variable {P : Machine → Prop}

theorem arrive (inv : Invariant sources P) {m m' : Machine} {r : Record}
    (arrived : m.arrive r = .ok m') (h : P m) : P m' := by
  obtain ⟨-, m₁, returned, rfl⟩ := Machine.arrive_eq_ok arrived
  exact inv.visit m₁ (inv.returnTo m r.depth m₁ returned h)

theorem finish (inv : Invariant sources P) {failed : Bool} {m m' : Machine}
    (finished : finish failed m = .ok m') (h : P m) : P m' := by
  obtain ⟨m₁, returned, rfl⟩ := finish_eq_ok.1 finished
  have settled := inv.returnTo m 1 m₁ returned h
  split
  · exact inv.abortRoot m₁ settled
  · exact settled

theorem keeps_step (inv : Invariant sources P) (i : Nat) (r : Record) (later : List Record) :
    Keeps P (step sources balancesOnly i r later) := by
  refine Replay.keeps_step (fun m m' arrived h => inv.arrive arrived h) ?_ i
  intro m effects read h s
  refine keeps_performAll (fun e he => ?_) m s h
  exact inv.apply e (Effect.isRecorded_of_ofRecord read e he)

theorem keeps_steps (inv : Invariant sources P) (i : Nat) (records : List Record) :
    Keeps P (steps sources balancesOnly i records) :=
  Replay.keeps_steps (fun i r later _ => inv.keeps_step i r later) i

theorem keeps_replay (inv : Invariant sources P) (records : List Record) (failed : Bool) :
    Keeps P (replay sources balancesOnly records failed) :=
  Replay.keeps_replay inv.anchor (fun i r later _ => inv.keeps_step i r later)
    fun _ _ finished h => inv.finish finished h

/-- The invariant holds after every record. -/
theorem trail (inv : Invariant sources P) (i : Nat) (records : List Record) {w : Machine × σ}
    (h : P w.1) : ∀ w' ∈ trail sources balancesOnly i records w, P w'.1 :=
  keeps_trail (fun i r later _ => inv.keeps_step i r later) i h

end Invariant

section Trail

variable {i k : Nat} {records : List Record} {w₀ w w' : Machine × σ}

/-- One machine leads to the next by the record between them. -/
theorem step_of_trail (before : (w₀ :: trail sources balancesOnly i records w₀)[k]? = some w)
    (after : (trail sources balancesOnly i records w₀)[k]? = some w') :
    ∃ r, records[k]? = some r ∧
      (step sources balancesOnly (i + k) r (records.drop (k + 1))).outcome w = (.ok (), w') := by
  induction records generalizing i k w₀ with
  | nil => simp [trail] at after
  | cons r later ih =>
    rcases done : (step sources balancesOnly i r later).outcome w₀ with ⟨f | _, w₁⟩
    · simp [trail, done] at after
    · simp only [trail, done] at before after
      cases k with
      | zero =>
        obtain rfl := Option.some.inj before
        obtain rfl := Option.some.inj after
        exact ⟨r, rfl, done⟩
      | succ k =>
        have next := ih before after
        rwa [Nat.add_right_comm, Nat.add_assoc] at next

theorem length_trail
    (ran : (steps sources balancesOnly i records).outcome w₀ = (.ok (), w)) :
    (trail sources balancesOnly i records w₀).length = records.length := by
  induction records generalizing i w₀ with
  | nil => rfl
  | cons r later ih =>
    obtain ⟨_, w₁, done, ran⟩ := Asking.outcome_bind_eq_ok.1 ran
    simp only [trail, done, List.length_cons, ih ran]

/-- A run that fails does so in the record after those that it went through. -/
theorem failing_of_steps {f : Fault}
    (failed : (steps sources balancesOnly i records).outcome w₀ = (.error f, w')) :
    let k := (trail sources balancesOnly i records w₀).length
    ∃ r w, records[k]? = some r ∧ (w₀ :: trail sources balancesOnly i records w₀)[k]? = some w ∧
      (step sources balancesOnly (i + k) r (records.drop (k + 1))).outcome w = (.error f, w') := by
  induction records generalizing i w₀ with
  | nil => nomatch failed
  | cons r later ih =>
    rcases Asking.outcome_bind_eq_error.1 failed with failed | ⟨_, w₁, done, failed⟩
    · simp only [trail, failed]
      exact ⟨r, w₀, rfl, rfl, failed⟩
    · simp only [trail, done]
      obtain ⟨x, w, there, before, failing⟩ := ih failed
      refine ⟨x, w, there, before, ?_⟩
      rwa [Nat.add_right_comm, Nat.add_assoc] at failing

end Trail

/-- What a replay goes back to when the transaction fails. -/
def Machine.rootBase (m : Machine) : Ledger := m.rootLedger.getD m.journal.ledger

/-- The ledger, every snapshot that is held, and the ledger of the root frame satisfy `Q`. -/
structure Machine.Everywhere (Q : Ledger → Prop) (m : Machine) : Prop where
  live : Q m.journal.ledger
  held : ∀ l ∈ m.journal.snapshots.held, Q l
  root : ∀ l ∈ m.rootLedger, Q l

namespace Machine.Everywhere

variable {Q : Ledger → Prop} {m : Machine}

theorem rootBase (h : m.Everywhere Q) : Q m.rootBase := by
  unfold Machine.rootBase
  cases base : m.rootLedger with
  | none => exact h.live
  | some l => exact h.root l base

theorem settle {j j' : Journal} {closed : List Frame} (settled : Machine.settle j closed = .ok j')
    (live : Q j.ledger) (held : ∀ l ∈ j.snapshots.held, Q l) :
    Q j'.ledger ∧ ∀ l ∈ j'.snapshots.held, Q l := by
  induction closed generalizing j with
  | nil =>
    obtain rfl := Except.ok.inj settled
    exact ⟨live, held⟩
  | cons f closed ih =>
    obtain ⟨l, older, hheld, settled⟩ := Machine.settle_cons_eq_ok settled
    rw [hheld] at held
    obtain ⟨first, rest⟩ := List.forall_mem_cons.1 held
    refine ih settled ?_ (by rw [Journal.held_returned]; exact rest)
    rw [Journal.ledger_returned]
    split
    · exact first
    · exact live

theorem note {e : Journal.Entry} (recorded : e.isRecorded = true) {j : Journal}
    (leads : e.Leads sources m.journal j) (live : Q j.ledger) (h : m.Everywhere Q) :
    ({ m with journal := j } : Machine).Everywhere Q := by
  have same := Journal.snapshots_of_leads (Journal.Entry.isFlat_of_isRecorded recorded) leads
  refine ⟨live, ?_, h.root⟩
  simp only [same]
  exact h.held

theorem anchor (h : m.Everywhere Q) : (Replay.anchor m).Everywhere Q := by
  refine ⟨h.live, h.held, ?_⟩
  intro l hl
  cases base : m.rootLedger with
  | none =>
    obtain rfl : m.journal.ledger = l := by simpa [Replay.anchor, base] using hl
    exact h.live
  | some l₁ =>
    obtain rfl : l₁ = l := by simpa [Replay.anchor, base] using hl
    exact h.root l₁ base

theorem returnTo {depth : Int} {m' : Machine} (returned : m.returnTo depth = .ok m')
    (h : m.Everywhere Q) : m'.Everywhere Q := by
  obtain ⟨j, settled, rfl⟩ := Machine.returnTo_eq_ok returned
  obtain ⟨live, held⟩ := settle settled h.live h.held
  exact ⟨live, held, h.root⟩

theorem abortRoot (h : m.Everywhere Q) : m.abortRoot.Everywhere Q := by
  unfold Machine.abortRoot
  split
  · exact h
  · exact ⟨h.rootBase, h.held, h.root⟩

theorem abort {m' : Machine} (aborted : m.abort = .ok m') (h : m.Everywhere Q) :
    m'.Everywhere Q := by
  rcases Machine.abort_eq_ok aborted with ⟨-, rfl⟩ | ⟨f, outer, l, older, -, hheld, rfl⟩
  · exact h.abortRoot
  · have held := h.held
    rw [hheld] at held
    obtain ⟨first, rest⟩ := List.forall_mem_cons.1 held
    exact ⟨first, rest, h.root⟩

theorem enter (o : Opcode) (a : Address) (p : Bool) (h : m.Everywhere Q) :
    (m.enter o a p).Everywhere Q := ⟨h.live, List.forall_mem_cons.2 ⟨h.live, h.held⟩, h.root⟩

/-- Ledgers come from entries alone: everything else goes back to a ledger that was there. -/
theorem invariant (entries : ∀ e : Journal.Entry, e.isRecorded = true →
      ∀ j j', e.Leads sources j j' → Q j.ledger → Q j'.ledger) :
    Invariant sources (Machine.Everywhere Q) where
  anchor _ h := h.anchor
  visit m h := ⟨h.live, h.held, h.root⟩
  returnTo _ _ _ returned h := h.returnTo returned
  abortRoot _ h := h.abortRoot
  apply e recorded m s m' s' applied h := by
    cases e with
    | note entry =>
      obtain ⟨j, noted, rfl⟩ := Machine.apply_note_eq_ok.1 applied
      have leads := Journal.Entry.leads_of_apply noted
      exact h.note recorded leads (entries entry recorded _ _ leads h.live)
    | enter opcode target placeholder =>
      obtain rfl := Except.ok.inj (Prod.mk.inj applied).1
      exact h.enter _ _ _
    | abort => exact h.abort (Prod.mk.inj applied).1

end Machine.Everywhere

end Replay

end TraceDiff
