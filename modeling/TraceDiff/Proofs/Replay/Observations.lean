import TraceDiff.Proofs.FrameTree.Storage
import TraceDiff.Proofs.Replay.Invariants

/-! Observations only grow. Snapshots cover the ledger alone, so what was read, fetched, touched or
hashed stays, whatever is rolled back; and a first value of a slot is never replaced. -/
namespace TraceDiff

open Rpc (Quantity)

/-- The record loads a word from storage, and shows no error. -/
def Record.Loads (r : Record) : Prop := r.error = none ∧ r.op.opcode = .ok (some .sload)

/-- What a journal keeps beside its ledger and is never undone. -/
structure Observations where
  preStorage : Storage
  preCode : AddressMap Bytes
  touched : AddressSet
  blockHashes : Std.ExtTreeMap Int Bytes

/-- Entries stay, and those of storage and code keep their value. -/
structure Observations.Grow (o o' : Observations) : Prop where
  preStorage : ∀ (a : Address) (k : Int) (v : Quantity),
    o.preStorage.get? a k = some v → o'.preStorage.get? a k = some v
  preCode : ∀ (a : Address) (code : Bytes), o.preCode[a]? = some code → o'.preCode[a]? = some code
  touched : ∀ a ∈ o.touched, a ∈ o'.touched
  blockHashes : ∀ n ∈ o.blockHashes, n ∈ o'.blockHashes

theorem Observations.Grow.refl (o : Observations) : o.Grow o :=
  ⟨fun _ _ _ h => h, fun _ _ h => h, fun _ h => h, fun _ h => h⟩

theorem Observations.Grow.trans {o o' o'' : Observations} (h : o.Grow o') (h' : o'.Grow o'') :
    o.Grow o'' where
  preStorage a k v held := h'.preStorage a k v (h.preStorage a k v held)
  preCode a code held := h'.preCode a code (h.preCode a code held)
  touched a held := h'.touched a (h.touched a held)
  blockHashes n held := h'.blockHashes n (h.blockHashes n held)

variable {σ : Type} {sources : Sources σ} {balancesOnly failed : Bool}

namespace Journal

variable {j j' : Journal} {s s' : σ}

def observations (j : Journal) : Observations :=
  ⟨j.preStorage, j.preCode, j.touched, j.blockHashes⟩

theorem grow_touch (j : Journal) (a : Address) : j.observations.Grow (j.touch a).observations :=
  { Observations.Grow.refl j.observations with
    touched := fun _ held => Std.ExtTreeSet.mem_insert.2 (.inr held) }

theorem grow_read (j : Journal) (a : Address) (k : Int) (v : Quantity) :
    j.observations.Grow (j.read a k v).observations := by
  have kept (b : Address) (l : Int) (w : Quantity) (held : j.preStorage.get? b l = some w) :=
    preStorage_read held a k v
  unfold read at kept ⊢
  split at kept
  · next known =>
    rw [if_pos known]
    exact .refl _
  · next unknown =>
    rw [if_neg unknown]
    exact { Observations.Grow.refl j.observations with preStorage := kept }

theorem grow_debit (j : Journal) (a : Address) (n : Int) :
    j.observations.Grow (j.debit a n).observations := j.grow_touch a

theorem grow_credit (j : Journal) (a : Address) (n : Int) :
    j.observations.Grow (j.credit a n).observations := j.grow_touch a

theorem grow_transfer (j : Journal) (a b : Address) (n : Int) :
    j.observations.Grow (j.transfer a b n).observations :=
  (j.grow_debit a n).trans ((j.debit a n).grow_credit b n)

theorem preStorage_read_eq_some {a b : Address} {k l : Int} {v w : Quantity} :
    (j.read b l w).preStorage.get? a k = some v ↔
      j.preStorage.get? a k = some v ∨ j.preStorage.get? a k = none ∧
        j.ledger.storage.get? a k = none ∧ b = a ∧ l = k ∧ w = v := by
  unfold read
  split
  · next known =>
    refine ⟨.inl, fun h => h.resolve_right ?_⟩
    rintro ⟨unread, unwritten, rfl, rfl, -⟩
    simp [unread, unwritten] at known
  · next unknown =>
    simp only [Bool.or_eq_true, not_or, Option.not_isSome_iff_eq_none] at unknown
    simp only [Storage.get?_set]
    split
    · next same =>
      obtain ⟨rfl, rfl⟩ := same
      simp [unknown]
    · next other =>
      refine ⟨.inl, fun h => h.resolve_right ?_⟩
      rintro ⟨-, -, rfl, rfl, -⟩
      exact other ⟨rfl, rfl⟩

theorem Entry.grow_of_apply {e : Entry} (flat : e.isFlat = true)
    (applied : (e.apply sources j).outcome s = (.ok j', s')) :
    j.observations.Grow j'.observations := by
  have leads := Entry.leads_of_apply applied
  cases e with
  | read a k v =>
    obtain rfl := leads
    exact j.grow_read a k v
  | touch a =>
    obtain rfl := leads
    exact j.grow_touch a
  | credit a n =>
    obtain rfl := leads
    exact j.grow_credit a n
  | debit a n =>
    obtain rfl := leads
    exact j.grow_debit a n
  | transfer a b n =>
    obtain rfl := leads
    exact j.grow_transfer a b n
  | sweep a b =>
    obtain ⟨source, -, n, baselines, s₁, s₂, -, rfl⟩ := leads
    dsimp only
    split
    · exact grow_transfer { j with baselines } a b _
    · exact .refl _
  | reference a =>
    rcases apply_reference_eq_ok applied with ⟨rfl, -⟩ | ⟨unknown, source, -, code', -, rfl⟩
    · exact .refl _
    · refine { Observations.Grow.refl j.observations with preCode := fun b code known => ?_ }
      have other : a ≠ b := by
        rintro rfl
        nomatch unknown.symm.trans known
      show (j.preCode.insert a code')[b]? = some code
      rw [Std.ExtTreeMap.getElem?_insert, if_neg (mt Std.LawfulEqCmp.eq_of_compare other)]
      exact known
  | deploy a =>
    obtain ⟨code, rfl⟩ := leads
    exact .refl _
  | recordHash number word =>
    have made : j.recordHash number word = .ok j' := (Prod.mk.inj applied).1
    unfold Journal.recordHash at made
    split at made
    · obtain rfl := Except.ok.inj made
      exact { Observations.Grow.refl j.observations with
        blockHashes := fun n held => Std.ExtTreeMap.mem_insert.2 (.inr held) }
    · nomatch made
  | push | pop | rollback => simp [Entry.isFlat] at flat
  | write | destroy =>
    obtain rfl := leads
    exact .refl _

/-- The journals differ in their ledgers and snapshots alone. -/
def Beside (j j' : Journal) : Prop := ∃ ledger snapshots, j' = { j with ledger, snapshots }

theorem Beside.refl (j : Journal) : j.Beside j := ⟨j.ledger, j.snapshots, rfl⟩

theorem Beside.trans {j'' : Journal} (h : j.Beside j') (h' : j'.Beside j'') : j.Beside j'' := by
  obtain ⟨l, snapshots, rfl⟩ := h
  obtain ⟨l', snapshots', rfl⟩ := h'
  exact ⟨l', snapshots', rfl⟩

theorem Beside.observations (h : j.Beside j') : j'.observations = j.observations := by
  obtain ⟨l, snapshots, rfl⟩ := h
  rfl

theorem beside_returned (j : Journal) (f : Frame) (l : Ledger) (older : List Ledger) :
    j.Beside (j.returned f l older) := by
  unfold returned
  split
  · exact ⟨l, _, rfl⟩
  · exact ⟨j.ledger, _, rfl⟩

end Journal

namespace Replay

section Steady

variable {m m' : Machine} {s s' : σ} {r : Record}

theorem beside_of_settle {j j' : Journal} {closed : List Frame}
    (settled : Machine.settle j closed = .ok j') : j.Beside j' := by
  induction closed generalizing j with
  | nil =>
    obtain rfl := Except.ok.inj settled
    exact .refl j
  | cons f closed ih =>
    obtain ⟨l, older, -, settled⟩ := Machine.settle_cons_eq_ok settled
    exact (j.beside_returned f l older).trans (ih settled)

theorem beside_of_returnTo {depth : Int} (returned : m.returnTo depth = .ok m') :
    m.journal.Beside m'.journal := by
  obtain ⟨j, settled, rfl⟩ := Machine.returnTo_eq_ok returned
  exact beside_of_settle settled

theorem beside_of_arrive (arrived : m.arrive r = .ok m') : m.journal.Beside m'.journal := by
  obtain ⟨-, m₁, returned, rfl⟩ := Machine.arrive_eq_ok arrived
  show m.journal.Beside m₁.journal
  exact beside_of_returnTo returned

theorem beside_abortRoot (m : Machine) : m.journal.Beside m.abortRoot.journal := by
  unfold Machine.abortRoot
  split
  · exact .refl m.journal
  · exact ⟨_, m.journal.snapshots, rfl⟩

theorem beside_of_abort (aborted : m.abort = .ok m') : m.journal.Beside m'.journal := by
  rcases Machine.abort_eq_ok aborted with ⟨-, rfl⟩ | ⟨f, outer, l, older, -, -, rfl⟩
  · exact beside_abortRoot m
  · exact ⟨l, _, rfl⟩

theorem beside_of_finish (finished : finish failed m = .ok m') : m.journal.Beside m'.journal := by
  obtain ⟨m₁, returned, rfl⟩ := finish_eq_ok.1 finished
  have settled := beside_of_returnTo returned
  split
  · exact settled.trans (beside_abortRoot m₁)
  · exact settled

theorem observations_of_returnTo {depth : Int} (returned : m.returnTo depth = .ok m') :
    m'.journal.observations = m.journal.observations := (beside_of_returnTo returned).observations

theorem observations_of_arrive (arrived : m.arrive r = .ok m') :
    m'.journal.observations = m.journal.observations := (beside_of_arrive arrived).observations

theorem observations_abortRoot (m : Machine) :
    m.abortRoot.journal.observations = m.journal.observations := (beside_abortRoot m).observations

theorem observations_of_abort (aborted : m.abort = .ok m') :
    m'.journal.observations = m.journal.observations := (beside_of_abort aborted).observations

theorem observations_of_finish (finished : finish failed m = .ok m') :
    m'.journal.observations = m.journal.observations := (beside_of_finish finished).observations

end Steady

/-- Whatever a replay does, what was observed before stays. -/
theorem grow_invariant (o : Observations) :
    Invariant sources fun m => o.Grow m.journal.observations where
  anchor _ h := h
  visit _ h := h
  returnTo _ _ _ returned h := by rwa [observations_of_returnTo returned]
  abortRoot m h := by rwa [observations_abortRoot]
  apply e recorded m s m' s' applied h := by
    cases e with
    | note entry =>
      obtain ⟨j, noted, rfl⟩ := Machine.apply_note_eq_ok.1 applied
      have flat := Journal.Entry.isFlat_of_isRecorded recorded
      exact h.trans (Journal.Entry.grow_of_apply flat noted)
    | enter opcode target placeholder =>
      obtain rfl := Except.ok.inj (Prod.mk.inj applied).1
      exact h
    | abort => rwa [observations_of_abort (Prod.mk.inj applied).1]

/-- The machines that a replay goes through: at its start, after each record, and at its end or
where it fails. -/
def machines (sources : Sources σ) (balancesOnly : Bool) (records : List Record) (failed : Bool)
    (w : Machine × σ) : List Machine :=
  anchor w.1 :: ((trail sources balancesOnly 0 records (anchor w.1, w.2)).map (·.1) ++
    [((replay sources balancesOnly records failed).outcome w).2.1])

section Machines

variable {i : Nat} {records : List Record} {w : Machine × σ}

/-- From machine to machine observations grow, also into the one that a failing record leaves. -/
theorem pairwise_steps (sources : Sources σ) (balancesOnly : Bool) (i : Nat)
    (records : List Record) (w : Machine × σ) :
    (w.1 :: ((trail sources balancesOnly i records w).map (·.1) ++
        [((steps sources balancesOnly i records).outcome w).2.1])).Pairwise
      fun m m' => m.journal.observations.Grow m'.journal.observations := by
  induction records generalizing i w with
  | nil => simp [trail, steps, Observations.Grow.refl]
  | cons r later ih =>
    have steady : Keeps (fun m => w.1.journal.observations.Grow m.journal.observations)
        (step sources balancesOnly i r later) := (grow_invariant _).keeps_step i r later
    have grown := steady w.1 w.2 (.refl _)
    rcases done : (step sources balancesOnly i r later).outcome w with ⟨f | _, w₁⟩
    · rw [done] at grown
      simpa [trail, steps, Asking.outcome_bind, done] using grown
    · rw [done] at grown
      have rest := ih (i + 1) w₁
      have same : ((steps sources balancesOnly i (r :: later)).outcome w) =
          (steps sources balancesOnly (i + 1) later).outcome w₁ := by
        rw [steps, Asking.outcome_bind, done]
      rw [same, trail, done]
      refine List.pairwise_cons.2 ⟨?_, rest⟩
      intro m hm
      rcases List.mem_cons.1 hm with rfl | hm
      · exact grown
      · exact grown.trans ((List.pairwise_cons.1 rest).1 m hm)

/-- What is settled at the end changes no observation. -/
theorem observations_of_replay :
    ((replay sources balancesOnly records failed).outcome w).2.1.journal.observations =
      ((steps sources balancesOnly 0 records).outcome (anchor w.1, w.2)).2.1.journal.observations := by
  have anchored : (change fun m => .ok (anchor m) : Run σ Unit).outcome w =
      (.ok (), (anchor w.1, w.2)) := rfl
  simp only [replay, Asking.outcome_bind, anchored]
  rcases (steps sources balancesOnly 0 records).outcome (anchor w.1, w.2) with ⟨f | _, m₁, s₁⟩
  · rfl
  · cases finished : finish failed m₁ with
    | error f => simp [change, finished]
    | ok m₂ => simpa [change, finished] using observations_of_finish finished

theorem grow_of_replay (records : List Record) (failed : Bool) (w : Machine × σ) :
    (machines sources balancesOnly records failed w).Pairwise
      fun m m' => m.journal.observations.Grow m'.journal.observations := by
  have stepping := pairwise_steps sources balancesOnly 0 records (anchor w.1, w.2)
  rw [machines, ← List.cons_append, List.pairwise_append] at *
  obtain ⟨before, single, last⟩ := stepping
  refine ⟨before, List.pairwise_singleton _ _, fun m hm m' hm' => ?_⟩
  obtain rfl := List.mem_singleton.1 hm'
  rw [observations_of_replay]
  exact last m hm _ (List.mem_singleton.2 rfl)

/-- What every part of a replay keeps holds of all the machines that it goes through. -/
theorem keeps_machines {P : Machine → Prop} (anchored : ∀ m, P m → P (anchor m))
    (kept : ∀ i r later, r :: later <:+ records → Keeps P (step sources balancesOnly i r later))
    (finished : ∀ m m', finish failed m = .ok m' → P m → P m') (began : P w.1) :
    ∀ m ∈ machines sources balancesOnly records failed w, P m := by
  intro m hm
  rcases List.mem_cons.1 hm with rfl | hm
  · exact anchored w.1 began
  rcases List.mem_append.1 hm with hm | hm
  · obtain ⟨w', passed, rfl⟩ := List.mem_map.1 hm
    exact keeps_trail kept 0 (anchored w.1 began) w' passed
  · obtain rfl := List.mem_singleton.1 hm
    exact keeps_replay anchored kept finished w.1 w.2 began

end Machines

namespace Effect

variable {scope : Scope} {f : Frame} {o : Opcode} {r : Record} {later : List Record}
  {effects : List Effect}

/-- The effect notes a value that was read. -/
def IsRead (e : Effect) : Prop := ∃ a k v, e = note (.read a k v)

theorem not_isRead_of_ofOpcode (other : o ≠ .sload)
    (read : ofOpcode scope f o r later = .ok effects) : ∀ e ∈ effects, ¬ e.IsRead := by
  rintro _ he ⟨a, k, v, rfl⟩
  have observed (h : ofOpcode scope f o r later =
      if scope.observes then ofObservation scope f o r later else .ok []) :
      ofObservation scope f o r later = .ok effects := by
    rw [h] at read
    split at read
    · exact read
    · obtain rfl := Except.ok.inj read
      nomatch he
  cases o with
  | sload => exact other rfl
  | create | create2 =>
    obtain ⟨value, created, -, -, rfl⟩ := ofCreate_eq_ok.1 read
    cases created <;> simp [mem_noteIf, payment] at he
  | call | callcode | delegatecall | staticcall =>
    obtain ⟨word, value, -, -, rfl⟩ := ofCall_eq_ok.1 read
    simp [mem_noteIf, payment] at he
  | revert | invalid =>
    obtain rfl := Except.ok.inj read
    simp at he
  | selfdestruct =>
    have read : ofSelfdestruct scope f r = .ok effects := read
    unfold ofSelfdestruct at read
    split at read
    · obtain rfl := Except.ok.inj read
      nomatch he
    · obtain ⟨word, -, read⟩ := bind_eq_ok.1 read
      obtain rfl := Except.ok.inj read
      simp [mem_noteIf] at he
  | sstore =>
    obtain ⟨slot, -, read⟩ := bind_eq_ok.1 (observed rfl)
    obtain ⟨value, -, read⟩ := bind_eq_ok.1 read
    obtain rfl := Except.ok.inj read
    simp at he
  | blockhash =>
    obtain ⟨number, -, read⟩ := bind_eq_ok.1 (observed rfl)
    obtain ⟨word, -, read⟩ := bind_eq_ok.1 read
    obtain rfl := Except.ok.inj read
    simp at he
  | balance =>
    obtain ⟨word, -, read⟩ := bind_eq_ok.1 (observed rfl)
    obtain rfl := Except.ok.inj read
    simp at he
  | selfbalance =>
    obtain rfl := Except.ok.inj (observed rfl)
    simp [mem_noteIf] at he
  | extcodesize | extcodecopy | extcodehash =>
    have read := observed rfl
    simp only [ofObservation] at read
    split at read
    · obtain ⟨word, -, read⟩ := bind_eq_ok.1 read
      obtain rfl := Except.ok.inj read
      simp at he
    · obtain rfl := Except.ok.inj read
      nomatch he

/-- Only a load notes a value that was read: that on the stack of the next record. -/
theorem reads_of_ofRecord (observes : scope.observes = true)
    (read : ofRecord scope f r later = .ok effects) :
    (r.Loads ∧ ∃ slot value, r.peek 0 = .ok slot ∧ resultOf r later = .ok value ∧
        effects = noteIf (!f.placeholder) (.read f.address slot value)) ∨
      (¬ r.Loads ∧ ∀ e ∈ effects, ¬ e.IsRead) := by
  unfold ofRecord at read
  split at read
  · next erring =>
    obtain rfl := Except.ok.inj read
    refine .inr ⟨fun loads => by simp [loads.1] at erring, ?_⟩
    rintro _ he ⟨a, k, v, rfl⟩
    simp at he
  · next fine =>
    obtain ⟨o, named, read⟩ := bind_eq_ok.1 read
    cases o with
    | none =>
      obtain rfl := Except.ok.inj read
      exact .inr ⟨fun loads => by simp [loads.2] at named, nofun⟩
    | some o =>
      by_cases load : o = .sload
      · subst load
        have read : (if scope.observes then ofSload f r later else .ok []) = .ok effects := read
        rw [if_pos observes] at read
        obtain ⟨slot, hslot, read⟩ := bind_eq_ok.1 read
        obtain ⟨value, hvalue, read⟩ := bind_eq_ok.1 read
        refine .inl ⟨⟨by simpa using fine, named⟩, slot, value, hslot, hvalue, ?_⟩
        exact (Except.ok.inj read).symm
      · refine .inr ⟨fun loads => load ?_, not_isRead_of_ofOpcode load read⟩
        simpa [loads.2, eq_comm] using named

end Effect

section Reading

variable {m m₁ m' : Machine} {s s' : σ} {i : Nat} {r : Record} {later records : List Record}
  {a : Address} {k : Int} {v : Quantity} {effects : List Effect} {f : Fault}

/-- In a frame of `a` that is no placeholder, the record loads the word `k`, to which no live write
was made, and the next record shows it to be `v`. -/
def Machine.Reads (m : Machine) (r : Record) (later : List Record) (a : Address) (k : Int)
    (v : Quantity) : Prop :=
  r.Loads ∧ r.peek 0 = .ok k ∧ (∃ next, later.head? = some next ∧ next.word 0 = .ok v) ∧
    ∃ m₁, m.arrive r = .ok m₁ ∧ m₁.frames.top.placeholder = false ∧ m₁.frames.top.address = a ∧
      m₁.journal.ledger.storage.get? a k = none

theorem resultOf_eq_ok_iff :
    resultOf r later = .ok v ↔ ∃ next, later.head? = some next ∧ next.word 0 = .ok v := by
  cases later with
  | nil => simp [resultOf]
  | cons next later => simp [resultOf]

theorem keeps_preStorage (recorded : ∀ e ∈ effects, e.isRecorded = true)
    (unread : ∀ e ∈ effects, ¬ e.IsRead) (read : Storage) :
    Keeps (fun m => m.journal.preStorage = read) (performAll sources effects) := by
  refine keeps_performAll fun e he => ?_
  intro m s m' s' applied h
  cases e with
  | note entry =>
    obtain ⟨j, noted, rfl⟩ := Machine.apply_note_eq_ok.1 applied
    have leads := Journal.Entry.leads_of_apply noted
    refine Eq.trans ?_ h
    cases entry with
    | read a k v => exact absurd ⟨a, k, v, rfl⟩ (unread _ he)
    | credit | debit | push | pop | rollback => nomatch recorded _ he
    | write a k v =>
      obtain rfl := leads
      rfl
    | _ => exact (Journal.Entry.storage_of_leads rfl leads).2
  | enter o a p =>
    obtain rfl := Except.ok.inj (Prod.mk.inj applied).1
    exact h
  | abort =>
    have same := observations_of_abort (Prod.mk.inj applied).1
    exact (congrArg Observations.preStorage same).trans h

/-- A record adds what it reads first, and nothing else. -/
theorem preStorage_of_step
    (done : (step sources false i r later).outcome (m, s) = (.ok (), (m', s'))) :
    m'.journal.preStorage.get? a k = some v ↔
      m.journal.preStorage.get? a k = some v ∨
        m.journal.preStorage.get? a k = none ∧ m.Reads r later a k v := by
  obtain ⟨m₁, effects, arrived, read, performed⟩ := step_eq_ok.1 done
  have same : m₁.journal.preStorage = m.journal.preStorage :=
    congrArg Observations.preStorage (observations_of_arrive arrived)
  rcases Effect.reads_of_ofRecord rfl read with ⟨loads, slot, value, hslot, hvalue, rfl⟩ |
    ⟨idle, unread⟩
  · have shown := resultOf_eq_ok_iff.1 hvalue
    cases hidden : m₁.frames.top.placeholder with
    | true =>
      rw [hidden] at performed
      obtain ⟨rfl, -⟩ := Prod.mk.inj (Prod.mk.inj performed).2
      rw [same]
      refine ⟨.inl, fun h => h.resolve_right ?_⟩
      rintro ⟨-, -, -, -, m₂, arrived', real, -⟩
      obtain rfl := Except.ok.inj (arrived.symm.trans arrived')
      exact Bool.false_ne_true (real.symm.trans hidden)
    | false =>
      have noted : m'.journal = m₁.journal.read m₁.frames.top.address slot value := by
        rw [hidden] at performed
        obtain ⟨rfl, -⟩ := Prod.mk.inj (Prod.mk.inj performed).2
        rfl
      rw [noted, Journal.preStorage_read_eq_some, same]
      refine or_congr_right (and_congr_right fun _ => ?_)
      constructor
      · rintro ⟨unwritten, rfl, rfl, rfl⟩
        exact ⟨loads, hslot, shown, m₁, arrived, hidden, rfl, unwritten⟩
      · rintro ⟨-, hk, hv, m₂, arrived', -, rfl, unwritten⟩
        obtain rfl := Except.ok.inj (arrived.symm.trans arrived')
        refine ⟨unwritten, rfl, Except.ok.inj (hslot.symm.trans hk), ?_⟩
        exact Except.ok.inj (hvalue.symm.trans (resultOf_eq_ok_iff.2 hv))
  · have kept := (keeps_preStorage (Effect.isRecorded_of_ofRecord read) unread
      m.journal.preStorage).after performed same
    rw [kept]
    exact ⟨.inl, fun h => h.resolve_right fun reads => idle reads.2.1⟩

/-- A record that fails adds nothing. -/
theorem preStorage_of_failing {w : Machine × σ}
    (failing : (step sources false i r later).outcome (m, s) = (.error f, w)) :
    w.1.journal.preStorage = m.journal.preStorage := by
  obtain ⟨f₀, cause, -⟩ := step_eq_error.1 failing
  rcases cause with ⟨-, rfl⟩ | ⟨m₁, arrived, cause⟩
  · rfl
  have same : m₁.journal.preStorage = m.journal.preStorage :=
    congrArg Observations.preStorage (observations_of_arrive arrived)
  rcases cause with ⟨-, rfl⟩ | ⟨effects, read, undone⟩
  · exact same
  rcases Effect.reads_of_ofRecord rfl read with ⟨-, slot, value, -, -, rfl⟩ | ⟨-, unread⟩
  · cases hidden : m₁.frames.top.placeholder <;> rw [hidden] at undone <;>
      nomatch (Prod.mk.inj undone).1
  · exact (keeps_preStorage (Effect.isRecorded_of_ofRecord read) unread
      m.journal.preStorage).after undone same

end Reading

/-- Record `i` is replayed to its end, and reads `v` in the word `k` of the account `a`, to which no
live write was made. -/
def ReadsAt (sources : Sources σ) (records : List Record) (start : Machine × σ) (i : Nat)
    (a : Address) (k : Int) (v : Quantity) : Prop :=
  ∃ r w w', records[i]? = some r ∧
    (start :: trail sources false 0 records start)[i]? = some w ∧
      (trail sources false 0 records start)[i]? = some w' ∧
        w.1.Reads r (records.drop (i + 1)) a k v

/-- The first record that reads the word. -/
def ReadsFirstAt (sources : Sources σ) (records : List Record) (start : Machine × σ) (i : Nat)
    (a : Address) (k : Int) (v : Quantity) : Prop :=
  ReadsAt sources records start i a k v ∧ ∀ j < i, ∀ u, ¬ ReadsAt sources records start j a k u

section First

variable {n : Nat} {start w : Machine × σ} {records : List Record} {a : Address} {k : Int}
  {v : Quantity}

theorem first_reads (fresh : start.1.journal.preStorage = ∅)
    (here : (start :: trail sources false 0 records start)[n]? = some w) :
    (∀ v, w.1.journal.preStorage.get? a k = some v ↔
        ∃ i < n, ReadsFirstAt sources records start i a k v) ∧
      (w.1.journal.preStorage.get? a k = none ↔
        ∀ i < n, ∀ v, ¬ ReadsAt sources records start i a k v) := by
  induction n generalizing w with
  | zero =>
    obtain rfl := Option.some.inj here
    simp [fresh]
  | succ n ih =>
    have after : (trail sources false 0 records start)[n]? = some w := here
    obtain ⟨w₁, before⟩ : ∃ w₁, (start :: trail sources false 0 records start)[n]? = some w₁ := by
      have inside := (List.getElem?_eq_some_iff.1 after).1
      exact ⟨_, List.getElem?_eq_getElem (Nat.lt_succ_of_lt inside)⟩
    obtain ⟨known, unknown⟩ := ih before
    obtain ⟨r, hr, done⟩ := step_of_trail before after
    have reads_iff (v : Quantity) : ReadsAt sources records start n a k v ↔
        w₁.1.Reads r (records.drop (n + 1)) a k v := by
      constructor
      · rintro ⟨r', w₁', w', hr', before', -, reads⟩
        obtain rfl := Option.some.inj (hr.symm.trans hr')
        obtain rfl := Option.some.inj (before.symm.trans before')
        exact reads
      · exact fun reads => ⟨r, w₁, w, hr, before, after, reads⟩
    have grown (v : Quantity) : w.1.journal.preStorage.get? a k = some v ↔
        w₁.1.journal.preStorage.get? a k = some v ∨
          w₁.1.journal.preStorage.get? a k = none ∧ ReadsAt sources records start n a k v := by
      rw [reads_iff]
      exact preStorage_of_step done
    constructor
    · intro v
      rw [grown, known, unknown]
      constructor
      · rintro (⟨i, before, first⟩ | ⟨none, reads⟩)
        · exact ⟨i, Nat.lt_succ_of_lt before, first⟩
        · exact ⟨n, Nat.lt_succ_self n, reads, none⟩
      · rintro ⟨i, before, first⟩
        rcases Nat.lt_succ_iff_lt_or_eq.1 before with before | rfl
        · exact .inl ⟨i, before, first⟩
        · exact .inr ⟨first.2, first.1⟩
    · rw [Option.eq_none_iff_forall_ne_some]
      constructor
      · intro none i before v reads
        have unread : w₁.1.journal.preStorage.get? a k = Option.none :=
          Option.eq_none_iff_forall_ne_some.2 fun u held => none u ((grown u).2 (.inl held))
        rcases Nat.lt_succ_iff_lt_or_eq.1 before with before | rfl
        · exact unknown.1 unread i before v reads
        · exact none v ((grown v).2 (.inr ⟨unread, reads⟩))
      · intro none v held
        rcases (grown v).1 held with held | ⟨-, reads⟩
        · have unread := unknown.2 fun i before => none i (Nat.lt_succ_of_lt before)
          nomatch unread.symm.trans held
        · exact none n (Nat.lt_succ_self n) v reads

/-- Where the records end or fail, the values read are those after the last record replayed. -/
theorem last_of_trail (sources : Sources σ) (i : Nat) (records : List Record)
    (start : Machine × σ) : ∃ w, (start :: trail sources false i records start)[
        (trail sources false i records start).length]? = some w ∧
      ((steps sources false i records).outcome start).2.1.journal.preStorage =
        w.1.journal.preStorage := by
  induction records generalizing i start with
  | nil => exact ⟨start, rfl, rfl⟩
  | cons r later ih =>
    rcases done : (step sources false i r later).outcome start with ⟨f | _, w₁⟩
    · refine ⟨start, by simp [trail, done], ?_⟩
      rw [steps, Asking.outcome_bind, done]
      exact preStorage_of_failing done
    · obtain ⟨w, last, same⟩ := ih (i + 1) w₁
      refine ⟨w, by simpa [trail, done] using last, ?_⟩
      rw [steps, Asking.outcome_bind, done]
      exact same

theorem preStorage_of_prepare {root : Address} {paid : Option (Transaction × Int)} {s : σ}
    {began : Except Fault Unit}
    (prepared : (prepare sources balancesOnly paid).outcome (.start root, s) = (began, w)) :
    w.1.journal.preStorage = ∅ := by
  cases paid with
  | none =>
    obtain ⟨-, rfl⟩ := Prod.mk.inj prepared
    rfl
  | some p =>
    have charged := ((Machine.isInitial_start root).charge p.1 p.2).unread
    refine after_seed (P := fun m => m.journal.preStorage = ∅) prepared ?_ charged
    rintro e a (rfl | rfl) m j leads unread
    · exact (Journal.Entry.storage_of_leads rfl leads).2.trans unread
    · exact (Journal.Entry.storage_of_leads rfl leads).2.trans unread

/-- At any two points of a replay, what was observed at the earlier one is observed at the later one,
whatever was rolled back between them. In a full replay a word enters storage as it was before at
the first record that reads it in the absence of a live write, with the value on the stack of the
next record. -/
theorem observations_of_run {root : Address} {paid : Option (Transaction × Int)} {s : σ}
    {began : Except Fault Unit}
    (prepared : (prepare sources balancesOnly paid).outcome (.start root, s) = (began, w))
    (records : List Record) (failed : Bool) :
    ((machines sources balancesOnly records failed w).Pairwise
      fun m m' => m.journal.observations.Grow m'.journal.observations) ∧
    (balancesOnly = false → ∀ a k v,
      let start := (anchor w.1, w.2)
      (∀ n w', (start :: trail sources false 0 records start)[n]? = some w' →
        (w'.1.journal.preStorage.get? a k = some v ↔
          ∃ i < n, ReadsFirstAt sources records start i a k v)) ∧
      (((replay sources false records failed).outcome w).2.1.journal.preStorage.get? a k = some v ↔
        ∃ i, ReadsFirstAt sources records start i a k v)) := by
  refine ⟨grow_of_replay records failed w, ?_⟩
  rintro rfl a k v start
  have fresh : start.1.journal.preStorage = ∅ := by
    show w.1.journal.preStorage = ∅
    exact preStorage_of_prepare prepared
  refine ⟨fun n w' here => (first_reads fresh here).1 v, ?_⟩
  obtain ⟨w', last, same⟩ := last_of_trail sources 0 records start
  have ended : ((replay sources false records failed).outcome w).2.1.journal.preStorage =
      w'.1.journal.preStorage :=
    (congrArg Observations.preStorage observations_of_replay).trans same
  rw [ended, (first_reads fresh last).1 v]
  constructor
  · rintro ⟨i, -, first⟩
    exact ⟨i, first⟩
  · rintro ⟨i, first⟩
    obtain ⟨-, -, w₁, -, -, after, -⟩ := first.1
    exact ⟨i, (List.getElem?_eq_some_iff.1 after).1, first⟩

end First

/-- A word is read behind a write that is then reverted, and twice when it is read again. -/
def readAgain : List Record :=
  [.named .call 1 [0, 3, 0], .named .sstore 2 [5, 9], .named .sload 2 [5], .named .revert 2 [9],
    .named .call 1 [0, 3, 0], .named .sload 2 [5], .named .sload 2 [7, 5], .idle 2 [8],
    .idle 1 [1]]

theorem observations_of_run_readAgain :
    let start : Machine × Unit := (anchor (.start (.ofNat 1)), ())
    let ended := (replay ({} : Sources Unit) false readAgain false).outcome
      (.start (.ofNat 1), ())
    ended.2.1.journal.preStorage.get? (.ofNat 3) 5 = some (.ofInt 7) ∧
      ReadsFirstAt ({} : Sources Unit) readAgain start 5 (.ofNat 3) 5 (.ofInt 7) := by
  intro start ended
  have prepared : (prepare ({} : Sources Unit) false none).outcome (.start (.ofNat 1), ()) =
      (.ok (), (.start (.ofNat 1), ())) := rfl
  have known : ended.2.1.journal.preStorage.get? (.ofNat 3) 5 = some (.ofInt 7) := by
    decide +kernel
  obtain ⟨-, full⟩ := observations_of_run prepared readAgain false
  obtain ⟨upTo, -⟩ := full rfl (.ofNat 3) 5 (.ofInt 7)
  let states := start :: trail ({} : Sources Unit) false 0 readAgain start
  have five : states[5]?.map (fun w => w.1.journal.preStorage.get? (.ofNat 3) 5) = some none := by
    decide +kernel
  have six : states[6]?.map (fun w => w.1.journal.preStorage.get? (.ofNat 3) 5) =
      some (some (.ofInt 7)) := by
    decide +kernel
  obtain ⟨w₅, after₅, unread⟩ := Option.map_eq_some_iff.1 five
  obtain ⟨w₆, after₆, read⟩ := Option.map_eq_some_iff.1 six
  obtain ⟨i, before, first⟩ := (upTo 6 w₆ after₆).1 read
  refine ⟨known, ?_⟩
  rcases Nat.lt_succ_iff_lt_or_eq.1 before with before | rfl
  · have early := (upTo 5 w₅ after₅).2 ⟨i, before, first⟩
    nomatch unread.symm.trans early
  · exact first

end Replay

end TraceDiff
