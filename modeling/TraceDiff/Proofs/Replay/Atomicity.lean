import TraceDiff.Proofs.Replay.Alignment

/-! Rejection is atomic. All that a record needs of the trace is read off before any of its effects
happens, and what is asked of the outside is asked first. So the state that a rejected trace leaves
is the one before the failing record, with the frames above it returned. -/
namespace TraceDiff

variable {σ : Type} {sources : Sources σ} {balancesOnly failed : Bool}

def Fault.isMalformed : Fault → Bool
  | .malformed _ => true
  | _ => false

/-- The source of code never finds fault with a trace when it is asked for created code. -/
def Sources.Quiet (sources : Sources σ) : Prop :=
  ∀ source ∈ sources.code, ∀ a s f s', (source.after a).outcome s = (.error f, s') →
    f.isMalformed = false

/-- A source gives the fault when it is asked for code or a balance before the transaction. -/
inductive Sources.Answers (sources : Sources σ) (f : Fault) : Prop
  | code {source : CodeSource σ} {a : Address} {s s' : σ} (there : sources.code = some source)
      (asked : (source.before a).outcome s = (.error f, s'))
  | balance {source : BaselineSource σ} {a : Address} {s s' : σ}
      (there : sources.baseline = some source)
      (asked : (source.one a).outcome s = (.error f, s'))

/-- So what an entry finds fault with in a trace, a source does. -/
theorem Sources.Quiet.failWith (quiet : sources.Quiet) :
    sources.FailWith fun f => f.isMalformed = true → sources.Answers f where
  before _ there _ _ _ _ asked _ := .code there asked
  after source there a s f s' asked malformed :=
    absurd malformed (by rw [quiet source there a s f s' asked]; exact Bool.false_ne_true)
  balance _ there _ _ _ _ asked _ := .balance there asked

namespace Replay

namespace Effect

/-- The effect asks for nothing but created code. -/
def Sure : Effect → Prop
  | note (.deploy _) | note (.transfer _ _ _) | note (.touch _) | note (.destroy _) => True
  | enter _ _ _ => True
  | _ => False

variable {scope : Scope} {top : Frame} {o : Opcode} {r : Record} {later : List Record}
  {effects : List Effect}

theorem sure_noteIf {condition : Bool} {entry : Journal.Entry} (h : (note entry).Sure) :
    ∀ e ∈ noteIf condition entry, e.Sure := by
  intro e he
  obtain ⟨-, rfl⟩ := mem_noteIf.1 he
  exact h

theorem length_noteIf (condition : Bool) (entry : Journal.Entry) :
    (noteIf condition entry).length ≤ 1 := by
  cases condition <;> simp [noteIf]

theorem length_of_observation (read : ofObservation scope top o r later = .ok effects) :
    effects.length ≤ 1 := by
  cases o with
  | sload =>
    obtain ⟨slot, -, read⟩ := bind_eq_ok.1 read
    obtain ⟨value, -, read⟩ := bind_eq_ok.1 read
    obtain rfl := Except.ok.inj read
    exact length_noteIf _ _
  | sstore | blockhash =>
    obtain ⟨slot, -, read⟩ := bind_eq_ok.1 read
    obtain ⟨value, -, read⟩ := bind_eq_ok.1 read
    obtain rfl := Except.ok.inj read
    exact Nat.le_refl 1
  | balance =>
    obtain ⟨word, -, read⟩ := bind_eq_ok.1 read
    obtain rfl := Except.ok.inj read
    exact Nat.le_refl 1
  | selfbalance =>
    obtain rfl := Except.ok.inj read
    exact length_noteIf _ _
  | extcodesize | extcodecopy | extcodehash =>
    simp only [ofObservation] at read
    split at read
    · obtain ⟨word, -, read⟩ := bind_eq_ok.1 read
      obtain rfl := Except.ok.inj read
      exact Nat.le_refl 1
    · obtain rfl := Except.ok.inj read
      exact Nat.zero_le 1
  | create | call | callcode | delegatecall | create2 | staticcall | revert | invalid
  | selfdestruct =>
    obtain rfl := Except.ok.inj read
    exact Nat.zero_le 1

/-- Only the first effect of a record asks for what was before the transaction. -/
theorem sure_of_mem_tail (read : ofRecord scope top r later = .ok effects) :
    ∀ e ∈ effects.tail, e.Sure := by
  have paid (a : Address) (value : Int) (started : Bool) :
      ∀ e ∈ payment top a value started, e.Sure :=
    sure_noteIf (show (note (.transfer top.address a value)).Sure from trivial)
  have nothing (h : effects.length ≤ 1) : ∀ e ∈ effects.tail, e.Sure := by
    have none : effects.tail = [] := List.eq_nil_of_length_eq_zero (by
      rw [List.length_tail]
      omega)
    rw [none]
    exact List.forall_mem_nil _
  rcases ofRecord_branches read with ⟨-, rfl⟩ | rfl | ⟨o, -, -, branch⟩
  · exact List.forall_mem_nil _
  · exact List.forall_mem_nil _
  rcases branch with ⟨-, read⟩ | ⟨-, read⟩ | ⟨-, read⟩ | read
  · obtain ⟨word, value, -, -, rfl⟩ := ofCall_eq_ok.1 read
    intro e he
    cases followed : scope.code with
    | false =>
      rw [followed] at he
      exact paid _ value _ e he
    | true =>
      rw [followed] at he
      rcases List.mem_cons.1 he with rfl | he
      · trivial
      · exact paid _ value _ e he
  · obtain ⟨value, created, -, -, rfl⟩ := ofCreate_eq_ok.1 read
    cases created with
    | none => exact List.forall_mem_nil _
    | some a =>
      have deployed : ∀ e ∈ noteIf scope.code (.deploy a), e.Sure :=
        sure_noteIf (show (note (.deploy a)).Sure from trivial)
      intro e he
      rcases List.mem_append.1 he with he | he
      · exact deployed e he
      · exact paid a value _ e he
  · unfold ofSelfdestruct at read
    split at read
    · obtain rfl := Except.ok.inj read
      exact List.forall_mem_nil _
    · obtain ⟨word, -, read⟩ := bind_eq_ok.1 read
      obtain rfl := Except.ok.inj read
      have cleared : ∀ e ∈ noteIf scope.code (.destroy top.address), e.Sure :=
        sure_noteIf (show (note (.destroy top.address)).Sure from trivial)
      intro e he
      cases known : scope.baseline with
      | false =>
        rw [known] at he
        exact cleared e he
      | true =>
        rw [known] at he
        rcases List.mem_cons.1 he with rfl | he
        · trivial
        · exact cleared e he
  · exact nothing (length_of_observation read)

end Effect

section Step

variable {r : Record} {later : List Record} {m : Machine} {s : σ} {f : Fault} {w : Machine × σ}
  {i : Nat}

theorem safe_of_sure (quiet : sources.Quiet) {e : Effect} (sure : e.Sure) :
    (perform sources e).Safe (fun _ => True) (fun _ => True) fun f => f.isMalformed = false := by
  have applies (m : Machine) :
      (m.apply sources e).Safe (fun _ => True) (fun _ => True) fun f => f.isMalformed = false := by
    cases e with
    | enter o a p => exact Asking.safe_pure trivial
    | abort => exact sure.elim
    | note entry =>
      have noted : (entry.apply sources m.journal).Safe (fun _ => True) (fun _ => True)
          fun f => f.isMalformed = false := by
        cases entry with
        | deploy a =>
          simp only [Journal.Entry.apply]
          cases there : sources.code with
          | none => exact Asking.safe_pure trivial
          | some source =>
            have fetched : (m.journal.deploy source a).Safe (fun _ => True) (fun _ => True)
                fun f => f.isMalformed = false :=
              (Asking.safe_of_faults (quiet source there a)).bind fun _ _ =>
                Asking.safe_pure trivial
            exact fetched.map fun _ _ => trivial
        | transfer | touch | destroy => exact Asking.safe_pure trivial
        | _ => exact sure.elim
      exact noted.map fun _ _ => trivial
  rintro ⟨m, s⟩ -
  obtain ⟨-, within⟩ := applies m s trivial
  refine ⟨trivial, ?_⟩
  simp only [perform, Asking.outcome_ofOutcome]
  rcases applied : (m.apply sources e).outcome s with ⟨f | m', s'⟩
  · rwa [applied] at within
  · trivial

theorem safe_of_allSure (quiet : sources.Quiet) {effects : List Effect}
    (sure : ∀ e ∈ effects, e.Sure) : (performAll sources effects).Safe (fun _ => True)
      (fun _ => True) fun f => f.isMalformed = false := by
  induction effects with
  | nil => exact Asking.safe_pure trivial
  | cons e effects ih =>
    obtain ⟨first, rest⟩ := List.forall_mem_cons.1 sure
    exact (safe_of_sure quiet first).bind fun _ _ => ih rest

/-- Effects that find fault with a trace do so in the first one, and leave the machine as it is. -/
theorem machine_of_performAll {effects : List Effect} (quiet : sources.Quiet)
    (sure : ∀ e ∈ effects.tail, e.Sure) (malformed : f.isMalformed = true)
    (failed : (performAll sources effects).outcome (m, s) = (.error f, w)) : w.1 = m := by
  cases effects with
  | nil => nomatch failed
  | cons e rest =>
    rcases Asking.outcome_bind_eq_error.1 failed with failed | ⟨_, w₁, -, failed⟩
    · simp only [perform, Asking.outcome_ofOutcome] at failed
      rcases applied : (m.apply sources e).outcome s with ⟨f' | m', s'⟩
      · simp only [applied, Prod.mk.injEq] at failed
        rw [← failed.2]
      · simp [applied] at failed
    · rw [(safe_of_allSure quiet sure).fault trivial failed] at malformed
      exact absurd malformed Bool.false_ne_true

/-- The frames above a record's depth return before it, if the record is less deep. -/
def Machine.returned (m : Machine) (r : Record) : Except Fault Machine :=
  if r.depth < m.depth then m.returnTo r.depth else .ok m

theorem returned_of_arrive {m' : Machine} (arrived : m.arrive r = .ok m') :
    ∃ m₁, m.returned r = .ok m₁ ∧ m' = m₁.visit := by
  obtain ⟨le, m₁, returned, rfl⟩ := Machine.arrive_eq_ok arrived
  refine ⟨m₁, ?_, rfl⟩
  unfold Machine.returned
  split
  · exact returned
  · next level =>
    have same : r.depth = m.depth := Int.le_antisymm le (Int.not_lt.1 level)
    rw [← Machine.returnTo_of_depth_eq same, returned]

/-- A record that finds fault with the trace does nothing but let the frames above it return. The
fault tells the record, unless it tells one already as it comes from a source. -/
theorem machine_of_rejected (quiet : sources.Quiet) (aligned : m.Aligned) {t : MalformedTrace}
    (failed : (step sources balancesOnly i r later).outcome (m, s) = (.error (.malformed t), w)) :
    (∃ m₁, m.returned r = .ok m₁ ∧ w.1 = { m₁ with visited := w.1.visited }) ∧
      (t.index = some i ∧ t.op = r.op ∨ sources.Answers (.malformed t)) := by
  obtain ⟨f₀, cause, located⟩ := step_eq_error.1 failed
  have told (h : (∃ told, f₀.IsLack told) ∨ (f₀.isMalformed = true → sources.Answers f₀)) :
      t.index = some i ∧ t.op = r.op ∨ sources.Answers (.malformed t) := by
    cases f₀ with
    | malformed t₀ =>
      simp only [locate] at located
      split at located
      · obtain rfl := Fault.malformed.inj located
        exact .inl ⟨rfl, rfl⟩
      · next named =>
        rcases h with ⟨-, ⟨-, defect, op, lacking, -⟩ | ⟨-, untold⟩⟩ | asked
        · obtain rfl := Fault.malformed.inj lacking
          exact absurd rfl named
        · nomatch untold
        · rw [located]
          exact .inr (asked rfl)
    | _ => nomatch located
  have malformed : f₀.isMalformed = true := by
    cases f₀ with
    | malformed t₀ => rfl
    | _ => nomatch located
  rcases cause with ⟨jump, rfl⟩ | ⟨m₁, arrived, cause⟩
  · obtain ⟨deep, lack⟩ := lack_of_arrive aligned jump
    refine ⟨⟨m, if_neg (by omega), rfl⟩, told (.inl ⟨_, lack⟩)⟩
  obtain ⟨m₁, returned, rfl⟩ := returned_of_arrive arrived
  rcases cause with ⟨unread, rfl⟩ | ⟨effects, read, undone⟩
  · refine ⟨⟨m₁, returned, rfl⟩, told (.inl ?_)⟩
    rcases Effect.fault_of_ofRecord unread with ⟨-, misnamed⟩ | ⟨o, -, lack⟩
    · rcases opcode_eq_error misnamed with rfl | rfl <;> nomatch malformed
    · exact ⟨_, lack⟩
  · have kept := machine_of_performAll quiet (Effect.sure_of_mem_tail read) malformed undone
    refine ⟨⟨m₁, returned, by rw [kept]; rfl⟩, told (.inr ?_)⟩
    have safe := safe_performAll quiet.failWith.safe (.inr nofun) (Effect.makes_of_ofRecord read)
    exact safe.fault ⟨(aligned_invariant sources).arrive arrived aligned, trivial⟩ undone

end Step

/-- A replay that finds fault with the trace stops at the record after those that it went through.
The state is the one after them, with the frames above that record's depth returned: nothing of the
record itself has happened. -/
theorem state_of_rejected {root : Address} {paid : Option (Transaction × Int)} {s : σ}
    {records : List Record} {w w' : Machine × σ} {began : Except Fault Unit} {t : MalformedTrace}
    (quiet : sources.Quiet)
    (prepared : (prepare sources balancesOnly paid).outcome (.start root, s) = (began, w))
    (rejected : (replay sources balancesOnly records failed).outcome w =
      (.error (.malformed t), w')) :
    let passed := trail sources balancesOnly 0 records (anchor w.1, w.2)
    ∃ r before m, records[passed.length]? = some r ∧
      ((anchor w.1, w.2) :: passed)[passed.length]? = some before ∧
      before.1.returned r = .ok m ∧ w'.1 = { m with visited := w'.1.visited } ∧
      (t.index = some passed.length ∧ t.op = r.op ∨ sources.Answers (.malformed t)) := by
  intro passed
  have aligned := (Machine.unused_prepare (show _ = (began, (w.1, w.2)) from prepared)).aligned
  have failing := (replay_eq_error aligned).1 rejected
  obtain ⟨r, before, there, reached, failing⟩ := failing_of_steps failing
  have inv := aligned_invariant sources
  have started : (anchor w.1).Aligned := inv.anchor w.1 aligned
  have ready : before.1.Aligned := by
    rcases List.mem_cons.1 (List.mem_of_getElem? reached) with rfl | later
    · exact started
    · exact inv.trail 0 records started before later
  obtain ⟨⟨m, returned, left⟩, told⟩ := machine_of_rejected quiet ready failing
  refine ⟨r, before, m, there, reached, returned, left, ?_⟩
  rwa [Nat.zero_add] at told

/-- A creation writes and fails, and then a call lacks an operand. -/
def lackingCall : List Record := [.named .create 1 [0], .named .sstore 2 [5, 9], .named .call 1 [0]]

theorem state_of_rejected_lackingCall :
    let start : Machine × Unit := (.start (.ofNat 1), ())
    let ended := (replay .sevenEach false lackingCall false).outcome start
    ended.1 = .error (.malformed ⟨.missingOperand "CALL" 1 (.int 2) 1, some 2, .text "CALL"⟩) ∧
      ∃ before m, (trail .sevenEach false 0 lackingCall (anchor start.1, ()))[1]? = some before ∧
        before.1.journal.ledger.storage.get? .zero 5 = some (.ofInt 9) ∧
        before.1.returned (.named .call 1 [0]) = .ok m ∧
        ended.2.1 = { m with visited := ended.2.1.visited } ∧
        ended.2.1.journal.ledger.storage.get? .zero 5 = none := by
  intro start ended
  have rejected : ended.1 =
      .error (.malformed ⟨.missingOperand "CALL" 1 (.int 2) 1, some 2, .text "CALL"⟩) :=
    eq_error_of_faultOf (by decide +kernel)
  have quiet : Sources.sevenEach.Quiet := by
    rintro _ ⟨⟩ a s f s' failed
    nomatch failed
  have prepared : (prepare .sevenEach false none).outcome start = (.ok (), start) := rfl
  obtain ⟨r, before, m, there, reached, returned, left, -⟩ :=
    state_of_rejected quiet prepared (Prod.ext rejected rfl : ended = (_, ended.2))
  have two : (trail .sevenEach false 0 lackingCall (anchor start.1, ())).length = 2 := by
    decide +kernel
  rw [two] at there reached
  obtain rfl : Record.named .call 1 [0] = r := Option.some.inj there
  have wrote : (trail .sevenEach false 0 lackingCall (anchor start.1, ()))[1]?.map
      (fun w => w.1.journal.ledger.storage.get? .zero 5) = some (some (.ofInt 9)) := by
    decide +kernel
  obtain ⟨w, here, written⟩ := Option.map_eq_some_iff.1 wrote
  obtain rfl : w = before := Option.some.inj (here.symm.trans reached)
  exact ⟨rejected, w, m, here, written, returned, left, by decide +kernel⟩

end Replay

end TraceDiff
