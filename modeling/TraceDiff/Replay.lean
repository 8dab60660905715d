import TraceDiff.Replay.Machine

/-! Replaying a trace record by record. The machine survives a failure, in the state the failing
effect found it in. -/
namespace TraceDiff.Replay

variable {σ : Type}

/-- A computation over the machine and the outside. -/
abbrev Run (σ : Type) := Asking (Machine × σ)

/-- What a replay with these sources follows. -/
def scopeOf (sources : Sources σ) (balancesOnly : Bool) : Scope :=
  { observes := !balancesOnly
    code := !balancesOnly && sources.code.isSome
    baseline := sources.baseline.isSome }

/-- A change of the machine alone; a fault leaves it as it was. -/
def change (f : Machine → Except Fault Machine) : Run σ Unit :=
  .ofOutcome fun (m, s) =>
    match f m with
    | .ok m' => (.ok (), (m', s))
    | .error e => (.error e, (m, s))

def perform (sources : Sources σ) (effect : Effect) : Run σ Unit :=
  .ofOutcome fun (m, s) =>
    match (m.apply sources effect).outcome s with
    | (.ok m', s') => (.ok (), (m', s'))
    | (.error e, s') => (.error e, (m, s'))

def performAll (sources : Sources σ) : List Effect → Run σ Unit
  | [] => pure ()
  | e :: effects => do
    perform sources e
    performAll sources effects

/-- Places a defect of the trace at a record. -/
def locate (index : Nat) (r : Record) : Fault → Fault
  | .malformed trace =>
    if trace.index.isNone then .malformed ⟨trace.defect, some index, r.op⟩ else .malformed trace
  | f => f

/-- Replays one record, given the records after it. -/
def step (sources : Sources σ) (balancesOnly : Bool) (index : Nat) (r : Record)
    (later : List Record) : Run σ Unit :=
  Asking.mapFault (locate index r) do
    change fun m => m.arrive r
    let (m, _) ← get
    let effects ← .ofExcept (Effect.ofRecord (scopeOf sources balancesOnly) m.frames.top r later)
    performAll sources effects

def steps (sources : Sources σ) (balancesOnly : Bool) : (index : Nat) → List Record → Run σ Unit
  | _, [] => pure ()
  | index, r :: later => do
    step sources balancesOnly index r later
    steps sources balancesOnly (index + 1) later

/-- Remembers the ledger to fall back to, unless seeding did. -/
def anchor (m : Machine) : Machine :=
  { m with rootLedger := m.rootLedger.or (some m.journal.ledger) }

/-- A trace may stop inside nested frames; a failed transaction keeps its fee alone even if no
record says so. -/
def finish (failed : Bool) (m : Machine) : Except Fault Machine :=
  (fun m => if failed then m.abortRoot else m) <$> m.returnTo 1

def replay (sources : Sources σ) (balancesOnly : Bool) (records : List Record) (failed : Bool) :
    Run σ Unit := do
  change fun m => .ok (anchor m)
  steps sources balancesOnly 0 records
  change (finish failed)

/-- The machine after each record that was replayed. -/
def trail (sources : Sources σ) (balancesOnly : Bool) :
    (index : Nat) → List Record → Machine × σ → List (Machine × σ)
  | _, [], _ => []
  | index, r :: later, w =>
    match (step sources balancesOnly index r later).outcome w with
    | (.ok _, w') => w' :: trail sources balancesOnly (index + 1) later w'
    | (.error _, _) => []

/-- The transaction's own effects, before any opcode: the fee, which survives a failure, then the
value, and the code of the target. -/
def charge (tx : Transaction) (gasUsed : Int) (m : Machine) : Machine :=
  let target := m.frames.root.address
  let debit (j : Journal) (amount : Int) : Journal :=
    match tx.sender with
    | some sender => j.debit sender amount
    | none => j
  let charged := (debit m.journal (gasUsed * tx.gasPrice)).touch target
  { m with
    rootLedger := some charged.ledger
    journal := (debit charged tx.value).credit target tx.value }

def seed (sources : Sources σ) (balancesOnly : Bool) (tx : Transaction) (gasUsed : Int) :
    Run σ Unit := do
  change fun m => .ok (charge tx gasUsed m)
  let (m, _) ← get
  let target := m.frames.root.address
  if (scopeOf sources balancesOnly).code then
    perform sources (.note (if tx.isCreation then .deploy target else .reference target))

end TraceDiff.Replay
