import TraceDiff.Fault

/-! Computations that ask something outside for answers. The state `σ` of the outside (its log, its
caches) survives a failure. -/
namespace TraceDiff

abbrev Asking (σ : Type) := ExceptT Fault (StateM σ)

namespace Asking

variable {σ τ α β : Type}

/-- The answer or the fault, and the outside afterwards. -/
def outcome (p : Asking σ α) (s : σ) : Except Fault α × σ := StateT.run (ExceptT.run p) s

def ofOutcome (f : σ → Except Fault α × σ) : Asking σ α := ExceptT.mk f

def ofExcept (r : Except Fault α) : Asking σ α := ExceptT.mk (pure r)

def fail (f : Fault) : Asking σ α := ofExcept (.error f)

/-- Runs beside a state of one's own. -/
def beside (p : Asking σ α) : Asking (τ × σ) α :=
  ofOutcome fun s => let (r, outside) := p.outcome s.2; (r, (s.1, outside))

/-- Gives a failure another fault, as `f` says. -/
def mapFault (f : Fault → Fault) (p : Asking σ α) : Asking σ α :=
  ofOutcome fun s =>
    match p.outcome s with
    | (.ok a, s') => (.ok a, s')
    | (.error e, s') => (.error (f e), s')

@[simp] theorem outcome_pure (a : α) (s : σ) : (pure a : Asking σ α).outcome s = (.ok a, s) := rfl

@[simp] theorem outcome_ofOutcome (f : σ → Except Fault α × σ) (s : σ) :
    (ofOutcome f).outcome s = f s := rfl

@[simp] theorem outcome_ofExcept (r : Except Fault α) (s : σ) :
    (ofExcept r : Asking σ α).outcome s = (r, s) := rfl

@[simp] theorem outcome_fail (f : Fault) (s : σ) :
    (fail f : Asking σ α).outcome s = (.error f, s) := rfl

theorem outcome_bind (p : Asking σ α) (f : α → Asking σ β) (s : σ) :
    (p >>= f).outcome s =
      match p.outcome s with
      | (.ok a, s') => (f a).outcome s'
      | (.error e, s') => (.error e, s') := by
  simp only [outcome, bind, ExceptT.bind, ExceptT.run, ExceptT.mk, StateT.run, StateT.bind]
  cases p s with
  | mk r s' => cases r <;> rfl

theorem outcome_map (g : α → β) (p : Asking σ α) (s : σ) :
    (g <$> p).outcome s = ((p.outcome s).1.map g, (p.outcome s).2) := by
  simp only [outcome, Functor.map, ExceptT.map, ExceptT.run, ExceptT.mk, StateT.run, StateT.bind, bind]
  cases p s with
  | mk r s' => cases r <;> rfl

@[simp] theorem outcome_beside (p : Asking σ α) (t : τ) (s : σ) :
    (beside p : Asking (τ × σ) α).outcome (t, s) = ((p.outcome s).1, (t, (p.outcome s).2)) := rfl

theorem ext {p q : Asking σ α} (h : ∀ s, p.outcome s = q.outcome s) : p = q := funext h

end Asking

end TraceDiff
