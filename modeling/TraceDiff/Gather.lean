import TraceDiff.Asking

/-! Independent requests made together. All of them are made; their answers may complete in any
order and still come back at the places of their requests. -/
namespace TraceDiff

namespace Gather

variable {σ α β : Type}

/-- Makes every request, whether or not an earlier one failed. -/
def outcomes (request : α → Asking σ β) : List α → σ → List (Except Fault β) × σ
  | [], s => ([], s)
  | a :: rest, s =>
    let (r, s) := (request a).outcome s
    let (rs, s) := outcomes request rest s
    (r :: rs, s)

/-- Takes outcomes in the order of completion, each to its place; the first failure ends it. -/
def collect (outcomes : List (Except Fault β)) :
    (completed : List Nat) → List (Option β) → Except Fault (List (Option β))
  | [], places => .ok places
  | i :: completed, places =>
    match outcomes[i]? with
    | some (.ok b) => collect outcomes completed (places.set i (some b))
    | some (.error f) => .error f
    | none => collect outcomes completed places

/-- The answers in the order of the requests, when the requests complete in the order given. -/
def completedIn (completed : List Nat) (request : α → Asking σ β) (items : List α) :
    Asking σ (List β) :=
  .ofOutcome fun s =>
    let (rs, s) := outcomes request items s
    ((·.filterMap id) <$> collect rs completed (List.replicate items.length none), s)

/-- In which order so many requests complete that are made together, by what is outside before. -/
structure Completion (σ : Type) where
  order : σ → Nat → List Nat
  /-- Each request completes, and does so once. -/
  perm : ∀ s n, (order s n).Perm (List.range n)

/-- Requests complete in the order they were made. -/
def Completion.asMade : Completion σ where
  order _ n := List.range n
  perm _ _ := .refl _

def all (completion : Completion σ) (request : α → Asking σ β) (items : List α) :
    Asking σ (List β) :=
  .ofOutcome fun s => (completedIn (completion.order s items.length) request items).outcome s

end Gather

end TraceDiff
