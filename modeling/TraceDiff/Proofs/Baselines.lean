import TraceDiff.Baselines

/-! What is remembered of balances over any number of calls. The source may answer differently every
time it is asked, say more or less than it was asked for, or fail; an account that was told a
balance keeps it all the same, and is not asked for again. -/
namespace TraceDiff

variable {σ β : Type}

namespace Baselines

section Known

variable {b b' b'' : Baselines β} {a : Address} {n : β} {balances pairs : List (Address × β)}
  {addresses : List Address}

/-- What was known stays known. -/
def Grows (b b' : Baselines β) : Prop :=
  ∀ (a : Address) (n : β), b.known[a]? = some n → b'.known[a]? = some n

theorem Grows.refl (b : Baselines β) : b.Grows b := fun _ _ h => h

theorem Grows.trans (h : b.Grows b') (h' : b'.Grows b'') : b.Grows b'' :=
  fun a n held => h' a n (h a n held)

theorem grows_remember (b : Baselines β) (a : Address) (n : β) : b.Grows (b.remember a n) := by
  intro c m held
  have inside : c ∈ b.known := Std.ExtTreeMap.mem_iff_isSome_getElem?.2 (by rw [held]; rfl)
  rw [remember, Std.ExtTreeMap.getElem?_insertIfNew]
  split
  · next new =>
    obtain rfl := Std.LawfulEqCmp.eq_of_compare new.1
    exact absurd inside new.2
  · exact held

theorem grows_rememberAll (b : Baselines β) (balances : List (Address × β)) :
    b.Grows (b.rememberAll balances) := by
  induction balances generalizing b with
  | nil => exact .refl b
  | cons e balances ih => exact (b.grows_remember e.1 e.2).trans (ih _)

theorem mem_rememberAll :
    a ∈ (b.rememberAll balances).known ↔ a ∈ b.known ∨ a ∈ balances.map Prod.fst := by
  induction balances generalizing b with
  | nil => simp [rememberAll]
  | cons e balances ih =>
    have next : b.rememberAll (e :: balances) = (b.remember e.1 e.2).rememberAll balances := rfl
    rw [next, ih, remember, Std.ExtTreeMap.mem_insertIfNew, Std.LawfulEqCmp.compare_eq_iff_eq,
      List.map_cons, List.mem_cons, or_left_comm, eq_comm, or_assoc]

theorem select_eq_ok (known : ∀ a ∈ addresses, a ∈ b.known) :
    ∃ pairs, b.select addresses = .ok pairs ∧ pairs.map Prod.fst = addresses := by
  induction addresses with
  | nil => exact ⟨[], rfl, rfl⟩
  | cons a addresses ih =>
    obtain ⟨first, rest⟩ := List.forall_mem_cons.1 known
    obtain ⟨n, hn⟩ := Option.isSome_iff_exists.1 (Std.ExtTreeMap.mem_iff_isSome_getElem?.1 first)
    obtain ⟨pairs, selected, named⟩ := ih rest
    refine ⟨(a, n) :: pairs, ?_, by rw [List.map_cons, named]⟩
    simp only [select, hn, selected]
    rfl

/-- What is selected is known, and of all the addresses. -/
theorem known_of_select (selected : b.select addresses = .ok pairs) :
    pairs.map Prod.fst = addresses ∧ ∀ e ∈ pairs, b.known[e.1]? = some e.2 := by
  induction addresses generalizing pairs with
  | nil =>
    obtain rfl := Except.ok.inj selected
    exact ⟨rfl, List.forall_mem_nil _⟩
  | cons a addresses ih =>
    unfold select at selected
    cases held : b.known[a]? with
    | none => simp [held] at selected
    | some n =>
      simp only [held] at selected
      cases rest : b.select addresses with
      | error f =>
        rw [rest] at selected
        nomatch selected
      | ok more =>
        rw [rest] at selected
        obtain rfl := Except.ok.inj selected
        obtain ⟨named, found⟩ := ih rest
        exact ⟨congrArg (a :: ·) named, List.forall_mem_cons.2 ⟨held, found⟩⟩

theorem select_eq_error {f : Fault} (failed : b.select addresses = .error f) :
    ∃ a ∈ addresses, a ∉ b.known ∧ f = .missingKey (.text a.text) := by
  induction addresses with
  | nil => nomatch failed
  | cons a addresses ih =>
    unfold select at failed
    cases held : b.known[a]? with
    | none =>
      simp only [held, Except.error.injEq] at failed
      refine ⟨a, List.mem_cons_self, ?_, failed.symm⟩
      rw [Std.ExtTreeMap.mem_iff_isSome_getElem?, held]
      exact Bool.false_ne_true
    | some n =>
      simp only [held] at failed
      cases rest : b.select addresses with
      | error f' =>
        rw [rest] at failed
        obtain rfl : f' = f := Except.error.inj failed
        obtain ⟨c, hc, missing⟩ := ih rest
        exact ⟨c, List.mem_cons_of_mem a hc, missing⟩
      | ok more =>
        rw [rest] at failed
        nomatch failed

end Known

/-- A request to a source of balances, and what it came to. -/
inductive Request (β : Type) where
  | one (address : Address) (answer : Except Fault β)
  | many (addresses : AddressSet) (answer : Except Fault (AddressMap β))

namespace Request

variable {a b : Address} {f : Fault} {asked : AddressSet}

def addresses : Request β → List Address
  | one a _ => [a]
  | many as _ => as.toList

def Fails (f : Fault) : Request β → Prop
  | one _ answer => answer = .error f
  | many _ answer => answer = .error f

/-- The answer leaves out an address that was asked for. -/
def Omits (a : Address) : Request β → Prop
  | one _ _ => False
  | many as answer => a ∈ as ∧ ∃ known, answer = .ok known ∧ a ∉ known

@[simp] theorem fails_one {answer : Except Fault β} :
    (one a answer).Fails f ↔ answer = .error f := Iff.rfl

@[simp] theorem fails_many {answer : Except Fault (AddressMap β)} :
    (many asked answer).Fails f ↔ answer = .error f := Iff.rfl

@[simp] theorem not_omits_one {answer : Except Fault β} : ¬ (one a answer).Omits b := id

@[simp] theorem omits_many {answer : Except Fault (AddressMap β)} :
    (many asked answer).Omits a ↔ a ∈ asked ∧ ∃ known, answer = .ok known ∧ a ∉ known :=
  Iff.rfl

end Request

/-- The source with every request to it taken down. -/
def noting (source : BaselineSource σ β) : BaselineSource (List (Request β) × σ) β where
  one a := .ofOutcome fun (log, s) =>
    let (answer, s) := (source.one a).outcome s
    (answer, (log ++ [.one a answer], s))
  many := source.many.map fun many as => .ofOutcome fun (log, s) =>
    let (answer, s) := (many as).outcome s
    (answer, (log ++ [.many as answer], s))

/-- What the balances of some addresses come to that are fetched: the requests that were made, and
the balances or the fault. -/
structure Fetched (addresses : List Address) (requests : List (Request β))
    (result : Except Fault (List (Address × β))) : Prop where
  asked : ∀ q ∈ requests, ∀ a ∈ q.addresses, a ∈ addresses
  fails : ∀ f, result = .error f ↔ ∃ q ∈ requests, q.Fails f
  omits : ∀ a, (∃ q ∈ requests, q.Omits a) ↔
    ∃ pairs, result = .ok pairs ∧ a ∈ addresses ∧ a ∉ pairs.map Prod.fst

section Fetching

variable {source : BaselineSource σ β} {addresses : List Address} {log : List (Request β)} {s : σ}

/-- One after another, addresses are asked for until a request fails. -/
theorem fetchEach_noting (source : BaselineSource σ β) (addresses : List Address)
    (log : List (Request β)) (s : σ) :
    ∃ requests result s',
      (fetchEach (noting source).one addresses).outcome (log, s) =
          (result, (log ++ requests, s')) ∧
        (∀ q ∈ requests, ∃ a ∈ addresses, ∃ answer, q = .one a answer) ∧
        (∀ f, result = .error f ↔ ∃ q ∈ requests, q.Fails f) ∧
        ∀ pairs, result = .ok pairs → pairs.map Prod.fst = addresses := by
  induction addresses generalizing log s with
  | nil => exact ⟨[], .ok [], s, by simp [fetchEach], by simp, by simp, by simp⟩
  | cons a addresses ih =>
    simp only [fetchEach, Asking.outcome_bind]
    rcases made : (source.one a).outcome s with ⟨f | n, s₁⟩
    · have asked : ((noting source).one a).outcome (log, s) =
          (.error f, (log ++ [.one a (.error f)], s₁)) := by simp [noting, made]
      simp only [asked]
      exact ⟨[.one a (.error f)], .error f, s₁, rfl, by simp, by simp, nofun⟩
    · have asked : ((noting source).one a).outcome (log, s) =
          (.ok n, (log ++ [.one a (.ok n)], s₁)) := by simp [noting, made]
      obtain ⟨requests, result, s₂, rest, single, fails, named⟩ := ih (log ++ [.one a (.ok n)]) s₁
      rw [List.append_assoc, List.singleton_append] at rest
      simp only [asked, rest]
      refine ⟨.one a (.ok n) :: requests, result.map ((a, n) :: ·), s₂, ?_, ?_, ?_, ?_⟩
      · cases result <;> rfl
      · refine List.forall_mem_cons.2 ⟨⟨a, List.mem_cons_self, _, rfl⟩, fun q hq => ?_⟩
        obtain ⟨b, hb, answer, rfl⟩ := single q hq
        exact ⟨b, List.mem_cons_of_mem a hb, answer, rfl⟩
      · intro f
        simp only [List.mem_cons, exists_eq_or_imp, Request.fails_one, reduceCtorEq, false_or,
          ← fails]
        cases result <;> simp [Except.map]
      · intro pairs came
        cases result with
        | error f => nomatch came
        | ok more =>
          obtain rfl := Except.ok.inj came
          exact congrArg (a :: ·) (named more rfl)

/-- A source of many is asked once, for just the addresses; otherwise each is asked for alone. -/
theorem fetchMissing_noting (source : BaselineSource σ β) (addresses : List Address)
    (log : List (Request β)) (s : σ) :
    ∃ requests result s',
      (fetchMissing (noting source) addresses).outcome (log, s) =
          (result, (log ++ requests, s')) ∧
        Fetched addresses requests result ∧
        (source.many.isSome → (addresses = [] ∧ requests = []) ∨
          addresses ≠ [] ∧ ∃ answer, requests = [.many (.ofList addresses) answer]) ∧
        (source.many = none → ∀ q ∈ requests, ∃ a answer, q = .one a answer) := by
  unfold fetchMissing
  split
  · next empty =>
    obtain rfl := List.isEmpty_iff.1 empty
    refine ⟨[], .ok [], s, by simp, ⟨by simp, by simp, by simp⟩, fun _ => .inl ⟨rfl, rfl⟩, by simp⟩
  next some_missing =>
  rw [List.isEmpty_iff] at some_missing
  cases there : source.many with
  | some many =>
    have noted : (noting source).many = some fun as => .ofOutcome fun (log, s) =>
        let (answer, s) := (many as).outcome s
        (answer, (log ++ [.many as answer], s)) := by simp [noting, there]
    simp only [noted, Asking.outcome_map, Asking.outcome_ofOutcome]
    rcases made : (many (.ofList addresses)).outcome s with ⟨answer, s₁⟩
    refine ⟨[.many (.ofList addresses) answer], answer.map (·.toList), s₁, by rw [made],
      ⟨?_, ?_, ?_⟩, fun _ => .inr ⟨some_missing, answer, rfl⟩, nofun⟩
    · simp [Request.addresses]
    · intro f
      cases answer <;> simp [Except.map]
    · intro a
      cases answer with
      | error f => simp [Except.map]
      | ok known =>
        simp [Except.map, ← Std.ExtTreeMap.mem_keys, ← Std.ExtTreeMap.map_fst_toList_eq_keys]
  | none =>
    have noted : (noting source).many = none := by simp [noting, there]
    simp only [noted]
    obtain ⟨requests, result, s₁, made, single, fails, named⟩ :=
      fetchEach_noting source addresses log s
    refine ⟨requests, result, s₁, made, ⟨?_, fails, ?_⟩, nofun, fun _ q hq => ?_⟩
    · intro q hq a ha
      obtain ⟨b, hb, answer, rfl⟩ := single q hq
      obtain rfl := List.mem_singleton.1 ha
      exact hb
    · intro a
      constructor
      · rintro ⟨q, hq, omits⟩
        obtain ⟨b, -, answer, rfl⟩ := single q hq
        exact omits.elim
      · rintro ⟨pairs, came, inside, outside⟩
        rw [named pairs came] at outside
        exact absurd inside outside
    · obtain ⟨a, -, answer, rfl⟩ := single q hq
      exact ⟨a, answer, rfl⟩

end Fetching

/-- What can be asked of a cache of balances. -/
inductive Call where
  | get (address : Address)
  | resolve (addresses : AddressSet)

def Call.addresses : Call → List Address
  | get a => [a]
  | resolve as => as.toList

/-- The balances that a call tells, each with its address. -/
def Call.make (source : BaselineSource σ β) : Call → Asking (Baselines β × σ) (List (Address × β))
  | get a => (fun n => [(a, n)]) <$> Baselines.get source a
  | resolve as => Baselines.resolve source as

/-- A call that was made, with what was known before and after it and the requests that it led
to. -/
structure Made (β : Type) where
  call : Call
  before : Baselines β
  requests : List (Request β)
  result : Except Fault (List (Address × β))
  after : Baselines β

def Made.Tells (x : Made β) (a : Address) (n : β) : Prop :=
  ∃ pairs, x.result = .ok pairs ∧ (a, n) ∈ pairs

/-- The addresses of the call that are not known yet. -/
def Made.unknown (x : Made β) : List Address :=
  x.call.addresses.filter fun a => !x.before.known.contains a

def makeCall (source : BaselineSource σ β) (call : Call) (b : Baselines β) (s : σ) : Made β × σ :=
  let (result, (after, (requests, s))) := (call.make (noting source)).outcome (b, ([], s))
  ({ call, before := b, requests, result, after }, s)

/-- Calls made one after another; one that fails is not the end. -/
def history (source : BaselineSource σ β) : List Call → Baselines β → σ → List (Made β)
  | [], _, _ => []
  | call :: calls, b, s =>
    let (x, s) := makeCall source call b s
    x :: history source calls x.after s

/-- How a call behaves. Whether the source takes requests for many addresses is `bulk`. -/
structure Made.Sound (bulk : Bool) (x : Made β) : Prop where
  /-- The result is of all the addresses of the call and no others. -/
  keys : ∀ pairs, x.result = .ok pairs → pairs.map Prod.fst = x.call.addresses
  /-- Requests are for addresses of the call that are not known yet. -/
  asks : ∀ q ∈ x.requests, ∀ a ∈ q.addresses, a ∈ x.unknown
  alone : ∀ a, x.call = .get a → x.requests = [] ∨ ∃ answer, x.requests = [.one a answer]
  /-- There is one request for all the unknown addresses, or none if there are none. -/
  together : ∀ as, x.call = .resolve as → bulk = true →
    (x.unknown = [] ∧ x.requests = []) ∨
      x.unknown ≠ [] ∧ ∃ answer, x.requests = [.many (.ofList x.unknown) answer]
  apart : bulk = false → ∀ q ∈ x.requests, ∃ a answer, q = .one a answer
  /-- The call fails because a request does, or because the answer to one leaves an address out. -/
  fault : ∀ f, x.result = .error f → (∃ q ∈ x.requests, q.Fails f) ∨
    ∃ a, (∃ q ∈ x.requests, q.Omits a) ∧ f = .missingKey (.text a.text)
  /-- If a request fails, so does the call, and nothing is learned. -/
  fails : ∀ f, (∃ q ∈ x.requests, q.Fails f) → x.result = .error f ∧ x.after = x.before
  omits : (∃ a, ∃ q ∈ x.requests, q.Omits a) →
    ∃ a, (∃ q ∈ x.requests, q.Omits a) ∧ x.result = .error (.missingKey (.text a.text))
  /-- What was known stays known. -/
  grows : x.before.Grows x.after
  /-- What is told is known afterwards. -/
  tells : ∀ a n, x.Tells a n → x.after.known[a]? = some n

section Calls

variable {source : BaselineSource σ β} {x : Made β}

/-- Calls are sound that fetch what they do not know, remember it, and tell what they know then. -/
theorem sound_of_fetched {bulk : Bool} (fetched : Except Fault (List (Address × β)))
    (h : Fetched x.unknown x.requests fetched)
    (failing : ∀ f, fetched = .error f → x.result = .error f ∧ x.after = x.before)
    (coming : ∀ pairs, fetched = .ok pairs →
      x.after = x.before.rememberAll pairs ∧ x.result = x.after.select x.call.addresses)
    (alone : ∀ a, x.call = .get a → x.requests = [] ∨ ∃ answer, x.requests = [.one a answer])
    (together : ∀ as, x.call = .resolve as → bulk = true →
      (x.unknown = [] ∧ x.requests = []) ∨
        x.unknown ≠ [] ∧ ∃ answer, x.requests = [.many (.ofList x.unknown) answer])
    (apart : bulk = false → ∀ q ∈ x.requests, ∃ a answer, q = .one a answer) :
    x.Sound bulk := by
  -- an address of the call is still unknown exactly if an answer leaves it out
  have left (pairs : List (Address × β)) (came : fetched = .ok pairs) (a : Address) :
      (∃ q ∈ x.requests, q.Omits a) ↔ a ∈ x.call.addresses ∧ a ∉ x.after.known := by
    rw [h.omits, (coming pairs came).1, mem_rememberAll, not_or, Made.unknown, List.mem_filter,
      Bool.not_eq_true', ← Bool.not_eq_true, Std.ExtTreeMap.contains_iff_mem]
    simp only [came, Except.ok.injEq, exists_eq_left', and_assoc]
  cases came : fetched with
  | error f =>
    obtain ⟨failed, kept⟩ := failing f came
    have ended (f' : Fault) : x.result = .error f' ↔ ∃ q ∈ x.requests, q.Fails f' := by
      rw [failed, ← h.fails, came]
    exact {
      keys := fun pairs told => by cases failed.symm.trans told
      asks := h.asked, alone, together, apart
      fault := fun f' failed' => .inl ((ended f').1 failed')
      fails := fun f' failed' => ⟨(ended f').2 failed', kept⟩
      omits := by
        rintro ⟨a, omitted⟩
        obtain ⟨pairs, came', -⟩ := (h.omits a).1 omitted
        cases came.symm.trans came'
      grows := by
        rw [kept]
        exact .refl _
      tells := by
        rintro a n ⟨pairs, told, -⟩
        cases failed.symm.trans told }
  | ok pairs =>
    obtain ⟨learned, selected⟩ := coming pairs came
    have fault (f : Fault) (ended : x.result = .error f) :
        ∃ a, (∃ q ∈ x.requests, q.Omits a) ∧ f = .missingKey (.text a.text) := by
      obtain ⟨a, ha, unknown, rfl⟩ := select_eq_error (selected.symm.trans ended)
      exact ⟨a, (left pairs came a).2 ⟨ha, unknown⟩, rfl⟩
    exact {
      keys := fun told ended => (known_of_select (selected.symm.trans ended)).1
      asks := h.asked, alone, together, apart
      fault := fun f ended => .inr (fault f ended)
      fails := fun f failed => by cases came.symm.trans ((h.fails f).2 failed)
      omits := by
        rintro ⟨a, omitted⟩
        obtain ⟨asked, unknown⟩ := (left pairs came a).1 omitted
        cases ended : x.result with
        | error f =>
          obtain ⟨c, omitted', rfl⟩ := fault f ended
          exact ⟨c, omitted', rfl⟩
        | ok told =>
          obtain ⟨named, found⟩ := known_of_select (selected.symm.trans ended)
          rw [← named] at asked
          obtain ⟨e, he, rfl⟩ := List.mem_map.1 asked
          refine absurd (Std.ExtTreeMap.mem_iff_isSome_getElem?.2 ?_) unknown
          rw [found e he]
          rfl
      grows := by
        rw [learned]
        exact grows_rememberAll _ _
      tells := by
        rintro a n ⟨told, ended, listed⟩
        exact (known_of_select (selected.symm.trans ended)).2 (a, n) listed }

theorem fetched_one (a : Address) (answer : Except Fault β) :
    Fetched [a] [.one a answer] (answer.map fun n => [(a, n)]) where
  asked := by simp [Request.addresses]
  fails f := by cases answer <;> simp [Except.map]
  omits c := by cases answer <;> simp [Except.map]

theorem sound_get (source : BaselineSource σ β) (a : Address) (b : Baselines β) (s : σ) :
    (makeCall source (.get a) b s).1.Sound source.many.isSome := by
  cases held : b.known[a]? with
  | some n =>
    have made : ((Call.get a).make (noting source)).outcome (b, ([], s)) =
        (.ok [(a, n)], (b, ([], s))) := by
      simp [Call.make, Asking.outcome_map, Baselines.get, held, Except.map]
    have inside : b.known.contains a = true := by
      rw [Std.ExtTreeMap.contains_eq_isSome_getElem?, held]
      rfl
    simp only [makeCall, made]
    refine sound_of_fetched (.ok []) ⟨by simp, by simp, ?_⟩ nofun ?_
      (fun _ _ => .inl rfl) nofun (by simp)
    · simp [Made.unknown, Call.addresses, inside]
    · rintro pairs ⟨⟩
      simp only [rememberAll, List.foldl_nil, Call.addresses, select, held, true_and]
      rfl
  | none =>
    have outside : b.known.contains a = false := by
      rw [Std.ExtTreeMap.contains_eq_isSome_getElem?, held]
      rfl
    rcases asked : (source.one a).outcome s with ⟨answer, s'⟩
    have noted : ((noting source).one a).outcome ([], s) = (answer, ([.one a answer], s')) := by
      simp [noting, asked]
    have unknown : (Call.get a).addresses.filter (fun c => !b.known.contains c) = [a] := by
      simp [Call.addresses, outside]
    cases answer with
    | error f =>
      have made : ((Call.get a).make (noting source)).outcome (b, ([], s)) =
          (.error f, (b, ([.one a (.error f)], s'))) := by
        simp [Call.make, Asking.outcome_map, Baselines.get, held, noted, Except.map]
      simp only [makeCall, made]
      refine sound_of_fetched (.error f) ?_ (fun f' h => ⟨?_, rfl⟩) nofun
        (fun c h => .inr ⟨.error f, by rw [Call.get.inj h]⟩) nofun (by simp)
      · simp only [Made.unknown, unknown]
        exact fetched_one a (.error f)
      · exact congrArg Except.error (Except.error.inj h)
    | ok n =>
      have made : ((Call.get a).make (noting source)).outcome (b, ([], s)) =
          (.ok [(a, n)], (b.remember a n, ([.one a (.ok n)], s'))) := by
        simp [Call.make, Asking.outcome_map, Baselines.get, held, noted, Except.map]
      have found : (b.remember a n).known[a]? = some n := by
        rw [remember, Std.ExtTreeMap.getElem?_insertIfNew, if_pos]
        exact ⟨Std.ReflCmp.compare_self, fun inside => Bool.false_ne_true <|
          outside.symm.trans (Std.ExtTreeMap.contains_iff_mem.2 inside)⟩
      simp only [makeCall, made]
      refine sound_of_fetched (.ok [(a, n)]) ?_ nofun ?_
        (fun c h => .inr ⟨.ok n, by rw [Call.get.inj h]⟩) nofun (by simp)
      · simp only [Made.unknown, unknown]
        exact fetched_one a (.ok n)
      · rintro pairs ⟨⟩
        refine ⟨rfl, ?_⟩
        simp only [Call.addresses, select, found]
        rfl

theorem sound_resolve (source : BaselineSource σ β) (as : AddressSet) (b : Baselines β) (s : σ) :
    (makeCall source (.resolve as) b s).1.Sound source.many.isSome := by
  obtain ⟨requests, fetched, s', came, sound, bulk, single⟩ :=
    fetchMissing_noting source (b.missing as) [] s
  rw [List.nil_append] at came
  have apart (alone : source.many.isSome = false) :
      ∀ q ∈ requests, ∃ a answer, q = .one a answer :=
    single (by simpa using alone)
  cases fetched with
  | error f =>
    have made : ((Call.resolve as).make (noting source)).outcome (b, ([], s)) =
        (.error f, (b, (requests, s'))) := by
      simp [Call.make, Baselines.resolve, came]
    simp only [makeCall, made]
    exact sound_of_fetched _ sound (fun f' h => ⟨congrArg Except.error (Except.error.inj h), rfl⟩)
      nofun nofun (fun _ _ => bulk) apart
  | ok pairs =>
    have made : ((Call.resolve as).make (noting source)).outcome (b, ([], s)) =
        ((b.rememberAll pairs).select as.toList, (b.rememberAll pairs, (requests, s'))) := by
      simp [Call.make, Baselines.resolve, came]
    simp only [makeCall, made]
    refine sound_of_fetched _ sound nofun ?_ nofun (fun _ _ => bulk) apart
    rintro pairs' ⟨⟩
    exact ⟨rfl, rfl⟩

theorem sound_makeCall (source : BaselineSource σ β) (call : Call) (b : Baselines β) (s : σ) :
    (makeCall source call b s).1.Sound source.many.isSome := by
  cases call with
  | get a => exact sound_get source a b s
  | resolve as => exact sound_resolve source as b s

/-- Each call is sound and knows all that was known at first. -/
theorem sound_of_mem_history {calls : List Call} {b : Baselines β} {s : σ}
    (hx : x ∈ history source calls b s) : x.Sound source.many.isSome ∧ b.Grows x.before := by
  induction calls generalizing b s with
  | nil => nomatch hx
  | cons call calls ih =>
    have first := sound_makeCall source call b s
    obtain rfl | later := List.mem_cons.1 hx
    · exact ⟨first, .refl b⟩
    · obtain ⟨sound, grows⟩ := ih later
      exact ⟨sound, first.grows.trans grows⟩

/-- What one call tells, the calls after it know. -/
theorem known_of_history (source : BaselineSource σ β) (calls : List Call) (b : Baselines β)
    (s : σ) :
    (history source calls b s).Pairwise fun x y =>
      ∀ a n, x.Tells a n → y.before.known[a]? = some n := by
  induction calls generalizing b s with
  | nil => exact .nil
  | cons call calls ih =>
    refine .cons (fun y hy a n told => ?_) (ih _ _)
    exact (sound_of_mem_history hy).2 a n ((sound_makeCall source call b s).tells a n told)

/-- A call that knows a balance tells no other. -/
theorem Made.Sound.eq_of_tells {bulk : Bool} {a : Address} {n k : β} (h : x.Sound bulk)
    (known : x.before.known[a]? = some n) (told : x.Tells a k) : n = k :=
  Option.some.inj ((h.grows a n known).symm.trans (h.tells a k told))

/-- A call that knows a balance does not ask for it. -/
theorem Made.Sound.not_asked {bulk : Bool} {a : Address} {n : β} (h : x.Sound bulk)
    (known : x.before.known[a]? = some n) {q : Request β} (hq : q ∈ x.requests) :
    a ∉ q.addresses := by
  intro asked
  have unknown := (List.mem_filter.1 (h.asks q hq a asked)).2
  rw [Std.ExtTreeMap.contains_eq_isSome_getElem?, known] at unknown
  exact Bool.false_ne_true unknown

end Calls

/-- Over any calls on an empty cache, whatever the source answers and however it fails: one balance
is ever told of an account, an account that was told one is not asked for again, and each call
behaves as `Made.Sound` says. -/
theorem told_of_history (source : BaselineSource σ β) (calls : List Call) (s : σ) :
    let made := history source calls {} s
    (∀ x ∈ made, ∀ y ∈ made, ∀ a n k, x.Tells a n → y.Tells a k → n = k) ∧
      (made.Pairwise fun x y => ∀ a n, x.Tells a n → ∀ q ∈ y.requests, a ∉ q.addresses) ∧
      ∀ x ∈ made, x.Sound source.many.isSome := by
  intro made
  have sound (x : Made β) (hx : x ∈ made) : x.Sound source.many.isSome :=
    (sound_of_mem_history hx).1
  have known := known_of_history source calls {} s
  have agree : made.Pairwise fun x y => ∀ a n k, x.Tells a n → y.Tells a k → n = k :=
    known.imp_of_mem fun _ hy told a n k tells tells' =>
      (sound _ hy).eq_of_tells (told a n tells) tells'
  have itself (x : Made β) (hx : x ∈ made) (a : Address) (n k : β) (told : x.Tells a n)
      (told' : x.Tells a k) : n = k :=
    Option.some.inj (((sound x hx).tells a n told).symm.trans ((sound x hx).tells a k told'))
  refine ⟨?_, ?_, sound⟩
  · intro x hx y hy
    exact agree.forall_of_forall_of_flip itself
      (agree.imp fun h a n k told told' => (h a k n told' told).symm) hx hy
  · exact known.imp_of_mem fun _ hy told a n tells q hq =>
      (sound _ hy).not_asked (told a n tells) hq

/-- A source that never answers twice alike; of many accounts it leaves out the largest. -/
def fickle : BaselineSource Nat where
  one _ := .ofOutcome fun n => (.ok n, n + 1)
  many := some fun as => .ofOutcome fun n =>
    (.ok (.ofList (as.toList.dropLast.map fun a => (a, (n : Int)))), n + 1)

example :
    let a := Address.zero
    let b := Address.ofWord 1
    let c := Address.ofWord 2
    (history fickle [.get a, .resolve (.ofList [a, b, c]), .resolve (.ofList [a, b]), .get c]
        {} 7).map Made.result =
      [.ok [(a, 7)], .error (.missingKey (.text c.text)), .ok [(a, 7), (b, 8)], .ok [(c, 9)]] := by
  rfl

end Baselines

end TraceDiff
