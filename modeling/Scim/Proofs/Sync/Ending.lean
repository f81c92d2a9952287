import Scim.Proofs.Sync.Beside
import Scim.Proofs.Sync.Rounds

/-!
# Walks that end by themselves

A walk goes by what its service answers, and nothing says that a service knows of pages.  Notes
are taken of a walk beside its state: where its list requests start, and which pages it hands
over.  If it is told no total above a bound, it makes no more list requests than the bound
says, or one, and has the same outcome with any budget that covers these.
-/

namespace Scim

variable {σ α β : Type}

theorem Service.startIndex_capped (service : Service σ) (spec : QuerySpec) :
    (service.capped spec).startIndex = spec.startIndex := by
  unfold capped
  split
  · rfl
  · split
    · rfl
    · split <;> rfl

namespace Walk

/-! ## Notes -/

variable {service : Service σ} {spec : QuerySpec} {size : Int} {visit : List Json → Action σ Unit}

/-- What is noted of a walk: where its list requests start, and the pages that it hands over. -/
structure Notes where
  starts : List Int := []
  pages : List (List Json) := []

/-- Notes with those of a later part of the walk behind them. -/
def Notes.append (notes later : Notes) : Notes :=
  ⟨notes.starts ++ later.starts, notes.pages ++ later.pages⟩

/-- A service with notes beside its state, in which it writes where each list request starts. -/
def noted (service : Service σ) : Service (σ × Notes) :=
  { service with
    adapter := { service.adapter.zoom .first with
      list := fun spec => do
        modify fun (state, notes) => (state, notes.append { starts := [spec.startIndex] })
        (service.adapter.list spec).zoom .first } }

/-- A visit with notes beside the state, in which it writes the page that it is handed. -/
def noting (visit : List Json → Action σ Unit) (part : List Json) : Action (σ × Notes) Unit := do
  modify fun (state, notes) => (state, notes.append { pages := [part] })
  (visit part).zoom .first

theorem Notes.append_assoc (first second third : Notes) :
    (first.append second).append third = first.append (second.append third) := by
  simp [append]

theorem Notes.append_nil (notes : Notes) : notes.append {} = notes := by
  simp [append]

/-- Whether an action does what another one does without notes, and adds some to those there are. -/
def Adds (action : Action (σ × Notes) α) (plain : Action σ α) (state : σ) (more : Notes) : Prop :=
  ∀ notes, action.run (state, notes) =
    ((plain.run state).1, (plain.run state).2, notes.append more)

namespace Adds

variable {action : Action (σ × Notes) α} {plain : Action σ α} {next : α → Action (σ × Notes) β}
  {nextPlain : α → Action σ β} {state : σ} {more : Notes}

theorem ofExcept (outcome : Except Failure α) (state : σ) :
    Adds (Action.ofExcept outcome) (Action.ofExcept outcome) state {} := by
  intro notes
  rw [Notes.append_nil]
  rfl

theorem pure (value : α) (state : σ) : Adds (Pure.pure value) (Pure.pure value) state {} :=
  ofExcept (.ok value) state

theorem bind_of_ok {value : α} {middle : σ} {later : Notes} (first : Adds action plain state more)
    (ran : plain.run state = (.ok value, middle))
    (rest : Adds (next value) (nextPlain value) middle later) :
    Adds (action >>= next) (plain >>= nextPlain) state (more.append later) := by
  intro notes
  rw [Action.run_bind_ok ran, Action.run_bind, first notes, ran, ← Notes.append_assoc]
  exact rest (notes.append more)

/-- What follows may be an action that adds nothing. -/
theorem bind_quiet (first : Adds action plain state more)
    (rest : ∀ value middle, plain.run state = (.ok value, middle) →
      Adds (next value) (nextPlain value) middle {}) :
    Adds (action >>= next) (plain >>= nextPlain) state more := by
  intro notes
  cases ran : plain.run state with
  | mk outcome middle =>
      cases outcome with
      | error failure =>
          rw [Action.run_bind_error ran, Action.run_bind, first notes, ran]
      | ok value =>
          have added := first.bind_of_ok ran (rest value middle ran) notes
          rwa [Notes.append_nil] at added

end Adds

/-- A list request is noted with the index from which it asks. -/
theorem adds_list (service : Service σ) (asked : QuerySpec) (state : σ) :
    Adds ((noted service).list asked) (service.list asked) state
      { starts := [asked.startIndex] } := by
  rw [← service.startIndex_capped asked]
  have listed : Adds ((noted service).adapter.list (service.capped asked))
      (service.adapter.list (service.capped asked)) state
      { starts := [(service.capped asked).startIndex] } := fun _ => rfl
  exact listed.bind_quiet fun listing middle _ => .ofExcept _ middle

theorem adds_noting (visit : List Json → Action σ Unit) (part : List Json) (state : σ) :
    Adds (noting visit part) (visit part) state { pages := [part] } := fun _ => rfl

/-- A round is noted with the index from which it asks, and with a page only if there is anything on
it. -/
theorem adds_round (service : Service σ) (spec : QuerySpec) (size : Int)
    (visit : List Json → Action σ Unit) (start : Int) (state : σ) :
    ∃ handed : List (List Json), (∀ part ∈ handed, part ≠ []) ∧
      Adds (round (noted service) spec size (noting visit) start)
        (round service spec size visit start) state { starts := [start], pages := handed } := by
  have asks : Adds (page (noted service) spec size start) (page service spec size start) state
      { starts := [start] } := adds_list service _ state
  by_cases hands : ∃ answer middle,
      (page service spec size start).run state = (.ok answer, middle) ∧ answer.resources ≠ []
  · obtain ⟨answer, middle, asked, nonempty⟩ := hands
    refine ⟨[answer.resources], List.forall_mem_singleton.mpr nonempty, ?_⟩
    change Adds _ _ state (Notes.append { starts := [start] } { pages := [answer.resources] })
    apply asks.bind_of_ok asked
    rw [if_neg (by simpa using nonempty), if_neg (by simpa using nonempty)]
    exact (adds_noting visit answer.resources middle).bind_quiet fun _ after _ => .pure _ after
  · refine ⟨[], nofun, asks.bind_quiet fun answer middle asked => ?_⟩
    have empty : answer.resources = [] := by
      by_contra nonempty
      exact hands ⟨answer, middle, asked, nonempty⟩
    rw [empty]
    exact .pure none middle

/-! ## Whole walks -/

/-- Notes as they are taken of a walk that goes on from an index within a bound: it starts each list
request behind the one before it, and it hands over no empty page. -/
structure Notes.Within (start bound : Int) (notes : Notes) : Prop where
  first : notes.starts.head? = some start
  increasing : notes.starts.Pairwise (· < ·)
  count : (notes.starts.length : Int) ≤ max 1 (bound - start + 1)
  nonempty : ∀ part ∈ notes.pages, part ≠ []

theorem Notes.Within.once {start bound : Int} {handed : List (List Json)}
    (nonempty : ∀ part ∈ handed, part ≠ []) :
    Notes.Within start bound { starts := [start], pages := handed } where
  first := rfl
  increasing := List.pairwise_singleton _ _
  count := by
    rw [List.length_singleton]
    omega
  nonempty := nonempty

theorem Notes.Within.again {start next bound : Int} {handed : List (List Json)} {later : Notes}
    (nonempty : ∀ part ∈ handed, part ≠ []) (forward : start < next) (reached : next ≤ bound)
    (within : later.Within next bound) :
    (Notes.append { starts := [start], pages := handed } later).Within start bound where
  first := rfl
  increasing := by
    obtain ⟨rest, starts⟩ := List.head?_eq_some_iff.mp within.first
    have increasing := within.increasing
    rw [Notes.append, List.singleton_append, List.pairwise_cons]
    refine ⟨fun other held => ?_, increasing⟩
    rw [starts] at held increasing
    cases List.mem_cons.mp held with
    | inl same => exact same ▸ forward
    | inr behind => exact forward.trans (List.rel_of_pairwise_cons increasing behind)
  count := by
    have count := within.count
    rw [Notes.append, List.singleton_append, List.length_cons]
    omega
  nonempty := by
    intro part held
    cases List.mem_append.mp held with
    | inl now => exact nonempty part now
    | inr behind => exact within.nonempty part behind

section

variable (service : Service σ) (spec : QuerySpec) (size : Int) (visit : List Json → Action σ Unit)

/-- Whether a walk from an index on goes as it is noted: whatever budget covers the list requests
that it makes, it has the same outcome. -/
def Goes (start : Int) (state : σ) (notes : Notes) (outcome : Except Failure Unit) (after : σ) :
    Prop :=
  ∀ budget, notes.starts.length ≤ budget →
    (fromIndex service spec size visit budget start).run state = (outcome, after) ∧
    Adds (fromIndex (noted service) spec size (noting visit) budget start)
      (fromIndex service spec size visit budget start) state notes

/-- Whether a failure is one of a list request or a visit at a point that a walk comes to. -/
def RoundFails (origin : σ) (failure : Failure) : Prop :=
  ∃ start state, Comes service spec size visit origin start state ∧
    ((round service spec size visit start).run state).1 = .error failure

end

section

variable {start : Int} {state after : σ} {handed : List (List Json)}
  (adds : Adds (round (noted service) spec size (noting visit) start)
    (round service spec size visit start) state ⟨[start], handed⟩)
include adds

/-- A walk that ends with a round goes as the round does. -/
theorem goes_of_ended {ending : Except Failure (Option Int)}
    (ran : (round service spec size visit start).run state = (ending, after))
    (ended : ∀ next, ending ≠ .ok (some next)) :
    Goes service spec size visit start state ⟨[start], handed⟩ (ending.map fun _ => ()) after := by
  intro budget enough
  obtain ⟨budget, rfl⟩ := Nat.exists_eq_add_of_le' enough
  rw [List.length_singleton, fromIndex_succ, fromIndex_succ]
  constructor
  · rw [Action.run_bind, ran]
    match ending with
    | .error failure => rfl
    | .ok none => rfl
    | .ok (some next) => exact absurd rfl (ended next)
  · apply adds.bind_quiet
    intro next middle done
    rw [ran] at done
    cases next with
    | none => exact .pure () middle
    | some next => exact absurd (congrArg Prod.fst done) (ended next)

/-- A walk that goes on after a round goes as the round does, and then as it goes on. -/
theorem goes_of_goesOn {next : Int} {later : Notes} {outcome : Except Failure Unit} {last : σ}
    (ran : (round service spec size visit start).run state = (.ok (some next), after))
    (goes : Goes service spec size visit next after later outcome last) :
    Goes service spec size visit start state (Notes.append ⟨[start], handed⟩ later) outcome
      last := by
  intro budget enough
  have covers : later.starts.length + 1 ≤ budget := enough
  obtain ⟨budget, rfl⟩ := Nat.exists_eq_add_of_le' (Nat.le_trans (Nat.le_add_left 1 _) covers)
  obtain ⟨runs, addsLater⟩ := goes budget (Nat.le_of_succ_le_succ covers)
  rw [fromIndex_succ, fromIndex_succ]
  constructor
  · rw [Action.run_bind_ok ran]
    exact runs
  · exact adds.bind_of_ok ran addsLater

end

/-- From each point that a walk comes to it ends by itself, within its bound. -/
theorem exists_goes {origin : σ} {bound : Int}
    (bounded : Bounded service spec size visit origin bound) {start : Int} {state : σ}
    (comes : Comes service spec size visit origin start state) :
    ∃ notes outcome after, Goes service spec size visit start state notes outcome after ∧
      notes.Within start bound ∧
        ∀ failure, outcome = .error failure →
          RoundFails service spec size visit origin failure := by
  obtain ⟨handed, nonempty, adds⟩ := adds_round service spec size visit start state
  rcases ran : (round service spec size visit start).run state with ⟨failure | _ | next, after⟩
  · refine ⟨_, _, after, goes_of_ended adds ran nofun, .once nonempty, ?_⟩
    intro _ failed
    cases failed
    exact ⟨start, state, comes, congrArg Prod.fst ran⟩
  · exact ⟨_, _, after, goes_of_ended adds ran nofun, .once nonempty, nofun⟩
  · -- the way that is left to the bound gets shorter
    obtain ⟨forward, reached⟩ := bounded.goesOn comes ran
    obtain ⟨later, outcome, last, goes, within, fails⟩ := exists_goes bounded (comes.next ran)
    exact ⟨_, outcome, last, goes_of_goesOn adds ran goes,
      within.again nonempty forward reached, fails⟩
termination_by (bound - start).toNat
decreasing_by omega

/-- Pages that are to hold nothing are not asked for. -/
theorem run_pages_of_lt (small : size < 1) (budget : Nat) (state : σ) :
    (pages service spec size visit budget).run state = (.error (.fault .badArgument), state) := by
  rw [pages, if_pos small]
  rfl

/-- How a walk goes that ends by itself within a bound: what is noted of it, its outcome, and the
state after it. -/
structure Ends (service : Service σ) (spec : QuerySpec) (size : Int)
    (visit : List Json → Action σ Unit) (state : σ) (bound : Int) (notes : Notes)
    (outcome : Except Failure Unit) (after : σ) : Prop where
  /-- It is the same with whatever budget covers the list requests that it makes. -/
  runs : ∀ budget, notes.starts.length ≤ budget →
    (pages service spec size visit budget).run state = (outcome, after) ∧
    (pages (noted service) spec size (noting visit) budget).run (state, {}) =
      (outcome, after, notes)
  count : notes.starts.length ≤ max 1 bound
  /-- It asks from index 1 on, unless its pages are to hold nothing: then it asks for none. -/
  first : notes.starts.head? = if size < 1 then none else some 1
  increasing : notes.starts.Pairwise (· < ·)
  nonempty : ∀ part ∈ notes.pages, part ≠ []
  /-- If it asks for pages, it fails only where a list request or a visit fails. -/
  fails : ∀ failure, outcome = .error failure →
    size < 1 ∧ failure = .fault .badArgument ∨ RoundFails service spec size visit state failure

/-- A walk that is told no total above a bound ends by itself, whatever its service answers and
whatever is done with the pages: its list requests start at ever higher indexes from 1 on and are no
more than the bound says, but for the first, and no page that it hands over is empty. -/
theorem pages_end {bound : Int} (bounded : Bounded service spec size visit state bound) :
    ∃ notes outcome after, Ends service spec size visit state bound notes outcome after := by
  by_cases small : size < 1
  · refine ⟨{}, .error (.fault .badArgument), state, ?_⟩
    exact {
      runs := fun budget _ => ⟨run_pages_of_lt small .., run_pages_of_lt small ..⟩
      count := Int.le_trans (by decide) (Int.le_max_left 1 bound)
      first := (if_pos small).symm
      increasing := .nil
      nonempty := nofun
      fails := by
        intro failure failed
        cases failed
        exact .inl ⟨small, rfl⟩ }
  · obtain ⟨notes, outcome, after, goes, within, fails⟩ := exists_goes bounded .first
    refine ⟨notes, outcome, after, ?_⟩
    exact {
      runs := by
        intro budget enough
        obtain ⟨runs, adds⟩ := goes budget enough
        rw [pages, pages, if_neg small, if_neg small]
        refine ⟨runs, (adds {}).trans ?_⟩
        rw [runs]
        rfl
      count := by
        have count := within.count
        omega
      first := within.first.trans (if_neg small).symm
      increasing := within.increasing
      nonempty := within.nonempty
      fails := fun failure failed => .inr (fails failure failed) }

/-- A list response with two resources of three. -/
def twoOfThree : Json :=
  .obj [("totalResults", .int 3),
    ("Resources", .arr [.obj [("id", .str "x")], .obj [("id", .str "y")]])]

/-- A server that answers each request with the same list response. -/
def repeating : Http.Session := .ofResponses [⟨200, [], twoOfThree.compact⟩]

theorem totalsWithin_repeating : repeating.TotalsWithin 3 := by
  have same (i : Nat) : repeating.response i = ⟨200, [], twoOfThree.compact⟩ := by
    cases i <;> rfl
  have read : (⟨200, [], twoOfThree.compact⟩ : Http.Response).json = .ok twoOfThree := by cbv
  intro i total states
  obtain ⟨body, json, stated⟩ := states
  rw [same, read] at json
  cases json
  have three : twoOfThree.attrOf "totalResults" = .ok (.int 3) := rfl
  rw [three] at stated
  cases total with
  | count n =>
      cases stated
      exact Int.le_refl 3
  | flag b => cases stated

/-- A walk through the resources of this server, which knows nothing of pages, ends after three list
requests at most, though a page is to hold one resource only. -/
theorem pages_end_repeating :
    let remote : Remote := .ofEndpoint (.ofSettings "https://scim.example/v2" {}) "/Users" false
    let service : Service (Http.Session × List Json) :=
      .of (remote.adapter.zoom .first) none none {}
    Bounded service {} 1 Reconciliation.gather (repeating, []) 3 ∧
      ∃ notes outcome after,
        Ends service {} 1 Reconciliation.gather (repeating, []) 3 notes outcome after := by
  intro remote service
  have gathers (part : List Json) : Action.Maintains
      (fun state : Http.Session × List Json => state.1.TotalsWithin 3)
      (Reconciliation.gather part) := .modify fun _ within => within
  have bounded : Bounded service {} 1 Reconciliation.gather (repeating, []) 3 :=
    bounded_of_totalsWithin rfl gathers totalsWithin_repeating
  exact ⟨bounded, pages_end bounded⟩

end Walk

end Scim
