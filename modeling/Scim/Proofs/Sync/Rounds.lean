import Scim.Proofs.Http.Throttling
import Scim.Proofs.Patch.Returning
import Scim.Proofs.Sync.Walking
import Scim.Store.Remote

/-!
# Rounds of a walk

A walk goes round by round: a list request, a visit of the page if there is anything on it, and
the index from which the next round asks.  A round that goes on has handed over a page that is
not empty, so the next one asks from further behind, and the total that was stated reaches to
there.  A bound on the totals that a walk is told, be it because the server that it goes
through states none above it, is therefore a bound on where its rounds start.
-/

namespace Scim

variable {σ τ α : Type}

namespace Walk

/-! ## Rounds -/

section

variable (service : Service σ) (spec : QuerySpec) (size : Int) (visit : List Json → Action σ Unit)

/-- One round of a walk: a list request and, unless the page is empty, a visit of it. The result is
the index from which the next round asks, if there is one. -/
def round (start : Int) : Action σ (Option Int) := do
  let answer ← page service spec size start
  if answer.resources.isEmpty then return none
  visit answer.resources
  let next := start + answer.resources.length
  return if answer.total.value < next then none else some next

/-- A walk goes round by round. -/
theorem fromIndex_succ (budget : Nat) (start : Int) :
    fromIndex service spec size visit (budget + 1) start =
      round service spec size visit start >>= fun next =>
        next.elim (pure ()) (fromIndex service spec size visit budget) := by
  rw [fromIndex, round, bind_assoc]
  congr 1
  funext answer
  split
  · rfl
  · rw [bind_assoc]
    congr 1
    funext _
    dsimp only
    rw [pure_bind]
    split <;> rfl

/-- The points that a walk comes to: the index that it asks from, and the state in which it asks. -/
inductive Comes (origin : σ) : Int → σ → Prop where
  | first : Comes origin 1 origin
  | next {start next : Int} {state after : σ} (before : Comes origin start state)
      (goesOn : (round service spec size visit start).run state = (.ok (some next), after)) :
      Comes origin next after

/-- Whether the totals that a walk is told stay within a bound. One that is not above the number of
resources on its page may be behind the bound: where a server states none, this number counts. -/
def Bounded (origin : σ) (bound : Int) : Prop :=
  ∀ start state answer after, Comes service spec size visit origin start state →
    (page service spec size start).run state = (.ok answer, after) →
      answer.total.value ≤ max bound answer.resources.length

end

variable {service : Service σ} {spec : QuerySpec} {size : Int} {visit : List Json → Action σ Unit}

/-- A walk goes on after a page that is not empty and does not reach the total. -/
theorem round_goesOn {start next : Int} {state after : σ}
    (goesOn : (round service spec size visit start).run state = (.ok (some next), after)) :
    ∃ answer middle, (page service spec size start).run state = (.ok answer, middle) ∧
      answer.resources ≠ [] ∧ next = start + answer.resources.length ∧
        next ≤ answer.total.value := by
  obtain ⟨answer, middle, asked, rest⟩ := Action.run_bind_eq_ok_iff.mp goesOn
  split at rest
  · cases rest
  · next nonempty =>
    obtain ⟨_, _, _, last⟩ := Action.run_bind_eq_ok_iff.mp rest
    dsimp only at last
    split at last
    · cases last
    · next reached =>
      cases last
      exact ⟨answer, middle, asked, by simpa using nonempty, rfl, not_lt.mp reached⟩

theorem Comes.one_le {origin state : σ} {start : Int}
    (comes : Comes service spec size visit origin start state) : 1 ≤ start := by
  induction comes with
  | first => exact le_rfl
  | next _ goesOn ih =>
      obtain ⟨_, _, _, _, rfl, _⟩ := round_goesOn goesOn
      omega

/-- A round that goes on brings a walk forward, but not behind its bound. -/
theorem Bounded.goesOn {origin state after : σ} {bound start next : Int}
    (bounded : Bounded service spec size visit origin bound)
    (comes : Comes service spec size visit origin start state)
    (goesOn : (round service spec size visit start).run state = (.ok (some next), after)) :
    start < next ∧ next ≤ bound := by
  obtain ⟨answer, middle, asked, nonempty, rfl, reached⟩ := round_goesOn goesOn
  have told := bounded start state answer middle comes asked
  have positive := comes.one_le
  have progress : 0 < answer.resources.length := List.length_pos_of_ne_nil nonempty
  omega

/-- The totals stay within a bound if they do so while an invariant holds that the walk keeps. -/
theorem Bounded.of_maintains {origin : σ} {bound : Int} {invariant : σ → Prop}
    (holds : invariant origin)
    (pageKeeps : ∀ start, Action.Maintains invariant (page service spec size start) fun answer =>
      answer.total.value ≤ max bound answer.resources.length)
    (visitKeeps : ∀ part, Action.Maintains invariant (visit part)) :
    Bounded service spec size visit origin bound := by
  have kept (start : Int) : Action.Maintains invariant (round service spec size visit start) := by
    apply Action.Maintains.bind (pageKeeps start)
    intro answer _
    split
    · exact .pure trivial
    · exact .bind (visitKeeps answer.resources) fun _ _ => .pure trivial
  have atPoint {start state} (comes : Comes service spec size visit origin start state) :
      invariant state := by
    induction comes with
    | first => exact holds
    | next _ goesOn ih => exact (kept _ _ _ _ goesOn ih).1
  intro start state answer after comes asked
  exact (pageKeeps start state answer after asked (atPoint comes)).2

end Walk

/-! ## Totals that a server states -/

theorem Action.Maintains.zoom {invariant : σ → Prop} {action : Action σ α} {P : α → Prop}
    (maintains : Action.Maintains invariant action P) (slot : Slot τ σ) :
    Action.Maintains (fun state => invariant (slot.get state)) (action.zoom slot) P := by
  intro state result after ran holds
  rw [Action.run_zoom] at ran
  obtain ⟨succeeded, rfl⟩ := Prod.mk.inj ran
  change invariant (slot.get (slot.set _ state)) ∧ P result
  rw [slot.get_set]
  exact maintains _ result _ (Prod.ext succeeded rfl) holds

namespace Http

variable {P : Response → Prop} {session : Session}

/-- Whether all that a server has in store has a property. -/
def Session.Serves (P : Response → Prop) (session : Session) : Prop :=
  ∀ i, P (session.response i)

theorem Session.Serves.sent (serves : session.Serves P) (request : Request) :
    (session.sent request).Serves P := by
  intro i
  rw [session.response_sent]
  exact serves (i + 1)

/-- What comes of an exchange is one of the responses that the server had in store. -/
theorem Session.Serves.exchange (serves : session.Serves P) (request : Request) (retries : Nat) :
    P ((Client.exchange request retries).run session).1 ∧
      ((Client.exchange request retries).run session).2.Serves P := by
  induction retries generalizing session with
  | zero =>
      rw [Client.run_exchange_zero]
      exact ⟨serves 0, serves.sent request⟩
  | succ retries ih =>
      rw [Client.run_exchange_succ]
      split
      · exact ih (serves.sent request)
      · exact ⟨serves 0, serves.sent request⟩

/-- Whether a response states a total. -/
def Response.StatesTotal (response : Response) (total : Total) : Prop :=
  ∃ body, response.json = .ok body ∧ body.attrOf "totalResults" = .ok total.toJson

/-- Whether no response that a server has in store states a total above a bound. -/
def Session.TotalsWithin (bound : Int) : Session → Prop :=
  Session.Serves fun response => ∀ total, response.StatesTotal total → total.value ≤ bound

end Http

namespace Remote

open Http

variable {remote : Remote} {body resources : Json} {items : List Json} {total : Total}

/-- A call has the body of one of the responses that the server had in store. -/
theorem maintains_call (P : Response → Prop) (method path : String) (payload params : Json)
    (extra : Members) :
    Action.Maintains (Session.Serves P) (remote.call method path payload params extra) fun body =>
      ∃ response, P response ∧ response.json = .ok body := by
  have sends : Action.Maintains (Session.Serves P)
      (liftM (remote.client.send method path payload params extra) :
        Action Http.Session Response) P := by
    intro session response after ran serves
    have sent : (liftM (remote.client.send method path payload params extra) :
        Action Http.Session Response).run session =
      (.ok ((remote.client.send method path payload params extra).run session).1,
        ((remote.client.send method path payload params extra).run session).2) := rfl
    rw [sent] at ran
    obtain ⟨⟨⟩, rfl⟩ := Prod.mk.inj ran
    exact (serves.exchange _ _).symm
  refine .bind sends fun response served => .ofExcept fun body accepted => ⟨response, served, ?_⟩
  unfold accept at accepted
  split at accepted
  · cases json : response.json with
    | error fault =>
        rw [json] at accepted
        cases accepted
    | ok read =>
        rw [json] at accepted
        cases accepted
        rfl
  · dsimp only at accepted
    split at accepted <;> cases accepted

/-- What a value counts as listing is as long as the value. -/
theorem itemCount_of_listed {count : Nat} (listed : resources.listed = .ok items)
    (counted : itemCount resources = .ok count) : count = items.length := by
  cases resources with
  | null | bool _ | int _ | double _ => cases counted
  | str s =>
      rw [Json.listed_str] at listed
      cases counted
      cases listed
      rw [List.length_map, String.length_toList]
  | arr given =>
      rw [Json.listed_arr] at listed
      cases counted
      cases listed
      rfl
  | obj members =>
      rw [Json.listed_obj] at listed
      cases counted
      cases listed
      rw [List.length_map, Members.names, List.length_map]

/-- The total of a list response is stated, or it is the number of its resources. -/
theorem total_of_readListing (read : readListing body = .ok (resources, total))
    (listed : resources.listed = .ok items) :
    body.attrOf "totalResults" = .ok total.toJson ∨ total = .count items.length := by
  obtain ⟨held, _, rest⟩ := bind_eq_ok_iff.mp read
  obtain ⟨stated, found, rest⟩ := bind_eq_ok_iff.mp rest
  obtain ⟨count, counted, same⟩ := bind_eq_ok_iff.mp rest
  obtain ⟨rfl, rfl⟩ := Prod.mk.inj (Except.ok.inj same)
  -- what is no object counts as an empty one, which states nothing
  have whole : body.orElse (.obj []) = body ∨ stated = .null := by
    unfold Json.orElse at found ⊢
    split at found
    · cases found
      exact .inr rfl
    · next given => exact .inl (if_neg given)
  split
  · next n =>
    obtain whole | ⟨⟨⟩⟩ := whole
    rw [whole] at found
    exact .inl found
  · next b =>
    obtain whole | ⟨⟨⟩⟩ := whole
    rw [whole] at found
    exact .inl found
  · exact .inr (congrArg (fun n : Nat => Total.count n) (itemCount_of_listed listed counted))

/-- The totals of a server that states none above a bound are within it. -/
theorem maintains_list (remote : Remote) (bound : Int) (spec : QuerySpec) :
    Action.Maintains (Session.TotalsWithin bound) (remote.adapter.list spec) fun listing =>
      listing.paginated = true ∧ listing.projected = true ∧
        (listing.total.getD (.count listing.resources.length)).value ≤
          max bound listing.resources.length := by
  refine .bind (P := fun answer => ∀ items, answer.1.listed = .ok items →
    answer.2.value ≤ max bound items.length) ?_ ?_
  · apply Action.Maintains.bind (maintains_call _ _ _ _ _ _)
    intro body served
    obtain ⟨response, within, json⟩ := served
    apply Action.Maintains.ofExcept
    intro answer read items listed
    cases total_of_readListing read listed with
    | inl stated => exact (within answer.2 ⟨body, json, stated⟩).trans (le_max_left ..)
    | inr counted =>
        rw [counted]
        exact le_max_right ..
  · intro answer within
    apply Action.Maintains.bind (P := fun items => answer.1.listed = .ok items)
      (.ofExcept fun _ => id)
    intro items listed
    exact .pure ⟨rfl, rfl, within items listed⟩

end Remote

namespace Walk

open Http

/-- A walk through the resources of a server is told no total above a bound if no response that the
server has in store states such a one. -/
theorem bounded_of_totalsWithin {remote : Remote} {service : Service τ} {slot : Slot τ Http.Session}
    (onServer : service.adapter = remote.adapter.zoom slot) {spec : QuerySpec} {size bound : Int}
    {visit : List Json → Action τ Unit}
    (visitKeeps : ∀ part,
      Action.Maintains (fun state => (slot.get state).TotalsWithin bound) (visit part))
    {origin : τ} (within : (slot.get origin).TotalsWithin bound) :
    Bounded service spec size visit origin bound := by
  refine .of_maintains within (fun start => ?_) visitKeeps
  rw [page, Service.list, query, onServer]
  apply Action.Maintains.bind ((remote.maintains_list bound _).zoom slot)
  intro listing listed
  obtain ⟨paged, shown, within⟩ := listed
  apply Action.Maintains.ofExcept
  intro answer completed
  rw [Listing.complete_of_paginated paged, shown] at completed
  cases completed
  exact within

end Walk

end Scim
