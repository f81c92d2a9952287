import Mathlib.Data.ENat.Lattice
import Mathlib.Tactic.NormNum
import Scim.Http.Client
import Scim.Proofs.Query.Preorders
import Scim.Schema.Basic

/-!
# Requests that are throttled

While a server asks to slow down, a client pauses and sends the same request again, as long as
it has retries left.  Each pause is the one that the response asks for: the number that its
header states, nothing if the number is not above zero, and the default if there is no number.
A number may be infinite though, or longer than a clock can count, and no pause can be made of
such a one.
-/

namespace Scim

/-! ## Lengths of time -/

namespace Number

/-- Whether a number is above zero. -/
def Double.IsPositive : Double → Prop
  | .finite x => 0 < x.value
  | .infinite negative => negative = false
  | .nan => False

/-- Whether a number of seconds is more than a clock counts, which has nanoseconds in 63 bits. -/
def Double.OutlastsClock : Double → Prop
  | .finite x => 2 ^ 63 ≤ x.value * 10 ^ 9
  | .infinite negative => negative = false
  | .nan => False

/-- Whether a number is finite and not negative. -/
def Numeric.IsDuration (seconds : Numeric) : Prop :=
  ∃ q, seconds.quantity = .rational q ∧ 0 ≤ q

/-- Whether a pause of some seconds can be made: the clock can count them. Trying to make any other
pause fails. -/
def Numeric.IsTimed (seconds : Numeric) : Prop :=
  ∃ q, seconds.quantity = .rational q ∧ 0 ≤ q ∧ q * 10 ^ 9 < 2 ^ 63

theorem quantity_zero (negative : Bool) :
    (Numeric.double (Double.zero negative)).quantity = .rational 0 := by
  rw [Double.zero, Numeric.quantity, Finite.value, Finite.signed]
  simp

theorem Double.isPositive_iff (seconds : Double) :
    seconds.IsPositive ↔
      Numeric.order? (.double (.zero false)) (.double seconds) = some .lt := by
  cases seconds with
  | finite x =>
      rw [Numeric.order?_of_rational (quantity_zero false) rfl, Option.some.injEq,
        compare_lt_iff_lt]
      rfl
  | infinite negative => cases negative <;> simp [IsPositive, Numeric.order?, zero]
  | nan => simp [IsPositive, Numeric.order?, zero]

theorem isDuration_zero : (Numeric.double (.zero false)).IsDuration :=
  ⟨0, quantity_zero false, le_rfl⟩

theorem isTimed_zero : (Numeric.double (.zero false)).IsTimed :=
  ⟨0, quantity_zero false, le_rfl, by norm_num⟩

/-- Of the numbers above zero, the infinite one alone is no length of time. -/
theorem Double.IsPositive.isDuration_iff {seconds : Double} (positive : seconds.IsPositive) :
    (Numeric.double seconds).IsDuration ↔ seconds ≠ .infinite false := by
  cases seconds with
  | finite x => exact iff_of_true ⟨x.value, rfl, le_of_lt positive⟩ nofun
  | infinite negative =>
      obtain rfl : negative = false := positive
      exact iff_of_false nofun (absurd rfl)
  | nan => exact positive.elim

theorem Double.IsPositive.isTimed_iff {seconds : Double} (positive : seconds.IsPositive) :
    (Numeric.double seconds).IsTimed ↔ ¬ seconds.OutlastsClock := by
  cases seconds with
  | finite x =>
      rw [OutlastsClock, not_le]
      constructor
      · rintro ⟨_, ⟨⟩, _, short⟩
        exact short
      · exact fun short => ⟨x.value, rfl, le_of_lt positive, short⟩
  | infinite negative =>
      obtain rfl : negative = false := positive
      exact iff_of_false nofun (absurd rfl)
  | nan => exact positive.elim

theorem Double.OutlastsClock.isPositive {seconds : Double} (outlasts : seconds.OutlastsClock) :
    seconds.IsPositive := by
  cases seconds with
  | finite x =>
      have long : (2 : ℚ) ^ 63 ≤ x.value * 10 ^ 9 := outlasts
      have above : (0 : ℚ) < 2 ^ 63 := by norm_num
      exact pos_of_mul_pos_left (above.trans_le long) (by norm_num)
  | infinite negative => exact outlasts
  | nan => exact outlasts

end Number

namespace Http

open Number (Double Numeric)

variable {wait : Numeric}

/-! ## What a response asks for -/

namespace Response

variable {response : Response} {name text : String} {seconds : Double}

/-- What a response says under a name: the text of its first header with this name, in any letter
case. -/
def Says (response : Response) (name text : String) : Prop :=
  ∃ before spelled after, response.headers = before ++ (spelled, text) :: after ∧
    sameName spelled name = true ∧ ∀ header ∈ before, sameName header.1 name = false

theorem header?_eq_some_iff : response.header? name = some text ↔ response.Says name text := by
  have found_eq : response.header? name =
      (response.headers.find? fun header => sameName header.1 name).map (·.2) := rfl
  rw [found_eq, Option.map_eq_some_iff]
  constructor
  · rintro ⟨⟨spelled, _⟩, found, rfl⟩
    obtain ⟨same, before, after, whole, others⟩ := List.find?_eq_some_iff_append.mp found
    exact ⟨before, spelled, after, whole, same, fun header held =>
      (Bool.not_eq_true' _).mp (others header held)⟩
  · rintro ⟨before, spelled, after, whole, same, others⟩
    refine ⟨(spelled, text), List.find?_eq_some_iff_append.mpr ?_, rfl⟩
    exact ⟨same, before, after, whole, fun header held =>
      (Bool.not_eq_true' _).mpr (others header held)⟩

/-- Whether a response states a number of seconds to wait. -/
def States (response : Response) (seconds : Double) : Prop :=
  ∃ text, response.Says "Retry-After" text ∧ Number.readDouble? text = some seconds

/-- The pause that a response asks for: the default, if it states no number of seconds, else the
stated number, if that is above zero, and else none. -/
inductive AsksFor (response : Response) : Numeric → Prop
  | default (silent : ∀ seconds, ¬ response.States seconds) :
      AsksFor response Client.defaultPause
  | stated {seconds : Double} (states : response.States seconds) (positive : seconds.IsPositive) :
      AsksFor response (.double seconds)
  | atOnce {seconds : Double} (states : response.States seconds)
      (notPositive : ¬ seconds.IsPositive) : AsksFor response (.double (.zero false))

theorem states_iff :
    response.States seconds ↔
      (response.header? "Retry-After").bind Number.readDouble? = some seconds := by
  simp only [States, Option.bind_eq_some_iff, header?_eq_some_iff]

theorem States.unique {other : Double} (states : response.States seconds)
    (too : response.States other) : seconds = other :=
  Option.some.inj ((states_iff.mp states).symm.trans (states_iff.mp too))

/-- A pause is the one that the response asks for. -/
theorem asksFor_pauseOf (response : Response) :
    response.AsksFor (Client.pauseOf (response.header? "Retry-After")) := by
  have silent (unread : (response.header? "Retry-After").bind Number.readDouble? = none) :
      response.AsksFor Client.defaultPause := by
    refine .default fun seconds states => ?_
    rw [states_iff.mp states] at unread
    cases unread
  unfold Client.pauseOf
  split
  · next absent => exact silent (by rw [absent]; rfl)
  · next empty => exact silent (by rw [empty]; decide +kernel)
  · next text _ said =>
    split
    · next seconds read =>
      have states : response.States seconds := states_iff.mpr (by rw [said]; exact read)
      rw [Client.atLeastZero]
      split
      · next above => exact .stated states (seconds.isPositive_iff.mpr (beq_iff_eq.mp above))
      · next notAbove =>
        exact .atOnce states fun positive =>
          notAbove (beq_iff_eq.mpr (seconds.isPositive_iff.mp positive))
    · next unread => exact silent (by rw [said]; exact unread)

theorem AsksFor.isDuration_iff (asks : response.AsksFor wait) :
    wait.IsDuration ↔ ¬ response.States (.infinite false) := by
  cases asks with
  | default silent => exact iff_of_true ⟨2, rfl, by norm_num⟩ (silent _)
  | stated states positive =>
      rw [positive.isDuration_iff]
      constructor
      · exact fun finite forever => finite (states.unique forever)
      · rintro never rfl
        exact never states
  | atOnce states notPositive =>
      refine iff_of_true Number.isDuration_zero fun forever => notPositive ?_
      cases states.unique forever
      rfl

theorem AsksFor.isTimed_iff (asks : response.AsksFor wait) :
    wait.IsTimed ↔ ∀ seconds, response.States seconds → ¬ seconds.OutlastsClock := by
  cases asks with
  | default silent =>
      refine iff_of_true ⟨((2 : Int) : ℚ), rfl, ?_, ?_⟩ fun seconds states =>
        absurd states (silent seconds)
      · norm_num
      · norm_num
  | stated states positive =>
      rw [positive.isTimed_iff]
      constructor
      · rintro short seconds statesToo
        rwa [← states.unique statesToo]
      · exact fun short => short _ states
  | atOnce states notPositive =>
      refine iff_of_true Number.isTimed_zero fun seconds statesToo outlasts => notPositive ?_
      rw [states.unique statesToo]
      exact outlasts.isPositive

end Response

/-! ## What a server has in store -/

namespace Session

/-- The response to the `i`th request from now on. -/
def response (session : Session) (i : Nat) : Response :=
  session.pending.getD i (session.pending.getLast?.getD session.last)

/-- The session after a request. -/
def sent (session : Session) (request : Request) : Session where
  pending := session.pending.tail
  last := session.response 0
  requests := session.requests ++ [request]
  pauses := session.pauses

/-- The session after a pause. -/
def paused (session : Session) (wait : Numeric) : Session :=
  { session with pauses := session.pauses ++ [wait] }

/-- How many of some responses, the last of which is repeated for ever, ask to slow down before one
does not. -/
def throttledFrom (last : Response) : List Response → ℕ∞
  | [] => if last.status = 429 then ⊤ else 0
  | response :: rest => if response.status = 429 then throttledFrom response rest + 1 else 0

/-- How many of the next responses ask to slow down before one does not. -/
def throttled (session : Session) : ℕ∞ := throttledFrom session.last session.pending

/-- Sends a request once more than there are pauses, each of them between two requests. -/
def paced (request : Request) : List Numeric → StateM Session Response
  | [] => send request
  | wait :: waits => do
    let _ ← send request
    pause wait
    paced request waits

theorem run_send (request : Request) (session : Session) :
    (send request).run session = (session.response 0, session.sent request) := by
  obtain ⟨_ | ⟨response, rest⟩, last, requests, pauses⟩ := session <;> rfl

theorem run_paced_cons (request : Request) (wait : Numeric) (waits : List Numeric)
    (session : Session) :
    (paced request (wait :: waits)).run session =
      (paced request waits).run ((session.sent request).paused wait) := by
  have next : (paced request (wait :: waits)).run session =
      (paced request waits).run (((send request).run session).2.paused wait) := rfl
  rw [next, run_send]

theorem response_sent (session : Session) (request : Request) (i : Nat) :
    (session.sent request).response i = session.response (i + 1) := by
  obtain ⟨_ | ⟨response, rest⟩, last, requests, pauses⟩ := session
  · rfl
  · simp [Session.response, sent, List.getLast?_cons]

theorem throttled_sent (session : Session) (request : Request) :
    session.throttled =
      if (session.response 0).status = 429 then (session.sent request).throttled + 1 else 0 := by
  obtain ⟨_ | ⟨response, rest⟩, last, requests, pauses⟩ := session
  · by_cases slow : last.status = 429
    · simp [throttled, throttledFrom, sent, Session.response, slow]
    · simp [throttled, throttledFrom, Session.response, slow]
  · rfl

@[simp]
theorem response_paused (session : Session) (wait : Numeric) (i : Nat) :
    (session.paused wait).response i = session.response i := rfl

@[simp]
theorem throttled_paused (session : Session) (wait : Numeric) :
    (session.paused wait).throttled = session.throttled := rfl

end Session

/-! ## Requests that are sent again -/

namespace Client

variable {request : Request} {session : Session}

/-- An exchange sends one request over and over, with pauses that are asked for in between. -/
structure Paced (request : Request) (retries : Nat) (session : Session)
    (outcome : Response × Session) (waits : List Numeric) : Prop where
  /-- It goes on while the server asks to slow down and retries are left. -/
  count : ((waits.length + 1 : ℕ) : ℕ∞) = min (1 + session.throttled) (retries + 1)
  /-- There is one pause before each request but the first. -/
  inTurn : (Session.paced request waits).run session = outcome
  requests : outcome.2.requests = session.requests ++ List.replicate (waits.length + 1) request
  pauses : outcome.2.pauses = session.pauses ++ waits
  /-- The response to the last request is returned. -/
  answer : outcome.1 = session.response waits.length
  /-- Each pause is the one that the response before it asks for. -/
  asked : ∀ i wait, waits[i]? = some wait → (session.response i).AsksFor wait

namespace Paced

variable {retries : Nat} {outcome : Response × Session} {waits : List Numeric}

theorem once (stops : (session.response 0).status ≠ 429 ∨ retries = 0) :
    Paced request retries session (session.response 0, session.sent request) [] where
  count := by
    obtain normal | rfl := stops
    · simp [session.throttled_sent request, normal]
    · simp
  inTurn := session.run_send request
  requests := rfl
  pauses := (List.append_nil _).symm
  answer := rfl
  asked := by simp

theorem again (slow : (session.response 0).status = 429)
    (asks : (session.response 0).AsksFor wait)
    (paced : Paced request retries ((session.sent request).paused wait) outcome waits) :
    Paced request (retries + 1) session outcome (wait :: waits) where
  count := by
    have count := paced.count
    rw [Session.throttled_paused] at count
    rw [session.throttled_sent request, if_pos slow, List.length_cons, Nat.cast_add, count,
      Nat.cast_one, ← min_add_add_right, add_assoc, Nat.cast_add, Nat.cast_one]
  inTurn := (Session.run_paced_cons ..).trans paced.inTurn
  requests := by
    rw [paced.requests, List.length_cons]
    exact List.append_assoc ..
  pauses := by rw [paced.pauses]; exact List.append_assoc ..
  answer := by rw [paced.answer, Session.response_paused, session.response_sent]; rfl
  asked := by
    intro i before held
    cases i with
    | zero =>
        cases held
        exact asks
    | succ i =>
        have later := paced.asked i before held
        rwa [Session.response_paused, session.response_sent] at later

end Paced

theorem run_exchange_zero (request : Request) (session : Session) :
    (exchange request 0).run session = (session.response 0, session.sent request) :=
  session.run_send request

theorem run_exchange_succ (request : Request) (retries : Nat) (session : Session) :
    (exchange request (retries + 1)).run session =
      if (session.response 0).status = 429 then
        (exchange request retries).run
          ((session.sent request).paused (pauseOf ((session.response 0).header? "Retry-After")))
      else (session.response 0, session.sent request) := by
  rw [exchange, StateT.run_bind, session.run_send request]
  change StateT.run (if _ then _ else _) _ = _
  split
  · rfl
  · rfl

/-- What an exchange does, with its pauses as the server asks for them. -/
theorem exists_paced (request : Request) (retries : Nat) (session : Session) :
    ∃ waits, Paced request retries session ((exchange request retries).run session) waits := by
  induction retries generalizing session with
  | zero => exact ⟨[], run_exchange_zero .. ▸ .once (.inr rfl)⟩
  | succ retries ih =>
    rw [run_exchange_succ]
    split
    · next slow =>
      obtain ⟨waits, paced⟩ := ih _
      exact ⟨_ :: waits, .again slow (session.response 0).asksFor_pauseOf paced⟩
    · next normal => exact ⟨[], .once (.inl normal)⟩

/-- A client sends a request again while the server asks to slow down, up to a limit, after the
pause that each response asks for. The pauses are finite and not negative exactly if none of these
responses states an infinite time, and each can be made exactly if none states a time that a clock
does not count. -/
theorem send_paced (client : Client) (method path : String) (payload params : Json)
    (extra : Members) (session : Session) :
    ∃ waits,
      Paced (client.request method path payload params extra) maxRetries session
        ((client.send method path payload params extra).run session) waits ∧
      ((∀ wait ∈ waits, wait.IsDuration) ↔
        ∀ i < waits.length, ¬ (session.response i).States (.infinite false)) ∧
      ((∀ wait ∈ waits, wait.IsTimed) ↔
        ∀ i < waits.length, ∀ seconds, (session.response i).States seconds →
          ¬ seconds.OutlastsClock) := by
  obtain ⟨waits, paced⟩ :=
    exists_paced (client.request method path payload params extra) maxRetries session
  refine ⟨waits, paced, ?_, ?_⟩
  · rw [List.forall_mem_iff_getElem]
    exact forall₂_congr fun i bound =>
      (paced.asked i _ (List.getElem?_eq_getElem bound)).isDuration_iff
  · rw [List.forall_mem_iff_getElem]
    exact forall₂_congr fun i bound =>
      (paced.asked i _ (List.getElem?_eq_getElem bound)).isTimed_iff

/-- A server may ask for an infinite pause. -/
theorem not_send_durations :
    ¬ ∀ (client : Client) (method path : String) (payload params : Json) (extra : Members)
      (session : Session), ∃ waits,
        Paced (client.request method path payload params extra) maxRetries session
          ((client.send method path payload params extra).run session) waits ∧
        ∀ wait ∈ waits, wait.IsDuration := by
  intro durations
  obtain ⟨waits, paced, finite⟩ := durations (.ofSettings "" {}) "GET" "/Users" .null .null []
    (.ofResponses [⟨429, [("Retry-After", "inf")], ""⟩, ⟨200, [], ""⟩])
  have forever : waits = [.double (.infinite false)] := paced.pauses.symm.trans (by decide +kernel)
  obtain ⟨_, ⟨⟩, _⟩ := finite _ (forever ▸ List.mem_singleton_self _)

end Client

end Http

end Scim
