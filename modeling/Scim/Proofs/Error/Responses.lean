import Scim.Error.Response

/-!
# Errors sent and mapped back

An error response is mapped to a refusal with the status of the response, whatever its body
is.  The one exception is a response of status 400 whose keyword is an array or an object: no
kind can be looked up for it.  The message of a refusal is mapped back to one with the same
message exactly if mapping it keeps its keyword.  The keywords of all kinds are kept, and so are
those that servers state, but for a void one in a response about a conflict.
-/

namespace Scim

/-! ## Responses -/

namespace ScimError

/-- Whether no kind can be looked up for a response: its status is 400, and its keyword is an array
or an object. -/
def Unclassifiable (status : Int) (body : Json) : Prop :=
  status = 400 ∧ ((responseKeyword body).isArr = true ∨ (responseKeyword body).isObj = true)

/-- The keyword of the refusal that a response is mapped to. -/
def mappedKeyword (status : Int) (keyword : Json) : Json :=
  if status = 404 ∨ status = 412 then .null
  else if status = 413 then .str "tooMany"
  else if status = 409 ∧ keyword.isNull = true then .str "uniqueness"
  else keyword

/-- A kind that is looked up by a keyword has this keyword, and the status 400. -/
theorem of_kindOfKeyword? {word : String} {kind : ErrorKind}
    (found : kindOfKeyword? word = some kind) (detail : String) :
    of kind detail = ⟨kind, detail, 400, .str word⟩ := by
  unfold kindOfKeyword? at found
  split at found <;> cases found <;> rfl

/-- What a response is mapped to. -/
theorem ofResponse_eq {status : Int} {body : Json} (fits : ¬ Unclassifiable status body) :
    ∃ kind, ofResponse status body =
      .ok ⟨kind, responseDetail status body, status,
        mappedKeyword status (responseKeyword body)⟩ := by
  unfold ofResponse mappedKeyword
  unfold Unclassifiable at fits
  generalize responseKeyword body = keyword at fits ⊢
  dsimp only
  by_cases notFound : status = 404
  · subst notFound
    exact ⟨_, rfl⟩
  by_cases mismatch : status = 412
  · subst mismatch
    exact ⟨_, rfl⟩
  by_cases tooMany : status = 413
  · subst tooMany
    exact ⟨_, rfl⟩
  by_cases conflict : status = 409
  · subst conflict
    simp only [Int.reduceEq, if_false, if_true, or_self, true_and]
    split
    · exact ⟨_, rfl⟩
    · exact ⟨_, rfl⟩
    · next other _ =>
      cases keyword with
      | null => exact absurd rfl other
      | _ => exact ⟨_, rfl⟩
  by_cases badRequest : status = 400
  · subst badRequest
    cases keyword with
    | arr | obj => simp [Json.isArr, Json.isObj] at fits
    | str word =>
        simp only [Int.reduceEq, if_false, if_true, or_self, false_and]
        split
        · next kind found => exact ⟨kind, by rw [of_kindOfKeyword? found]⟩
        · exact ⟨_, rfl⟩
    | _ => exact ⟨_, rfl⟩
  · exact ⟨.general, by simp [notFound, mismatch, tooMany, conflict, badRequest]⟩

theorem ofResponse_unclassifiable {status : Int} {body : Json}
    (unclassifiable : Unclassifiable status body) : ofResponse status body = .error .wrongType := by
  obtain ⟨rfl, unhashable⟩ := unclassifiable
  cases keyword : responseKeyword body <;>
    simp [keyword, ofResponse, Json.isArr, Json.isObj] at unhashable ⊢

/-- A response that is mapped to a refusal of its status. -/
def Mapped (status : Int) (body : Json) : Prop :=
  ∃ error, ofResponse status body = .ok error ∧ error.status = status

/-- A response is mapped except where a kind would have to be looked up by an array or an object. -/
theorem mapped_iff (status : Int) (body : Json) :
    Mapped status body ↔ ¬ Unclassifiable status body := by
  constructor
  · rintro ⟨error, mapped, _⟩ unclassifiable
    rw [ofResponse_unclassifiable unclassifiable] at mapped
    cases mapped
  · intro fits
    obtain ⟨kind, mapped⟩ := ofResponse_eq fits
    exact ⟨_, mapped, rfl⟩

/-! ## Messages -/

/-- The keyword that the message of a refusal states, null if it states none. -/
def sentKeyword (error : ScimError) : Json := error.keyword.orElse .null

theorem responseKeyword_toMembers (error : ScimError) :
    responseKeyword (.obj error.toMembers) = error.sentKeyword := by
  cases void : error.keyword.isVoid <;>
    simp [responseKeyword, toMembers, sentKeyword, Json.orElse, void]

theorem responseDetail_toMembers {error : ScimError} (stated : error.detail ≠ "") :
    responseDetail error.status (.obj error.toMembers) = error.detail := by
  simp [responseDetail, toMembers, Json.isVoid, Json.plain, stated]

/-- The message of a refusal depends on its status, its text for people and the keyword that it
states. -/
theorem toMembers_eq_iff {first second : ScimError} (status : first.status = second.status)
    (detail : first.detail = second.detail) :
    first.toMembers = second.toMembers ↔ first.sentKeyword = second.sentKeyword := by
  have message (error : ScimError) : error.toMembers =
      [("schemas", .arr [.str urn]), ("status", .str (toString error.status)),
        ("detail", .str error.detail)] ++
        if error.sentKeyword.isNull then [] else [("scimType", error.sentKeyword)] := by
    unfold toMembers sentKeyword Json.orElse
    cases void : error.keyword.isVoid with
    | true => rfl
    | false =>
        cases keyword : error.keyword with
        | null => simp [keyword, Json.isVoid] at void
        | _ => rfl
  rw [message first, message second, status, detail, List.append_right_inj]
  constructor
  · cases first.sentKeyword <;> cases second.sentKeyword <;> simp [Json.isNull]
  · intro same
    rw [same]

/-- A refusal whose message is mapped back to one with the same message. -/
def Survives (error : ScimError) : Prop :=
  ∃ again, ofResponse error.status (.obj error.toMembers) = .ok again ∧
    again.toMembers = error.toMembers

/-- A refusal with a text for people survives exactly if its message can be classified and mapping
it keeps the keyword. -/
theorem survives_iff {error : ScimError} (stated : error.detail ≠ "") :
    error.Survives ↔ ¬ Unclassifiable error.status (.obj error.toMembers) ∧
      (mappedKeyword error.status error.sentKeyword).orElse .null = error.sentKeyword := by
  by_cases fits : Unclassifiable error.status (.obj error.toMembers)
  · refine iff_of_false ?_ (fun kept => kept.1 fits)
    rintro ⟨again, mapped, _⟩
    rw [ofResponse_unclassifiable fits] at mapped
    cases mapped
  · obtain ⟨kind, mapped⟩ := ofResponse_eq fits
    rw [responseDetail_toMembers stated, responseKeyword_toMembers] at mapped
    have message : ScimError.toMembers ⟨kind, error.detail, error.status,
        mappedKeyword error.status error.sentKeyword⟩ = error.toMembers ↔ _ :=
      toMembers_eq_iff rfl rfl
    constructor
    · rintro ⟨again, found, same⟩
      rw [mapped] at found
      cases found
      exact ⟨fits, message.mp same⟩
    · rintro ⟨_, kept⟩
      exact ⟨_, mapped, message.mpr kept⟩

/-! ## Refusals of servers -/

/-- Whether a response tells of a conflict and states a keyword that is void. -/
def VoidConflict (status : Int) (body : Json) : Prop :=
  status = 409 ∧ (responseKeyword body).isVoid = true ∧ (responseKeyword body).isNull = false

theorem responseDetail_ne_empty (status : Int) (body : Json) : responseDetail status body ≠ "" := by
  unfold responseDetail
  extract_lets stated
  split
  · intro empty
    exact absurd (String.append_eq_empty_iff.mp empty).1 (by decide)
  · assumption

/-- A keyword that a response was mapped to is kept unless the response tells of a conflict. -/
theorem mappedKeyword_again {status : Int} (other : status ≠ 409) (keyword : Json) :
    (mappedKeyword status ((mappedKeyword status keyword).orElse .null)).orElse .null =
      (mappedKeyword status keyword).orElse .null := by
  unfold mappedKeyword
  simp only [other, false_and, if_false]
  split
  · rfl
  · split
    · rfl
    · cases void : keyword.isVoid <;> simp [Json.orElse, void]

/-- A refusal that a response is mapped to survives unless the response tells of a conflict with a
void keyword: its message states no keyword then, and a conflict without one is no unclassified
refusal. -/
theorem survives_ofResponse_iff {status : Int} {body : Json} {error : ScimError}
    (mapped : ofResponse status body = .ok error) :
    error.Survives ↔ ¬ VoidConflict status body := by
  have fits : ¬ Unclassifiable status body := by
    intro unclassifiable
    rw [ofResponse_unclassifiable unclassifiable] at mapped
    cases mapped
  obtain ⟨kind, found⟩ := ofResponse_eq fits
  rw [found] at mapped
  cases mapped
  rw [survives_iff (responseDetail_ne_empty status body), VoidConflict]
  simp only [Unclassifiable, responseKeyword_toMembers, sentKeyword] at fits ⊢
  generalize responseKeyword body = keyword at fits ⊢
  by_cases conflict : status = 409
  · subst conflict
    have stated (nonNull : keyword.isNull = false) : mappedKeyword 409 keyword = keyword := by
      simp [mappedKeyword, nonNull]
    cases null : keyword.isNull with
    | true =>
        cases keyword with
        | null => exact iff_of_true ⟨nofun, rfl⟩ nofun
        | _ => cases null
    | false =>
        rw [stated null]
        cases void : keyword.isVoid with
        | true =>
            -- nothing is stated, which is mapped to a conflict
            rw [Json.orElse, void]
            exact iff_of_false (fun kept => nomatch kept.2) (not_not_intro ⟨rfl, rfl, rfl⟩)
        | false =>
            have kept : keyword.orElse .null = keyword := by simp [Json.orElse, void]
            rw [kept, stated null, kept]
            exact iff_of_true ⟨nofun, rfl⟩ nofun
  · refine iff_of_true ⟨?_, mappedKeyword_again conflict keyword⟩ (fun void => conflict void.1)
    rintro ⟨rfl, unhashable⟩
    refine fits ⟨rfl, ?_⟩
    change (keyword.orElse .null).isArr = true ∨ (keyword.orElse .null).isObj = true at unhashable
    unfold Json.orElse at unhashable
    split at unhashable
    · exact absurd unhashable (by decide)
    · exact unhashable

/-! ## Refusals of the engine -/

/-- The refusals that the engine composes itself: those of a kind, with the status and the keyword
of the kind, and those of a status beyond the errors of clients, without a keyword. -/
inductive Native : ScimError → Prop where
  | of (kind : ErrorKind) (detail : String) : Native (.of kind detail)
  | server (status : Int) (detail : String) (beyond : 500 ≤ status) :
      Native { ScimError.of .general detail with status }

/-- The message of a refusal that the engine composes is mapped back to one with the same message,
if it has a text for people. -/
theorem Native.survives {error : ScimError} (native : error.Native) (stated : error.detail ≠ "") :
    error.Survives := by
  rw [survives_iff stated, Unclassifiable, responseKeyword_toMembers]
  cases native with
  | of kind detail => cases kind <;> exact ⟨nofun, rfl⟩
  | server status detail beyond =>
      have kept : mappedKeyword status .null = .null := by
        rw [mappedKeyword, if_neg (by omega), if_neg (by omega), if_neg (by omega)]
      exact ⟨nofun, congrArg (Json.orElse · .null) kept⟩

end ScimError

end Scim
