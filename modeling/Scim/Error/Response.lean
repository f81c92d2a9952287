import Scim.Error

/-!
# Errors of a server

A server's error response is read back as the refusal that the engine itself would give, so that
callers handle failures near and far alike.
-/

namespace Scim.ScimError

/-- The text for people in a response body, or the status if there is none. -/
def responseDetail (status : Int) (body : Json) : String :=
  let stated := match body with
    | .obj members =>
      let detail := (Members.get? members "detail").getD .null
      if detail.isVoid then "" else detail.plain
    | _ => ""
  if stated = "" then s!"HTTP {status}" else stated

/-- The keyword in a response body. -/
def responseKeyword (body : Json) : Json :=
  match body with
  | .obj members => (Members.get? members "scimType").getD .null
  | _ => .null

/-- The kind that a keyword stands for in a response of status 400. -/
def kindOfKeyword? : String → Option ErrorKind
  | "invalidFilter" => some (.invalidFilter none "")
  | "invalidPath" => some (.invalidPath "")
  | "noTarget" => some .noTarget
  | "mutability" => some .mutateImmutable
  | "invalidValue" => some .invalidValue
  | _ => none

/-- The refusal that an error response stands for. A response of status 400 whose keyword is an
array or an object cannot be classified. -/
def ofResponse (status : Int) (body : Json) : Except Fault ScimError :=
  let detail := responseDetail status body
  let keyword := responseKeyword body
  let unclassified : ScimError := ⟨.general, detail, status, keyword⟩
  if status = 404 then .ok (of (.notFound .null) detail)
  else if status = 412 then .ok (of (.concurrentModification .null .null) detail)
  else if status = 413 then .ok (of .tooManyOperations detail)
  else if status = 409 then
    match keyword with
    | .null | .str "uniqueness" => .ok (of .conflict detail)
    | _ => .ok unclassified
  else if status = 400 then
    match keyword with
    | .arr _ | .obj _ => .error .wrongType
    | .str word =>
      match kindOfKeyword? word with
      | some kind => .ok (of kind detail)
      | none => .ok unclassified
    | _ => .ok unclassified
  else .ok unclassified

end Scim.ScimError
