import Scim.Json.Display

/-!
# Errors of the protocol

Every refusal of the engine is a `ScimError`: a kind with its own details, a text for people, the
HTTP status it maps to and, where the protocol defines one, a keyword. Failures that come from data
of the wrong shape, and not from the protocol, are `Fault`s.
-/

namespace Scim

/-- What is refused, with the details a caller may want. -/
inductive ErrorKind where
  /-- A refusal of no particular kind. -/
  | general
  /-- A malformed filter, with the place and the text at fault. -/
  | invalidFilter (position : Option Int) (fragment : String)
  /-- A malformed path, or one whose schema nobody knows. -/
  | invalidPath (path : String)
  /-- A well-formed path that leads nowhere. -/
  | noSuchAttribute (path : String)
  /-- A value outside what its place admits. -/
  | invalidValue
  /-- A failure of a change of no particular kind. -/
  | patchFailure
  /-- A change whose value filter matches nothing. -/
  | noTarget
  /-- A change of an attribute that may not be changed. -/
  | mutateImmutable
  /-- A change that is malformed or whose value cannot be applied. -/
  | patchInvalidValue
  /-- A resource that is not there. -/
  | notFound (resourceId : Json)
  /-- A resource that is there already. -/
  | conflict
  /-- A resource whose version is not the one expected. -/
  | concurrentModification (expected actual : Json)
  /-- A reference to a resource that the batch has not created. -/
  | unresolvedBulkId (bulkId : String)
  /-- A batch that is too large. -/
  | tooManyOperations

namespace ErrorKind

/-- The HTTP status of a kind. -/
def status : ErrorKind → Int
  | .notFound _ => 404
  | .conflict | .unresolvedBulkId _ => 409
  | .concurrentModification _ _ => 412
  | .tooManyOperations => 413
  | _ => 400

/-- The keyword of a kind. -/
def keyword? : ErrorKind → Option String
  | .invalidFilter _ _ => some "invalidFilter"
  | .invalidPath _ | .noSuchAttribute _ => some "invalidPath"
  | .invalidValue | .patchInvalidValue | .unresolvedBulkId _ => some "invalidValue"
  | .noTarget => some "noTarget"
  | .mutateImmutable => some "mutability"
  | .conflict => some "uniqueness"
  | .tooManyOperations => some "tooMany"
  | .general | .patchFailure | .notFound _ | .concurrentModification _ _ => none

end ErrorKind

/-- A refusal. Its keyword is a JSON value because a server's may be anything; null means none. -/
structure ScimError where
  kind : ErrorKind
  detail : String
  status : Int
  keyword : Json

namespace ScimError

/-- The schema of an error message. -/
def urn : String := "urn:ietf:params:scim:api:messages:2.0:Error"

/-- A refusal with the status and keyword of its kind. -/
def of (kind : ErrorKind) (detail : String) : ScimError :=
  ⟨kind, detail, kind.status, .ofText? kind.keyword?⟩

/-- A malformed filter. The text for people names the place, if there is one, and the text found
there, if it is not empty. -/
def invalidFilter (problem : String) (position : Option Int) (fragment : String) : ScimError :=
  let place := match position with
    | none => ""
    | some p => s!" at position {p}" ++
      (if fragment = "" then "" else " near " ++ Text.quoted fragment)
  of (.invalidFilter position fragment) (problem ++ place)

/-- A malformed path; the text for people quotes it if it is not empty. -/
def invalidPath (problem : String) (path : String) : ScimError :=
  of (.invalidPath path) (if path = "" then problem else problem ++ ": " ++ Text.quoted path)

/-- A path that leads nowhere. -/
def noSuchAttribute (path : String) : ScimError :=
  of (.noSuchAttribute path) ("No such attribute: " ++ Text.quoted path)

/-- A value outside what its place admits. -/
def invalidValue (detail : String) : ScimError := of .invalidValue detail

/-- A change that is malformed or whose value cannot be applied. -/
def patchInvalidValue (detail : String) : ScimError := of .patchInvalidValue detail

/-- A change whose value filter matches nothing. -/
def noTarget (detail : String) : ScimError := of .noTarget detail

/-- A change of an attribute that may not be changed. -/
def mutateImmutable (detail : String) : ScimError := of .mutateImmutable detail

/-- A resource that is not there. The text for people names its id unless that is null. -/
def notFound (resourceId : Json) (detail : String := "Resource not found") : ScimError :=
  of (.notFound resourceId)
    (if resourceId.isNull then detail else "Resource " ++ resourceId.plain ++ " not found")

/-- A resource that is there already. -/
def conflict (detail : String) : ScimError := of .conflict detail

/-- A resource whose version is not the one expected. -/
def concurrentModification (detail : String) (expected actual : Json) : ScimError :=
  of (.concurrentModification expected actual) detail

/-- A reference to a resource that the batch has not created. -/
def unresolvedBulkId (bulkId : String) : ScimError :=
  of (.unresolvedBulkId bulkId) ("Unresolved bulkId reference: " ++ Text.quoted bulkId)

/-- A batch that is too large. -/
def tooManyOperations (detail : String) : ScimError := of .tooManyOperations detail

/-- The message body of a refusal. A keyword that is null, zero or empty is left out. -/
def toMembers (error : ScimError) : Members :=
  [("schemas", .arr [.str urn]), ("status", .str (toString error.status)),
    ("detail", .str error.detail)] ++
    if error.keyword.isVoid then [] else [("scimType", error.keyword)]

end ScimError

/-- A failure of an operation on data of the wrong shape, or of the world outside the engine. -/
inductive Fault where
  /-- A value of a type on which the operation is not defined. -/
  | wrongType
  /-- A value that lacks the operation. -/
  | noSuchMember
  /-- A key that is not there. -/
  | missingKey
  /-- An argument outside the domain of the operation. -/
  | badArgument
  /-- A text that should be JSON and is not. -/
  | malformedJson
  /-- A structure too deep to be walked. -/
  | tooDeep
  /-- A storage that refuses to work. -/
  | storage
  /-- A budget of steps that ran out. -/
  | exhausted
  deriving DecidableEq

/-- Why an operation has no result. -/
inductive Failure where
  | scim (error : ScimError)
  | fault (fault : Fault)

/-- Refuses with an error of the protocol. -/
def refuse {α : Type} (error : ScimError) : Except Failure α := .error (.scim error)

/-- Fails on data of the wrong shape. -/
def failWith {α : Type} (fault : Fault) : Except Failure α := .error (.fault fault)

end Scim
