import Scim.Action
import Scim.Path.Location

/-!
# Changes in place

A change works on a resource in place and may fail on the way; what it did before stays. Besides the
basic steps this module holds those that concern extensions: declaring a URN, and finding or
creating the object of an extension.
-/

namespace Scim

/-- A change of a resource in place, which may fail on the way. -/
abbrev Change := Action Members

namespace Patch

/-- Whether a list of declared URNs holds a URN, examined from the front. Only texts can be
compared. -/
def holdsUri (uri : String) : List Json → Except Failure Bool
  | [] => return false
  | .str u :: rest => if sameName u uri then return true else holdsUri uri rest
  | _ :: _ => failWith .noSuchMember

/-- Declares a URN on a resource that does not yet. -/
def declareSchema (uri : String) : Change Unit := do
  modify fun resource =>
    if (Members.get? resource "schemas").isNone then Members.set resource "schemas" (.arr [])
    else resource
  Action.update fun resource => do
    match (Members.get? resource "schemas").getD .null with
    | .arr urns =>
      if ← holdsUri uri urns then return resource
      else return Members.set resource "schemas" (.arr (urns ++ [.str uri]))
    | .str s =>
      if s.toList.any fun c => sameName (String.singleton c) uri then return resource
      else failWith .noSuchMember
    | .obj members =>
      if (Members.names members).any (sameName · uri) then return resource
      else failWith .noSuchMember
    | _ => failWith .wrongType

/-- The object that holds the attribute of a path. The object of an extension that is not there yet
is created, and its URN declared. -/
def ensureHome (schema : Option ResourceSchema) (path : AttributePath) : Change Home := do
  match ← Action.examine (homeFor · path schema) with
  | some home => return home
  | none =>
    let uri := path.uri.getD ""
    let resource ← get
    modify (Members.setAttr · uri (.obj []))
    declareSchema uri
    return .extension ((Members.key? resource uri).getD uri)

/-- Changes the object that holds an attribute. -/
def updateHome (home : Home) (step : Members → Except Failure Members) : Change Unit :=
  Action.update fun resource => do
    let changed ← step (home.members resource)
    return home.update resource fun _ => changed

end Patch

end Scim
