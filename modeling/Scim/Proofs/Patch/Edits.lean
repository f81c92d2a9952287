import Scim.Proofs.Patch.Effects

/-!
# Edits leave other attributes alone

Every edit of an object concerns one attribute and keeps the spellings of all other
names.  An edit in the object of an extension concerns the attribute under which that
object is stored.
-/

namespace Scim

open Members

variable {attr name : String} {members changed : Members}

/-! ## Edits of an object -/

namespace Patch

section

variable (differ : sameName attr name = false)
include differ

theorem spellings_append (value : Json) :
    spellings (append members attr value) name = spellings members name :=
  spellings_setAttr_of_differ members differ _

theorem spellings_dropEmpty : spellings (dropEmpty members attr) name = spellings members name := by
  unfold dropEmpty
  split
  · exact spellings_delAttr members differ
  · exact spellings_delAttr members differ
  · rfl

theorem spellings_removeSub (sub : String) :
    spellings (removeSub attr sub members) name = spellings members name := by
  unfold removeSub
  split
  · exact spellings_setAttr_of_differ members differ _
  · rw [spellings_dropEmpty differ, spellings_setAttr_of_differ members differ]
  · rfl

theorem spellings_removeValue (value : Json) :
    spellings (removeValue attr value members) name = spellings members name := by
  unfold removeValue
  split
  · split
    · exact spellings_delAttr members differ
    · split
      · exact spellings_delAttr members differ
      · exact spellings_setAttr_of_differ members differ _
  · exact spellings_delAttr members differ

variable {schema : Option ResourceSchema}

theorem spellings_setChecked {uri : Option String} {value : Json}
    (edited : setChecked schema uri members attr value = .ok changed) :
    spellings changed name = spellings members name := by
  obtain ⟨typed, _, setEq⟩ := bind_eq_ok_iff.mp edited
  cases setEq
  exact spellings_setAttr_of_differ members differ typed

theorem spellings_putSingle {uri : Option String} {value : Json}
    (edited : putSingle schema uri members attr value = .ok changed) :
    spellings changed name = spellings members name := by
  unfold putSingle at edited
  split at edited
  · cases edited
    exact spellings_setAttr_of_differ members differ _
  · exact spellings_setChecked differ edited

theorem spellings_setSub {path : AttributePath} {sub : String} {merge : Bool} {value : Json}
    (edited : setSub schema path attr sub merge value members = .ok changed) :
    spellings changed name = spellings members name := by
  obtain ⟨typed, _, setEq⟩ := bind_eq_ok_iff.mp edited
  split at setEq
  · cases setEq
    exact spellings_setAttr_of_differ members differ _
  · cases setEq
    exact spellings_setAttr_of_differ members differ _
  · cases setEq
    exact spellings_setAttr_of_differ members differ _
  · cases setEq

end

end Patch

/-! ## Homes -/

namespace Home

/-- Whether an edit of an attribute in a home concerns another attribute of the resource
than a name. -/
def Avoids (home : Home) (attr name : String) : Prop :=
  match home with
  | .core => sameName attr name = false
  | .extension key => sameName key name = false

theorem Avoids.congr {home : Home} {key : String} (avoids : home.Avoids attr name)
    (same : sameName key attr = true) : home.Avoids key name := by
  cases home with
  | core =>
      rw [Avoids, sameName_congr same]
      exact avoids
  | extension => exact avoids

theorem spellings_update {home : Home} (avoids : home.Avoids attr name) {resource : Members}
    {f : Members → Members}
    (edits : home = .core → sameName attr name = false →
      spellings (f resource) name = spellings resource name) :
    spellings (home.update resource f) name = spellings resource name := by
  cases home with
  | core => exact edits rfl avoids
  | extension key =>
      rw [update]
      exact spellings_modify resource avoids _

end Home

namespace Patch

/-- A change in the home of an attribute keeps the spellings of the names that it avoids. -/
theorem Keeps.updateHome {home : Home} (avoids : home.Avoids attr name)
    {step : Members → Except Failure Members}
    (edits : ∀ members changed, sameName attr name = false → step members = .ok changed →
      spellings changed name = spellings members name) :
    Keeps name (updateHome home step) := by
  refine Keeps.update fun resource after stepEq => ?_
  obtain ⟨edited, editEq, updateEq⟩ := bind_eq_ok_iff.mp stepEq
  cases updateEq
  refine Home.spellings_update avoids fun core differ => ?_
  subst core
  exact edits resource edited differ editEq

end Patch

/-! ## Locations -/

namespace Location

variable {location : Location} {resource : Members}

theorem spellings_updateElement (avoids : location.home.Avoids location.key name)
    (f : Json → Json) :
    spellings (location.updateElement resource f) name = spellings resource name := by
  refine Home.spellings_update avoids fun _ differ => ?_
  split
  · exact spellings_setAttr_of_differ resource differ _
  · dsimp only
    split
    · exact spellings_setAttr_of_differ resource differ _
    · rfl

theorem spellings_delete (avoids : location.home.Avoids location.key name) :
    spellings (location.delete resource) name = spellings resource name := by
  unfold delete
  split
  · exact spellings_updateElement avoids _
  · refine Home.spellings_update avoids fun _ differ => ?_
    split
    · exact spellings_setAttr_of_differ resource differ _
    · rfl
  · exact Home.spellings_update avoids fun _ differ => spellings_delAttr resource differ

/-- Updates at locations of other attributes keep the spellings of a name. -/
theorem spellings_foldl {locations : List Location} (f : Json → Json)
    (avoid : ∀ location ∈ locations, location.home.Avoids location.key name) :
    spellings (locations.foldl (fun resource location => location.updateElement resource f)
      resource) name = spellings resource name := by
  induction locations generalizing resource with
  | nil => rfl
  | cons location rest ih =>
      rw [List.foldl_cons, ih fun other held => avoid other (List.mem_cons_of_mem _ held),
        spellings_updateElement (avoid location List.mem_cons_self)]

theorem spellings_foldr {locations : List Location}
    (avoid : ∀ location ∈ locations, location.home.Avoids location.key name) :
    spellings (locations.foldr (fun location resource => location.delete resource) resource)
      name = spellings resource name := by
  induction locations with
  | nil => rfl
  | cons location rest ih =>
      rw [List.foldr_cons, spellings_delete (avoid location List.mem_cons_self),
        ih fun other held => avoid other (List.mem_cons_of_mem _ held)]

end Location

/-! ## Locations of a path -/

/-- The slots under a key of a home are in that home and under that key. -/
theorem mem_locationsUnder {home : Home} {key : String} {value : Json} {path : AttributePath}
    {schema : Option ResourceSchema} {locations : List Location}
    (found : locationsUnder home key value path schema = .ok locations) :
    ∀ location ∈ locations, location.home = home ∧ location.key = key := by
  unfold locationsUnder at found
  intro location held
  split at found
  · obtain ⟨matches', _, rest⟩ := bind_eq_ok_iff.mp found
    split at rest
    · cases rest
      obtain ⟨entry, _, rfl⟩ := List.mem_map.mp held
      exact ⟨rfl, rfl⟩
    · cases rest
      obtain ⟨entry, _, rfl⟩ := List.mem_map.mp held
      exact ⟨rfl, rfl⟩
  · split at found
    · cases found
      obtain ⟨index, _, rfl⟩ := List.mem_map.mp held
      exact ⟨rfl, rfl⟩
    · split at found
      · cases found
        cases List.mem_singleton.mp held
        exact ⟨rfl, rfl⟩
      · cases found
        cases held
  · cases found
    cases List.mem_singleton.mp held
    exact ⟨rfl, rfl⟩

/-- The slots of a path are in a home of the path, under spellings of its attribute. -/
theorem mem_resolve {resource : Members} {path : AttributePath} {schema : Option ResourceSchema}
    {locations : List Location} (found : resolve resource path schema = .ok locations)
    (attrEq : path.attr = some attr) :
    ∀ location ∈ locations, homeFor resource path schema = .ok (some location.home) ∧
      sameName location.key attr = true := by
  intro location held
  obtain ⟨home?, homeEq, rest⟩ := bind_eq_ok_iff.mp found
  split at rest
  · cases rest
    cases held
  · next home =>
    rw [attrEq] at rest
    dsimp only at rest
    split at rest
    · cases rest
      cases held
    · next key keyEq =>
      split at rest
      · cases rest
        cases held
      · obtain ⟨homeIs, keyIs⟩ := mem_locationsUnder rest location held
        rw [homeIs, keyIs]
        exact ⟨homeEq, (key?_eq_some keyEq).2⟩

end Scim
