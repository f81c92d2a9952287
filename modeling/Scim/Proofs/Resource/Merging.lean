import Mathlib.Data.List.Induction
import Scim.Proofs.Resource.Agreement
import Scim.Proofs.Resource.Ambiguity

/-!
# Merging the same members again

A merge sets one attribute after the other, each under its stored spelling.  Behind a merge
the stored spellings are there, and the last value for each is in place, so that merging
the same members again changes nothing.
-/

namespace Scim.Members

variable {members values : Members} {attr name other key : String} {value : Json}

/-! ## Names that are there -/

/-- A stored spelling stays the one of its name when attributes are set. -/
theorem key?_setAttr_of_some (found : key? members name = some key) (attr : String) (value : Json) :
    key? (setAttr members attr value) name = some key := by
  cases same : sameName name attr with
  | true => rw [key?_setAttr same, found, Option.getD_some]
  | false => rw [key?_setAttr_of_differ ((sameName_comm attr name).trans same), found]

theorem key?_merge_of_some (found : key? members name = some key) (values : Members) :
    key? (merge members values) name = some key := by
  induction values generalizing members with
  | nil => exact found
  | cons member rest ih => exact ih (key?_setAttr_of_some found member.1 member.2)

/-- What is merged is there. -/
theorem isSome_key?_merge (members values : Members) :
    ∀ member ∈ values, (key? (merge members values) member.1).isSome = true := by
  induction values generalizing members with
  | nil => nofun
  | cons first rest ih =>
      intro member held
      rcases List.mem_cons.mp held with rfl | inRest
      · have set := key?_setAttr_self members member.1 member.2
        exact Option.isSome_of_eq_some (key?_merge_of_some set rest)
      · exact ih _ member inRest

theorem names_setAttr_of_isSome (there : (key? members attr).isSome = true) (value : Json) :
    names (setAttr members attr value) = names members := by
  obtain ⟨key, found⟩ := Option.isSome_iff_exists.mp there
  rw [setAttr, found, Option.getD_some, names_set_of_mem (key?_eq_some found).1]

theorem place_congr_names {others : Members} (same : names others = names members)
    (attr : String) : place others attr = place members attr := by
  rw [place, place, key?_eq, key?_eq, same]

/-! ## Assignments in two places -/

/-- An assignment to a member that is there can be made before or after another one. -/
theorem set_comm (differ : key ≠ other) (present : other ∈ names members) (value last : Json) :
    set (set members key value) other last = set (set members other last) key value := by
  induction members with
  | nil => cases present
  | cons member rest ih =>
      obtain ⟨n, stored⟩ := member
      by_cases isKey : n = key
      · subst isKey
        simp [set, differ]
      · by_cases isOther : n = other
        · subst isOther
          simp [set, isKey]
        · have later : other ∈ names rest := by
            simpa [names, Ne.symm isOther] using present
          simp [set, isKey, isOther, ih later]

/-- Setting an attribute before one that is there comes to nothing, if both are one, and else can be
done behind it. -/
theorem setAttr_setAttr_of_isSome (there : (key? members name).isSome = true) (attr : String)
    (value last : Json) :
    setAttr (setAttr members attr value) name last = setAttr members name last ∨
      setAttr (setAttr members attr value) name last =
        setAttr (setAttr members name last) attr value := by
  obtain ⟨key, found⟩ := Option.isSome_iff_exists.mp there
  have kept : place (setAttr members attr value) name = place members name := by
    rw [place_of_key? (key?_setAttr_of_some found attr value), place_of_key? found]
  have keptToo : place (setAttr members name last) attr = place members attr :=
    place_congr_names (names_setAttr_of_isSome there last) attr
  rw [setAttr_eq_set _ name, kept, setAttr_eq_set members attr, setAttr_eq_set members name,
    setAttr_eq_set _ attr, ← setAttr_eq_set members name, keptToo, setAttr_eq_set members name]
  by_cases one : place members attr = place members name
  · rw [one, set_set]
    exact .inl rfl
  · refine .inr (set_comm one ?_ value last)
    rw [place_of_key? found]
    exact (key?_eq_some found).1

/-- What an attribute is set to before a merge does not matter if it is set again behind it. -/
theorem setAttr_merge_setAttr (there : ∀ member ∈ values, (key? members member.1).isSome = true)
    (attr : String) (value last : Json) :
    setAttr (merge (setAttr members attr value) values) attr last =
      setAttr (merge members values) attr last := by
  induction values generalizing members with
  | nil => exact setAttr_setAttr members attr value last
  | cons member rest ih =>
      obtain ⟨present, others⟩ := List.forall_mem_cons.mp there
      change setAttr (merge (setAttr (setAttr members attr value) member.1 member.2) rest) attr
          last = setAttr (merge (setAttr members member.1 member.2) rest) attr last
      rcases setAttr_setAttr_of_isSome present attr value member.2 with one | apart
      · rw [one]
      · rw [apart]
        refine ih fun next held => ?_
        obtain ⟨key, found⟩ := Option.isSome_iff_exists.mp (others next held)
        exact Option.isSome_of_eq_some (key?_setAttr_of_some found _ _)

/-! ## Merging again -/

/-- Merging the same members again changes nothing. -/
theorem merge_merge_self (members values : Members) :
    merge (merge members values) values = merge members values := by
  -- The last member is the only one that the first merge and the second one without it differ in.
  induction values using List.reverseRecOn with
  | nil => rfl
  | append_singleton before last ih =>
      have there := isSome_key?_merge members before
      have split (others : Members) : merge others (before ++ [last]) =
          setAttr (merge others before) last.1 last.2 := merge_append others before [last]
      rw [split, split, setAttr_merge_setAttr there, ih]

/-- Merging the members of an object into it changes nothing. -/
theorem merge_self (nodup : (names members).Nodup) : merge members members = members := by
  have inside (part : Members) (held : ∀ member ∈ part, member ∈ members) :
      merge members part = members := by
    induction part with
    | nil => rfl
    | cons member rest ih =>
        obtain ⟨first, others⟩ := List.forall_mem_cons.mp held
        have found : attr? members member.1 = some member.2 := by
          rw [attr?, key?_of_mem (List.mem_map_of_mem first), Option.bind_some,
            get?_of_mem nodup first]
        have same : merge members (member :: rest) =
            merge (setAttr members member.1 member.2) rest := rfl
        rw [same, setAttr_of_attr? found, ih others]
  exact inside members fun _ held => held

/-! ## Names that occur once -/

theorem nodup_set (nodup : (names members).Nodup) (name : String) (value : Json) :
    (names (set members name value)).Nodup := by
  by_cases present : name ∈ names members
  · rwa [names_set_of_mem present]
  · rw [names_set_of_not_mem present]
    refine List.nodup_append.mpr ⟨nodup, List.pairwise_singleton _ _, fun key held other is => ?_⟩
    cases List.mem_singleton.mp is
    rintro rfl
    exact present held

theorem nodup_setAttr (nodup : (names members).Nodup) (attr : String) (value : Json) :
    (names (setAttr members attr value)).Nodup := nodup_set nodup _ value

theorem nodup_merge (nodup : (names members).Nodup) (values : Members) :
    (names (merge members values)).Nodup := by
  induction values generalizing members with
  | nil => exact nodup
  | cons member rest ih => exact ih (nodup_setAttr nodup member.1 member.2)

end Scim.Members
