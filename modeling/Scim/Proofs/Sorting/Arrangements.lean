import Mathlib.Data.List.Basic

/-!
# Stable arrangements

A list is arranged stably if it is in order and the items that stand level, neither less
than the other, are in the order in which they were given.  There is only one such
arrangement of a list.  The comparison need only be an order among the items that are to be
compared.
-/

namespace Scim.Sorting

variable {α : Type} {less : α → α → Bool} {known : α → Prop}

/-- Whether an item may stand before another, which is not less. -/
def NotAfter (less : α → α → Bool) (a b : α) : Prop := less b a = false

/-- A comparison that puts some known items in an order: of two items at most one is less,
and an item that may stand before another may stand before all that the other may stand
before. -/
structure Orders (less : α → α → Bool) (known : α → Prop) : Prop where
  asymm : ∀ a b, less a b = true → less b a = false
  trans : ∀ a b c, known a → known b → known c →
    NotAfter less a b → NotAfter less b c → NotAfter less a c

namespace Orders

theorem refl (order : Orders less known) (a : α) : NotAfter less a a := by
  cases same : less a a with
  | false => exact same
  | true => exact absurd (order.asymm a a same) (by simp [same])

theorem notAfter_of_less (order : Orders less known) {a b : α} (before : less a b = true) :
    NotAfter less a b :=
  order.asymm a b before

/-- An item that is less than another is less than all behind the other. -/
theorem less_of_less_of_notAfter (order : Orders less known) {a b c : α} (ka : known a)
    (kb : known b) (kc : known c) (before : less a b = true) (behind : NotAfter less b c) :
    less a c = true := by
  by_contra notLess
  have back : NotAfter less c a := by simpa [NotAfter] using notLess
  have level := order.trans b c a kb kc ka behind back
  rw [NotAfter, before] at level
  cases level

theorem less_of_notAfter_of_less (order : Orders less known) {a b c : α} (ka : known a)
    (kb : known b) (kc : known c) (before : NotAfter less a b) (behind : less b c = true) :
    less a c = true := by
  by_contra notLess
  have back : NotAfter less c a := by simpa [NotAfter] using notLess
  have level := order.trans c a b kc ka kb back before
  rw [NotAfter, behind] at level
  cases level

/-- The reverse of an order. -/
theorem flip (order : Orders less known) : Orders (fun a b => less b a) known where
  asymm a b before := order.asymm b a before
  trans a b c ka kb kc first second := order.trans c b a kc kb ka second first

end Orders

/-- Whether two items stand level: neither is less. -/
def level (less : α → α → Bool) (a b : α) : Bool := !less a b && !less b a

theorem level_iff (a b : α) : level less a b = true ↔ NotAfter less a b ∧ NotAfter less b a := by
  simp [level, NotAfter, and_comm]

/-- A stable arrangement of some known items. -/
structure Arranged (less : α → α → Bool) (known : α → Prop) (items sorted : List α) : Prop where
  within : ∀ a ∈ items, known a
  perm : sorted.Perm items
  ordered : sorted.Pairwise (NotAfter less)
  stable : ∀ z, known z → sorted.filter (level less z) = items.filter (level less z)

namespace Arranged

variable {items sorted : List α}

theorem known_of_mem (arranged : Arranged less known items sorted) {a : α} (member : a ∈ sorted) :
    known a :=
  arranged.within a (arranged.perm.mem_iff.mp member)

theorem of_ordered (within : ∀ a ∈ items, known a) (ordered : items.Pairwise (NotAfter less)) :
    Arranged less known items items where
  within := within
  perm := .refl items
  ordered := ordered
  stable _ _ := rfl

theorem trans {middle : List α} (first : Arranged less known items middle)
    (second : Arranged less known middle sorted) : Arranged less known items sorted where
  within := first.within
  perm := second.perm.trans first.perm
  ordered := second.ordered
  stable z kz := (second.stable z kz).trans (first.stable z kz)

/-- Parts of a list may be arranged before the whole is. -/
theorem of_append {items₁ items₂ sorted₁ sorted₂ : List α}
    (first : Arranged less known items₁ sorted₁) (second : Arranged less known items₂ sorted₂)
    (whole : Arranged less known (sorted₁ ++ sorted₂) sorted) :
    Arranged less known (items₁ ++ items₂) sorted where
  within a member := (List.mem_append.mp member).elim (first.within a) (second.within a)
  perm := whole.perm.trans (first.perm.append second.perm)
  ordered := whole.ordered
  stable z kz := by
    rw [whole.stable z kz, List.filter_append, List.filter_append, first.stable z kz,
      second.stable z kz]

/-- What goes before or after all that is arranged may stand around it. -/
theorem between {front back : List α} (arranged : Arranged less known items sorted)
    (front_within : ∀ a ∈ front, known a) (back_within : ∀ a ∈ back, known a)
    (front_ordered : front.Pairwise (NotAfter less)) (back_ordered : back.Pairwise (NotAfter less))
    (front_items : ∀ a ∈ front, ∀ b ∈ items, NotAfter less a b)
    (items_back : ∀ a ∈ items, ∀ b ∈ back, NotAfter less a b)
    (front_back : ∀ a ∈ front, ∀ b ∈ back, NotAfter less a b) :
    Arranged less known (front ++ items ++ back) (front ++ sorted ++ back) where
  within := by
    simp only [List.forall_mem_append]
    exact ⟨⟨front_within, arranged.within⟩, back_within⟩
  perm := (arranged.perm.append_left front).append_right back
  ordered := by
    simp only [List.pairwise_append, List.forall_mem_append]
    refine ⟨⟨front_ordered, arranged.ordered, ?_⟩, back_ordered, front_back, ?_⟩
    · exact fun a left b right => front_items a left b (arranged.perm.mem_iff.mp right)
    · exact fun a left b right => items_back a (arranged.perm.mem_iff.mp left) b right
  stable z kz := by
    simp only [List.filter_append, arranged.stable z kz]

/-- Some of the items that are arranged are arranged among themselves. -/
theorem filter (arranged : Arranged less known items sorted) (keep : α → Bool) :
    Arranged less known (items.filter keep) (sorted.filter keep) where
  within a member := arranged.within a (List.mem_of_mem_filter member)
  perm := arranged.perm.filter keep
  ordered := arranged.ordered.filter keep
  stable z kz := by
    rw [List.filter_filter, List.filter_filter]
    simp only [Bool.and_comm (level less z _)]
    rw [← List.filter_filter, ← List.filter_filter, arranged.stable z kz]

/-- An arrangement that is read backward is one under the reverse order. -/
theorem reverse (arranged : Arranged (fun a b => less b a) known items sorted) :
    Arranged less known items.reverse sorted.reverse where
  within a member := arranged.within a (List.mem_reverse.mp member)
  perm := (List.reverse_perm sorted).trans (arranged.perm.trans (List.reverse_perm items).symm)
  ordered := List.pairwise_reverse.mpr arranged.ordered
  stable z kz := by
    have same : level less z = level (fun a b => less b a) z := by
      funext a
      exact Bool.and_comm _ _
    rw [List.filter_reverse, List.filter_reverse, same, arranged.stable z kz]

/-- Two arrangements of the same items start with the same item: each has the other's first
item, so the two stand level, and of the items level with them both have the same first. -/
theorem head_eq (order : Orders less known) {a b : α} {as bs : List α}
    (within : ∀ c ∈ a :: as, known c) (perm : (a :: as).Perm (b :: bs))
    (left : (a :: as).Pairwise (NotAfter less)) (right : (b :: bs).Pairwise (NotAfter less))
    (stable : ∀ z, known z → (a :: as).filter (level less z) = (b :: bs).filter (level less z)) :
    a = b := by
  have before : NotAfter less a b := by
    rcases List.mem_cons.mp (perm.mem_iff.mpr List.mem_cons_self) with rfl | later
    · exact order.refl b
    · exact List.rel_of_pairwise_cons left later
  have after : NotAfter less b a := by
    rcases List.mem_cons.mp (perm.mem_iff.mp List.mem_cons_self) with rfl | later
    · exact order.refl a
    · exact List.rel_of_pairwise_cons right later
  have self : level less a a = true := (level_iff a a).mpr ⟨order.refl a, order.refl a⟩
  have other : level less a b = true := (level_iff a b).mpr ⟨before, after⟩
  have first := stable a (within a List.mem_cons_self)
  rw [List.filter_cons_of_pos self, List.filter_cons_of_pos other] at first
  exact (List.cons.inj first).1

/-- A list has only one stable arrangement. -/
theorem unique (order : Orders less known) {other : List α}
    (left : Arranged less known items sorted) (right : Arranged less known items other) :
    sorted = other := by
  have perm := left.perm.trans right.perm.symm
  have stable (z : α) (kz : known z) :
      sorted.filter (level less z) = other.filter (level less z) :=
    (left.stable z kz).trans (right.stable z kz).symm
  have within : ∀ a ∈ sorted, known a := fun a => left.known_of_mem
  have inOrder := left.ordered
  have inOrder' := right.ordered
  clear left right
  induction sorted generalizing other with
  | nil => exact perm.symm.eq_nil.symm
  | cons a as ih =>
      cases other with
      | nil => exact absurd perm.eq_nil (List.cons_ne_nil a as)
      | cons b bs =>
          obtain rfl := head_eq order within perm inOrder inOrder' stable
          refine congrArg (a :: ·) (ih perm.cons_inv ?_ ?_ inOrder.of_cons inOrder'.of_cons)
          · intro z kz
            have whole := stable z kz
            rw [List.filter_cons, List.filter_cons] at whole
            split at whole
            · exact (List.cons.inj whole).2
            · exact whole
          · intro c member
            exact within c (List.mem_cons_of_mem a member)

end Arranged

end Scim.Sorting
