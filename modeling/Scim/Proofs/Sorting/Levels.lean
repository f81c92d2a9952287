import Scim.Proofs.Sorting.Arrangements

/-!
# Items on a level

A comparison cannot tell the items on a level apart, so the order in which they were given decides
on theirs and nothing else: two lists of the same items in order agree up to items on a level.  What
comes before all other items of a list in order is at its start.
-/

namespace Scim.Sorting

variable {α : Type} {less : α → α → Bool} {known : α → Prop}

namespace Orders

/-- Items on a level are level with the same items. -/
theorem level_congr (order : Orders less known) {a b c : α} (ka : known a) (kb : known b)
    (kc : known c) (same : level less a b = true) : level less c a = level less c b := by
  obtain ⟨ab, ba⟩ := (level_iff a b).mp same
  rw [Bool.eq_iff_iff, level_iff, level_iff]
  constructor
  · rintro ⟨ca, ac⟩
    exact ⟨order.trans c a b kc ka kb ca ab, order.trans b a c kb ka kc ba ac⟩
  · rintro ⟨cb, bc⟩
    exact ⟨order.trans c b a kc kb ka cb ba, order.trans a b c ka kb kc ab bc⟩

theorem level_self (order : Orders less known) (a : α) : level less a a = true :=
  (level_iff a a).mpr ⟨order.refl a, order.refl a⟩

/-- The first item of a list in order does not stand after any item on whose level the list has
one. -/
theorem head_notAfter (order : Orders less known) {a b : α} {as : List α}
    (within : ∀ c ∈ a :: as, known c) (kb : known b) (ordered : (a :: as).Pairwise (NotAfter less))
    (levels : 0 < (a :: as).countP (level less b)) : NotAfter less a b := by
  obtain ⟨c, member, same⟩ := List.countP_pos_iff.mp levels
  have back := ((level_iff b c).mp same).2
  rcases List.mem_cons.mp member with rfl | later
  · exact back
  · exact order.trans a c b (within a List.mem_cons_self) (within c member) kb
      (List.rel_of_pairwise_cons ordered later) back

/-- Two lists in order that have equally many items on each level agree level by level. -/
theorem forall₂_level_of_countP (order : Orders less known) {left right : List α}
    (within : ∀ a ∈ left, known a) (within' : ∀ a ∈ right, known a)
    (length : left.length = right.length)
    (counts : ∀ z, known z → left.countP (level less z) = right.countP (level less z))
    (ordered : left.Pairwise (NotAfter less)) (ordered' : right.Pairwise (NotAfter less)) :
    List.Forall₂ (fun a b => known a ∧ known b ∧ level less a b = true) left right := by
  induction left generalizing right with
  | nil =>
      rw [List.eq_nil_of_length_eq_zero length.symm]
      exact .nil
  | cons a as ih =>
      cases right with
      | nil => cases length
      | cons b bs =>
          have ka := within a List.mem_cons_self
          have kb := within' b List.mem_cons_self
          have before : NotAfter less a b := by
            refine order.head_notAfter within kb ordered ?_
            rw [counts b kb, List.countP_cons_of_pos (order.level_self b)]
            exact Nat.succ_pos _
          have after : NotAfter less b a := by
            refine order.head_notAfter within' ka ordered' ?_
            rw [← counts a ka, List.countP_cons_of_pos (order.level_self a)]
            exact Nat.succ_pos _
          have same : level less a b = true := (level_iff a b).mpr ⟨before, after⟩
          refine .cons ⟨ka, kb, same⟩
            (ih ?_ ?_ (Nat.succ.inj length) ?_ ordered.of_cons ordered'.of_cons)
          · exact fun c member => within c (List.mem_cons_of_mem a member)
          · exact fun c member => within' c (List.mem_cons_of_mem b member)
          · intro z kz
            have whole := counts z kz
            rw [List.countP_cons, List.countP_cons, order.level_congr ka kb kz same] at whole
            exact Nat.add_right_cancel whole

end Orders

/-- Arrangements of the same items, given in whatever order, agree up to items on a level. -/
theorem Arranged.forall₂_level (order : Orders less known) {items others sorted sorted' : List α}
    (left : Arranged less known items sorted) (right : Arranged less known others sorted')
    (perm : others.Perm items) :
    List.Forall₂ (fun a b => known a ∧ known b ∧ level less a b = true) sorted sorted' := by
  have whole : sorted.Perm sorted' := left.perm.trans (perm.symm.trans right.perm.symm)
  exact order.forall₂_level_of_countP (fun _ => left.known_of_mem) (fun _ => right.known_of_mem)
    whole.length_eq (fun z _ => whole.countP_eq (level less z)) left.ordered right.ordered

/-- Items of one kind, if none of the others comes before them, are at the start of a list. -/
theorem eq_filter_append_filter {items : List α} (first : α → Bool)
    (ordered : items.Pairwise fun a b => first b = true → first a = true) :
    items = items.filter first ++ items.filter (!first ·) := by
  induction items with
  | nil => rfl
  | cons a rest ih =>
      obtain ⟨before, later⟩ := List.pairwise_cons.mp ordered
      cases kind : first a with
      | true =>
          rw [List.filter_cons_of_pos kind, List.filter_cons_of_neg (by simp [kind]),
            List.cons_append, ← ih later]
      | false =>
          have others : rest.filter first = [] := by
            refine List.filter_eq_nil_iff.mpr fun b member found => ?_
            rw [before b member found] at kind
            cases kind
          have whole := ih later
          rw [others, List.nil_append] at whole
          rw [List.filter_cons_of_neg (by simp [kind]), List.filter_cons_of_pos (by simp [kind]),
            others, List.nil_append, ← whole]

end Scim.Sorting
