import Mathlib.Data.String.Basic
import Mathlib.Order.Compare
import Scim.Proofs.Json.Sameness
import Scim.Proofs.Query.Stages

/-!
# When a sort puts values in an order

The comparison of a sort is a total preorder of truth values, of finite numbers, of timestamps
and of other texts, and of all of these taken together but for one case: a text that is no
timestamp can stand between two timestamps that stand the other way round as texts than as
instants.  The three then go round in a circle.
-/

namespace Scim

namespace Number

/-- Finite numbers are ordered as the rational numbers that they denote. -/
theorem Numeric.order?_of_rational {a b : Numeric} {p q : ℚ} (left : a.quantity = .rational p)
    (right : b.quantity = .rational q) : a.order? b = some (compare p q) := by
  have ints (m n : Int) : compare m n = compare (m : ℚ) (n : ℚ) := by
    rw [← cmp_eq_compare, ← cmp_eq_compare, Int.cast_strictMono.cmp_map_eq]
  rcases a with m | x | s | _ <;> cases left
  · rcases b with n | y | t | _ <;> cases right
    · exact congrArg some (ints m n)
    · rw [Numeric.order?, compareScaled_eq_compare, zpow_zero, mul_one]
      rfl
  · rcases b with n | y | t | _ <;> cases right
    · rw [Numeric.order?, compareScaled_eq_compare, zpow_zero, mul_one]
      rfl
    · rw [Numeric.order?, compareScaled_eq_compare]
      rfl

end Number

namespace Json

variable {caseExact : Bool} {a b c : Json} {s t u : String}

/-- Whether a value is a text that denotes an instant. -/
def isTimestamp : Json → Bool
  | .str s => (Timestamp.parse? s).isSome
  | _ => false

/-- Whether a value is a text that denotes no instant. -/
def isOtherText : Json → Bool
  | .str s => (Timestamp.parse? s).isNone
  | _ => false

/-- Whether a value is missing, a truth value, a finite number or a text. -/
def isPlain : Json → Bool
  | .null | .bool _ | .int _ | .double (.finite _) | .str _ => true
  | _ => false

/-! ## Values of different kinds -/

/-- Values of different ranks have no order but that of the ranks. -/
theorem sortOrder_of_rank_ne (differ : a.rank ≠ b.rank) :
    sortOrder caseExact a b = compare a.rank b.rank := by
  have unordered : order? caseExact a b = none := by
    cases a <;> cases b <;> first | rfl | exact absurd rfl differ
  have ranked : compare a.rank b.rank ≠ .eq := fun same => differ (compare_eq_iff_eq.mp same)
  rw [sortOrder_eq, unordered, orderUnordered]
  cases found : compare a.rank b.rank with
  | eq => exact absurd found ranked
  | lt | gt => rfl

theorem rank_le_of_sortOrder (behind : sortOrder caseExact a b ≠ .gt) : a.rank ≤ b.rank := by
  by_contra greater
  rw [sortOrder_of_rank_ne (by omega)] at behind
  exact greater (compare_le_iff_le.mp behind)

/-! ## Numbers -/

/-- The rational number that a finite number denotes. -/
def rational? : Json → Option ℚ
  | .int n => some n
  | .double (.finite x) => some x.value
  | _ => none

theorem order?_of_rational {p q : ℚ} (left : a.rational? = some p) (right : b.rational? = some q) :
    order? caseExact a b = some (compare p q) := by
  have denotes (value : Json) (r : ℚ) (given : value.rational? = some r) :
      ∃ x, value.number? = some x ∧ x.quantity = .rational r := by
    rcases value with _ | _ | n | (x | _ | _) | _ | _ | _ <;> cases given
    · exact ⟨.int n, rfl, rfl⟩
    · exact ⟨.double (.finite x), rfl, rfl⟩
  obtain ⟨x, left, denotes_p⟩ := denotes a p left
  obtain ⟨y, right, denotes_q⟩ := denotes b q right
  rw [order?, left, right]
  · dsimp only
    rw [Number.Numeric.order?_of_rational denotes_p denotes_q]
    rfl
  · rintro s t rfl
    cases left

/-! ## Texts -/

theorem compareTexts_ne_gt_iff {x y : Timestamp} (left : Timestamp.parse? s = some x)
    (right : Timestamp.parse? t = some y) :
    compareTexts caseExact s t ≠ .gt ↔ x.instant ≤ y.instant := by
  rw [compareTexts, left, right]
  exact compare_le_iff_le

theorem compareTexts_ne_gt_iff_of_none
    (other : Timestamp.parse? s = none ∨ Timestamp.parse? t = none) :
    compareTexts caseExact s t ≠ .gt ↔ comparable caseExact s ≤ comparable caseExact t := by
  have lettered :
      compareTexts caseExact s t = compare (comparable caseExact s) (comparable caseExact t) := by
    rw [compareTexts]
    rcases other with absent | absent <;> rw [absent]
    cases Timestamp.parse? s <;> rfl
  rw [lettered]
  exact compare_le_iff_le

/-- Whether two timestamps and another text go round in a circle: the first timestamp is not later
than the second, but letter by letter the second comes first, with the other text between them. -/
def GoRound (caseExact : Bool) (s t u : String) : Prop :=
  ∃ x y, Timestamp.parse? s = some x ∧ Timestamp.parse? t = some y ∧ Timestamp.parse? u = none ∧
    x.instant ≤ y.instant ∧ comparable caseExact t ≤ comparable caseExact u ∧
    comparable caseExact u ≤ comparable caseExact s ∧
    (x.instant < y.instant ∨ comparable caseExact t < comparable caseExact s)

/-- The order of texts is transitive except in a circle. -/
theorem compareTexts_trans (first : compareTexts caseExact s t ≠ .gt)
    (second : compareTexts caseExact t u ≠ .gt)
    (straight : ¬ GoRound caseExact s t u ∧ ¬ GoRound caseExact t u s ∧
      ¬ GoRound caseExact u s t) : compareTexts caseExact s u ≠ .gt := by
  cases left : Timestamp.parse? s with
  | none =>
      cases middle : Timestamp.parse? t with
      | none =>
          rw [compareTexts_ne_gt_iff_of_none (.inl left)] at first ⊢
          rw [compareTexts_ne_gt_iff_of_none (.inl middle)] at second
          exact first.trans second
      | some y =>
          rw [compareTexts_ne_gt_iff_of_none (.inl left)] at first ⊢
          cases right : Timestamp.parse? u with
          | none =>
              rw [compareTexts_ne_gt_iff_of_none (.inr right)] at second
              exact first.trans second
          | some z =>
              rw [compareTexts_ne_gt_iff middle right] at second
              by_contra later
              have before := not_le.mp later
              exact straight.2.1
                ⟨y, z, middle, right, left, second, before.le, first, .inr (before.trans_le first)⟩
  | some x =>
      cases middle : Timestamp.parse? t with
      | none =>
          rw [compareTexts_ne_gt_iff_of_none (.inr middle)] at first
          rw [compareTexts_ne_gt_iff_of_none (.inl middle)] at second
          cases right : Timestamp.parse? u with
          | none =>
              rw [compareTexts_ne_gt_iff_of_none (.inr right)]
              exact first.trans second
          | some z =>
              rw [compareTexts_ne_gt_iff left right]
              by_contra later
              have before := not_le.mp later
              exact straight.2.2
                ⟨z, x, right, left, middle, before.le, first, second, .inl before⟩
      | some y =>
          rw [compareTexts_ne_gt_iff left middle] at first
          cases right : Timestamp.parse? u with
          | none =>
              rw [compareTexts_ne_gt_iff_of_none (.inr right)] at second ⊢
              by_contra later
              have before := not_le.mp later
              exact straight.1
                ⟨x, y, left, middle, right, first, second, before.le, .inr (second.trans_lt before)⟩
          | some z =>
              rw [compareTexts_ne_gt_iff middle right] at second
              rw [compareTexts_ne_gt_iff left right]
              exact first.trans second

/-! ## The comparison of values that are there -/

/-- Whether a value is there: a truth value, a finite number or a text. -/
def IsThere (value : Json) : Prop := value.isPlain = true ∧ value.isNull = false

theorem IsThere.rank_cases (there : a.IsThere) : a.rank = 0 ∨ a.rank = 1 ∨ a.rank = 2 := by
  obtain ⟨plain, present⟩ := there
  cases a with
  | bool => exact .inl rfl
  | int | double => exact .inr (.inl rfl)
  | str => exact .inr (.inr rfl)
  | null => cases present
  | arr | obj => cases plain

theorem exists_bool (ranked : a.rank = 0) : ∃ x, a = .bool x := by
  cases a with
  | bool x => exact ⟨x, rfl⟩
  | _ => cases ranked

theorem IsThere.exists_number (there : a.IsThere) (ranked : a.rank = 1) :
    ∃ p, a.rational? = some p := by
  rcases a with _ | _ | n | (x | _ | _) | _ | _ | _ <;> cases ranked
  · exact ⟨n, rfl⟩
  · exact ⟨x.value, rfl⟩
  all_goals cases there.1

theorem exists_text (ranked : a.rank = 2) : ∃ s, a = .str s := by
  cases a with
  | str s => exact ⟨s, rfl⟩
  | _ => cases ranked

/-- Truth values have no order of their own and go by how they are shown. -/
theorem sortOrder_bool (caseExact : Bool) (x y : Bool) :
    sortOrder caseExact (.bool x) (.bool y) = compare x y := by
  revert caseExact x y
  decide +kernel

theorem sortOrder_of_rational {p q : ℚ} (left : a.rational? = some p)
    (right : b.rational? = some q) : sortOrder caseExact a b = compare p q := by
  rw [sortOrder_eq, order?_of_rational left right]
  rfl

theorem sortOrder_swap (left : a.IsThere) (right : b.IsThere) :
    sortOrder caseExact b a = (sortOrder caseExact a b).swap := by
  by_cases same : a.rank = b.rank
  · rcases left.rank_cases with ranked | ranked | ranked
    · obtain ⟨x, rfl⟩ := exists_bool ranked
      obtain ⟨y, rfl⟩ := exists_bool (same.symm.trans ranked)
      rw [sortOrder_bool, sortOrder_bool]
      exact Std.OrientedOrd.eq_swap
    · obtain ⟨p, denotes_p⟩ := left.exists_number ranked
      obtain ⟨q, denotes_q⟩ := right.exists_number (same.symm.trans ranked)
      rw [sortOrder_of_rational denotes_p denotes_q, sortOrder_of_rational denotes_q denotes_p]
      exact Std.OrientedOrd.eq_swap
    · obtain ⟨s, rfl⟩ := exists_text ranked
      obtain ⟨t, rfl⟩ := exists_text (same.symm.trans ranked)
      exact compareTexts_swap caseExact s t
  · rw [sortOrder_of_rank_ne same, sortOrder_of_rank_ne (Ne.symm same)]
    exact Std.OrientedOrd.eq_swap

/-- The order of values is transitive if that of their texts is. -/
theorem sortOrder_trans (there_a : a.IsThere) (there_b : b.IsThere) (there_c : c.IsThere)
    (first : sortOrder caseExact a b ≠ .gt) (second : sortOrder caseExact b c ≠ .gt)
    (texts : ∀ s t u, a = .str s → b = .str t → c = .str u → compareTexts caseExact s t ≠ .gt →
      compareTexts caseExact t u ≠ .gt → compareTexts caseExact s u ≠ .gt) :
    sortOrder caseExact a c ≠ .gt := by
  have low := rank_le_of_sortOrder first
  have high := rank_le_of_sortOrder second
  by_cases same : a.rank = c.rank
  · -- all three have one rank, and each rank has an order of its own
    have middle : b.rank = a.rank := le_antisymm (high.trans same.ge) low
    rcases there_a.rank_cases with ranked | ranked | ranked
    · obtain ⟨x, rfl⟩ := exists_bool ranked
      obtain ⟨y, rfl⟩ := exists_bool (middle.trans ranked)
      obtain ⟨z, rfl⟩ := exists_bool (same.symm.trans ranked)
      rw [sortOrder_bool, compare_le_iff_le] at first second ⊢
      exact first.trans second
    · obtain ⟨p, denotes_p⟩ := there_a.exists_number ranked
      obtain ⟨q, denotes_q⟩ := there_b.exists_number (middle.trans ranked)
      obtain ⟨r, denotes_r⟩ := there_c.exists_number (same.symm.trans ranked)
      rw [sortOrder_of_rational denotes_p denotes_q, compare_le_iff_le] at first
      rw [sortOrder_of_rational denotes_q denotes_r, compare_le_iff_le] at second
      rw [sortOrder_of_rational denotes_p denotes_r, compare_le_iff_le]
      exact first.trans second
    · obtain ⟨s, rfl⟩ := exists_text ranked
      obtain ⟨t, rfl⟩ := exists_text (middle.trans ranked)
      obtain ⟨u, rfl⟩ := exists_text (same.symm.trans ranked)
      exact texts s t u rfl rfl rfl first second
  · rw [sortOrder_of_rank_ne same, compare_le_iff_le]
    exact low.trans high

end Json

/-! ## The comparison of all values -/

/-- Whether the comparison of a sort is a total preorder of known values that puts missing ones
last. -/
structure Preorders (caseExact : Bool) (order : SortOrder) (known : Json → Prop) : Prop where
  swap : ∀ a b, known a → known b →
    compareKeys caseExact order b a = (compareKeys caseExact order a b).swap
  missing : ∀ a, known a → compareKeys caseExact order .null a ≠ .lt
  trans : ∀ a b c, known a → known b → known c → compareKeys caseExact order a b ≠ .gt →
    compareKeys caseExact order b c ≠ .gt → compareKeys caseExact order a c ≠ .gt

section

variable {caseExact : Bool} {order : SortOrder} {known : Json → Prop} {a b c : Json}

theorem compareKeys_of_there (left : a.isNull = false) (right : b.isNull = false) :
    compareKeys caseExact order a b = directedOrder caseExact order a b := by
  cases a with
  | null => cases left
  | _ =>
      cases b with
      | null => cases right
      | _ => rfl

theorem compareKeys_null_left (caseExact : Bool) (order : SortOrder) (a : Json) :
    compareKeys caseExact order .null a = if a.isNull then .eq else .gt := by
  cases a <;> rfl

theorem compareKeys_null_right (caseExact : Bool) (order : SortOrder) (a : Json) :
    compareKeys caseExact order a .null = if a.isNull then .eq else .lt := by
  cases a <;> rfl

theorem Json.eq_null_or_isThere (plain : a.isPlain = true) : a = .null ∨ a.IsThere := by
  cases a with
  | null => exact .inl rfl
  | _ => exact .inr ⟨plain, rfl⟩

/-- A descending order is the ascending one read backward. -/
theorem directedOrder_descending (left : a.IsThere) (right : b.IsThere) :
    directedOrder caseExact .descending a b = Json.sortOrder caseExact b a :=
  (Json.sortOrder_swap left right).symm

theorem directedOrder_swap (left : a.IsThere) (right : b.IsThere) :
    directedOrder caseExact order b a = (directedOrder caseExact order a b).swap := by
  cases order with
  | ascending => exact Json.sortOrder_swap left right
  | descending => exact congrArg Ordering.swap (Json.sortOrder_swap left right)

theorem compareKeys_swap (left : a.isPlain = true) (right : b.isPlain = true) :
    compareKeys caseExact order b a = (compareKeys caseExact order a b).swap := by
  rcases Json.eq_null_or_isThere left with rfl | there_a
  · rw [compareKeys_null_left, compareKeys_null_right]
    split <;> rfl
  · rcases Json.eq_null_or_isThere right with rfl | there_b
    · rw [compareKeys_null_left, compareKeys_null_right]
      split <;> rfl
    · rw [compareKeys_of_there there_b.2 there_a.2, compareKeys_of_there there_a.2 there_b.2]
      exact directedOrder_swap there_a there_b

/-- Texts whose order is transitive, and other values, have a transitive order in both directions,
with the missing ones behind them. -/
theorem compareKeys_trans (plain : ∀ value, known value → value.isPlain = true)
    (texts : ∀ s t u, known (.str s) → known (.str t) → known (.str u) →
      Json.compareTexts caseExact s t ≠ .gt → Json.compareTexts caseExact t u ≠ .gt →
        Json.compareTexts caseExact s u ≠ .gt)
    (known_a : known a) (known_b : known b) (known_c : known c)
    (first : compareKeys caseExact order a b ≠ .gt)
    (second : compareKeys caseExact order b c ≠ .gt) : compareKeys caseExact order a c ≠ .gt := by
  rcases Json.eq_null_or_isThere (plain c known_c) with rfl | there_c
  · rw [compareKeys_null_right]
    split <;> nofun
  rcases Json.eq_null_or_isThere (plain b known_b) with rfl | there_b
  · rw [compareKeys_null_left, there_c.2] at second
    exact absurd rfl second
  rcases Json.eq_null_or_isThere (plain a known_a) with rfl | there_a
  · rw [compareKeys_null_left, there_b.2] at first
    exact absurd rfl first
  rw [compareKeys_of_there there_a.2 there_b.2] at first
  rw [compareKeys_of_there there_b.2 there_c.2] at second
  rw [compareKeys_of_there there_a.2 there_c.2]
  cases order with
  | ascending =>
      refine Json.sortOrder_trans there_a there_b there_c first second ?_
      rintro s t u rfl rfl rfl
      exact texts s t u known_a known_b known_c
  | descending =>
      rw [directedOrder_descending there_a there_b] at first
      rw [directedOrder_descending there_b there_c] at second
      rw [directedOrder_descending there_a there_c]
      refine Json.sortOrder_trans there_c there_b there_a second first ?_
      rintro s t u rfl rfl rfl
      exact texts s t u known_c known_b known_a

theorem Preorders.ne_lt_iff (preorders : Preorders caseExact order known) (known_a : known a)
    (known_b : known b) :
    compareKeys caseExact order b a ≠ .lt ↔ compareKeys caseExact order a b ≠ .gt := by
  rw [preorders.swap a b known_a known_b]
  cases compareKeys caseExact order a b <;> decide

theorem Preorders.transitiveOn (preorders : Preorders caseExact order known) :
    TransitiveOn caseExact order known := by
  intro a b c known_a known_b known_c first second
  rw [preorders.ne_lt_iff known_a known_b] at first
  rw [preorders.ne_lt_iff known_b known_c] at second
  rw [preorders.ne_lt_iff known_a known_c]
  exact preorders.trans a b c known_a known_b known_c first second

/-- A preorder of values is one of their texts. -/
theorem Preorders.compareTexts_trans {s t u : String} (preorders : Preorders caseExact order known)
    (known_s : known (.str s)) (known_t : known (.str t)) (known_u : known (.str u))
    (first : Json.compareTexts caseExact s t ≠ .gt)
    (second : Json.compareTexts caseExact t u ≠ .gt) : Json.compareTexts caseExact s u ≠ .gt := by
  cases order with
  | ascending => exact preorders.trans _ _ _ known_s known_t known_u first second
  | descending =>
      have backward (v w : String) :
          compareKeys caseExact .descending (.str v) (.str w) = Json.compareTexts caseExact w v :=
        (Json.compareTexts_swap caseExact v w).symm
      have whole := preorders.trans _ _ _ known_u known_t known_s
      rw [backward, backward, backward] at whole
      exact whole second first

/-- The comparison of a sort is a total preorder exactly if no texts go round in a circle. -/
theorem preorders_iff_of_plain (plain : ∀ value, known value → value.isPlain = true) :
    Preorders caseExact order known ↔
      ∀ s t u, known (.str s) → known (.str t) → known (.str u) →
        ¬ Json.GoRound caseExact s t u := by
  constructor
  · rintro preorders s t u known_s known_t known_u ⟨x, y, left, right, other, later, low, high,
      strict⟩
    have first : Json.compareTexts caseExact s t ≠ .gt :=
      (Json.compareTexts_ne_gt_iff left right).mpr later
    have second : Json.compareTexts caseExact t u ≠ .gt :=
      (Json.compareTexts_ne_gt_iff_of_none (.inr other)).mpr low
    have third : Json.compareTexts caseExact u s ≠ .gt :=
      (Json.compareTexts_ne_gt_iff_of_none (.inl other)).mpr high
    -- whichever step is strict, the other two lead back over it
    rcases strict with earlier | before
    · have back := preorders.compareTexts_trans known_t known_u known_s second third
      rw [Json.compareTexts_ne_gt_iff right left] at back
      exact absurd back (not_le.mpr earlier)
    · have back := preorders.compareTexts_trans known_s known_t known_u first second
      have back' := preorders.compareTexts_trans known_u known_s known_t third first
      rw [Json.compareTexts_ne_gt_iff_of_none (.inr other)] at back
      rw [Json.compareTexts_ne_gt_iff_of_none (.inl other)] at back'
      exact absurd (back.trans back') (not_le.mpr before)
  · intro straight
    refine ⟨fun a b known_a known_b => compareKeys_swap (plain a known_a) (plain b known_b), ?_, ?_⟩
    · intro a _
      rw [compareKeys_null_left]
      split <;> nofun
    · intro a b c
      refine compareKeys_trans plain ?_
      intro s t u known_s known_t known_u first second
      exact Json.compareTexts_trans first second ⟨straight s t u known_s known_t known_u,
        straight t u s known_t known_u known_s, straight u s t known_u known_s known_t⟩

end

end Scim
