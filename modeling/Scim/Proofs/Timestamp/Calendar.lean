import Mathlib.Data.List.Range
import Scim.Timestamp

/-!
# The calendar, day by day

The number of a day is what counting from the first of January of the year 1 gives, one day after
the other across the ends of months, years, leap years and centuries.
-/

namespace Scim.Date

/-- Whether the calendar, of which the years never end, has a day. -/
structure IsDay (date : Date) : Prop where
  year : 1 ≤ date.year
  month : 1 ≤ date.month ∧ date.month ≤ 12
  day : 1 ≤ date.day ∧ date.day ≤ daysInMonth date.year date.month

/-- The day after a day. -/
def next (date : Date) : Date :=
  if date.day < daysInMonth date.year date.month then ⟨date.year, date.month, date.day + 1⟩
  else if date.month < 12 then ⟨date.year, date.month + 1, 1⟩
  else ⟨date.year + 1, 1, 1⟩

/-- The day a number of days after the first of January of the year 1. -/
def later : Nat → Date
  | 0 => ⟨1, 1, 1⟩
  | days + 1 => (later days).next

variable {date : Date} {year month day : Nat}

theorem isDay_of_isValid (valid : date.isValid = true) : date.IsDay := by
  simp only [isValid, Bool.and_eq_true, decide_eq_true_eq] at valid
  obtain ⟨⟨⟨⟨⟨first, _⟩, january⟩, december⟩, start⟩, last⟩ := valid
  exact ⟨first, ⟨january, december⟩, start, last⟩

theorem daysInMonth_pos (year month : Nat) : 1 ≤ daysInMonth year month := by
  unfold daysInMonth
  split
  · split <;> decide
  · split <;> decide

/-! ## Numbers of days -/

theorem daysBeforeMonth_succ (year month : Nat) :
    daysBeforeMonth year (month + 2) =
      daysBeforeMonth year (month + 1) + daysInMonth year (month + 1) := by
  simp only [daysBeforeMonth, Nat.add_sub_cancel, List.range_succ, List.foldl_append,
    List.foldl_cons, List.foldl_nil, show month + 2 - 1 = month + 1 from rfl]

/-- A year has 365 days, and a leap year one more. -/
theorem daysBeforeMonth_december (year : Nat) :
    daysBeforeMonth year 12 + daysInMonth year 12 = 365 + (if isLeap year then 1 else 0) := by
  cases leap : isLeap year <;>
    simp +decide [daysBeforeMonth, daysInMonth, leap, List.range_succ]

/-- The leap days up to a year are those up to the year before and its own. -/
theorem leapDays_succ (year : Nat) :
    (year + 1) / 4 + (year + 1) / 400 + year / 100 =
      year / 4 + year / 400 + (year + 1) / 100 + (if isLeap (year + 1) then 1 else 0) := by
  simp only [isLeap, Bool.and_eq_true, Bool.or_eq_true, beq_iff_eq, bne_iff_ne]
  split <;> omega

theorem ordinal_next (isDay : date.IsDay) : date.next.ordinal = date.ordinal + 1 := by
  obtain ⟨year, month, day⟩ := date
  obtain ⟨first, ⟨january, december⟩, start, last⟩ := isDay
  dsimp only at first january december start last
  rw [next]
  dsimp only
  split
  · simp only [ordinal]
    omega
  · next ended =>
    have day : day = daysInMonth year month := Nat.le_antisymm last (Nat.le_of_not_lt ended)
    subst day
    split
    · obtain ⟨month, rfl⟩ : ∃ before, month = before + 1 := ⟨month - 1, by omega⟩
      simp only [ordinal, daysBeforeMonth_succ]
      omega
    · next yearEnded =>
      obtain rfl : month = 12 := by omega
      obtain ⟨year, rfl⟩ : ∃ before, year = before + 1 := ⟨year - 1, by omega⟩
      have days := daysBeforeMonth_december (year + 1)
      have leap := leapDays_succ year
      have january : daysBeforeMonth (year + 1 + 1) 1 = 0 := rfl
      simp only [ordinal, Nat.add_sub_cancel, january]
      omega

/-! ## Counting -/

theorem isDay_next (isDay : date.IsDay) : date.next.IsDay := by
  obtain ⟨first, ⟨january, december⟩, start, last⟩ := isDay
  rw [next]
  split
  · next inside => exact ⟨first, ⟨january, december⟩, Nat.le_add_left _ _, inside⟩
  · split
    · next more => exact ⟨first, ⟨Nat.le_add_left _ _, more⟩, Nat.le_refl _, daysInMonth_pos _ _⟩
    · exact ⟨Nat.le_add_left _ _, ⟨Nat.le_refl _, Nat.le_add_left 1 11⟩, Nat.le_refl _,
        daysInMonth_pos _ _⟩

theorem isDay_later (days : Nat) : (later days).IsDay := by
  induction days with
  | zero => exact ⟨Nat.le_refl _, ⟨Nat.le_refl _, by decide⟩, Nat.le_refl _, by decide⟩
  | succ days ih => exact isDay_next ih

/-- The day a number of days after the first, which has number 1. -/
theorem ordinal_later (days : Nat) : (later days).ordinal = days + 1 := by
  induction days with
  | zero => decide
  | succ days ih => rw [later, ordinal_next (isDay_later days), ih]

/-- The last day of a month is reached from the first. -/
theorem exists_later_of_month (first : ∃ days, later days = ⟨year, month, 1⟩)
    (last : day + 1 ≤ daysInMonth year month) : ∃ days, later days = ⟨year, month, day + 1⟩ := by
  induction day with
  | zero => exact first
  | succ day ih =>
      obtain ⟨days, reached⟩ := ih (Nat.le_of_succ_le last)
      refine ⟨days + 1, ?_⟩
      rw [later, reached, next, if_pos (show day + 1 < daysInMonth year month from last)]

/-- Every month of a year is reached from the first. -/
theorem exists_later_of_year (first : ∃ days, later days = ⟨year, 1, 1⟩) (last : month + 1 ≤ 12) :
    ∃ days, later days = ⟨year, month + 1, 1⟩ := by
  induction month with
  | zero => exact first
  | succ month ih =>
      have filled : daysInMonth year (month + 1) - 1 + 1 = daysInMonth year (month + 1) :=
        Nat.sub_add_cancel (daysInMonth_pos year (month + 1))
      obtain ⟨days, reached⟩ :=
        exists_later_of_month (ih (Nat.le_of_succ_le last)) (Nat.le_of_eq filled)
      refine ⟨days + 1, ?_⟩
      rw [later, reached, next, filled, if_neg (Nat.lt_irrefl _),
        if_pos (show month + 1 < 12 from last)]

theorem exists_later_january (year : Nat) : ∃ days, later days = ⟨year + 1, 1, 1⟩ := by
  induction year with
  | zero => exact ⟨0, rfl⟩
  | succ year ih =>
      have december : 30 + 1 ≤ daysInMonth (year + 1) 12 := Nat.le_refl 31
      obtain ⟨days, reached⟩ :=
        exists_later_of_month (exists_later_of_year ih (Nat.le_refl 12)) december
      refine ⟨days + 1, ?_⟩
      rw [later, reached]
      rfl

/-- Counting reaches every day. -/
theorem IsDay.exists_later (isDay : date.IsDay) : ∃ days, later days = date := by
  obtain ⟨year, month, day⟩ := date
  obtain ⟨first, ⟨january, december⟩, start, last⟩ := isDay
  dsimp only at first january december start last
  obtain ⟨year, rfl⟩ : ∃ before, year = before + 1 := ⟨year - 1, by omega⟩
  obtain ⟨month, rfl⟩ : ∃ before, month = before + 1 := ⟨month - 1, by omega⟩
  obtain ⟨day, rfl⟩ : ∃ before, day = before + 1 := ⟨day - 1, by omega⟩
  exact exists_later_of_month (exists_later_of_year (exists_later_january year) december) last

end Scim.Date
