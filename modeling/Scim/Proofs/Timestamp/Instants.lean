import Mathlib.Data.List.TakeWhile
import Scim.Filter.Value
import Scim.Proofs.Number.Numerals
import Scim.Proofs.Timestamp.Calendar

/-!
# The instants of timestamps

A text says a date, perhaps a time of day and perhaps an offset from universal time, and so denotes
an instant.  A timestamp that is read from a text stands for this instant, except where an offset
to the east directly follows the date: it is read as the time of day.
-/

namespace Scim.Timestamp

/-! ## What a text says -/

/-- Digits of any script, and the number they write. -/
structure Numeral (width : Nat) (text : List Char) (value : Nat) : Prop where
  length : text.length = width
  digits : ∀ c ∈ text, Text.isDigit c = true
  denotes : Number.digitsValue (text.map Number.plainChar) = value

theorem Numeral.of_all {width value : Nat} {text : List Char} (length : text.length = width)
    (digits : text.all Text.isDigit = true)
    (denotes : Number.digitsValue (text.map Number.plainChar) = value) : Numeral width text value :=
  ⟨length, List.all_eq_true.mp digits, denotes⟩

/-- A date, and the days from the first of January of the year 1 to it. -/
inductive DateText : List Char → Nat → Prop where
  | calendar {year month day : List Char} {y m d days : Nat} (years : Numeral 4 year y)
      (months : Numeral 2 month m) (dayOfMonth : Numeral 2 day d)
      (counted : Date.later days = ⟨y, m, d⟩) :
      DateText (year ++ '-' :: (month ++ '-' :: day)) days

/-- Hours and minutes, with or without a colon, and the minutes they make. -/
inductive SpanText : List Char → Nat → Prop where
  | plain {hours minutes : List Char} {h m : Nat} (hour : Numeral 2 hours h)
      (minute : Numeral 2 minutes m) :
      SpanText (hours ++ minutes) (60 * h + m)
  | colon {hours minutes : List Char} {h m : Nat} (hour : Numeral 2 hours h)
      (minute : Numeral 2 minutes m) :
      SpanText (hours ++ ':' :: minutes) (60 * h + m)

/-- An offset from universal time in minutes, none being an offset of zero. -/
inductive ZoneText : List Char → Int → Prop where
  | missing : ZoneText [] 0
  | universal {letter : Char} (isLetter : letter = 'Z' ∨ letter = 'z') : ZoneText [letter] 0
  | east {rest : List Char} {total : Nat} (span : SpanText rest total) :
      ZoneText ('+' :: rest) total
  | west {rest : List Char} {total : Nat} (span : SpanText rest total) :
      ZoneText ('-' :: rest) (-total)

/-- The seconds of a time of day in microseconds, in which a fraction is cut off. -/
inductive SecondText : List Char → Nat → Prop where
  | missing : SecondText [] 0
  | whole {seconds : List Char} {s : Nat} (second : Numeral 2 seconds s) :
      SecondText (':' :: seconds) (s * 1000000)
  | fraction {seconds digits : List Char} {s width value : Nat} (second : Numeral 2 seconds s)
      (part : Numeral width digits value) (digit : 0 < width) :
      SecondText (':' :: (seconds ++ '.' :: digits))
        (s * 1000000 + value * 1000000 / 10 ^ width)

/-- A time of day, in microseconds from midnight. -/
inductive ClockText : List Char → Nat → Prop where
  | clock {hours minutes seconds : List Char} {h m microseconds : Nat} (hour : Numeral 2 hours h)
      (minute : Numeral 2 minutes m) (second : SecondText seconds microseconds) :
      ClockText (hours ++ ':' :: (minutes ++ seconds)) ((60 * h + m) * 60000000 + microseconds)

/-- The parts of a timestamp: the days from the first of January of the year 1, the microseconds
from midnight if a time of day is written, and the minutes that this is ahead of universal time. -/
structure Reading where
  days : Nat
  time : Option Nat
  offset : Int

namespace Reading

/-- The instant of a reading in microseconds of universal time, the first day having number 1: the
time of day, or midnight if none is written, less the offset. -/
def instant (reading : Reading) : Int :=
  (reading.days + 1) * 86400000000 + reading.time.getD 0 - reading.offset * 60000000

/-- Whether a text has an offset to the east but no time of day. -/
def IsEasternDate (reading : Reading) : Prop := reading.time = none ∧ 0 < reading.offset

instance (reading : Reading) : Decidable reading.IsEasternDate :=
  inferInstanceAs (Decidable (_ ∧ _))

/-- How much later than its instant a reading is taken for. An offset to the east of a date is
added as the time of day, and not taken off. -/
def delay (reading : Reading) : Int :=
  if reading.IsEasternDate then 2 * reading.offset * 60000000 else 0

end Reading

/-- The texts that say a reading. -/
inductive Spells : List Char → Reading → Prop where
  | date {date zone : List Char} {days : Nat} {offset : Int} (day : DateText date days)
      (shift : ZoneText zone offset) : Spells (date ++ zone) ⟨days, none, offset⟩
  | clock {date clock zone : List Char} {days time : Nat} {offset : Int} {separator : Char}
      (day : DateText date days) (apart : separator = 'T' ∨ separator = 't' ∨ separator = ' ')
      (ofDay : ClockText clock time) (shift : ZoneText zone offset) :
      Spells (date ++ separator :: (clock ++ zone)) ⟨days, some time, offset⟩

/-! ## Digits -/

variable {text rest hours minutes seconds digits zone : List Char} {offset read : Int}
  {width value h m s total microseconds : Nat} {time : TimeOfDay}

theorem map_plainChar (plain : ∀ c ∈ text, Number.isPlainDigit c = true) :
    text.map Number.plainChar = text := by
  refine (List.map_congr_left fun c held => ?_).trans (List.map_id text)
  have range := (Number.isPlainDigit_iff c).mp (plain c held)
  rw [Number.plainChar, if_pos (by omega)]
  rfl

theorem digits?_eq_some_iff :
    digits? text = some value ↔
      (∀ c ∈ text, Number.isPlainDigit c = true) ∧ Number.digitsValue text = value := by
  rw [digits?, Option.ite_none_right_eq_some, Option.some.injEq, List.all_eq_true]

theorem Numeral.of_digits? (isRead : digits? text = some value) :
    Numeral text.length text value := by
  obtain ⟨plain, denotes⟩ := digits?_eq_some_iff.mp isRead
  refine ⟨rfl, fun c held => Text.isDigit_of_isPlainDigit (plain c held), ?_⟩
  rw [map_plainChar plain, denotes]

/-- What is read is what the digits write. -/
theorem Numeral.eq_of_digits? {number : Nat} (numeral : Numeral width text value)
    (isRead : digits? text = some number) : number = value :=
  (Numeral.of_digits? isRead).denotes.symm.trans numeral.denotes

theorem Numeral.eq_pair (numeral : Numeral 2 text value) : ∃ a b, text = [a, b] :=
  List.length_eq_two.mp numeral.length

/-- The first six digits of a fraction are its microseconds. -/
theorem Numeral.eq_of_fraction? {number : Nat} (numeral : Numeral width text value)
    (isRead : fraction? text = some number) : number = value * 1000000 / 10 ^ width := by
  obtain ⟨first, isFirst, isRead⟩ := Option.bind_eq_some_iff.mp isRead
  obtain ⟨_, isRead⟩ := Option.ite_none_left_eq_some.mp isRead
  obtain rfl := Option.some.inj isRead
  obtain ⟨plain, rfl⟩ := digits?_eq_some_iff.mp isFirst
  have cut := numeral.denotes
  rw [← List.take_append_drop 6 text, List.map_append, map_plainChar plain,
    Number.digitsValue_append, List.length_map, List.length_drop, numeral.length] at cut
  have small : Number.digitsValue ((text.drop 6).map Number.plainChar) < 10 ^ (width - 6) := by
    have basic : ∀ c ∈ (text.drop 6).map Number.plainChar, Number.isPlainDigit c = true := by
      intro c held
      obtain ⟨origin, among, rfl⟩ := List.mem_map.mp held
      exact Number.isPlainDigit_plainChar (numeral.digits origin (List.mem_of_mem_drop among))
    have below := Number.digitsValue_lt basic
    rwa [List.length_map, List.length_drop, numeral.length] at below
  rw [List.length_take, numeral.length, Number.tenTo, Nat.pow_eq]
  rcases Nat.lt_or_ge 6 width with long | short
  · have power : 10 ^ width = 10 ^ (width - 6) * 1000000 := by
      rw [show 1000000 = 10 ^ 6 from rfl, ← Nat.pow_add, Nat.sub_add_cancel (Nat.le_of_lt long)]
    rw [Nat.min_eq_left (Nat.le_of_lt long), power, ← cut,
      Nat.mul_div_mul_right _ _ (by decide), Nat.mul_add_div (Nat.pow_pos (by decide)),
      Nat.div_eq_of_lt small, Nat.sub_self, Nat.pow_zero, Nat.mul_one, Nat.add_zero]
  · rw [Nat.sub_eq_zero_of_le short, Nat.pow_zero] at cut small
    have power : 1000000 = 10 ^ (6 - width) * 10 ^ width := by
      rw [← Nat.pow_add, Nat.sub_add_cancel short]
    rw [Nat.min_eq_right short, power, ← Nat.mul_assoc,
      Nat.mul_div_cancel _ (Nat.pow_pos (by decide)), ← cut, Nat.lt_one_iff.mp small, Nat.one_mul,
      Nat.add_zero]

/-! ## Offsets -/

/-- Hours and minutes of two digits each are read as such, with or without a colon. -/
theorem offset?_eq_some_iff {sign a b c d : Char}
    (pairs : rest = [a, b, c, d] ∨ rest = [a, b, ':', c, d]) :
    offset? sign rest = some read ↔
      ∃ h m, digits? [a, b] = some h ∧ digits? [c, d] = some m ∧ 60 * h + m < 1440 ∧
        (if sign = '-' then -((60 * h + m : Nat) : Int) else (60 * h + m : Nat)) = read := by
  have reading : offset? sign rest = (digits? [a, b]).bind fun h => (digits? [c, d]).bind fun m =>
      if 1440 ≤ 60 * h + m then none
      else some (if sign = '-' then -((60 * h + m : Nat) : Int) else (60 * h + m : Nat)) := by
    rcases pairs with rfl | rfl <;> rfl
  simp only [reading, Option.bind_eq_some_iff, Option.ite_none_left_eq_some, Option.some.injEq,
    Nat.not_le, exists_and_left]

theorem exists_pairs_of_offset? {sign : Char} (isRead : offset? sign rest = some read) :
    ∃ a b c d, rest = [a, b, c, d] ∨ rest = [a, b, ':', c, d] := by
  rw [offset?.eq_def] at isRead
  dsimp only at isRead
  split at isRead
  · exact ⟨_, _, _, _, .inl rfl⟩
  · exact ⟨_, _, _, _, .inr rfl⟩
  · cases isRead

/-- The minutes of an offset and the offset itself. -/
theorem SpanText.of_offset? {sign : Char} (isRead : offset? sign rest = some read) :
    ∃ total, SpanText rest total ∧ read = if sign = '-' then -(total : Int) else total := by
  obtain ⟨a, b, c, d, pairs⟩ := exists_pairs_of_offset? isRead
  obtain ⟨h, m, isHours, isMinutes, _, rfl⟩ := (offset?_eq_some_iff pairs).mp isRead
  have hour := Numeral.of_digits? isHours
  have minute := Numeral.of_digits? isMinutes
  refine ⟨60 * h + m, ?_, rfl⟩
  rcases pairs with rfl | rfl
  · exact .plain hour minute
  · exact .colon hour minute

theorem SpanText.exists_pairs (span : SpanText rest total) :
    ∃ a b c d h m, (rest = [a, b, c, d] ∨ rest = [a, b, ':', c, d]) ∧ Numeral 2 [a, b] h ∧
      Numeral 2 [c, d] m ∧ total = 60 * h + m := by
  cases span with
  | plain hour minute =>
      obtain ⟨a, b, rfl⟩ := hour.eq_pair
      obtain ⟨c, d, rfl⟩ := minute.eq_pair
      exact ⟨a, b, c, d, _, _, .inl rfl, hour, minute, rfl⟩
  | colon hour minute =>
      obtain ⟨a, b, rfl⟩ := hour.eq_pair
      obtain ⟨c, d, rfl⟩ := minute.eq_pair
      exact ⟨a, b, c, d, _, _, .inr rfl, hour, minute, rfl⟩

theorem SpanText.eq_of_offset? {sign : Char} (span : SpanText rest total)
    (isRead : offset? sign rest = some read) :
    read = if sign = '-' then -(total : Int) else total := by
  obtain ⟨a, b, c, d, h, m, pairs, hour, minute, rfl⟩ := span.exists_pairs
  obtain ⟨h', m', isHours, isMinutes, _, rfl⟩ := (offset?_eq_some_iff pairs).mp isRead
  rw [hour.eq_of_digits? isHours, minute.eq_of_digits? isMinutes]

theorem zone?_sign {sign : Char} (isSign : sign = '+' ∨ sign = '-') (rest : List Char) :
    zone? (sign :: rest) = offset? sign rest := by
  rcases isSign with rfl | rfl <;> rfl

theorem ZoneText.of_zone? (isRead : zone? rest = some read) : ZoneText rest read := by
  rw [zone?.eq_def] at isRead
  split at isRead
  · cases isRead
    exact .missing
  · cases isRead
    exact .universal (.inl rfl)
  · cases isRead
    exact .universal (.inr rfl)
  · obtain ⟨isSign, isRead⟩ := Option.ite_none_right_eq_some.mp isRead
    obtain ⟨total, span, rfl⟩ := SpanText.of_offset? isRead
    rcases isSign with rfl | rfl
    · exact .east span
    · exact .west span

theorem ZoneText.eq_of_zone? (shift : ZoneText rest offset) (isRead : zone? rest = some read) :
    read = offset := by
  cases shift with
  | missing => exact (Option.some.inj isRead).symm
  | universal isLetter =>
      rcases isLetter with rfl | rfl <;> exact (Option.some.inj isRead).symm
  | east span => exact span.eq_of_offset? ((zone?_sign (.inl rfl) _).symm.trans isRead)
  | west span => exact span.eq_of_offset? ((zone?_sign (.inr rfl) _).symm.trans isRead)

/-- An offset begins with no digit, colon or point. -/
theorem ZoneText.head {c : Char} (shift : ZoneText (c :: rest) offset) :
    c ≠ ':' ∧ c ≠ '.' ∧ Text.isDigit c = false := by
  cases shift with
  | universal isLetter => rcases isLetter with rfl | rfl <;> decide
  | east | west => decide

/-! ## Times of day -/

theorem ClockText.of_parts (hour : Numeral 2 hours h) (minute : Numeral 2 minutes m)
    (second : SecondText seconds (s * 1000000 + microseconds)) :
    ClockText (hours ++ ':' :: (minutes ++ seconds))
      (TimeOfDay.microseconds ⟨h, m, s, microseconds⟩) := by
  have sum : TimeOfDay.microseconds ⟨h, m, s, microseconds⟩ =
      (60 * h + m) * 60000000 + (s * 1000000 + microseconds) := by
    rw [TimeOfDay.microseconds]
    dsimp only
    omega
  rw [sum]
  exact .clock hour minute second

theorem Numeral.of_fraction? (isRead : fraction? (text.takeWhile Text.isDigit) = some value) :
    ∃ width number, 0 < width ∧ Numeral width (text.takeWhile Text.isDigit) number ∧
      value = number * 1000000 / 10 ^ width := by
  obtain ⟨_, _, given⟩ := Option.bind_eq_some_iff.mp isRead
  obtain ⟨digit, _⟩ := Option.ite_none_left_eq_some.mp given
  have numeral : Numeral (text.takeWhile Text.isDigit).length (text.takeWhile Text.isDigit) _ :=
    ⟨rfl, fun c held => List.mem_takeWhile_imp held, rfl⟩
  refine ⟨_, _, ?_, numeral, numeral.eq_of_fraction? isRead⟩
  rw [List.length_pos_iff]
  simpa using digit

theorem ClockText.of_clock? (isRead : clock? text = some (time, offset)) :
    ∃ clock zone, text = clock ++ zone ∧ ClockText clock time.microseconds ∧
      ZoneText zone offset := by
  rw [clock?.eq_def] at isRead
  split at isRead
  · next h₁ h₂ m₁ m₂ rest =>
    obtain ⟨h, isHours, isRead⟩ := Option.bind_eq_some_iff.mp isRead
    obtain ⟨m, isMinutes, isRead⟩ := Option.bind_eq_some_iff.mp isRead
    have hour := Numeral.of_digits? isHours
    have minute := Numeral.of_digits? isMinutes
    split at isRead
    · next s₁ s₂ rest =>
      obtain ⟨s, isSeconds, isRead⟩ := Option.bind_eq_some_iff.mp isRead
      obtain ⟨part, isFraction, isRead⟩ := Option.bind_eq_some_iff.mp isRead
      obtain ⟨read, isZone, isRead⟩ := Option.bind_eq_some_iff.mp isRead
      cases isRead
      obtain ⟨width, number, digit, numeral, rfl⟩ := Numeral.of_fraction? isFraction
      refine ⟨_, _, ?_, .of_parts hour minute
        (.fraction (Numeral.of_digits? isSeconds) numeral digit), .of_zone? isZone⟩
      simp only [List.cons_append, List.nil_append, List.takeWhile_append_dropWhile]
    · next s₁ s₂ rest _ _ _ =>
      obtain ⟨s, isSeconds, isRead⟩ := Option.bind_eq_some_iff.mp isRead
      obtain ⟨read, isZone, isRead⟩ := Option.bind_eq_some_iff.mp isRead
      cases isRead
      have second : SecondText (':' :: [s₁, s₂]) (s * 1000000 + 0) := by
        rw [Nat.add_zero]
        exact .whole (Numeral.of_digits? isSeconds)
      exact ⟨_, _, rfl, .of_parts hour minute second, .of_zone? isZone⟩
    · obtain ⟨read, isZone, isRead⟩ := Option.bind_eq_some_iff.mp isRead
      cases isRead
      exact ⟨_, _, rfl, .of_parts hour minute .missing, .of_zone? isZone⟩
  · cases isRead

section

variable {h₁ h₂ m₁ m₂ s₁ s₂ : Char}

theorem clock?_minutes (shift : ZoneText rest offset) :
    clock? (h₁ :: h₂ :: ':' :: m₁ :: m₂ :: rest) = (do
      let h ← digits? [h₁, h₂]
      let m ← digits? [m₁, m₂]
      let offset ← zone? rest
      some (⟨h, m, 0, 0⟩, offset)) := by
  rw [clock?]
  split
  · exact absurd rfl shift.head.1
  · exact absurd rfl shift.head.1
  · rfl

theorem clock?_seconds (shift : ZoneText rest offset) :
    clock? (h₁ :: h₂ :: ':' :: m₁ :: m₂ :: ':' :: s₁ :: s₂ :: rest) = (do
      let h ← digits? [h₁, h₂]
      let m ← digits? [m₁, m₂]
      let s ← digits? [s₁, s₂]
      let offset ← zone? rest
      some (⟨h, m, s, 0⟩, offset)) := by
  rw [clock?]
  split
  · next same =>
    cases same
    exact absurd rfl shift.head.2.1
  · next same =>
    cases same
    rfl
  · next none => exact absurd rfl (none _ _ _)

theorem clock?_fraction (numeral : Numeral width digits value) (shift : ZoneText rest offset) :
    clock? (h₁ :: h₂ :: ':' :: m₁ :: m₂ :: ':' :: s₁ :: s₂ :: '.' :: (digits ++ rest)) = (do
      let h ← digits? [h₁, h₂]
      let m ← digits? [m₁, m₂]
      let s ← digits? [s₁, s₂]
      let microsecond ← fraction? digits
      let offset ← zone? rest
      some (⟨h, m, s, microsecond⟩, offset)) := by
  have ends : rest.takeWhile Text.isDigit = [] ∧ rest.dropWhile Text.isDigit = rest := by
    cases rest with
    | nil => exact ⟨rfl, rfl⟩
    | cons c behind =>
        rw [List.takeWhile_cons, List.dropWhile_cons, shift.head.2.2]
        exact ⟨rfl, rfl⟩
  have taken : (digits ++ rest).takeWhile Text.isDigit = digits := by
    rw [List.takeWhile_append_of_pos numeral.digits, ends.1, List.append_nil]
  have dropped : (digits ++ rest).dropWhile Text.isDigit = rest := by
    rw [List.dropWhile_append_of_pos numeral.digits, ends.2]
  simp only [clock?, taken, dropped]
  rfl

end

theorem ClockText.eq_of_clock? (clock : ClockText text total) (shift : ZoneText zone offset)
    (isRead : clock? (text ++ zone) = some (time, read)) :
    time.microseconds = total ∧ read = offset := by
  obtain ⟨hour, minute, second⟩ := clock
  obtain ⟨h₁, h₂, rfl⟩ := hour.eq_pair
  obtain ⟨m₁, m₂, rfl⟩ := minute.eq_pair
  cases second with
  | missing =>
      obtain ⟨h, isHours, isRead⟩ :=
        Option.bind_eq_some_iff.mp ((clock?_minutes shift).symm.trans isRead)
      obtain ⟨m, isMinutes, isRead⟩ := Option.bind_eq_some_iff.mp isRead
      obtain ⟨o, isZone, isRead⟩ := Option.bind_eq_some_iff.mp isRead
      cases isRead
      rw [hour.eq_of_digits? isHours, minute.eq_of_digits? isMinutes, TimeOfDay.microseconds]
      exact ⟨by dsimp only; omega, shift.eq_of_zone? isZone⟩
  | whole seconds =>
      obtain ⟨s₁, s₂, rfl⟩ := seconds.eq_pair
      obtain ⟨h, isHours, isRead⟩ :=
        Option.bind_eq_some_iff.mp ((clock?_seconds shift).symm.trans isRead)
      obtain ⟨m, isMinutes, isRead⟩ := Option.bind_eq_some_iff.mp isRead
      obtain ⟨s, isSeconds, isRead⟩ := Option.bind_eq_some_iff.mp isRead
      obtain ⟨o, isZone, isRead⟩ := Option.bind_eq_some_iff.mp isRead
      cases isRead
      rw [hour.eq_of_digits? isHours, minute.eq_of_digits? isMinutes,
        seconds.eq_of_digits? isSeconds, TimeOfDay.microseconds]
      exact ⟨by dsimp only; omega, shift.eq_of_zone? isZone⟩
  | fraction seconds part digit =>
      obtain ⟨s₁, s₂, rfl⟩ := seconds.eq_pair
      obtain ⟨h, isHours, isRead⟩ := Option.bind_eq_some_iff.mp <|
        (clock?_fraction part shift).symm.trans (by simpa using isRead)
      obtain ⟨m, isMinutes, isRead⟩ := Option.bind_eq_some_iff.mp isRead
      obtain ⟨s, isSeconds, isRead⟩ := Option.bind_eq_some_iff.mp isRead
      obtain ⟨f, isFraction, isRead⟩ := Option.bind_eq_some_iff.mp isRead
      obtain ⟨o, isZone, isRead⟩ := Option.bind_eq_some_iff.mp isRead
      cases isRead
      rw [hour.eq_of_digits? isHours, minute.eq_of_digits? isMinutes,
        seconds.eq_of_digits? isSeconds, part.eq_of_fraction? isFraction, TimeOfDay.microseconds]
      exact ⟨by dsimp only; omega, shift.eq_of_zone? isZone⟩

/-! ## What follows the date -/

theorem exists_text_of_rest? (isRead : rest? rest = some (time, offset)) :
    (∃ shift, ZoneText rest shift) ∨
      ∃ separator clock zone total shift, rest = separator :: (clock ++ zone) ∧
        (separator = 'T' ∨ separator = 't' ∨ separator = ' ') ∧ ClockText clock total ∧
        ZoneText zone shift := by
  rw [rest?.eq_def] at isRead
  split at isRead
  · exact .inl ⟨_, .missing⟩
  · exact .inl ⟨_, .universal (.inl rfl)⟩
  · exact .inl ⟨_, .universal (.inr rfl)⟩
  · next c rest _ _ =>
    split at isRead
    · next apart =>
      obtain ⟨clock, zone, rfl, ofDay, shift⟩ := ClockText.of_clock? isRead
      exact .inr ⟨c, clock, zone, _, _, rfl, apart, ofDay, shift⟩
    · obtain ⟨isSign, isRead⟩ := Option.ite_none_right_eq_some.mp isRead
      obtain ⟨read, isOffset, _⟩ := Option.bind_eq_some_iff.mp isRead
      obtain ⟨total, span, _⟩ := SpanText.of_offset? isOffset
      rcases isSign with rfl | rfl
      · exact .inl ⟨_, .east span⟩
      · exact .inl ⟨_, .west span⟩

/-- A separator after the date makes what follows a time of day. -/
theorem rest?_clock {separator : Char}
    (apart : separator = 'T' ∨ separator = 't' ∨ separator = ' ') (rest : List Char) :
    rest? (separator :: rest) = clock? rest := by
  rcases apart with rfl | rfl | rfl <;> rfl

/-- An offset directly after the date is read as a time of day, to whichever side it is. -/
theorem eq_of_rest?_zone (zone : ZoneText rest offset) (isRead : rest? rest = some (time, read)) :
    (time.microseconds : Int) - read * 60000000 = offset.natAbs * 60000000 := by
  have signed {sign : Char} {behind : List Char} {total : Nat} (isSign : sign = '+' ∨ sign = '-')
      (span : SpanText behind total) (isRead : rest? (sign :: behind) = some (time, read)) :
      (time.microseconds : Int) - read * 60000000 = total * 60000000 := by
    have reading : rest? (sign :: behind) = (offset? '+' behind).bind fun offset =>
        (digits? (behind.reverse.take 2).reverse).bind fun minute =>
          if minute < 60 then some (⟨offset.toNat / 60, offset.toNat % 60, 0, 0⟩, 0) else none := by
      rcases isSign with rfl | rfl <;> rfl
    rw [reading] at isRead
    obtain ⟨shift, isOffset, isRead⟩ := Option.bind_eq_some_iff.mp isRead
    obtain ⟨minute, _, isRead⟩ := Option.bind_eq_some_iff.mp isRead
    obtain ⟨_, isRead⟩ := Option.ite_none_right_eq_some.mp isRead
    obtain rfl : shift = total := span.eq_of_offset? isOffset
    cases isRead
    simp only [TimeOfDay.microseconds, Int.toNat_natCast]
    omega
  cases zone with
  | missing =>
      cases isRead
      rfl
  | universal isLetter =>
      rcases isLetter with rfl | rfl <;>
        (cases isRead; rfl)
  | east span =>
      rw [Int.natAbs_natCast]
      exact signed (.inl rfl) span isRead
  | west span =>
      rw [Int.natAbs_neg, Int.natAbs_natCast]
      exact signed (.inr rfl) span isRead

/-! ## Whole timestamps -/

theorem DateText.length {date : List Char} {days : Nat} (day : DateText date days) :
    date.length = 10 := by
  obtain ⟨years, months, dayOfMonth, _⟩ := day
  simp only [List.length_append, List.length_cons, years.length, months.length, dayOfMonth.length]

/-- A text begins with one date at most. -/
theorem DateText.eq_of_append_eq {date other behind : List Char} {days count : Nat}
    (day : DateText date days) (otherDay : DateText other count)
    (same : date ++ rest = other ++ behind) : days = count ∧ rest = behind := by
  obtain ⟨rfl, rfl⟩ := List.append_inj same (day.length.trans otherDay.length.symm)
  refine ⟨?_, rfl⟩
  obtain @⟨year, month, dom, y, m, d, _, years, months, doms, counted⟩ := day
  generalize whole : year ++ '-' :: (month ++ '-' :: dom) = date at otherDay
  obtain ⟨years', months', doms', counted'⟩ := otherDay
  obtain ⟨rfl, behindYear⟩ := List.append_inj whole (years.length.trans years'.length.symm)
  obtain ⟨rfl, behindMonth⟩ := List.append_inj (List.cons.inj behindYear).2
    (months.length.trans months'.length.symm)
  obtain rfl := (List.cons.inj behindMonth).2
  obtain ⟨_, _, rfl⟩ := years
  obtain ⟨_, _, rfl⟩ := months
  obtain ⟨_, _, rfl⟩ := doms
  obtain ⟨_, _, rfl⟩ := years'
  obtain ⟨_, _, rfl⟩ := months'
  obtain ⟨_, _, rfl⟩ := doms'
  have number := Date.ordinal_later days
  rw [counted, ← counted', Date.ordinal_later] at number
  omega

/-- What is read of a text: its date, and what follows it. -/
theorem exists_date_of_parse? {s : String} {t : Timestamp} (isRead : parse? s = some t) :
    ∃ date rest days, s.toList = date ++ rest ∧ DateText date days ∧
      t.date.ordinal = days + 1 ∧ rest? rest = some (t.time, t.offset) := by
  rw [parse?.eq_def] at isRead
  split at isRead
  · next y₁ y₂ y₃ y₄ m₁ m₂ d₁ d₂ rest isText =>
    obtain ⟨y, isYear, isRead⟩ := Option.bind_eq_some_iff.mp isRead
    obtain ⟨m, isMonth, isRead⟩ := Option.bind_eq_some_iff.mp isRead
    obtain ⟨d, isDay, isRead⟩ := Option.bind_eq_some_iff.mp isRead
    obtain ⟨⟨time, offset⟩, isRest, isRead⟩ := Option.bind_eq_some_iff.mp isRead
    obtain ⟨valid, isRead⟩ := Option.ite_none_right_eq_some.mp isRead
    cases isRead
    obtain ⟨days, counted⟩ :=
      (Date.isDay_of_isValid (Bool.and_eq_true_iff.mp valid).1).exists_later
    refine ⟨_, rest, days, isText, .calendar (Numeral.of_digits? isYear)
      (Numeral.of_digits? isMonth) (Numeral.of_digits? isDay) counted, ?_, isRest⟩
    rw [← counted, Date.ordinal_later]
  · cases isRead

/-- A text that is read says something. -/
theorem exists_spells_of_parse? {s : String} {t : Timestamp} (isRead : parse? s = some t) :
    ∃ reading, Spells s.toList reading := by
  obtain ⟨date, rest, days, isText, day, _, isRest⟩ := exists_date_of_parse? isRead
  rw [isText]
  rcases exists_text_of_rest? isRest with
    ⟨offset, shift⟩ | ⟨separator, clock, zone, total, offset, rfl, apart, ofDay, shift⟩
  · exact ⟨_, .date day shift⟩
  · exact ⟨_, .clock day apart ofDay shift⟩

/-- A text is read as the instant that it denotes, but for the delay of an eastern date. -/
theorem Spells.instant_eq {s : String} {t : Timestamp} {reading : Reading}
    (spells : Spells s.toList reading) (isRead : parse? s = some t) :
    t.instant = reading.instant + reading.delay := by
  obtain ⟨date, rest, days, isText, day, number, isRest⟩ := exists_date_of_parse? isRead
  rw [isText] at spells
  rw [instant, number]
  generalize whole : date ++ rest = text at spells
  cases spells with
  | @date _ _ _ offset otherDay shift =>
      obtain ⟨rfl, rfl⟩ := day.eq_of_append_eq otherDay whole
      have clock := eq_of_rest?_zone shift isRest
      simp only [Reading.instant, Reading.delay, Reading.IsEasternDate, true_and,
        Option.getD_none]
      split <;> omega
  | @clock _ _ _ _ total offset _ otherDay apart ofDay shift =>
      obtain ⟨rfl, rfl⟩ := day.eq_of_append_eq otherDay whole
      rw [rest?_clock apart] at isRest
      obtain ⟨time, same⟩ := ofDay.eq_of_clock? shift isRest
      simp only [Reading.instant, Reading.delay, Reading.IsEasternDate, reduceCtorEq, false_and,
        if_false, Option.getD_some, time, same]
      omega

theorem Reading.delay_eq_zero_iff (reading : Reading) :
    reading.delay = 0 ↔ ¬ reading.IsEasternDate := by
  rw [delay]
  split
  · next eastern =>
    have ahead := eastern.2
    simp only [eastern, not_true_eq_false, iff_false]
    omega
  · next other => exact iff_of_true rfl other

/-- Every text that is read says something, and is read as the instant of what it says exactly if
this is not a date with an offset to the east.  Two texts are ordered by their instants, to which
such a date adds twice its offset. -/
theorem instants_of_parse? {s s' : String} {t t' : Timestamp} (isRead : parse? s = some t)
    (isRead' : parse? s' = some t') :
    (∃ reading, Spells s.toList reading) ∧
      (∀ reading, Spells s.toList reading →
        (t.instant = reading.instant ↔ ¬ reading.IsEasternDate)) ∧
      ∀ reading reading' caseExact, Spells s.toList reading → Spells s'.toList reading' →
        Json.compareTexts caseExact s s' =
          compare (reading.instant + reading.delay) (reading'.instant + reading'.delay) := by
  refine ⟨exists_spells_of_parse? isRead, fun reading spells => ?_, ?_⟩
  · rw [spells.instant_eq isRead, ← reading.delay_eq_zero_iff]
    omega
  · intro reading reading' caseExact spells spells'
    rw [Json.compareTexts, isRead, isRead', ← spells.instant_eq isRead,
      ← spells'.instant_eq isRead']

/-- The sixth digit of a fraction is the last that counts, and offsets cross the turn of a leap
year. -/
theorem instants_of_parse?_new_year :
    let s := "2024-12-31t23:30:59.9999999-01:45"
    let s' := "2025-01-01T01:16Z"
    Json.compareTexts true s s' = .lt ∧ ∃ t reading, parse? s = some t ∧
      (parse? s').isSome = true ∧ Spells s.toList reading ∧ ¬ reading.IsEasternDate ∧
      t.instant = reading.instant := by
  intro s s'
  have isRead : parse? s = some ⟨⟨2024, 12, 31⟩, ⟨23, 30, 59, 999999⟩, -105⟩ := by decide +kernel
  have isRead' : parse? s' = some ⟨⟨2025, 1, 1⟩, ⟨1, 16, 0, 0⟩, 0⟩ := by decide +kernel
  have isText : s.toList =
      ("2024".toList ++ '-' :: ("12".toList ++ '-' :: "31".toList)) ++ 't' ::
        (("23".toList ++ ':' :: ("30".toList ++ ':' :: ("59".toList ++ '.' :: "9999999".toList))) ++
          '-' :: ("01".toList ++ ':' :: "45".toList)) := by decide +kernel
  obtain ⟨days, counted⟩ := Date.IsDay.exists_later
    (Date.isDay_of_isValid (show Date.isValid ⟨2024, 12, 31⟩ = true from rfl))
  have spells : Spells s.toList ⟨days, some 84659999999, -105⟩ := by
    rw [isText]
    exact .clock
      (.calendar (.of_all rfl rfl rfl) (.of_all rfl rfl rfl) (.of_all rfl rfl rfl) counted)
      (.inr (.inl rfl)) (.clock (.of_all rfl rfl rfl) (.of_all rfl rfl rfl)
        (.fraction (.of_all rfl rfl rfl) (.of_all rfl rfl rfl) (by decide)))
      (.west (.colon (.of_all rfl rfl rfl) (.of_all rfl rfl rfl)))
  have timed : ¬ Reading.IsEasternDate ⟨days, some 84659999999, -105⟩ := nofun
  exact ⟨by decide +kernel, _, _, isRead, by rw [isRead']; rfl, spells, timed,
    ((instants_of_parse? isRead isRead').2.1 _ spells).mpr timed⟩

/-- A date with an offset to the east is read as five hours after midnight, and not before, and so
comes after the next hour of universal time. -/
theorem not_instant_of_eastern_date :
    let s := "2011-05-13+05:00"
    let s' := "2011-05-13T01:00Z"
    ∃ t reading reading', parse? s = some t ∧ Spells s.toList reading ∧
      Spells s'.toList reading' ∧ t.instant ≠ reading.instant ∧
      reading.instant < reading'.instant ∧ Json.compareTexts true s s' = .gt := by
  intro s s'
  have isRead : parse? s = some ⟨⟨2011, 5, 13⟩, ⟨5, 0, 0, 0⟩, 0⟩ := by decide +kernel
  obtain ⟨days, counted⟩ := Date.IsDay.exists_later
    (Date.isDay_of_isValid (show Date.isValid ⟨2011, 5, 13⟩ = true from rfl))
  have isText : s.toList = ("2011".toList ++ '-' :: ("05".toList ++ '-' :: "13".toList)) ++
      '+' :: ("05".toList ++ ':' :: "00".toList) := by decide +kernel
  have isText' : s'.toList = ("2011".toList ++ '-' :: ("05".toList ++ '-' :: "13".toList)) ++
      'T' :: (("01".toList ++ ':' :: ("00".toList ++ [])) ++ ['Z']) := by decide +kernel
  have day : DateText ("2011".toList ++ '-' :: ("05".toList ++ '-' :: "13".toList)) days :=
    .calendar (.of_all rfl rfl rfl) (.of_all rfl rfl rfl) (.of_all rfl rfl rfl) counted
  have spells : Spells s.toList ⟨days, none, 300⟩ := by
    rw [isText]
    exact .date day (.east (.colon (.of_all rfl rfl rfl) (.of_all rfl rfl rfl)))
  have spells' : Spells s'.toList ⟨days, some 3600000000, 0⟩ := by
    rw [isText']
    exact .clock day (.inl rfl)
      (.clock (.of_all rfl rfl rfl) (.of_all rfl rfl rfl) .missing) (.universal (.inl rfl))
  refine ⟨_, _, _, isRead, spells, spells', ?_, ?_, by decide +kernel⟩
  · have number := Date.ordinal_later days
    rw [counted] at number
    simp only [instant, Reading.instant, TimeOfDay.microseconds, number, Option.getD_none]
    omega
  · simp only [Reading.instant, Option.getD_none, Option.getD_some]
    omega

end Scim.Timestamp
