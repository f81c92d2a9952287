import Scim.Number.Numeral

/-!
# Timestamps

A timestamp is a date with an optional time of day and an optional offset from universal time, on
the proleptic Gregorian calendar of the years 1 to 9999. Without an offset it is in universal time.
A fraction of a second is cut to microseconds. Timestamps are ordered by the instants they denote.
-/

namespace Scim

/-- A day of the calendar. -/
structure Date where
  year : Nat
  month : Nat
  day : Nat
  deriving DecidableEq

/-- A time of day. -/
structure TimeOfDay where
  hour : Nat
  minute : Nat
  second : Nat
  microsecond : Nat
  deriving DecidableEq

/-- A date and time at an offset from universal time, in minutes. -/
structure Timestamp where
  date : Date
  time : TimeOfDay
  offset : Int
  deriving DecidableEq

namespace Date

/-- Whether a year has a leap day. -/
def isLeap (year : Nat) : Bool := year % 4 == 0 && (year % 100 != 0 || year % 400 == 0)

/-- The number of days of a month. -/
def daysInMonth (year month : Nat) : Nat :=
  if month = 2 then (if isLeap year then 29 else 28)
  else if month ∈ [4, 6, 9, 11] then 30
  else 31

/-- Whether the calendar has the day. -/
def isValid (date : Date) : Bool :=
  1 ≤ date.year && date.year ≤ 9999 && 1 ≤ date.month && date.month ≤ 12 &&
    1 ≤ date.day && date.day ≤ daysInMonth date.year date.month

/-- The number of days before the first of a month in its year. -/
def daysBeforeMonth (year month : Nat) : Nat :=
  (List.range (month - 1)).foldl (fun days m => days + daysInMonth year (m + 1)) 0

/-- The number of a day, the first day of the year 1 having number 1. -/
def ordinal (date : Date) : Nat :=
  let y := date.year - 1
  365 * y + y / 4 - y / 100 + y / 400 + daysBeforeMonth date.year date.month + date.day

/-- The month and day of the day with an offset from the first of the year, given the months from
one on. -/
def monthAndDay (year month : Nat) : Nat → Nat → Nat × Nat
  | 0, offset => (month, offset + 1)
  | later + 1, offset =>
    let days := daysInMonth year month
    if offset < days then (month, offset + 1)
    else monthAndDay year (month + 1) later (offset - days)

/-- The day with a number. A cycle of 400 years has four centuries, a century 25 spans of four
years, and the last century and the last year of a span may be a day longer than the others. -/
def ofOrdinal (ordinal : Nat) : Date :=
  let days := ordinal - 1
  let inCycle := days % 146097
  let century := min 3 (inCycle / 36524)
  let inCentury := inCycle - century * 36524
  let inSpan := inCentury % 1461
  let yearOfSpan := min 3 (inSpan / 365)
  let year := 400 * (days / 146097) + 100 * century + 4 * (inCentury / 1461) + yearOfSpan + 1
  let (month, day) := monthAndDay year 1 11 (inSpan - yearOfSpan * 365)
  ⟨year, month, day⟩

end Date

namespace TimeOfDay

/-- The start of the day. -/
def midnight : TimeOfDay := ⟨0, 0, 0, 0⟩

/-- Whether a clock shows the time. -/
def isValid (time : TimeOfDay) : Bool :=
  time.hour < 24 && time.minute < 60 && time.second < 60 && time.microsecond < 1000000

/-- The microseconds since midnight. -/
def microseconds (time : TimeOfDay) : Nat :=
  ((time.hour * 60 + time.minute) * 60 + time.second) * 1000000 + time.microsecond

/-- The time of day a number of microseconds after midnight. -/
def ofMicroseconds (n : Nat) : TimeOfDay :=
  let seconds := n / 1000000
  ⟨seconds / 3600, seconds / 60 % 60, seconds % 60, n % 1000000⟩

end TimeOfDay

namespace Timestamp

/-- The instant of a timestamp, in microseconds of universal time. -/
def instant (t : Timestamp) : Int :=
  (t.date.ordinal : Int) * 86400000000 + t.time.microseconds - t.offset * 60000000

/-- The value of digits, none if one of the characters is not a basic Latin digit. -/
def digits? (text : List Char) : Option Nat :=
  if text.all Number.isPlainDigit then some (Number.digitsValue text) else none

/-- An offset from universal time: hours and minutes, with or without a colon, less than a day
either way. -/
def offset? (sign : Char) (text : List Char) : Option Int := do
  let (hours, minutes) ← match text with
    | [a, b, c, d] => some ([a, b], [c, d])
    | [a, b, ':', c, d] => some ([a, b], [c, d])
    | _ => none
  let total := 60 * (← digits? hours) + (← digits? minutes)
  if 1440 ≤ total then none
  else some (if sign = '-' then -(total : Int) else total)

/-- What follows the time of day: nothing, the letter of universal time, or an offset. -/
def zone? : List Char → Option Int
  | [] => some 0
  | ['Z'] | ['z'] => some 0
  | c :: rest => if c = '+' ∨ c = '-' then offset? c rest else none

/-- The microseconds of a fraction of a second: its first six digits. Further digits may be of any
script. -/
def fraction? (digits : List Char) : Option Nat := do
  let value ← digits? (digits.take 6)
  if digits.isEmpty then none else some (value * Number.tenTo (6 - (digits.take 6).length))

/-- The time of day and the offset, after the letter or space that follows the date. -/
def clock? (text : List Char) : Option (TimeOfDay × Int) :=
  match text with
  | h₁ :: h₂ :: ':' :: m₁ :: m₂ :: rest => do
    let hour ← digits? [h₁, h₂]
    let minute ← digits? [m₁, m₂]
    match rest with
    | ':' :: s₁ :: s₂ :: '.' :: rest => do
      let second ← digits? [s₁, s₂]
      let microsecond ← fraction? (rest.takeWhile Text.isDigit)
      return (⟨hour, minute, second, microsecond⟩, ← zone? (rest.dropWhile Text.isDigit))
    | ':' :: s₁ :: s₂ :: rest => do
      let second ← digits? [s₁, s₂]
      return (⟨hour, minute, second, 0⟩, ← zone? rest)
    | rest => return (⟨hour, minute, 0, 0⟩, ← zone? rest)
  | _ => none

/-- What follows the date. A sign directly after the date introduces the hour and minute of the day,
in universal time. -/
def rest? (text : List Char) : Option (TimeOfDay × Int) :=
  match text with
  | [] | ['Z'] | ['z'] => some (.midnight, 0)
  | c :: rest =>
    if c = 'T' ∨ c = 't' ∨ c = ' ' then clock? rest
    else if c = '+' ∨ c = '-' then do
      let total := (← offset? '+' rest).toNat
      let minute ← digits? (rest.reverse.take 2).reverse
      if minute < 60 then some (⟨total / 60, total % 60, 0, 0⟩, 0) else none
    else none

/-- Reads a timestamp. -/
def parse? (text : String) : Option Timestamp :=
  match text.toList with
  | y₁ :: y₂ :: y₃ :: y₄ :: '-' :: m₁ :: m₂ :: '-' :: d₁ :: d₂ :: rest => do
    let date : Date :=
      ⟨← digits? [y₁, y₂, y₃, y₄], ← digits? [m₁, m₂], ← digits? [d₁, d₂]⟩
    let (time, offset) ← rest? rest
    if date.isValid && time.isValid then some ⟨date, time, offset⟩ else none
  | _ => none

/-- Decimal digits of a number, padded with zeros to a width. -/
def padded (width n : Nat) : String :=
  let digits := Nat.toDigits 10 n
  String.ofList (List.replicate (width - digits.length) '0' ++ digits)

/-- A date and time of day with all microseconds, separated by the letter T. -/
def localText (date : Date) (time : TimeOfDay) : String :=
  s!"{padded 4 date.year}-{padded 2 date.month}-{padded 2 date.day}T" ++
    s!"{padded 2 time.hour}:{padded 2 time.minute}:{padded 2 time.second}" ++
    s!".{padded 6 time.microsecond}"

/-- The timestamp of an instant, in universal time. -/
def ofInstant (instant : Nat) : Timestamp :=
  ⟨.ofOrdinal (instant / 86400000000), .ofMicroseconds (instant % 86400000000), 0⟩

/-- A timestamp in universal time with all microseconds, marked as such by the letter Z. -/
def universalText (instant : Nat) : String :=
  let t := ofInstant instant
  localText t.date t.time ++ "Z"

/-- A timestamp with all microseconds and its offset. -/
def text (t : Timestamp) : String :=
  let minutes := t.offset.natAbs
  localText t.date t.time ++ (if t.offset < 0 then "-" else "+") ++
    s!"{padded 2 (minutes / 60)}:{padded 2 (minutes % 60)}"

end Timestamp

end Scim
