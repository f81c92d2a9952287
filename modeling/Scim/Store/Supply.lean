import Scim.Text.Quoted
import Scim.Timestamp

/-!
# Time and fresh ids

Storage takes the time of a write and the ids of new resources from a supply. The clock of a supply
moves on by a fixed tick with every reading, and its ids are numbered, so that a run can be
repeated.
-/

namespace Scim

/-- A source of time and of fresh ids. Instants are counted in microseconds, days as in
`Date.ordinal`. -/
structure Supply where
  /-- The instant that the next reading of the clock shows. -/
  instant : Nat
  /-- How far a reading moves the clock on. -/
  tick : Nat
  /-- The number of the next id. -/
  nextId : Nat := 1

namespace Supply

/-- A supply whose clock starts at midnight of a day. -/
def startingOn (date : Date) (tick : Nat) : Supply :=
  { instant := date.ordinal * 86400000000, tick }

/-- The id with a number: 32 hexadecimal digits in five groups. -/
def idText (n : Nat) : String :=
  let digits := Text.hexPadded 32 n
  let group (start length : Nat) := String.ofList ((digits.drop start).take length)
  "-".intercalate [group 0 8, group 8 4, group 12 4, group 16 4, group 20 12]

/-- The time that the clock shows, and the supply after the reading. -/
def readClock (supply : Supply) : String × Supply :=
  (Timestamp.universalText supply.instant, { supply with instant := supply.instant + supply.tick })

/-- A fresh id, and the supply after it. -/
def takeId (supply : Supply) : String × Supply :=
  (idText supply.nextId, { supply with nextId := supply.nextId + 1 })

end Supply

end Scim
