import Scim.Json.Basic

/-!
# Equality of JSON values

Values are equal when they denote the same data: numbers by value, whether written as integers or
doubles, with truth values counting as zero and one; arrays item by item; objects member by member
in any order.
-/

namespace Scim.Json

open Number (Double Numeric)

/-- Whether two numbers are the same one: equal in value, or both NaN. -/
def sameNum (a b : Numeric) : Bool :=
  a.same b || (a == .double .nan && b == .double .nan)

mutual

/-- Whether two values hold the same data; a NaN is the same as a NaN. -/
def same : Json → Json → Bool
  | .null, .null => true
  | .str s, .str t => s == t
  | .arr xs, .arr ys => sameItems xs ys
  | .obj ms, .obj ns => ms.length == ns.length && sameMembers ms ns
  | a, b =>
    match a.num?, b.num? with
    | some m, some n => sameNum m n
    | _, _ => false

/-- Whether two arrays hold the same items in the same order. -/
def sameItems : List Json → List Json → Bool
  | [], [] => true
  | x :: xs, y :: ys => same x y && sameItems xs ys
  | _, _ => false

/-- Whether each member of the first list has the same value in the second. -/
def sameMembers : List (String × Json) → List (String × Json) → Bool
  | [], _ => true
  | (name, value) :: rest, others =>
    (match others.lookup name with
    | some other => same value other
    | none => false) && sameMembers rest others

end

/-- Equality of two values. A NaN by itself equals nothing, not even a NaN. -/
def equal (a b : Json) : Bool :=
  match a with
  | .double .nan => false
  | _ => same a b

/-- Whether an array holds a value. -/
def containedIn (value : Json) (items : List Json) : Bool :=
  items.any (same · value)

end Scim.Json
