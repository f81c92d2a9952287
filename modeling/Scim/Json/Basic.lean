import Scim.Number.Double

/-!
# JSON values

A JSON value keeps integers apart from doubles, and an object keeps its members in the order in
which they were put in. Every name occurs at most once in an object built with `Members.set`.
-/

namespace Scim

open Number (Double Numeric)

/-- A JSON value. -/
inductive Json where
  | null
  | bool (b : Bool)
  | int (n : Int)
  | double (d : Double)
  | str (s : String)
  | arr (items : List Json)
  | obj (members : List (String × Json))
  deriving Inhabited

/-- The members of an object, in order. -/
abbrev Members := List (String × Json)

namespace Members

/-- The names of the members, in order. -/
def names (members : Members) : List String := members.map (·.1)

/-- The value under exactly this name. -/
def get? (members : Members) (name : String) : Option Json := members.lookup name

/-- Puts a value under exactly this name: in the place of the member that has the name, or at the
end. -/
def set (members : Members) (name : String) (value : Json) : Members :=
  match members with
  | [] => [(name, value)]
  | (n, v) :: rest =>
    if n = name then (n, value) :: rest else (n, v) :: set rest name value

/-- Removes the member with exactly this name. -/
def erase (members : Members) (name : String) : Members :=
  members.filter (·.1 ≠ name)

/-- The object that a sequence of assignments builds: a name keeps its first place and takes its
last value. -/
def ofList (pairs : List (String × Json)) : Members :=
  pairs.foldl (fun members (name, value) => set members name value) []

@[simp] theorem get?_nil (name : String) : get? [] name = none := rfl

@[simp] theorem get?_cons (n : String) (v : Json) (rest : Members) (name : String) :
    get? ((n, v) :: rest) name = if name = n then some v else get? rest name := by
  by_cases h : name = n
  · simp [get?, h]
  · simp [get?, List.lookup_cons, h, beq_eq_false_iff_ne.mpr h]

theorem get?_set (members : Members) (name other : String) (value : Json) :
    get? (set members name value) other =
      if other = name then some value else get? members other := by
  induction members with
  | nil => simp [set]
  | cons head rest ih =>
    obtain ⟨n, v⟩ := head
    by_cases hn : n = name <;> by_cases ho : other = n <;> simp_all [set]

end Members

namespace Json

/-- A text, or null if there is none. -/
def ofText? : Option String → Json
  | some s => .str s
  | none => .null

/-- The members of an object. -/
def members? : Json → Option Members
  | .obj members => some members
  | _ => none

/-- The text of a string. -/
def text? : Json → Option String
  | .str s => some s
  | _ => none

/-- Whether the value is an object. -/
def isObj : Json → Bool
  | .obj _ => true
  | _ => false

/-- Whether the value is an array. -/
def isArr : Json → Bool
  | .arr _ => true
  | _ => false

/-- Whether the value is a string. -/
def isStr : Json → Bool
  | .str _ => true
  | _ => false

/-- Whether the value is null. -/
def isNull : Json → Bool
  | .null => true
  | _ => false

/-- A value as a number, a truth value counting as zero or one. -/
def num? : Json → Option Numeric
  | .bool b => some (.int (if b then 1 else 0))
  | .int n => some (.int n)
  | .double d => some (.double d)
  | _ => none

/-- Whether the value is null, false, zero or empty. -/
def isVoid : Json → Bool
  | .null => true
  | .bool b => !b
  | .int n => n == 0
  | .double d => d.isZero
  | .str s => s == ""
  | .arr items => items.isEmpty
  | .obj members => members.isEmpty

/-- The value itself, or a substitute if it is null, false, zero or empty. -/
def orElse (value substitute : Json) : Json :=
  if value.isVoid then substitute else value

end Json

end Scim
