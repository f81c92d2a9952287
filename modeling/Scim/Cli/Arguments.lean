import Scim.Number.Numeral
import Scim.Text.Part

/-!
# Command line arguments

A command line names a command, its files and its options. Options may stand anywhere among the
other arguments, an option given twice takes its last value, and after `--` everything is taken as
it is.
-/

namespace Scim.Cli

/-- Arguments sorted into those that stand by themselves and the values of options. -/
structure Arguments where
  positional : List String := []
  options : List (String × String) := []

namespace Arguments

/-- Splits an argument of the form `--name=value`. -/
def splitValue? (argument : List Char) : Option (String × String) :=
  match argument.dropWhile (· ≠ '=') with
  | _ :: value => some (String.ofList (argument.takeWhile (· ≠ '=')), String.ofList value)
  | [] => none

/-- Whether an argument is an option and not a value: it starts with a hyphen and has more. -/
def isOption (argument : String) : Bool :=
  Text.startsWith "-" argument && argument ≠ "-"

/-- Sorts arguments, given the names of the options, which all take a value. There is no result if
an option is unknown or lacks its value. -/
def sort? (known : List String) : List String → Option Arguments
  | [] => some {}
  | argument :: rest =>
    if argument = "--" then some { positional := rest }
    else if !isOption argument then do
      let sorted ← sort? known rest
      some { sorted with positional := argument :: sorted.positional }
    else
      match splitValue? argument.toList with
      | some (name, value) => do
        if !known.contains name then none
        let sorted ← sort? known rest
        some { sorted with options := (name, value) :: sorted.options }
      | none =>
        match rest with
        | [] => none
        | value :: rest => do
          if !known.contains argument then none
          let sorted ← sort? known rest
          some { sorted with options := (argument, value) :: sorted.options }

/-- The value of an option. -/
def option? (arguments : Arguments) (name : String) : Option String :=
  (arguments.options.reverse.find? (·.1 = name)).map (·.2)

/-- The value of an option that is a whole number. There is no result if it is none. -/
def integer? (arguments : Arguments) (name : String) : Option (Option Int) :=
  match arguments.option? name with
  | none => some none
  | some text => (Number.readInt? text).map some

/-- The value of an option that is one of some words. There is no result if it is not. -/
def choice? (arguments : Arguments) (name : String) (words : List String) :
    Option (Option String) :=
  match arguments.option? name with
  | none => some none
  | some word => if words.contains word then some (some word) else none

end Arguments

/-- The options of a list query. -/
structure QueryOptions where
  filter : Option String
  sortBy : Option String
  sortOrder : Option String
  startIndex : Option Int
  count : Option Int
  attributes : Option String
  excluded : Option String
  resourceType : Option String

/-- What a command line asks for. -/
inductive Command where
  /-- The version of the program. -/
  | version
  /-- The resources in a file that satisfy a filter. -/
  | filter (expression file : String)
  /-- The resource in a file after the changes in another one. -/
  | patch (changes resource : String)
  /-- A list query over the resources in a file. -/
  | query (file : String) (options : QueryOptions)
  /-- A bulk request on the resources in two files. -/
  | bulk (request : String) (users groups : Option String) (baseUrl : String)
    (maxOperations : Int)

namespace Command

/-- The files that a command reads, in order. -/
def files : Command → List String
  | .version => []
  | .filter _ file => [file]
  | .patch changes resource => [changes, resource]
  | .query file _ => [file]
  | .bulk request users groups _ _ => request :: (users.toList ++ groups.toList)

/-- Reads the arguments of a filter. -/
def ofFilter? (arguments : List String) : Option Command := do
  let [expression, file] := (← Arguments.sort? [] arguments).positional | none
  some (.filter expression file)

/-- Reads the arguments of a change. -/
def ofPatch? (arguments : List String) : Option Command := do
  let [changes, resource] := (← Arguments.sort? [] arguments).positional | none
  some (.patch changes resource)

/-- Reads the arguments of a list query. -/
def ofQuery? (arguments : List String) : Option Command := do
  let sorted ← Arguments.sort? ["--filter", "--sort-by", "--sort-order", "--start-index", "--count",
    "--attributes", "--excluded-attributes", "--resource-type"] arguments
  let [file] := sorted.positional | none
  some (.query file {
    filter := sorted.option? "--filter"
    sortBy := sorted.option? "--sort-by"
    sortOrder := ← sorted.choice? "--sort-order" ["ascending", "descending"]
    startIndex := ← sorted.integer? "--start-index"
    count := ← sorted.integer? "--count"
    attributes := sorted.option? "--attributes"
    excluded := sorted.option? "--excluded-attributes"
    resourceType := ← sorted.choice? "--resource-type" ["Group", "User"] })

/-- Reads the arguments of a bulk request. -/
def ofBulk? (arguments : List String) : Option Command := do
  let sorted ← Arguments.sort? ["--users", "--groups", "--base-url", "--max-operations"] arguments
  let [request] := sorted.positional | none
  let maxOperations ← sorted.integer? "--max-operations"
  some (.bulk request (sorted.option? "--users") (sorted.option? "--groups")
    ((sorted.option? "--base-url").getD "") (maxOperations.getD 1000))

/-- Reads a command line. -/
def ofArguments? : List String → Option Command
  | "--version" :: _ => some .version
  | "filter" :: rest => ofFilter? rest
  | "patch" :: rest => ofPatch? rest
  | "query" :: rest => ofQuery? rest
  | "bulk" :: rest => ofBulk? rest
  | _ => none

end Command

end Scim.Cli
