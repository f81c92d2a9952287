import Scim.Cli.Run

/-!
# The program

Reads the files that a command line names, runs the command and prints its outcome. Time and ids
come from a supply that starts the same way in every run, so that runs can be compared.
-/

namespace Scim.Main

/-- The supply of a run. -/
def supply : Supply := .startingOn ⟨2024, 1, 1⟩ 1000001

/-- The texts of some files. -/
def readFiles : List String → IO (List (String × String))
  | [] => return []
  | name :: rest => do
    let content ← IO.FS.readFile name
    return (name, content) :: (← readFiles rest)

/-- Prints an outcome; the result is its exit code. -/
def report (outcome : Cli.Outcome) : IO UInt32 := do
  IO.print outcome.stdout
  IO.eprint outcome.stderr
  match outcome.escaped with
  | some (.scim error) => IO.eprintln error.detail
  | some (.fault _) => IO.eprintln "Input of an unexpected shape"
  | none => pure ()
  return outcome.exit.toUInt32

end Scim.Main

open Scim in
/-- Runs the program. -/
def main (arguments : List String) : IO UInt32 := do
  match Cli.Command.ofArguments? arguments with
  | none => Main.report Cli.usage
  | some command =>
    let files ← Main.readFiles command.files
    Main.report (command.run Main.supply fun name => (files.lookup name).getD "")
