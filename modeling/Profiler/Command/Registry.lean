/-
# The commands that are known

Commands are found by their names. The order of names is that of the help.

Key definitions: `Registry`, `Registry.standard`, `Registry.helpText`.
-/
import Profiler.Command.Dump
import Profiler.Command.Record
import Profiler.Command.Report

namespace Profiler

/-- Commands by their names. -/
abbrev Registry := OrderedMap String Command

namespace Registry

/-- Make a command known; it takes the place of another of its name. -/
def register (r : Registry) (c : Command) : Registry := r.insert c.name c

/-- Forget a command. The answer is whether it was known. -/
def unregister (r : Registry) (name : String) : Bool × Registry := (r.contains name, r.erase name)

def standard : Registry :=
  [Command.record, Command.report, Command.dump].foldl register ⟨[]⟩

/-- The width of the column of names. -/
def nameWidth : Nat := 10

def helpLine (c : Command) : String :=
  let room := List.replicate (nameWidth - c.name.length) ' '
  "  " ++ c.name ++ String.ofList room ++ c.summary ++ "\n"

def helpText (r : Registry) : String := "Commands:\n" ++ String.join (r.values.map helpLine)

/-- Run the command that the first word names. The answer is none if there is
no such command. -/
def run? (r : Registry) (name : String) (words : List String) : Option (Effect Machine Unit) :=
  (r.get? name).map fun c => c.run words

end Registry
end Profiler
