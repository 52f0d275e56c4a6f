/-
# Commands

A command has a name, and does something on a machine with the words that
follow its name.

Key definitions: `Command`, `Command.ofGrammar`, `Command.openRecord`.
-/
import Profiler.Command.Arguments
import Profiler.File.Opened
import Profiler.Machine.Basic

namespace Profiler

structure Command where
  name : String
  /-- What the command does, in a few words. -/
  summary : String
  run : List String → Effect Machine Unit

namespace Command

/-- A command whose words follow a grammar. -/
def ofGrammar (name summary : String) (g : Grammar σ) (start : σ) (act : σ → Effect Machine Unit) :
    Command where
  name := name
  summary := summary
  run words := do
    match ← Effect.ofExcept ((g.parse start words).mapError .misuse) with
    | .help => Machine.printLine (g.usage name)
    | .run arguments => act arguments

/-- The recorded file of commands to which none is named. -/
def defaultFile : String := "perf.data"

def openRecord (path : String) : Effect Machine RecordFile := do
  Effect.ofExcept (RecordFile.ofBytes path (← Machine.mapBytes path))

/-- A value that is there, or the failure to read it. -/
def decoded (x : Except Corruption α) : Effect Machine α := Effect.ofExcept (x.mapError .corrupt)

end Command
end Profiler
