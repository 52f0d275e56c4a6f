/-
# Steps that may fail

A step changes a state and may fail. What it changed before it failed stays
changed, as with the descriptors and files of an operating system; so a caller
that goes on after a failure sees what was done.

Key definitions: `Effect`, `Effect.observe`, `Effect.onFailure`,
`Effect.ofExcept`.
-/
import Profiler.Error

namespace Profiler

/-- A step on a state `σ` that may fail. -/
abbrev Effect (σ α : Type) := ExceptT Error (StateM σ) α

namespace Effect

/-- Run a step and give its result, failure or not, as a value. -/
def observe (x : Effect σ α) : Effect σ (Except Error α) := fun s =>
  let (r, s) := x s
  (.ok r, s)

/-- A step that cannot fail. -/
def ofState (x : StateM σ α) : Effect σ α := fun s =>
  let (a, s) := x s
  (.ok a, s)

/-- A result that is there already. -/
def ofExcept (x : Except Error α) : Effect σ α := fun s => (x, s)

/-- Fail for a misuse. -/
def refuse (cause : Misuse) : Effect σ α := throw (.misuse cause)

/-- Do something more when a step has failed, and fail then. -/
def onFailure (x : Effect σ α) (cleanup : Effect σ Unit) : Effect σ α := do
  match ← observe x with
  | .ok a => return a
  | .error e =>
    cleanup
    throw e

end Effect
end Profiler
