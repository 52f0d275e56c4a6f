/-
# Scripts for the event loop

A script tries an event loop out on pipes and signals that are only in memory.
It is a list of actions; a callback is a list of scripts of its own, one for
each time it is called. The clock stands still while something is readable,
but for a tick at each poll, and jumps to the next deadline otherwise.

Key definitions: `Script.Action`, `Script.World`, `Script.perform`,
`Script.play`.
-/
import Profiler.EventLoop.Basic

namespace Profiler
namespace Script

/-- Something to do with the loop, the pipes or the signals. -/
inductive Action where
  /-- Wait for a pipe; the lists are what each call of the callback does. -/
  | read (name : String) (pipe : Nat) (runs : List (List Action))
  | timer (name : String) (millis : Nat) (runs : List (List Action))
  | signal (name : String) (number : Nat) (runs : List (List Action))
  /-- Wait for several signals with one count of calls. -/
  | signals (name : String) (numbers : List Nat) (runs : List (List Action))
  | write (pipe count : Nat)
  | consume (pipe count : Nat)
  /-- Close the end that is written to. -/
  | close (pipe : Nat)
  | exit
  /-- Let the callback that performs this report failure. -/
  | fail
  | delete (name : String)
  | count
  | raise (number : Nat)
  /-- Run the loop, also from inside a callback. -/
  | run
  deriving Inhabited

/-- What a script reports. -/
inductive Entry where
  | added (name : String)
  | accepted
  | refused (cause : Error)
  | called (name : String)
  | consumed (count : Nat)
  | deleted (name : String) (found : Bool)
  | counted (events : Nat)
  | ended (ok : Bool)
  deriving DecidableEq, Repr

/-- A callback: its name, which count of calls is its own, and its scripts. -/
structure Callback where
  name : String
  counter : Nat
  runs : List (List Action)

structure Pipe where
  bytes : Nat := 0
  writerOpen : Bool := true
  deriving DecidableEq, Repr, Inhabited

/-- Pipes, signals, the clock and the report. -/
structure World where
  pipes : List Pipe := []
  /-- The signals that have been raised and not been taken. -/
  raised : List Nat := []
  clock : Nat := 0
  /-- How often each callback has been called. -/
  calls : List Nat := []
  /-- The handle of each name. -/
  names : OrderedMap String EventHandle := ⟨[]⟩
  /-- The entries of the report, the last one first. -/
  report : List Entry := []

namespace World

def log (w : World) (e : Entry) : World := { w with report := e :: w.report }

/-- How much later each poll is that has something to read. -/
def tick : Nat := 1000

def readiness (w : World) : EventSource → Readiness
  | .descriptor n => match w.pipes[n]? with
    | none => .hungUp
    | some p => if 0 < p.bytes then .readable else if p.writerOpen then .idle else .hungUp
  | .signal n => if w.raised.contains n then .readable else .idle
  | .timer _ _ => .idle

/-- Look at the sources. When none is ready the clock goes to the deadline. -/
def poll (sources : List EventSource) (deadline : Option Nat) (w : World) :
    Except IoFailure (List Readiness) × World :=
  let answers := sources.map w.readiness
  let clock := if answers.all (· == .idle) then max w.clock (deadline.getD w.clock)
    else w.clock + tick
  (.ok answers, { w with clock })

/-- A signal is delivered once however often it was raised. -/
def takeSignals (n : Nat) (w : World) : Nat × World :=
  if w.raised.contains n then (1, { w with raised := w.raised.filter (· != n) }) else (0, w)

/-- The script of a callback's next call, the last one again when they are
used up; and the call is counted. -/
def nextRun (w : World) (c : Callback) : List Action × World :=
  let i := w.calls.getD c.counter 0
  let run := (c.runs[i]?).getD (c.runs.getLastD [])
  (run, { w with calls := w.calls.set c.counter (i + 1) })

end World

abbrev State := EventLoop Callback × World

def newCallback (s : State) (name : String) (runs : List (List Action)) : Callback × State :=
  let counter := s.2.calls.length
  ({ name, counter, runs }, (s.1, { s.2 with calls := s.2.calls ++ [0] }))

def register (s : State) (name : String) :
    Except Misuse (EventHandle × EventLoop Callback) → State
  | .ok (h, l) => (l, { s.2 with names := s.2.names.insert name h }.log (.added name))
  | .error e => (s.1, s.2.log (.refused (.misuse e)))

/-- The number of a pipe's end as the loop takes it; a pipe that is not there
has none. -/
def pipeNumber (w : World) (pipe : Nat) : Int := if pipe < w.pipes.length then pipe else -1

def nanosPerMilli : Nat := 1000000

/-- Perform one action; `runLoop` says how the loop is run. -/
def perform (runLoop : State → Except IoFailure Bool × State) (a : Action) (s : State) : State :=
  match a with
  | .read name pipe runs =>
    let (c, s) := newCallback s name runs
    register s name (s.1.addDescriptor (pipeNumber s.2 pipe) c)
  | .timer name millis runs =>
    let (c, s) := newCallback s name runs
    register s name (s.1.addTimer s.2.clock (millis * nanosPerMilli) c)
  | .signal name n runs =>
    let (c, s) := newCallback s name runs
    register s name (.ok (s.1.add (.signal n) c))
  | .signals name ns runs =>
    let (c, s) := newCallback s name runs
    (s.1.addSignals ns c, s.2.log .accepted)
  | .write pipe count =>
    (s.1, { s.2 with pipes := s.2.pipes.modify pipe fun p => { p with bytes := p.bytes + count } })
  | .consume pipe count =>
    let got := min count ((s.2.pipes[pipe]?).getD {}).bytes
    let pipes := s.2.pipes.modify pipe fun p => { p with bytes := p.bytes - got }
    (s.1, { s.2 with pipes }.log (.consumed got))
  | .close pipe =>
    (s.1, { s.2 with pipes := s.2.pipes.modify pipe fun p => { p with writerOpen := false } })
  | .exit => (s.1.exit, s.2)
  | .fail => s
  | .delete name =>
    match s.2.names.get? name with
    | some h =>
      let (found, l) := s.1.delete h
      (l, s.2.log (.deleted name found))
    | none => (s.1, s.2.log (.deleted name false))
  | .count => (s.1, s.2.log (.counted s.1.size))
  | .raise n =>
    (s.1, if s.2.raised.contains n then s.2 else { s.2 with raised := s.2.raised ++ [n] })
  | .run =>
    match runLoop s with
    | (.ok ok, s) => (s.1, s.2.log (.ended ok))
    | (.error e, s) => (s.1, s.2.log (.refused (.io e)))

def isFail : Action → Bool
  | .fail => true
  | _ => false

/-- Call back: the call is reported and its script performed to the end, and
it fails if the script says so anywhere. -/
def call (runLoop : State → Except IoFailure Bool × State) (c : Callback) (s : State) :
    Bool × State :=
  let (actions, world) := (s.2.log (.called c.name)).nextRun c
  (!actions.any isFail, actions.foldl (fun s a => perform runLoop a s) (s.1, world))

/-- The host of a loop that may be run `depth` times inside itself. -/
def host : (depth : Nat) → LoopHost Callback World
  | 0 =>
    { poll := World.poll, takeSignals := World.takeSignals, now := World.clock
      call := fun _ s => (true, s) }
  | depth + 1 =>
    { poll := World.poll, takeSignals := World.takeSignals, now := World.clock
      call := call fun s => EventLoop.run (host depth) s }

/-- How often a loop may be run inside itself. -/
def maxDepth : Nat := 1000

/-- Perform a script on `pipes` empty pipes and a loop without events. -/
def play (pipes : Nat) (script : List Action) : State :=
  let start : State := ({}, { pipes := List.replicate pipes {} })
  script.foldl (fun s a => perform (EventLoop.run (host maxDepth)) a s) start

end Script
end Profiler
