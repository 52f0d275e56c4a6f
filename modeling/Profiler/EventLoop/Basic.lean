/-
# The event loop

A loop waits for descriptors to become readable, for signals and for timers,
and runs the callback registered for each. A callback may register and delete
events, ask the loop to end, and report failure, which ends the loop too.

What a callback is and what the world does between two callbacks are
parameters: a `LoopHost` says how the world answers a poll and what a callback
does to the loop and the world. A poll that a signal interrupts only waits
again, and nothing of the loop changes meanwhile, so one answer of `poll` stands
for the interrupted polls and the one that ends them. Time is counted in
nanoseconds.

Key definitions: `EventLoop`, `EventLoop.add`, `EventLoop.delete`,
`LoopHost`, `EventLoop.dispatch`, `EventLoop.round`, `EventLoop.rounds`,
`EventLoop.run`.
-/
import Profiler.Error
import Profiler.OrderedMap

namespace Profiler

/-- The number under which an event is registered; no two events get the same.
The 2^64 registrations after which a word would repeat one are out of reach. -/
abbrev EventHandle := Nat

/-- What an event waits for. -/
inductive EventSource where
  /-- A descriptor has something to read. -/
  | descriptor (number : Nat)
  /-- A signal has arrived. -/
  | signal (number : Nat)
  /-- The clock has reached a deadline, which then moves on by the interval. -/
  | timer (interval deadline : Nat)
  deriving DecidableEq, Repr

/-- A source that poll watches: any but a timer. -/
def EventSource.isPolled : EventSource → Bool
  | timer _ _ => false
  | _ => true

def EventSource.deadline? : EventSource → Option Nat
  | timer _ deadline => some deadline
  | _ => none

/-- Move a timer's deadline on, past `now` if it lies too far back. -/
def EventSource.advance (now : Nat) : EventSource → EventSource
  | .timer interval deadline =>
    let next := deadline + interval
    .timer interval (if next ≤ now then now + interval else next)
  | s => s

/-- A registered event. While its callback runs it cannot be called again. -/
structure LoopEvent (κ : Type) where
  source : EventSource
  callback : κ
  running : Bool := false
  deriving Repr

/-- What poll finds out about a source. -/
inductive Readiness where
  | idle
  | readable
  /-- Nothing is there to read and nothing will ever be. -/
  | hungUp
  deriving DecidableEq, Repr

/-- The registered events and whether the loop is to end. -/
structure EventLoop (κ : Type) where
  events : OrderedMap EventHandle (LoopEvent κ) := ⟨[]⟩
  nextHandle : EventHandle := 0
  exitRequested : Bool := false
  /-- Whether a callback of this run has failed. -/
  failed : Bool := false
  deriving Repr

namespace EventLoop

variable {κ : Type}

instance : Inhabited (EventLoop κ) := ⟨{}⟩

def size (l : EventLoop κ) : Nat := l.events.entries.length

def add (l : EventLoop κ) (source : EventSource) (callback : κ) : EventHandle × EventLoop κ :=
  (l.nextHandle, { l with
    events := l.events.insert l.nextHandle { source, callback }
    nextHandle := l.nextHandle + 1 })

/-- Wait for a descriptor; a negative number is none. -/
def addDescriptor (l : EventLoop κ) (number : Int) (callback : κ) :
    Except Misuse (EventHandle × EventLoop κ) :=
  if number < 0 then .error (.badDescriptor number)
  else .ok (l.add (.descriptor number.toNat) callback)

/-- Call back again and again, the first time one interval from `now`. -/
def addTimer (l : EventLoop κ) (now interval : Nat) (callback : κ) :
    Except Misuse (EventHandle × EventLoop κ) :=
  if interval = 0 then .error .zeroInterval
  else .ok (l.add (.timer interval (now + interval)) callback)

def addSignals (l : EventLoop κ) (numbers : List Nat) (callback : κ) : EventLoop κ :=
  numbers.foldl (fun l n => (l.add (.signal n) callback).2) l

/-- Forget an event, which may be the one whose callback runs. -/
def delete (l : EventLoop κ) (h : EventHandle) : Bool × EventLoop κ :=
  (l.events.contains h, { l with events := l.events.erase h })

/-- End the loop when the callback that runs returns. -/
def exit (l : EventLoop κ) : EventLoop κ := { l with exitRequested := true }

/-- Change an event if it is still there. -/
def modify (l : EventLoop κ) (h : EventHandle) (f : LoopEvent κ → LoopEvent κ) : EventLoop κ :=
  match l.events.get? h with
  | some e => { l with events := l.events.insert h (f e) }
  | none => l

/-- Note that a callback has failed, which ends the loop. -/
def fail (l : EventLoop κ) : EventLoop κ := { l with failed := true, exitRequested := true }

/-- The sources that poll watches, with their handles. -/
def polled (l : EventLoop κ) : List (EventHandle × EventSource) :=
  (l.events.entries.filter fun e => e.2.source.isPolled).map fun e => (e.1, e.2.source)

def deadline? (l : EventLoop κ) : Option Nat :=
  (l.events.values.filterMap fun e => e.source.deadline?).min?

def due (l : EventLoop κ) (now : Nat) : List EventHandle :=
  (l.events.entries.filter fun e => match e.2.source.deadline? with
    | some deadline => deadline ≤ now
    | none => false).map Prod.fst

end EventLoop

/-- The world around a loop, whose state is `σ`, and what callbacks do. -/
structure LoopHost (κ σ : Type) where
  /-- Wait until a source is ready or the deadline has come, again and again if
  interrupted; the answers are in the order of the sources. -/
  poll : List EventSource → Option Nat → σ → Except IoFailure (List Readiness) × σ
  /-- Take the deliveries of a signal that are pending. -/
  takeSignals : Nat → σ → Nat × σ
  now : σ → Nat
  call : κ → EventLoop κ × σ → Bool × (EventLoop κ × σ)

namespace EventLoop

variable {κ σ : Type} (host : LoopHost κ σ)

/-- Run the callback of an event. The answer is whether the event may be
called again: it is false if the event is gone or its callback failed. -/
def dispatch (h : EventHandle) (s : EventLoop κ × σ) : Bool × (EventLoop κ × σ) :=
  match s.1.events.get? h with
  | none => (false, s)
  | some e =>
    if e.running then (false, s)
    else
      let (ok, l, world) :=
        host.call e.callback (s.1.modify h fun e => { e with running := true }, s.2)
      let l := l.modify h fun e => { e with running := false }
      if ok then (l.events.contains h, (l, world)) else (false, (l.fail, world))

/-- Dispatch an event up to `times` times, while it may be called again. -/
def dispatchTimes (h : EventHandle) : (times : Nat) → EventLoop κ × σ → EventLoop κ × σ
  | 0, s => s
  | times + 1, s =>
    if s.1.exitRequested then s
    else
      let (again, s) := dispatch host h s
      if again then dispatchTimes h times s else s

/-- Serve a source that is readable: a signal as often as it has arrived, a
descriptor once. -/
def dispatchReady (h : EventHandle) (s : EventLoop κ × σ) : EventLoop κ × σ :=
  match (s.1.events.get? h).map LoopEvent.source with
  | some (.signal n) =>
    let (times, world) := host.takeSignals n s.2
    dispatchTimes host h times (s.1, world)
  | some _ => dispatchTimes host h 1 s
  | none => s

/-- Serve what poll has found, in order, until the loop is to end. -/
def serve : List (EventHandle × Readiness) → EventLoop κ × σ → EventLoop κ × σ
  | [], s => s
  | (h, readiness) :: rest, s =>
    if s.1.exitRequested then s
    else match readiness with
      | .readable => serve rest (dispatchReady host h s)
      | .hungUp => serve rest ((s.1.delete h).2, s.2)
      | .idle => serve rest s

/-- Serve timers that are due, in order, until the loop is to end. -/
def serveTimers (now : Nat) : List EventHandle → EventLoop κ × σ → EventLoop κ × σ
  | [], s => s
  | h :: rest, s =>
    if s.1.exitRequested then s
    else
      let l := s.1.modify h fun e => { e with source := e.source.advance now }
      serveTimers now rest (dispatch host h (l, s.2)).2

/-- One poll, which an interruption does not end, and what follows from it. -/
def round (s : EventLoop κ × σ) : Except IoFailure Unit × (EventLoop κ × σ) :=
  let polled := s.1.polled
  match host.poll (polled.map Prod.snd) s.1.deadline? s.2 with
  | (.error e, world) => (.error e, (s.1, world))
  | (.ok answers, world) =>
    let s := serve host ((polled.map Prod.fst).zip answers) (s.1, world)
    if s.1.exitRequested then (.ok (), s)
    else
      let now := host.now s.2
      (.ok (), serveTimers host now (s.1.due now) s)

/-- Poll until the loop is to end or has no events, at most `polls` times. The
answer is whether no callback failed. -/
def rounds (polls : Nat) (s : EventLoop κ × σ) : Except IoFailure Bool × (EventLoop κ × σ) :=
  if s.1.exitRequested || s.1.events.isEmpty then (.ok (!s.1.failed), s)
  else match polls with
    | 0 => (.error .pollsUsedUp, s)
    | polls + 1 => match round host s with
      | (.error e, s) => (.error e, s)
      | (.ok (), s) => rounds polls s

/-- The loop as a run begins: nothing has asked it to end. -/
def begin (l : EventLoop κ) : EventLoop κ := { l with exitRequested := false, failed := false }

/-- Run the loop from the start for a number of polls. -/
def runFor (polls : Nat) (s : EventLoop κ × σ) : Except IoFailure Bool × (EventLoop κ × σ) :=
  rounds host polls (s.1.begin, s.2)

/-- The most polls of one run. -/
def maxPolls : Nat := 10000000

def run (s : EventLoop κ × σ) : Except IoFailure Bool × (EventLoop κ × σ) :=
  runFor host maxPolls s

end EventLoop
end Profiler
