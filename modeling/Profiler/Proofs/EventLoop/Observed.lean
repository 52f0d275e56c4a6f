/-
# A loop whose run is listed

What the callbacks of a loop may do to it is to register events, to delete
them, and to ask the loop to end (`LoopAct`); beyond that they change the world
as they like and report how they did (`Reactions`). To say what a run does, its
world is given a list of what happened: polls, callbacks that were called and
that returned, and what they did in between (`Reactions.observed`). An event
that the loop drops by itself is found missing when the next callback is
called. Being listed changes nothing in the run
(`Reactions.runFor_observed`).

Key definitions: `LoopAct`, `Reactions`, `Reactions.host`, `LoopEntry`,
`Observed`, `Reactions.observed`, `LoopHost.Projects`.
Key theorems: `EventLoop.rounds_project`, `Reactions.runFor_observed`.
-/
import Profiler.EventLoop.Basic

namespace Profiler

/-! ### What callbacks do -/

/-- What a callback can do to the loop. -/
inductive LoopAct (κ : Type) where
  | add (source : EventSource) (callback : κ)
  | delete (h : EventHandle)
  | exit
  deriving Repr

def LoopAct.perform {κ : Type} (l : EventLoop κ) : LoopAct κ → EventLoop κ
  | add source callback => (l.add source callback).2
  | delete h => (l.delete h).2
  | exit => l.exit

/-- The world around a loop, and what callbacks do in it. -/
structure Reactions (κ σ : Type) where
  poll : List EventSource → Option Nat → σ → Except IoFailure (List Readiness) × σ
  takeSignals : Nat → σ → Nat × σ
  now : σ → Nat
  /-- What a callback does to the loop, one thing after another, whether it
  succeeds, and the world after it. -/
  react : κ → EventLoop κ × σ → List (LoopAct κ) × Bool × σ

/-- Callbacks that do to the loop what they are said to do. -/
def Reactions.host {κ σ : Type} (b : Reactions κ σ) : LoopHost κ σ where
  poll := b.poll
  takeSignals := b.takeSignals
  now := b.now
  call c s :=
    let (acts, ok, world) := b.react c s
    (ok, (acts.foldl LoopAct.perform s.1, world))

/-! ### What happened -/

/-- Something that happened while a loop ran. -/
inductive LoopEntry (κ : Type) where
  | polled
  /-- A callback was called while an event was marked as running. -/
  | called (h : EventHandle) (source : EventSource) (callback : κ)
  /-- A callback was called, and no event was marked as running. -/
  | stray
  | added (h : EventHandle) (callback : κ)
  | deleted (h : EventHandle)
  /-- A callback asked the loop to end. -/
  | exited
  | returned (h : EventHandle) (ok : Bool)
  deriving DecidableEq, Repr

/-- What an act is listed as; to delete what is not there is nothing. -/
def LoopAct.entries {κ : Type} (l : EventLoop κ) : LoopAct κ → List (LoopEntry κ)
  | add _ callback => [.added l.nextHandle callback]
  | delete h => if l.events.contains h then [.deleted h] else []
  | exit => [.exited]

/-- Perform an act and list it. -/
def LoopAct.note {κ : Type} (s : EventLoop κ × List (LoopEntry κ)) (a : LoopAct κ) :
    EventLoop κ × List (LoopEntry κ) := (a.perform s.1, a.entries s.1 ++ s.2)

namespace EventLoop

variable {κ : Type}

/-- The handles of the registered events. -/
def handles (l : EventLoop κ) : List EventHandle := l.events.keys

/-- The event whose callback runs. -/
def calling? (l : EventLoop κ) : Option (EventHandle × EventSource) :=
  (l.events.entries.find? fun e => e.2.running).map fun e => (e.1, e.2.source)

end EventLoop

/-- A world with what has happened in it, the last first, and the handles that
were registered when a callback returned last. -/
structure Observed (κ σ : Type) where
  world : σ
  known : List EventHandle
  past : List (LoopEntry κ) := []

namespace Observed

variable {κ σ : Type}

def missing (w : Observed κ σ) (l : EventLoop κ) : List EventHandle :=
  w.known.filter fun h => !l.events.contains h

/-- List that a callback is called, after what the loop has dropped. -/
def beforeCall (w : Observed κ σ) (l : EventLoop κ) (callback : κ) : List (LoopEntry κ) :=
  (l.calling?.elim .stray fun e => .called e.1 e.2 callback) ::
    ((w.missing l).map .deleted ++ w.past)

/-- List that the callback returns which was called on a loop. -/
def afterCall (l : EventLoop κ) (ok : Bool) (past : List (LoopEntry κ)) : List (LoopEntry κ) :=
  (l.calling?.map fun e => .returned e.1 ok).toList ++ past

end Observed

namespace Reactions

variable {κ σ : Type}

/-- The same reactions, and what happens is listed. -/
def observed (b : Reactions κ σ) : Reactions κ (Observed κ σ) where
  poll sources deadline w :=
    let (answers, world) := b.poll sources deadline w.world
    (answers, { w with world, past := .polled :: w.past })
  takeSignals n w :=
    let (times, world) := b.takeSignals n w.world
    (times, { w with world })
  now w := b.now w.world
  react c s :=
    let (acts, ok, world) := b.react c (s.1, s.2.world)
    let (l, past) := acts.foldl LoopAct.note (s.1, s.2.beforeCall s.1 c)
    (acts, ok, { world, known := l.handles, past := Observed.afterCall s.1 ok past })

end Reactions

/-! ### Worlds that see more -/

/-- A host does what another does, in a world of which the other sees a part. -/
structure LoopHost.Projects {κ σ τ : Type} (host : LoopHost κ σ) (part : σ → τ)
    (host' : LoopHost κ τ) : Prop where
  poll : ∀ sources deadline s, host'.poll sources deadline (part s) =
    ((host.poll sources deadline s).1, part (host.poll sources deadline s).2)
  takeSignals : ∀ n s, host'.takeSignals n (part s) =
    ((host.takeSignals n s).1, part (host.takeSignals n s).2)
  now : ∀ s, host'.now (part s) = host.now s
  call : ∀ c l s, host'.call c (l, part s) =
    ((host.call c (l, s)).1, (host.call c (l, s)).2.map id part)

namespace EventLoop

variable {κ σ τ : Type} {host : LoopHost κ σ} {part : σ → τ} {host' : LoopHost κ τ}

/-- An event is called while it is marked as running, and is there again or not
when its callback has returned. -/
theorem dispatch_eq {k : EventHandle} {e : LoopEvent κ} {s : EventLoop κ × σ}
    (he : s.1.events.get? k = some e) (hidle : e.running = false) :
    dispatch host k s =
      let after := host.call e.callback (s.1.modify k fun e => { e with running := true }, s.2)
      let l := after.2.1.modify k fun e => { e with running := false }
      if after.1 then (l.events.contains k, (l, after.2.2)) else (false, (l.fail, after.2.2)) := by
  rw [dispatch, he]
  simp only [hidle]
  rfl

theorem dispatch_of_none {k : EventHandle} {s : EventLoop κ × σ}
    (hnone : s.1.events.get? k = none) : dispatch host k s = (false, s) := by
  rw [dispatch, hnone]

theorem dispatch_of_running {k : EventHandle} {e : LoopEvent κ} {s : EventLoop κ × σ}
    (he : s.1.events.get? k = some e) (hrunning : e.running = true) :
    dispatch host k s = (false, s) := by
  rw [dispatch, he]
  simp only [hrunning, if_true]

theorem dispatch_project (h : host.Projects part host') (k : EventHandle) (s : EventLoop κ × σ) :
    dispatch host' k (s.map id part) =
      ((dispatch host k s).1, (dispatch host k s).2.map id part) := by
  have hloop : (s.map id part).1.events.get? k = s.1.events.get? k := rfl
  cases he : s.1.events.get? k with
  | none => rw [dispatch_of_none he, dispatch_of_none (hloop.trans he)]
  | some e =>
    cases hrunning : e.running with
    | true => rw [dispatch_of_running he hrunning, dispatch_of_running (hloop.trans he) hrunning]
    | false =>
      rw [dispatch_eq he hrunning, dispatch_eq (hloop.trans he) hrunning]
      simp only [Prod.map_fst, Prod.map_snd, id_eq, h.call]
      split <;> rfl

theorem dispatchTimes_project (h : host.Projects part host') (k : EventHandle) :
    ∀ times (s : EventLoop κ × σ),
      dispatchTimes host' k times (s.map id part) = (dispatchTimes host k times s).map id part
  | 0, _ => rfl
  | times + 1, s => by
    rw [dispatchTimes, dispatchTimes]
    simp only [Prod.map_fst, id_eq, dispatch_project h]
    split
    · rfl
    · split
      · exact dispatchTimes_project h k times _
      · rfl

theorem dispatchReady_project (h : host.Projects part host') (k : EventHandle)
    (s : EventLoop κ × σ) :
    dispatchReady host' k (s.map id part) = (dispatchReady host k s).map id part := by
  unfold dispatchReady
  simp only [Prod.map_fst, Prod.map_snd, id_eq, h.takeSignals]
  split
  · exact dispatchTimes_project h k _ (s.1, _)
  · exact dispatchTimes_project h k 1 s
  · rfl

theorem serve_project (h : host.Projects part host') :
    ∀ (ready : List (EventHandle × Readiness)) (s : EventLoop κ × σ),
      serve host' ready (s.map id part) = (serve host ready s).map id part
  | [], _ => rfl
  | (k, readiness) :: rest, s => by
    unfold serve
    simp only [Prod.map_fst, id_eq]
    split
    · rfl
    · cases readiness with
      | readable =>
        simp only [dispatchReady_project h]
        exact serve_project h rest _
      | hungUp => exact serve_project h rest ((s.1.delete k).2, s.2)
      | idle => exact serve_project h rest s

theorem serveTimers_project (h : host.Projects part host') (now : Nat) :
    ∀ (due : List EventHandle) (s : EventLoop κ × σ),
      serveTimers host' now due (s.map id part) = (serveTimers host now due s).map id part
  | [], _ => rfl
  | k :: rest, s => by
    rw [serveTimers, serveTimers]
    simp only [Prod.map_fst, Prod.map_snd, id_eq]
    split
    · rfl
    · have hdispatch := dispatch_project h k
        (s.1.modify k fun e => { e with source := e.source.advance now }, s.2)
      rw [Prod.map_apply, id_eq] at hdispatch
      rw [hdispatch]
      exact serveTimers_project h now rest _

theorem round_project (h : host.Projects part host') (s : EventLoop κ × σ) :
    round host' (s.map id part) = ((round host s).1, (round host s).2.map id part) := by
  unfold round
  simp only [Prod.map_fst, Prod.map_snd, id_eq, h.poll]
  cases host.poll (s.1.polled.map Prod.snd) s.1.deadline? s.2 with
  | mk answers world =>
    cases answers with
    | error e => rfl
    | ok answers =>
      have hserve := serve_project h ((s.1.polled.map Prod.fst).zip answers) (s.1, world)
      rw [Prod.map_apply, id_eq] at hserve
      simp only [hserve, Prod.map_fst, id_eq]
      split
      · rfl
      · simp only [Prod.map_snd, h.now]
        rw [serveTimers_project h]

/-- **A host that sees more runs the loop as the other does.** -/
theorem rounds_project (h : host.Projects part host') : ∀ polls (s : EventLoop κ × σ),
    rounds host' polls (s.map id part) =
      ((rounds host polls s).1, (rounds host polls s).2.map id part) := by
  intro polls
  induction polls with
  | zero =>
    intro s
    unfold rounds
    simp only [Prod.map_fst, id_eq]
    split <;> rfl
  | succ polls ih =>
    intro s
    unfold rounds
    simp only [Prod.map_fst, id_eq, round_project h]
    split
    · rfl
    · cases round host s with
      | mk result s =>
        cases result with
        | error e => rfl
        | ok _ => exact ih s

end EventLoop

namespace Reactions

variable {κ σ : Type} (b : Reactions κ σ)

theorem projects_observed : b.observed.host.Projects Observed.world b.host where
  poll _ _ _ := rfl
  takeSignals _ _ := rfl
  now _ := rfl
  call _ _ _ := rfl

/-- **Being listed does not change a run.** -/
theorem runFor_observed (polls : Nat) (l : EventLoop κ) (w : Observed κ σ) :
    EventLoop.runFor b.host polls (l, w.world) =
      ((EventLoop.runFor b.observed.host polls (l, w)).1,
        (EventLoop.runFor b.observed.host polls (l, w)).2.map id Observed.world) :=
  EventLoop.rounds_project b.projects_observed polls (l.begin, w)

end Reactions
end Profiler
