/-
# A recording that is watched

To say what a recording hands on, its outside is given two lists: what buffers
held when they were drained, and the records that were handed on
(`Host.watched`). A recording goes on in any way (`Host.Continues`): its calls
come in any order, may fail, and find another outside each time. What is
listed stays listed (`Host.Continues.extends`).

Key definitions: `Watched`, `Host.watched`, `Host.Continues`, `Watched.Extends`.
Key theorems: `Host.silent_watched`, `Host.Continues.keeps`,
`Host.Continues.extends`.
-/
import Profiler.Proofs.Recording.Calls

namespace Profiler

/-! ### An outside that is watched -/

/-- An outside, with lists of what went in and out of a recording. -/
structure Watched (ω : Type) where
  world : ω
  /-- What buffers held when they were drained. -/
  drained : List Bytes := []
  /-- The records that were handed on. -/
  received : List Record := []

namespace Watched

variable {ω α : Type}

/-- A step of the outside. -/
def lift (x : Effect ω α) : Effect (Watched ω) α := fun w =>
  let (r, world) := x w.world
  (r, { w with world })

def lift' (x : StateM ω α) : StateM (Watched ω) α := fun w =>
  let (a, world) := x w.world
  (a, { w with world })

def log (w : Watched ω) : List Bytes × List Record := (w.drained, w.received)

end Watched

section Watched

variable {ω : Type}

/-- The outside does what it does, and the lists are kept. -/
def Host.watched (host : Host ω) : Host (Watched ω) where
  openEvent attr tid cpu leader? := Watched.lift (host.openEvent attr tid cpu leader?)
  close d := Watched.lift' (host.close d)
  isSupported attr := Watched.lift' (host.isSupported attr)
  onlineCpus := Watched.lift host.onlineCpus
  threadIds pid := Watched.lift (host.threadIds pid)
  tracepointId? system event := Watched.lift' (host.tracepointId? system event)
  enable d := Watched.lift (host.enable d)
  disable d := Watched.lift (host.disable d)
  readCounter d := Watched.lift (host.readCounter d)
  map d pages := Watched.lift (host.map d pages)
  share d owner := Watched.lift (host.share d owner)
  unmap d := Watched.lift' (host.unmap d)
  drain d := do
    let data ← Watched.lift (host.drain d)
    modify fun w => { w with drained := w.drained ++ [data] }
    return data
  deliver r := do
    modify fun w => { w with received := w.received ++ [r] }
    Watched.lift' (host.deliver r)
  note n := Watched.lift' (host.note n)
  poll sources deadline w :=
    let (answers, world) := host.poll sources deadline w.world
    (answers, { w with world })
  takeSignals n w :=
    let (times, world) := host.takeSignals n w.world
    (times, { w with world })
  now w := host.now w.world

theorem Host.silent_watched (host : Host ω) : host.watched.Silent Watched.log := by
  constructor <;> intros <;> exact fun _ => rfl

/-- The session with empty lists. -/
def Session.watched (s : Session ω) : Session (Watched ω) :=
  { set := s.set, loop := s.loop, world := { world := s.world } }

/-- How a recording may go on: buffers are drained and cpus are followed,
whatever comes of it and whatever happens outside. Whoever takes the records
begins before there are new ids. -/
inductive Host.Continues (host : Host ω) (s : Session (Watched ω)) :
    Session (Watched ω) → Prop where
  | refl : Continues host s s
  | call {t : Session (Watched ω)} (h : Continues host s t) (c : Recording.Call) (hc : c.Follows) :
    Continues host s (c.run host.watched t).2
  | attach {t : Session (Watched ω)} (h : Continues host s t)
    (hids : t.set.attrOfId = s.set.attrOfId) : Continues host s (Recording.attach t).2
  | outside {t : Session (Watched ω)} (h : Continues host s t) (world : ω)
    (loop : EventLoop RecordingTask) :
    Continues host s { t with loop, world := { t.world with world := world } }

end Watched

open Effect (Keeps Leaves keeps_pure)

section Runs

variable {ω : Type} {host : Host ω} {P : Session (Watched ω) → Prop} {s t : Session (Watched ω)}

/-- What draining, announcing and attaching keep holds however a recording goes
on. -/
theorem Host.Continues.keeps (h : Recording.Followed host.watched Watched.log P)
    (hattach : ∀ t, t.set.attrOfId = s.set.attrOfId → P t → P (Recording.attach t).2)
    (hst : host.Continues s t) (hs : P s) : P t := by
  induction hst with
  | refl => exact hs
  | @call t hst c hc ih =>
    have hcall : Keeps P (c.run host.watched) := by
      cases c with
      | drainCpu cpu => exact (h.drainCpu cpu).bind fun _ => keeps_pure ()
      | finish => exact h.keeps_finish.bind fun _ => keeps_pure ()
      | followCpus => exact h.keeps_followCpus.bind fun _ => keeps_pure ()
      | _ =>
        exact h.keeps_of_leaves (Recording.leaves_routed_of_listed
          (Recording.Call.leaves_steady _ h.silent (by exact hc)))
    exact hcall t ih
  | @attach t hst hids ih => exact hattach t hids ih
  | @outside t hst world loop ih => exact h.of_seen t _ rfl ih

/-! ### What is listed -/

theorem deliver_of_attached (h : t.set.attached = true) (r : Record) :
    (Recording.deliver host.watched r t).2 =
      { t with world :=
          { t.world with world := (host.deliver r t.world.world).2
                         received := t.world.received ++ [r] } } := by
  rw [Recording.deliver, Recording.getSet_bind, if_pos h]
  rfl

theorem deliver_of_not_attached (h : ¬ t.set.attached = true) (r : Record) :
    (Recording.deliver host.watched r t).2 = t := by
  rw [Recording.deliver, Recording.getSet_bind, if_neg h]
  rfl

/-- Draining adds to the list of what was drained, unless it fails. -/
theorem outside_drain (host : Host ω) (d : Descriptor) (t : Session (Watched ω)) :
    (∃ e t', Recording.outside (host.watched.drain d) t = (.error e, t') ∧
      t'.seen SelectionSet.routed Watched.log = t.seen SelectionSet.routed Watched.log) ∨
    ∃ data world, Recording.outside (host.watched.drain d) t = (.ok data, { t with world :=
      { t.world with world, drained := t.world.drained ++ [data] } }) := by
  cases h : host.drain d t.world.world with
  | mk r world =>
    have hlift : Watched.lift (host.drain d) t.world = (r, { t.world with world }) := by
      show (let (r, world) := host.drain d t.world.world; (r, { t.world with world })) = _
      rw [h]
    cases r with
    | error e =>
      have hfails : host.watched.drain d t.world = (.error e, { t.world with world }) :=
        Effect.bind_of_error hlift
      refine .inl ⟨e, { t with world := { t.world with world } }, ?_, rfl⟩
      show (let (r, world) := host.watched.drain d t.world; (r, { t with world })) = _
      rw [hfails]
    | ok data =>
      have hgives : host.watched.drain d t.world =
          (.ok data, { t.world with world, drained := t.world.drained ++ [data] }) :=
        Effect.bind_of_ok hlift
      refine .inr ⟨data, world, ?_⟩
      show (let (r, world) := host.watched.drain d t.world; (r, { t with world })) = _
      rw [hgives]

/-- Nothing that was listed before is gone. -/
structure Watched.Extends (w past : Watched ω) : Prop where
  drained : past.drained <+: w.drained
  received : past.received <+: w.received

theorem Watched.extends_refl (w : Watched ω) : w.Extends w :=
  ⟨List.prefix_refl _, List.prefix_refl _⟩

theorem Watched.Extends.of_log {w w' past : Watched ω} (h : w.Extends past)
    (hlog : w'.log = w.log) : w'.Extends past := by
  obtain ⟨hdrained, hreceived⟩ := Prod.mk.inj hlog
  exact ⟨hdrained ▸ h.drained, hreceived ▸ h.received⟩

theorem keeps_extends_deliver (past : Watched ω) (r : Record) :
    Keeps (fun t => t.world.Extends past) (Recording.deliver host.watched r) := by
  intro t h
  by_cases hattached : t.set.attached = true
  · rw [deliver_of_attached hattached]
    exact ⟨h.drained, h.received.trans (List.prefix_append _ _)⟩
  · rwa [deliver_of_not_attached hattached]

theorem keeps_extends_drain (past : Watched ω) (d : Descriptor) :
    Keeps (fun t => t.world.Extends past) (Recording.outside (host.watched.drain d)) := by
  intro t h
  rcases outside_drain host d t with ⟨e, t', hfails, hseen⟩ | ⟨data, world, hgives⟩
  · rw [hfails]
    exact h.of_log (Prod.ext_iff.mp hseen).2
  · rw [hgives]
    exact ⟨h.drained.trans (List.prefix_append _ _), h.received⟩

theorem followed_extends (host : Host ω) (past : Watched ω) :
    Recording.Followed host.watched Watched.log fun t => t.world.Extends past where
  silent := host.silent_watched
  of_seen _ _ hseen h := h.of_log (Prod.ext_iff.mp hseen).2
  drainCpu :=
    Recording.keeps_drainCpu host.watched (keeps_extends_drain past) (keeps_extends_deliver past)
  announce cpu := by
    have hwatch : Leaves (Session.seen SelectionSet.listed Watched.log)
        (Recording.watchBuffer (ω := Watched ω) cpu) :=
      Recording.leaves_watchBuffer Recording.loopless_listed cpu
    exact Recording.keeps_announce host.watched (fun _ _ h => h) (keeps_extends_deliver past)
      (hwatch.keeps fun _ _ hseen h => h.of_log (Prod.ext_iff.mp hseen).2)

theorem log_attach (t : Session (Watched ω)) : (Recording.attach t).2.world.log = t.world.log := by
  have hseen : (Recording.attach t).2.seen SelectionSet.listed Watched.log = _ :=
    Recording.seen_attach t
  exact (Prod.ext_iff.mp hseen).2

/-- **However a recording goes on, the lists only grow.** -/
theorem Host.Continues.extends (hst : host.Continues s t) : t.world.Extends s.world :=
  hst.keeps (followed_extends host s.world) (fun t _ h => h.of_log (log_attach t))
    s.world.extends_refl

end Runs

end Profiler
