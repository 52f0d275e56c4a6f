/-
# A recording whose steps are listed

To say what a recording does with descriptors and buffers, its outside is given
a list of what happened (`Trace`): descriptors that were opened, refused and
closed, counters that were read, records that the kernel put into buffers, and
records that were handed on (`Host.traced`). A buffer holds what was put into
it since it was drained last (`Trace.pending`), and who drains it gets all of
that. Every descriptor has its own number, by when it was opened, so a number
is never used again.

Key definitions: `Happening`, `Trace`, `Traced`, `Host.traced`,
`Trace.appendedTo`, `Trace.pending`, `Trace.source?`, `Trace.readFrom`,
`Trace.opening?`.
Key theorems: `Host.quiet_traced`, `Recording.openEvent_outcome`,
`Recording.close_outcome`, `Recording.readCounter_outcome`,
`Recording.drain_outcome`, `Recording.deliver_outcome`.
-/
import Profiler.Proofs.Recording.Views

namespace Profiler

/-! ### What happened -/

/-- What a recording did to the outside, and what the kernel did meanwhile. -/
inductive Happening where
  | opened (d : Descriptor) (id : UInt64) (attr : Attr) (tid : Pid) (cpu : Nat)
    (leader? : Option Descriptor)
  | refused (attr : Attr) (tid : Pid) (cpu : Nat) (leader? : Option Descriptor)
  | closed (d : Descriptor)
  | counted (d : Descriptor) (value : CounterValue)
  /-- The kernel has put a record into a buffer. -/
  | appended (d : Descriptor) (bs : Bytes)
  | drained (d : Descriptor)
  /-- A record was handed on. -/
  | delivered (r : Record)
  | noted (n : Notice)

/-- Whether a descriptor was opened. -/
def Happening.isOpening : Happening → Bool
  | opened .. => true
  | _ => false

def Happening.opens? : Happening → Option Descriptor
  | opened d .. => some d
  | _ => none

/-- What happened, the last first. -/
abbrev Trace := List Happening

namespace Trace

/-- The records that were put into a buffer. -/
def appendedTo (b : Descriptor) : Trace → List Bytes
  | [] => []
  | .appended d bs :: past => if d = b then appendedTo b past ++ [bs] else appendedTo b past
  | _ :: past => appendedTo b past

def pending (b : Descriptor) : Trace → List Bytes
  | [] => []
  | .appended d bs :: past => if d = b then pending b past ++ [bs] else pending b past
  | .drained d :: past => if d = b then [] else pending b past
  | _ :: past => pending b past

/-- The buffer whose records are being handed on. -/
def source? : Trace → Option Descriptor
  | .drained d :: _ => some d
  | .delivered _ :: past => source? past
  | _ => none

/-- The records that were handed on when a buffer was drained. -/
def readFrom (b : Descriptor) : Trace → List Record
  | [] => []
  | .delivered r :: past =>
    if source? past = some b then readFrom b past ++ [r] else readFrom b past
  | _ :: past => readFrom b past

def opening? (d : Descriptor) : Trace → Option EventFile
  | [] => none
  | .opened d' id _ tid cpu leader? :: past =>
    if d' = d then some { descriptor := d', id, tid, cpu, leader? } else opening? d past
  | _ :: past => opening? d past

theorem opening?_append_of_ne {τ : Trace} {d : Descriptor} (h : ∀ x ∈ τ, x.opens? ≠ some d)
    (past : Trace) : opening? d (τ ++ past) = opening? d past := by
  induction τ with
  | nil => rfl
  | cons x τ ih =>
    obtain ⟨hx, hτ⟩ := List.forall_mem_cons.mp h
    rw [← ih hτ]
    cases x with
    | opened d' => exact if_neg fun heq => hx (congrArg some heq)
    | _ => rfl

theorem opening?_append {τ : Trace} (h : ∀ x ∈ τ, x.isOpening = false) (d : Descriptor)
    (past : Trace) : opening? d (τ ++ past) = opening? d past := by
  refine opening?_append_of_ne (fun x hx hopens => ?_) past
  have hx := h x hx
  cases x with
  | opened => cases hx
  | _ => cases hopens

end Trace

/-! ### An outside with a trace -/

/-- An outside, with what happened there. -/
structure Traced (ω : Type) where
  world : ω
  /-- What the outside itself calls the descriptors, in the order they were opened. -/
  numbers : List Descriptor := []
  trace : Trace := []

namespace Traced

variable {ω α : Type}

def count (w : Traced ω) : Nat := w.numbers.length

/-- What the outside calls a descriptor. -/
def number (w : Traced ω) (d : Descriptor) : Descriptor := w.numbers.getD d d

/-- What the outside calls what a source waits for. -/
def source (w : Traced ω) : EventSource → EventSource
  | .descriptor d => .descriptor (w.number d)
  | s => s

def happen (w : Traced ω) (h : Happening) : Traced ω := { w with trace := h :: w.trace }

/-- A step of the outside that is not listed. -/
def lift (x : Traced ω → Effect ω α) : Effect (Traced ω) α := fun w =>
  let (r, world) := x w w.world
  (r, { w with world })

def lift' (x : Traced ω → StateM ω α) : StateM (Traced ω) α := fun w =>
  let (a, world) := x w w.world
  (a, { w with world })

/-- A step of the outside that is listed if it succeeds. -/
def listed (x : Traced ω → Effect ω α) (happening : α → Happening) : Effect (Traced ω) α :=
  fun w =>
    match x w w.world with
    | (.ok a, world) => (.ok a, { w with world }.happen (happening a))
    | (.error e, world) => (.error e, { w with world })

def openEvent (host : Host ω) (attr : Attr) (tid : Pid) (cpu : Nat)
    (leader? : Option Descriptor) : Effect (Traced ω) (Descriptor × UInt64) := fun w =>
  match host.openEvent attr tid cpu (leader?.map w.number) w.world with
  | (.ok (d, id), world) =>
    (.ok (w.count, id), { w with world, numbers := w.numbers ++ [d] }.happen
      (.opened w.count id attr tid cpu leader?))
  | (.error e, world) => (.error e, { w with world }.happen (.refused attr tid cpu leader?))

/-- Whether a buffer can be drained is up to the outside. -/
def drain (host : Host ω) (d : Descriptor) : Effect (Traced ω) Bytes := fun w =>
  match host.drain (w.number d) w.world with
  | (.ok _, world) => (.ok (w.trace.pending d).flatten, { w with world }.happen (.drained d))
  | (.error e, world) => (.error e, { w with world })

end Traced

/-- The outside does what it does, and it is listed. -/
def Host.traced {ω : Type} (host : Host ω) : Host (Traced ω) where
  openEvent := Traced.openEvent host
  close d w := ((), { w with world := (host.close (w.number d) w.world).2 }.happen (.closed d))
  isSupported attr := Traced.lift' fun _ => host.isSupported attr
  onlineCpus := Traced.lift fun _ => host.onlineCpus
  threadIds pid := Traced.lift fun _ => host.threadIds pid
  tracepointId? system event := Traced.lift' fun _ => host.tracepointId? system event
  enable d := Traced.lift fun w => host.enable (w.number d)
  disable d := Traced.lift fun w => host.disable (w.number d)
  readCounter d := Traced.listed (fun w => host.readCounter (w.number d)) (.counted d)
  map d pages := Traced.lift fun w => host.map (w.number d) pages
  share d owner := Traced.lift fun w => host.share (w.number d) (w.number owner)
  unmap d := Traced.lift' fun w => host.unmap (w.number d)
  drain := Traced.drain host
  deliver r w :=
    let (more, world) := host.deliver r w.world
    (more, { w with world }.happen (.delivered r))
  note n w := ((), { w with world := (host.note n w.world).2 }.happen (.noted n))
  poll sources deadline w :=
    let (answers, world) := host.poll (sources.map w.source) deadline w.world
    (answers, { w with world })
  takeSignals n w :=
    let (times, world) := host.takeSignals n w.world
    (times, { w with world })
  now w := host.now w.world

/-! ### From one session to the next -/

section Steps

variable {ω : Type} {s s' s'' : Session (Traced ω)} {m n : Nat} {τ τ' : Trace}

/-- So many descriptors were opened and this happened, and the loop was left
alone. -/
structure Session.Went (s s' : Session (Traced ω)) (n : Nat) (τ : Trace) : Prop where
  loop : s'.loop = s.loop
  count : s'.world.count = s.world.count + n
  trace : s'.world.trace = τ ++ s.world.trace

theorem Session.Went.refl (s : Session (Traced ω)) : s.Went s 0 [] := ⟨rfl, rfl, rfl⟩

theorem Session.Went.trans (h : s.Went s' m τ) (h' : s'.Went s'' n τ') :
    s.Went s'' (m + n) (τ' ++ τ) :=
  ⟨h'.loop.trans h.loop, by rw [h'.count, h.count, Nat.add_assoc],
    by rw [h'.trace, h.trace, List.append_assoc]⟩

end Steps

section Quiet

variable {ω υ τ α : Type} {host : Host ω}

/-- What is known of a session but for its set. -/
def Session.course (s : Session (Traced ω)) : EventLoop RecordingTask × Nat × Trace :=
  (s.loop, s.world.count, s.world.trace)

theorem Session.went_of_course {s s' : Session (Traced ω)} (h : s'.course = s.course) :
    s.Went s' 0 [] := by
  simp only [course, Prod.mk.injEq] at h
  exact ⟨h.1, h.2.1, h.2.2⟩

theorem Host.Quiet.of {V : Session (Traced ω) → υ} (h : host.traced.Quiet V) (g : υ → τ) :
    host.traced.Quiet fun s => g (V s) where
  isSupported attr s := congrArg g (h.isSupported attr s)
  onlineCpus s := congrArg g (h.onlineCpus s)
  threadIds pid s := congrArg g (h.threadIds pid s)
  tracepointId? system event s := congrArg g (h.tracepointId? system event s)
  enable d s := congrArg g (h.enable d s)
  disable d s := congrArg g (h.disable d s)
  map d pages s := congrArg g (h.map d pages s)
  share d owner s := congrArg g (h.share d owner s)
  unmap d s := congrArg g (h.unmap d s)

theorem Host.quiet_traced (host : Host ω) :
    host.traced.Quiet fun s => (s.set, s.course) := by
  constructor <;> intros <;> exact fun _ => rfl

end Quiet

namespace Recording

variable {ω α : Type} (host : Host ω)

theorem quiet_outcome {x : Recording (Traced ω) α}
    (hx : Effect.Leaves (fun s => (s.set, s.course)) x) (s : Session (Traced ω)) :
    ∃ r s', x s = (r, s') ∧ s'.set = s.set ∧ s.Went s' 0 [] := by
  have h := Prod.mk.inj (hx s)
  exact ⟨_, _, rfl, h.1, Session.went_of_course h.2⟩

theorem close_outcome (d : Descriptor) (s : Session (Traced ω)) :
    ∃ s', outside' (host.traced.close d) s = (.ok (), s') ∧ s'.set = s.set ∧
      s.Went s' 0 [.closed d] :=
  ⟨_, rfl, rfl, rfl, rfl, rfl⟩

theorem note_outcome (n : Notice) (s : Session (Traced ω)) :
    ∃ s', outside' (host.traced.note n) s = (.ok (), s') ∧ s'.set = s.set ∧
      s.Went s' 0 [.noted n] :=
  ⟨_, rfl, rfl, rfl, rfl, rfl⟩

theorem openEvent_outcome (attr : Attr) (tid : Pid) (cpu : Nat) (leader? : Option Descriptor)
    (s : Session (Traced ω)) :
    (∃ id s', outside (host.traced.openEvent attr tid cpu leader?) s =
        (.ok (s.world.count, id), s') ∧ s'.set = s.set ∧
        s.Went s' 1 [.opened s.world.count id attr tid cpu leader?]) ∨
      ∃ e s', outside (host.traced.openEvent attr tid cpu leader?) s = (.error e, s') ∧
        s'.set = s.set ∧ s.Went s' 0 [.refused attr tid cpu leader?] := by
  have hstep : ∀ r w, Traced.openEvent host attr tid cpu leader? s.world = (r, w) →
      outside (host.traced.openEvent attr tid cpu leader?) s = (r, { s with world := w }) :=
    fun _ _ => outside_eq
  unfold Traced.openEvent at hstep
  split at hstep
  · next d id world _ =>
    exact .inl ⟨id, _, hstep _ _ rfl, rfl, rfl, List.length_append, rfl⟩
  · next e world _ => exact .inr ⟨e, _, hstep _ _ rfl, rfl, rfl, rfl, rfl⟩

theorem readCounter_outcome (d : Descriptor) (s : Session (Traced ω)) :
    (∃ value s', outside (host.traced.readCounter d) s = (.ok value, s') ∧ s'.set = s.set ∧
        s.Went s' 0 [.counted d value]) ∨
      ∃ e s', outside (host.traced.readCounter d) s = (.error e, s') ∧ s'.set = s.set ∧
        s.Went s' 0 [] := by
  have hstep : ∀ r w, Traced.listed (fun w => host.readCounter (w.number d)) (.counted d) s.world =
      (r, w) → outside (host.traced.readCounter d) s = (r, { s with world := w }) :=
    fun _ _ => outside_eq
  unfold Traced.listed at hstep
  split at hstep
  · next value world _ => exact .inl ⟨value, _, hstep _ _ rfl, rfl, rfl, rfl, rfl⟩
  · next e world _ => exact .inr ⟨e, _, hstep _ _ rfl, rfl, rfl, rfl, rfl⟩

theorem drain_outcome (d : Descriptor) (s : Session (Traced ω)) :
    (∃ s', outside (host.traced.drain d) s = (.ok (s.world.trace.pending d).flatten, s') ∧
        s'.set = s.set ∧ s.Went s' 0 [.drained d]) ∨
      ∃ e s', outside (host.traced.drain d) s = (.error e, s') ∧ s'.set = s.set ∧
        s.Went s' 0 [] := by
  have hstep : ∀ r w, Traced.drain host d s.world = (r, w) →
      outside (host.traced.drain d) s = (r, { s with world := w }) := fun _ _ => outside_eq
  unfold Traced.drain at hstep
  split at hstep
  · next data world _ => exact .inl ⟨_, hstep _ _ rfl, rfl, rfl, rfl, rfl⟩
  · next e world _ => exact .inr ⟨e, _, hstep _ _ rfl, rfl, rfl, rfl, rfl⟩

theorem deliver_outcome (r : Record) (s : Session (Traced ω)) :
    ∃ more s', deliver host.traced r s = (.ok more, s') ∧ s'.set = s.set ∧
      s.Went s' 0 (if s.set.attached then [.delivered r] else []) := by
  rw [deliver, getSet_bind]
  split
  · exact ⟨_, _, rfl, rfl, rfl, rfl, rfl⟩
  · exact ⟨true, s, rfl, rfl, Session.Went.refl s⟩

end Recording
end Profiler
