/-
# What a run of the loop keeps to

Whatever is ready and whatever callbacks do to the loop while it serves events,
the loop goes together with what happened between two callbacks (`Idle`): when
it calls one, when it drops an event or moves a timer on, in each round, and so
along a run (`Idle.rounds`). What happens in a run is therefore in order, from
any loop that was reached by runs and changes (`EventLoop.Reached.orderly`).

Key definitions: `Idle`, `Served`, `EventLoop.Reached`.
Key theorems: `Idle.dispatch`, `Idle.serve`, `Idle.serveTimers`, `Idle.round`,
`Idle.rounds`, `EventLoop.Reached.orderly`.
-/
import Profiler.Proofs.EventLoop.Orderly

namespace Profiler

/-! ### Dispatch -/

/-- No callback runs, and the loop agrees with what happened since it was
`l₀`. -/
structure Idle {κ σ : Type} (l₀ : EventLoop κ) (s : EventLoop κ × Observed κ σ) : Prop where
  tended : Tended l₀ none s.1 s.2.past
  known : ∀ h ∈ s.2.known, h < s.1.nextHandle

/-- An event may have been served. -/
structure Served {κ σ : Type} (l₀ : EventLoop κ) (k : EventHandle)
    (s s' : EventLoop κ × Observed κ σ) : Prop where
  idle : Idle l₀ s'
  later : Later s.1 s'.1
  reads : ∀ h ∈ readSincePoll s'.2.past, h = k ∨ h ∈ readSincePoll s.2.past

namespace Served

variable {κ σ : Type} {l₀ : EventLoop κ} {k : EventHandle} {s s' s'' : EventLoop κ × Observed κ σ}

theorem refl (h : Idle l₀ s) : Served l₀ k s s := ⟨h, .refl _, fun _ hread => .inr hread⟩

theorem trans (h : Served l₀ k s s') (h' : Served l₀ k s' s'') : Served l₀ k s s'' :=
  ⟨h'.idle, h.later.trans h'.later, fun g hg => (h'.reads g hg).elim .inl (h.reads g)⟩

end Served

namespace Idle

variable {κ σ : Type} {b : Reactions κ σ} {l₀ : EventLoop κ} {k : EventHandle}
  {s : EventLoop κ × Observed κ σ}

open EventLoop

theorem eq_of_running (h : Idle l₀ s) {g : EventHandle} {e : LoopEvent κ}
    (he : (s.1.modify k fun e => { e with running := true }).events.get? g = some e)
    (hrunning : e.running = true) : g = k := by
  rw [get?_modify] at he
  split at he
  · assumption
  · cases h.tended.calling g e he hrunning

/-- A callback is called: what the loop has dropped is found missing, and then
the call is listed. -/
theorem beforeCall (h : Idle l₀ s) (hgoing : s.1.exitRequested = false) {e : LoopEvent κ}
    (he : s.1.events.get? k = some e)
    (hread : e.source.isRead = true → k ∉ readSincePoll s.2.past) :
    let running := s.1.modify k fun e => { e with running := true }
    let past := s.2.beforeCall running e.callback
    running.calling? = some (k, e.source) ∧ Tended l₀ (some k) running past ∧
      ∀ g ∈ readSincePoll past, g = k ∨ g ∈ readSincePoll s.2.past := by
  intro running past
  have hrunning : running.events.get? k = some { e with running := true } := by
    rw [get?_modify, if_pos rfl, he, Option.map_some]
  have hcalling : running.calling? = some (k, e.source) :=
    running.calling?_eq (e := { e with running := true })
      (s.1.ascending_modify k _ h.tended.ascending) hrunning rfl fun g e => h.eq_of_running
  have hmissing : Tended l₀ none s.1 ((s.2.missing running).map .deleted ++ s.2.past) := by
    refine h.tended.miss fun g hg => ?_
    obtain ⟨hknown, hgone⟩ := List.mem_filter.mp hg
    refine ⟨h.known g hknown, fun hmem => ?_⟩
    rw [OrderedMap.contains_eq_true_iff.mpr ((s.1.mem_handles_modify k _).mpr hmem)] at hgone
    cases hgone
  have hreads := readSincePoll_deleted s.2.past (s.2.missing running)
  have hk : k ∈ s.1.handles := OrderedMap.mem_keys_iff.mpr ⟨e, he⟩
  have hcallback : s.1.callback? k = some e.callback := congrArg (Option.map _) he
  have hcallable : Callable l₀ ((s.2.missing running).map .deleted ++ s.2.past) k e.source
      e.callback :=
    ⟨fun hgone => (hmissing.gone k hgone).2 hk, hmissing.listed k _ hcallback, hreads ▸ hread,
      hmissing.not_stops hgoing⟩
  have hcalled := hmissing.cons (x := .called k e.source e.callback) hcallable
    (by rintro _ _ ⟨⟩) (by rintro _ ⟨⟩) id
  have hpast : past =
      .called k e.source e.callback :: ((s.2.missing running).map .deleted ++ s.2.past) := by
    rw [show past = s.2.beforeCall running e.callback from rfl, Observed.beforeCall, hcalling]
    rfl
  rw [hpast]
  refine ⟨hcalling, hcalled.modify (fun _ => by rfl) fun g e he hrun =>
    congrArg some (h.eq_of_running he hrun).symm, fun g hg => ?_⟩
  rw [readSincePoll, hreads] at hg
  split at hg
  · exact List.mem_cons.mp hg
  · exact .inr hg

/-- The callback does what it does, and returns. -/
theorem call (h : Idle l₀ s) (hgoing : s.1.exitRequested = false) {e : LoopEvent κ}
    (he : s.1.events.get? k = some e)
    (hread : e.source.isRead = true → k ∉ readSincePoll s.2.past) :
    let running := s.1.modify k fun e => { e with running := true }
    let after := b.observed.host.call e.callback (running, s.2)
    ∃ past, after.2.2.past = .returned k after.1 :: past ∧ Tended l₀ (some k) after.2.1 past ∧
      after.2.2.known = after.2.1.handles ∧ Later s.1 after.2.1 ∧
      ∀ g ∈ readSincePoll past, g = k ∨ g ∈ readSincePoll s.2.past := by
  intro running after
  obtain ⟨hcalling, htended, hreads⟩ := h.beforeCall hgoing he hread
  obtain ⟨past, hnote, hdone, hlater, hsame⟩ :=
    Tended.acts (b.react e.callback (running, s.2.world)).1 htended
  have hmarked : Later s.1 running := .modify s.1 k fun _ => rfl
  have hlisted : after.2.2.past = Observed.afterCall running after.1
      ((b.react e.callback (running, s.2.world)).1.foldl LoopAct.note
        (running, s.2.beforeCall running e.callback)).2 := rfl
  have hknown : after.2.2.known = ((b.react e.callback (running, s.2.world)).1.foldl LoopAct.note
      (running, s.2.beforeCall running e.callback)).1.handles := rfl
  refine ⟨past, ?_, hdone, ?_, hmarked.trans hlater, fun g hg => hreads g (hsame ▸ hg)⟩
  · rw [hlisted, hnote, Observed.afterCall, hcalling]
    rfl
  · rw [hknown, hnote]
    rfl

/-- **An event that is dispatched is served in order.** -/
theorem dispatch (h : Idle l₀ s) (hgoing : s.1.exitRequested = false)
    (hread : ∀ e, s.1.events.get? k = some e → e.source.isRead = true →
      k ∉ readSincePoll s.2.past) :
    Served l₀ k s (dispatch b.observed.host k s).2 := by
  cases he : s.1.events.get? k with
  | none =>
    rw [dispatch_of_none he]
    exact .refl h
  | some e =>
    have hidle : e.running = false := by
      rw [← Bool.not_eq_true]
      intro hrunning
      cases h.tended.calling k e he hrunning
    obtain ⟨past, hpast, htended, hknown, hlater, hreads⟩ :=
      h.call (b := b) hgoing he (hread e he)
    have hafter : EventLoop.dispatch b.observed.host k s = _ := dispatch_eq he hidle
    generalize b.observed.host.call e.callback
      (s.1.modify k fun e => { e with running := true }, s.2) = after at *
    obtain ⟨ok, l, w⟩ := after
    dsimp only at hpast htended hknown hlater hafter
    have hdone : (EventLoop.dispatch b.observed.host k s).2 =
        (let idle := l.modify k fun e => { e with running := false }
          if ok then idle else idle.fail, w) := by
      rw [hafter]
      cases ok <;> rfl
    have hback := Later.returned l k ok
    have hreturned := htended.returned ok
    rw [← hpast] at hreturned
    rw [hdone]
    refine ⟨⟨hreturned, fun g hg => ?_⟩, hlater.trans hback, fun g hg => hreads g ?_⟩
    · exact Nat.lt_of_lt_of_le (htended.below g (hknown ▸ hg)) hback.nextHandle
    · have hsame : readSincePoll w.past = readSincePoll past := by
        rw [hpast]
        rfl
      exact hsame ▸ hg

/-- An event that no descriptor is behind is dispatched any number of times, and
a descriptor once. -/
theorem dispatchTimes (times : Nat) (h : Idle l₀ s)
    (hread : ∀ e, s.1.events.get? k = some e → e.source.isRead = true →
      times = 0 ∨ times = 1 ∧ k ∉ readSincePoll s.2.past) :
    Served l₀ k s (dispatchTimes b.observed.host k times s) := by
  induction times generalizing s with
  | zero => exact .refl h
  | succ times ih =>
    rw [EventLoop.dispatchTimes]
    split
    · exact .refl h
    · next hgoing =>
      have hfirst := h.dispatch (b := b) (Bool.eq_false_iff.mpr hgoing) fun e he hkind =>
        ((hread e he hkind).resolve_left (Nat.succ_ne_zero times)).2
      cases he : s.1.events.get? k with
      | none =>
        rw [dispatch_of_none he]
        exact .refl h
      | some e =>
        have hk : k < s.1.nextHandle := h.tended.below k (OrderedMap.mem_keys_iff.mpr ⟨e, he⟩)
        dsimp only
        split
        · refine hfirst.trans (ih hfirst.idle fun e' he' hkind' => ?_)
          obtain ⟨e, he, hkind⟩ := hfirst.later.kept k hk e' he'
          rcases hread e he (hkind ▸ hkind') with hzero | hone
          · exact absurd hzero (Nat.succ_ne_zero times)
          · exact .inl (Nat.succ.inj hone.1)
        · exact hfirst

/-- What is ready is served: a signal as often as it has come, a descriptor
once. -/
theorem dispatchReady (h : Idle l₀ s) (hread : k ∉ readSincePoll s.2.past) :
    Served l₀ k s (dispatchReady b.observed.host k s) := by
  unfold EventLoop.dispatchReady
  split
  · next n hsignal =>
    obtain ⟨e, he, hsource⟩ := Option.map_eq_some_iff.mp hsignal
    have hidle : Idle l₀ (s.1, (b.observed.takeSignals n s.2).2) := ⟨h.tended, h.known⟩
    have hserved := hidle.dispatchTimes (b := b) (b.takeSignals n s.2.world).1 (k := k)
      fun e' he' hkind => by
        rw [Option.some.inj (he'.symm.trans he), hsource] at hkind
        cases hkind
    exact ⟨hserved.idle, hserved.later, hserved.reads⟩
  · exact h.dispatchTimes 1 fun _ _ _ => .inr ⟨rfl, hread⟩
  · exact .refl h

/-- **What poll has found is served in order.** -/
theorem serve (ready : List (EventHandle × Readiness)) (h : Idle l₀ s)
    (hdistinct : (ready.map Prod.fst).Nodup)
    (hunserved : ∀ k ∈ ready.map Prod.fst, k ∉ readSincePoll s.2.past) :
    Idle l₀ (serve b.observed.host ready s) := by
  induction ready generalizing s with
  | nil => exact h
  | cons p rest ih =>
    obtain ⟨k, readiness⟩ := p
    obtain ⟨hk, hothers⟩ := List.nodup_cons.mp hdistinct
    obtain ⟨hkfirst, hlater⟩ := List.forall_mem_cons.mp hunserved
    unfold EventLoop.serve
    split
    · exact h
    · cases readiness with
      | readable =>
        have hserved := h.dispatchReady (b := b) hkfirst
        refine ih hserved.idle hothers fun g hg hread => ?_
        rcases hserved.reads g hread with rfl | hread
        · exact hk hg
        · exact hlater g hg hread
      | hungUp => exact ih ⟨h.tended.delete k, h.known⟩ hothers hlater
      | idle => exact ih h hothers hlater

theorem advance (h : Idle l₀ s) (now : Nat) (k : EventHandle) :
    Served l₀ k s (s.1.modify k fun e => { e with source := e.source.advance now }, s.2) := by
  have hlater : Later s.1 (s.1.modify k fun e => { e with source := e.source.advance now }) :=
    .modify s.1 k fun e => e.source.isRead_advance now
  refine ⟨⟨h.tended.modify (fun _ => by rfl) fun g e he hrunning => ?_, fun g hg => ?_⟩, hlater,
    fun g => .inr⟩
  · rw [get?_modify] at he
    split at he
    · obtain ⟨e, hold, rfl⟩ := Option.map_eq_some_iff.mp he
      cases h.tended.calling k e hold hrunning
    · exact h.tended.calling g e he hrunning
  · exact Nat.lt_of_lt_of_le (h.known g hg) hlater.nextHandle

/-- **Timers that are due are served in order.** They are no descriptors, and
stay so while they wait. -/
theorem serveTimers (now : Nat) (due : List EventHandle) (h : Idle l₀ s)
    (hdue : ∀ k ∈ due, s.1.Unread k) : Idle l₀ (serveTimers b.observed.host now due s) := by
  induction due generalizing s with
  | nil => exact h
  | cons k rest ih =>
    obtain ⟨hk, hrest⟩ := List.forall_mem_cons.mp hdue
    rw [EventLoop.serveTimers]
    split
    · exact h
    · next hgoing =>
      have hmoved := h.advance now k
      obtain ⟨events, heq⟩ := s.1.modify_eq k fun e => { e with source := e.source.advance now }
      have hstill := (congrArg exitRequested heq).trans (Bool.eq_false_iff.mpr hgoing)
      have hserved := hmoved.idle.dispatch (b := b) (k := k) hstill fun e he hread => by
        rw [(hmoved.later.unread hk).2 e he] at hread
        cases hread
      exact ih hserved.idle fun g hg => hserved.later.unread (hmoved.later.unread (hrest g hg))

theorem nodup_polled (h : Idle l₀ s) (answers : List Readiness) :
    (((s.1.polled.map Prod.fst).zip answers).map Prod.fst).Nodup := by
  have hkeys : s.1.events.keys.Nodup := h.tended.ascending.imp Nat.ne_of_lt
  have hpolled : (s.1.polled.map Prod.fst).Sublist s.1.events.keys := by
    rw [polled, List.map_map]
    exact List.filter_sublist.map Prod.fst
  rw [List.zip_eq_zip_take_min, List.map_fst_zip (by simp)]
  exact (hkeys.sublist hpolled).sublist (List.take_sublist _ _)

theorem unread_due (h : Idle l₀ s) (now : Nat) : ∀ k ∈ s.1.due now, s.1.Unread k := by
  intro k hk
  obtain ⟨p, hp, rfl⟩ := List.mem_map.mp hk
  obtain ⟨hmem, hdue⟩ := List.mem_filter.mp hp
  refine ⟨h.tended.below p.1 (List.mem_map_of_mem hmem), fun e he => ?_⟩
  rw [h.tended.ascending.get?_of_mem hmem] at he
  cases he
  cases hsource : p.2.source with
  | timer => rfl
  | descriptor | signal =>
    rw [hsource] at hdue
    cases hdue

theorem poll (h : Idle l₀ s) {sources : List EventSource} {deadline : Option Nat}
    {answers : Except IoFailure (List Readiness)} {w : Observed κ σ}
    (hpoll : b.observed.host.poll sources deadline s.2 = (answers, w)) :
    Idle l₀ (s.1, w) ∧ readSincePoll w.past = [] := by
  cases hpoll
  have hpolled := h.tended.cons (x := .polled) trivial (by rintro _ _ ⟨⟩) (by rintro _ ⟨⟩) id
  exact ⟨⟨hpolled, h.known⟩, rfl⟩

/-- **A round is in order,** and where poll fails the loop stays as it is. -/
theorem round (h : Idle l₀ s) :
    Idle l₀ (round b.observed.host s).2 ∧
      ∀ e, (round b.observed.host s).1 = .error e → (round b.observed.host s).2.1 = s.1 := by
  unfold EventLoop.round
  dsimp only
  split
  · next e w hpoll => exact ⟨(h.poll hpoll).1, fun _ _ => rfl⟩
  · next answers w hpoll =>
    obtain ⟨hpolled, hround⟩ := h.poll hpoll
    have hserved := hpolled.serve (b := b) _ (h.nodup_polled answers) fun k _ => by
      rw [hround]
      exact List.not_mem_nil
    split
    · exact ⟨hserved, by rintro _ ⟨⟩⟩
    · exact ⟨hserved.serveTimers _ _ (hserved.unread_due _), by rintro _ ⟨⟩⟩

/-- Where a run ends by itself it has failed if some callback has. -/
theorem answer_iff (h : Idle l₀ s) : (.ok (!s.1.failed) : Except IoFailure Bool) = .ok false ↔
    ∃ k, .returned k false ∈ s.2.past := by
  rw [← h.tended.failed, Except.ok.injEq, Bool.not_eq_false']

theorem not_failed (h : Idle l₀ s)
    (hgoing : ¬ (s.1.exitRequested || s.1.events.isEmpty) = true) : s.1.failed = false :=
  h.tended.not_failed (Bool.or_eq_false_iff.mp (Bool.eq_false_iff.mpr hgoing)).1

/-- Where a run is broken off no callback has failed. -/
theorem broken_iff (h : Idle l₀ s) (hfailed : s.1.failed = false) (e : IoFailure) :
    (.error e : Except IoFailure Bool) = .ok false ↔ ∃ k, .returned k false ∈ s.2.past := by
  rw [← h.tended.failed, hfailed]
  exact iff_of_false (by rintro ⟨⟩) Bool.false_ne_true

/-- **A run is in order,** and it fails if a callback has failed. -/
theorem rounds (polls : Nat) (h : Idle l₀ s) :
    Idle l₀ (rounds b.observed.host polls s).2 ∧
      ((rounds b.observed.host polls s).1 = .ok false ↔
        ∃ k, .returned k false ∈ (rounds b.observed.host polls s).2.2.past) := by
  induction polls generalizing s with
  | zero =>
    unfold EventLoop.rounds
    split
    · exact ⟨h, h.answer_iff⟩
    · next hnot => exact ⟨h, h.broken_iff (h.not_failed hnot) _⟩
  | succ polls ih =>
    unfold EventLoop.rounds
    split
    · exact ⟨h, h.answer_iff⟩
    · next hnot =>
      obtain ⟨hround, hsame⟩ := h.round (b := b)
      dsimp only
      generalize EventLoop.round b.observed.host s = done at *
      obtain ⟨result, s'⟩ := done
      cases result with
      | error e =>
        have hfailed : s'.1.failed = s.1.failed := congrArg failed (hsame e rfl)
        exact ⟨hround, hround.broken_iff (hfailed.trans (h.not_failed hnot)) e⟩
      | ok _ => exact ih hround

end Idle

/-! ### Runs of a loop -/

/-- What a loop can come to by registering and deleting events and by runs,
whatever callbacks did in them and however long they were. -/
inductive EventLoop.Reached {κ : Type} : EventLoop κ → Prop where
  | new : Reached {}
  | act {l : EventLoop κ} (h : Reached l) (a : LoopAct κ) : Reached (a.perform l)
  | run {l : EventLoop κ} (h : Reached l) {σ : Type} (b : Reactions κ σ) (polls : Nat) (world : σ) :
    Reached (runFor b.host polls (l, world)).2.1

section Runs

variable {κ σ : Type} {l₀ l : EventLoop κ} {past : List (LoopEntry κ)}

theorem Tended.start (hascending : l.events.Ascending) (hbelow : ∀ h ∈ l.handles, h < l.nextHandle)
    (hidle : ∀ h e, l.events.get? h = some e → e.running = true → none = some h) :
    Tended l.begin none l.begin [] where
  orderly := .nil
  ascending := hascending
  below := hbelow
  calling := hidle
  listed _ _ hk := .inl hk
  later := Nat.le_refl _
  issued _ _ hk := absurd hk List.not_mem_nil
  gone _ hk := absurd hk List.not_mem_nil
  exit := iff_of_false Bool.false_ne_true fun hstops => List.not_mem_nil hstops.choose_spec.1
  failed := iff_of_false Bool.false_ne_true fun hfailed => List.not_mem_nil hfailed.choose_spec

theorem Tended.begin (h : Tended l₀ none l past) : Tended l.begin none l.begin [] :=
  .start h.ascending h.below h.calling

theorem Tended.idle (h : Tended l.begin none l.begin []) (world : σ) :
    Idle l.begin (l.begin, { world, known := l.handles }) := ⟨h, h.below⟩

theorem EventLoop.Reached.tended (h : l.Reached) : Tended l.begin none l.begin [] := by
  induction h with
  | new => exact .start .nil (List.forall_mem_nil _) (by rintro _ _ ⟨⟩)
  | @act l h a ih =>
    have hbegin : (a.perform l).begin = (a.perform l.begin).begin := by cases a <;> rfl
    rw [hbegin]
    exact (ih.act a).begin
  | @run l h σ b polls world ih =>
    have hsame := b.runFor_observed polls l { world, known := l.handles }
    rw [hsame]
    exact ((ih.idle world).rounds (b := b) polls).1.tended.begin

/-- **Callbacks run in order.** Whatever events are registered, whatever poll
finds, and whatever callbacks do to the loop, being listed does not change a
run, and what is listed is in order: only callbacks of registered events are
called, none after its event was deleted, handles are never used again, each
descriptor is served at most once between two polls, nothing is called after a
callback has failed or has asked for the end, and the answer of the run is
`false` just if some callback has failed. -/
theorem EventLoop.Reached.orderly (h : l.Reached) (b : Reactions κ σ) (world : σ) (polls : Nat) :
    let run := runFor b.observed.host polls (l, { world, known := l.handles })
    let past := run.2.2.past
    runFor b.host polls (l, world) = (run.1, run.2.1, run.2.2.world) ∧
      Orderly l past ∧ (∀ k ∈ l.handles, k < l.nextHandle) ∧
      (∀ k c, .added k c ∈ past → k < run.2.1.nextHandle) ∧
      (run.1 = .ok false ↔ ∃ k, .returned k false ∈ past) := by
  intro run past
  obtain ⟨hidle, hanswer⟩ := (h.tended.idle world).rounds (b := b) polls
  have horderly : Orderly l.begin past := hidle.tended.orderly
  refine ⟨b.runFor_observed polls l { world, known := l.handles }, ?_, h.tended.below,
    hidle.tended.issued, hanswer⟩
  exact ⟨horderly.alive, horderly.known, horderly.listed, horderly.fresh, horderly.new,
    horderly.once, horderly.stopped⟩

/-- Two descriptors have something to read. The callback of the first deletes
the second event, which is not called any more, and registers a third, whose
callback fails in the next round. -/
theorem EventLoop.Reached.orderly_deleting :
    let b : Reactions Nat (List (List Readiness)) := {
      poll := fun _ _ world => (.ok (world.headD []), world.tail)
      takeSignals := fun _ world => (0, world)
      now := fun _ => 0
      react := fun c s =>
        (if c = 0 then [.delete 1, .add (.descriptor 9) 1] else [], c = 0, s.2) }
    let l : EventLoop Nat :=
      LoopAct.perform (LoopAct.perform {} (.add (.descriptor 5) 0)) (.add (.descriptor 6) 0)
    let world : List (List Readiness) := [[.readable, .readable], [.idle, .readable]]
    let run := EventLoop.runFor b.observed.host 4 (l, { world, known := l.handles })
    run.1 = .ok false ∧ Orderly l run.2.2.past ∧
      run.2.2.past = [.returned 2 false, .called 2 (.descriptor 9) 1, .polled, .returned 0 true,
        .added 2 1, .deleted 1, .called 0 (.descriptor 5) 0, .polled] := by
  intro b l world run
  have hl : l.Reached := (EventLoop.Reached.new.act _).act _
  have hpast : run.2.2.past = [.returned 2 false, .called 2 (.descriptor 9) 1, .polled,
      .returned 0 true, .added 2 1, .deleted 1, .called 0 (.descriptor 5) 0, .polled] := by
    decide +kernel
  clear_value b l
  have h := hl.orderly b world 4
  have hfails : .returned 2 false ∈ run.2.2.past := hpast ▸ List.mem_cons_self
  exact ⟨h.2.2.2.2.mpr ⟨2, hfails⟩, h.2.1, hpast⟩

end Runs
end Profiler
