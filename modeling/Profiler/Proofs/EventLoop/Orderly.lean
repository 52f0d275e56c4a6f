/-
# The loop and what has happened to it

What happened to a loop is in order if a callback was called only while its event
was registered, no handle was given out twice, a descriptor was served once a
round, and nothing was called after a callback had asked for the end or had
failed (`Orderly`). The loop and the list of what happened go together
(`Tended`), and they do so through each thing that a callback does to the loop
(`Tended.acts`), the return of a callback (`Tended.returned`), and an event that
the loop drops (`Tended.miss`).

Key definitions: `LoopEntry.Stops`, `readSincePoll`, `Orderly`,
`LoopEntry.Follows`, `Later`, `Tended`.
Key theorems: `Orderly.cons`, `Tended.cons`, `Tended.act`, `Tended.acts`,
`Tended.returned`.
-/
import Profiler.Proofs.EventLoop.Observed
import Profiler.Proofs.OrderedMap

namespace Profiler

/-! ### Orderly runs -/

/-- A descriptor, which is served once a round. -/
def EventSource.isRead : EventSource → Bool
  | descriptor _ => true
  | _ => false

theorem EventSource.isRead_advance (now : Nat) (source : EventSource) :
    (source.advance now).isRead = source.isRead := by
  cases source <;> rfl

/-- From here on nothing is called. -/
def LoopEntry.Stops {κ : Type} : LoopEntry κ → Prop
  | exited | returned _ false => True
  | _ => False

/-- The events of descriptors that were called since the last poll. -/
def readSincePoll {κ : Type} : List (LoopEntry κ) → List EventHandle
  | [] => []
  | .polled :: _ => []
  | .called h source _ :: past =>
    if source.isRead then h :: readSincePoll past else readSincePoll past
  | _ :: past => readSincePoll past

def EventLoop.callback? {κ : Type} (l : EventLoop κ) (h : EventHandle) : Option κ :=
  (l.events.get? h).map LoopEvent.callback

/-- What happened since the loop was `l₀`, the last first, is in order. -/
structure Orderly {κ : Type} (l₀ : EventLoop κ) (past : List (LoopEntry κ)) : Prop where
  /-- No callback of a deleted event is called. -/
  alive : past.Pairwise fun later earlier =>
    ∀ h source c, later = .called h source c → earlier ≠ .deleted h
  /-- Every call is the call of an event. -/
  known : .stray ∉ past
  /-- What is called is the callback under which the event was registered. -/
  listed : ∀ h source c earlier, .called h source c :: earlier <:+ past →
    l₀.callback? h = some c ∨ .added h c ∈ earlier
  /-- Handles are not used again. -/
  fresh : past.Pairwise fun later earlier =>
    ∀ h c g d, later = .added h c → earlier = .added g d → g < h
  new : ∀ h c, .added h c ∈ past → l₀.nextHandle ≤ h
  /-- At every moment the descriptors that were served in this round are
  different ones. -/
  once : ∀ recent, recent <:+ past → (readSincePoll recent).Nodup
  /-- Nothing is called after the loop was to end. -/
  stopped : past.Pairwise fun later earlier =>
    ∀ h source c, later = .called h source c → ¬ earlier.Stops

section Orderly

variable {κ : Type} {l₀ : EventLoop κ} {past : List (LoopEntry κ)} {x : LoopEntry κ}

/-- What may be called is registered, has not been served in this round, and the
loop is not to end. -/
structure Callable (l₀ : EventLoop κ) (past : List (LoopEntry κ)) (h : EventHandle)
    (source : EventSource) (c : κ) : Prop where
  alive : .deleted h ∉ past
  listed : l₀.callback? h = some c ∨ .added h c ∈ past
  once : source.isRead = true → h ∉ readSincePoll past
  going : ∀ x ∈ past, ¬ x.Stops

/-- What may happen next: what is called may be called, and a handle that is
given out is a new one. -/
def LoopEntry.Follows (l₀ : EventLoop κ) (past : List (LoopEntry κ)) : LoopEntry κ → Prop
  | called h source c => Callable l₀ past h source c
  | stray => False
  | added h _ => l₀.nextHandle ≤ h ∧ ∀ g c, .added g c ∈ past → g < h
  | _ => True

theorem LoopEntry.Stops.follows (h : x.Stops) : x.Follows l₀ past := by
  cases x with
  | exited | returned => trivial
  | _ => exact h.elim

theorem Orderly.nil : Orderly l₀ [] where
  alive := .nil
  known := List.not_mem_nil
  listed _ _ _ _ h := absurd (List.suffix_nil.mp h) (List.cons_ne_nil _ _)
  fresh := .nil
  new _ _ h := absurd h List.not_mem_nil
  once recent h := by
    rw [List.suffix_nil.mp h]
    exact List.nodup_nil
  stopped := .nil

/-- Something more that happens in order. -/
theorem Orderly.cons (h : Orderly l₀ past) (hx : x.Follows l₀ past) : Orderly l₀ (x :: past) where
  alive := by
    refine List.pairwise_cons.mpr ⟨?_, h.alive⟩
    rintro _ hy k source c rfl rfl
    exact hx.alive hy
  known hmem := by
    rcases List.mem_cons.mp hmem with rfl | hmem
    · exact hx
    · exact h.known hmem
  listed k source c earlier hsuffix := by
    rcases List.suffix_cons_iff.mp hsuffix with heq | hsuffix
    · obtain ⟨rfl, rfl⟩ := List.cons.inj heq
      exact hx.listed
    · exact h.listed k source c earlier hsuffix
  fresh := by
    refine List.pairwise_cons.mpr ⟨?_, h.fresh⟩
    rintro _ hy k c g d rfl rfl
    exact hx.2 g d hy
  new k c hmem := by
    rcases List.mem_cons.mp hmem with rfl | hmem
    · exact hx.1
    · exact h.new k c hmem
  once recent hsuffix := by
    rcases List.suffix_cons_iff.mp hsuffix with rfl | hsuffix
    · have hpast := h.once past (List.suffix_refl past)
      cases x with
      | polled => exact List.nodup_nil
      | called k source c =>
        rw [readSincePoll]
        split
        · next hread => exact List.nodup_cons.mpr ⟨hx.once hread, hpast⟩
        · exact hpast
      | _ => exact hpast
    · exact h.once recent hsuffix
  stopped := by
    refine List.pairwise_cons.mpr ⟨?_, h.stopped⟩
    rintro y hy k source c rfl
    exact hx.going y hy

end Orderly

/-! ### Changes of a loop -/

namespace EventLoop

variable {κ : Type} (l : EventLoop κ)

section Modify

variable (k : EventHandle) (f : LoopEvent κ → LoopEvent κ)

theorem get?_modify (h : EventHandle) : (l.modify k f).events.get? h =
    if h = k then (l.events.get? k).map f else l.events.get? h := by
  unfold modify
  cases hk : l.events.get? k with
  | none =>
    dsimp only
    split
    · next heq => rw [heq, hk, Option.map_none]
    · rfl
  | some e =>
    dsimp only
    split
    · next heq => rw [heq, OrderedMap.get?_insert_self, Option.map_some]
    · next hne => rw [OrderedMap.get?_insert_of_ne _ _ (Ne.symm hne)]

theorem modify_eq : ∃ events, l.modify k f = { l with events } := by
  unfold modify
  split
  · exact ⟨_, rfl⟩
  · exact ⟨l.events, rfl⟩

theorem mem_handles_modify {h : EventHandle} : h ∈ (l.modify k f).handles ↔ h ∈ l.handles := by
  rw [handles, handles, OrderedMap.mem_keys_iff, OrderedMap.mem_keys_iff,
    ← Option.isSome_iff_exists, ← Option.isSome_iff_exists, get?_modify]
  split
  · next heq => rw [heq, Option.isSome_map]
  · rfl

theorem callback?_modify (hf : ∀ e, (f e).callback = e.callback) (h : EventHandle) :
    (l.modify k f).callback? h = l.callback? h := by
  rw [callback?, callback?, get?_modify]
  split
  · next heq =>
    rw [heq, Option.map_map]
    exact congrArg (Option.map · _) (funext hf)
  · rfl

theorem ascending_modify (h : l.events.Ascending) : (l.modify k f).events.Ascending := by
  unfold modify
  split
  · exact h.insert _ _
  · exact h

end Modify

/-- The only event whose callback runs. -/
theorem calling?_eq {k : EventHandle} {e : LoopEvent κ} (hascending : l.events.Ascending)
    (he : l.events.get? k = some e) (hrunning : e.running = true)
    (honly : ∀ h e, l.events.get? h = some e → e.running = true → h = k) :
    l.calling? = some (k, e.source) := by
  have hfound : ∀ p ∈ l.events.entries, p.2.running = true → p = (k, e) := fun p hp hrun => by
    have hget := hascending.get?_of_mem hp
    have hkey := honly p.1 p.2 hget hrun
    rw [hkey, he] at hget
    exact Prod.ext hkey (Option.some.inj hget).symm
  obtain ⟨p, hp, hpk⟩ := List.mem_map.mp (OrderedMap.mem_keys_iff.mpr ⟨e, he⟩)
  have hget := hascending.get?_of_mem hp
  have hpe : p.2 = e := Option.some.inj (hget.symm.trans (hpk ▸ he))
  cases hfind : l.events.entries.find? fun p => p.2.running with
  | none => exact absurd (hpe ▸ hrunning) (List.find?_eq_none.mp hfind p hp)
  | some q =>
    have hrun : q.2.running = true :=
      List.find?_some (p := fun p : EventHandle × LoopEvent κ => p.2.running) hfind
    have hq := hfound q (List.mem_of_find?_eq_some hfind) hrun
    rw [calling?, hfind, hq]
    rfl

end EventLoop

/-- What a loop knew of the handles it had given out holds later: those that are
still registered wait for the same kind of source. -/
structure Later {κ : Type} (l l' : EventLoop κ) : Prop where
  nextHandle : l.nextHandle ≤ l'.nextHandle
  kept : ∀ h < l.nextHandle, ∀ e', l'.events.get? h = some e' →
    ∃ e, l.events.get? h = some e ∧ e'.source.isRead = e.source.isRead

/-- A handle that was given out, and not for a descriptor. -/
def EventLoop.Unread {κ : Type} (l : EventLoop κ) (k : EventHandle) : Prop :=
  k < l.nextHandle ∧ ∀ e, l.events.get? k = some e → e.source.isRead = false

namespace Later

variable {κ : Type} {l l' l'' : EventLoop κ}

theorem refl (l : EventLoop κ) : Later l l := ⟨Nat.le_refl _, fun _ _ e' he => ⟨e', he, rfl⟩⟩

theorem trans (h : Later l l') (h' : Later l' l'') : Later l l'' where
  nextHandle := Nat.le_trans h.nextHandle h'.nextHandle
  kept k hk e'' he'' := by
    obtain ⟨e', he', hkind'⟩ := h'.kept k (Nat.lt_of_lt_of_le hk h.nextHandle) e'' he''
    obtain ⟨e, he, hkind⟩ := h.kept k hk e' he'
    exact ⟨e, he, hkind'.trans hkind⟩

theorem unread (h : Later l l') {k : EventHandle} (hk : l.Unread k) : l'.Unread k := by
  refine ⟨Nat.lt_of_lt_of_le hk.1 h.nextHandle, fun e' he' => ?_⟩
  obtain ⟨e, he, hkind⟩ := h.kept k hk.1 e' he'
  exact hkind.trans (hk.2 e he)

theorem modify (l : EventLoop κ) (k : EventHandle) {f : LoopEvent κ → LoopEvent κ}
    (hf : ∀ e, (f e).source.isRead = e.source.isRead) : Later l (l.modify k f) where
  nextHandle := by
    obtain ⟨events, heq⟩ := l.modify_eq k f
    exact Nat.le_of_eq (congrArg EventLoop.nextHandle heq).symm
  kept h _ e' he' := by
    rw [EventLoop.get?_modify] at he'
    split at he'
    · next heq =>
      obtain ⟨e, he, rfl⟩ := Option.map_eq_some_iff.mp he'
      exact ⟨e, heq ▸ he, hf e⟩
    · exact ⟨e', he', rfl⟩

theorem delete (l : EventLoop κ) (k : EventHandle) : Later l (l.delete k).2 where
  nextHandle := Nat.le_refl _
  kept h _ e' he' := by
    by_cases heq : k = h
    · subst heq
      rw [EventLoop.delete, OrderedMap.get?_erase_self] at he'
      cases he'
    · exact ⟨e', (OrderedMap.get?_erase_of_ne _ heq).symm.trans he', rfl⟩

theorem add (l : EventLoop κ) (source : EventSource) (callback : κ) :
    Later l (l.add source callback).2 where
  nextHandle := Nat.le_succ _
  kept _ hlt e' he' :=
    ⟨e', (OrderedMap.get?_insert_of_ne _ _ (Nat.ne_of_gt hlt)).symm.trans he', rfl⟩

theorem returned (l : EventLoop κ) (k : EventHandle) (ok : Bool) :
    let idle := l.modify k fun e => { e with running := false }
    Later l (if ok then idle else idle.fail) := by
  intro idle
  have hidle : Later l idle := modify l k fun _ => rfl
  cases ok with
  | true => exact hidle
  | false => exact ⟨hidle.nextHandle, hidle.kept⟩

theorem perform (l : EventLoop κ) (a : LoopAct κ) : Later l (a.perform l) := by
  cases a with
  | add source callback => exact add l source callback
  | delete h => exact delete l h
  | exit => exact ⟨Nat.le_refl _, fun _ _ e' he => ⟨e', he, rfl⟩⟩

end Later

/-! ### The loop and what happened -/

/-- The loop agrees with what happened since it was `l₀`; the callback of
`calling?` runs. -/
structure Tended {κ : Type} (l₀ : EventLoop κ) (calling? : Option EventHandle)
    (l : EventLoop κ) (past : List (LoopEntry κ)) : Prop where
  orderly : Orderly l₀ past
  ascending : l.events.Ascending
  below : ∀ h ∈ l.handles, h < l.nextHandle
  calling : ∀ h e, l.events.get? h = some e → e.running = true → calling? = some h
  listed : ∀ h c, l.callback? h = some c → l₀.callback? h = some c ∨ .added h c ∈ past
  later : l₀.nextHandle ≤ l.nextHandle
  issued : ∀ h c, .added h c ∈ past → h < l.nextHandle
  gone : ∀ h, .deleted h ∈ past → h < l.nextHandle ∧ h ∉ l.handles
  exit : l.exitRequested = true ↔ ∃ x ∈ past, x.Stops
  failed : l.failed = true ↔ ∃ h, .returned h false ∈ past

namespace Tended

variable {κ : Type} {l₀ l : EventLoop κ} {calling? : Option EventHandle} {past : List (LoopEntry κ)}

theorem not_stops (h : Tended l₀ calling? l past) (hgoing : l.exitRequested = false) :
    ∀ x ∈ past, ¬ x.Stops := fun x hx hstops => by
  rw [h.exit.mpr ⟨x, hx, hstops⟩] at hgoing
  cases hgoing

theorem not_failed (h : Tended l₀ calling? l past) (hgoing : l.exitRequested = false) :
    l.failed = false := by
  rw [← Bool.not_eq_true, h.failed]
  rintro ⟨k, hk⟩
  exact h.not_stops hgoing _ hk trivial

/-- Something happens that leaves the loop as it is. -/
theorem cons (h : Tended l₀ calling? l past) {x : LoopEntry κ} (hx : x.Follows l₀ past)
    (hadded : ∀ k c, x ≠ .added k c)
    (hdeleted : ∀ k, x = .deleted k → k < l.nextHandle ∧ k ∉ l.handles) (hgoing : ¬ x.Stops) :
    Tended l₀ calling? l (x :: past) where
  orderly := h.orderly.cons hx
  ascending := h.ascending
  below := h.below
  calling := h.calling
  listed k c hk := (h.listed k c hk).imp_right (List.mem_cons_of_mem x)
  later := h.later
  issued k c hk := by
    rcases List.mem_cons.mp hk with hx | hk
    · exact absurd hx.symm (hadded k c)
    · exact h.issued k c hk
  gone k hk := by
    rcases List.mem_cons.mp hk with hx | hk
    · exact hdeleted k hx.symm
    · exact h.gone k hk
  exit := by
    rw [h.exit]
    simp only [List.mem_cons, or_and_right, exists_or, exists_eq_left]
    exact (or_iff_right hgoing).symm
  failed := by
    rw [h.failed]
    refine exists_congr fun k => ⟨List.mem_cons_of_mem x, fun hmem => ?_⟩
    rcases List.mem_cons.mp hmem with rfl | hmem
    · exact absurd trivial hgoing
    · exact hmem

/-- An event changes, and which callback runs. -/
theorem modify (h : Tended l₀ calling? l past) {k : EventHandle}
    {f : LoopEvent κ → LoopEvent κ} (hf : ∀ e, (f e).callback = e.callback)
    {calling' : Option EventHandle}
    (hcalling : ∀ g e, (l.modify k f).events.get? g = some e → e.running = true →
      calling' = some g) : Tended l₀ calling' (l.modify k f) past := by
  obtain ⟨events, heq⟩ := l.modify_eq k f
  have hhandles : ∀ g, g ∈ (l.modify k f).handles ↔ g ∈ l.handles := fun g =>
    l.mem_handles_modify k f
  have hnext : (l.modify k f).nextHandle = l.nextHandle := by rw [heq]
  have hexit : (l.modify k f).exitRequested = l.exitRequested := by rw [heq]
  have hfailed : (l.modify k f).failed = l.failed := by rw [heq]
  exact {
    orderly := h.orderly
    ascending := l.ascending_modify k f h.ascending
    below := fun g hg => hnext ▸ h.below g ((hhandles g).mp hg)
    calling := hcalling
    listed := fun g c hg => h.listed g c ((l.callback?_modify k f hf g).symm.trans hg)
    later := hnext ▸ h.later
    issued := fun g c hg => hnext ▸ h.issued g c hg
    gone := fun g hg => ⟨hnext ▸ (h.gone g hg).1, fun hmem =>
      (h.gone g hg).2 ((hhandles g).mp hmem)⟩
    exit := hexit ▸ h.exit
    failed := hfailed ▸ h.failed }

/-- The loop drops an event. -/
theorem delete (h : Tended l₀ calling? l past) (k : EventHandle) :
    Tended l₀ calling? (l.delete k).2 past where
  orderly := h.orderly
  ascending := h.ascending.erase k
  below g hg := h.below g (OrderedMap.mem_keys_erase.mp hg).1
  calling g e he := by
    by_cases heq : k = g
    · rw [heq, EventLoop.delete, OrderedMap.get?_erase_self] at he
      cases he
    · exact h.calling g e ((OrderedMap.get?_erase_of_ne _ heq).symm.trans he)
  listed g c hg := by
    by_cases heq : k = g
    · rw [heq, EventLoop.callback?, EventLoop.delete, OrderedMap.get?_erase_self] at hg
      cases hg
    · rw [EventLoop.callback?, EventLoop.delete, OrderedMap.get?_erase_of_ne _ heq] at hg
      exact h.listed g c hg
  later := h.later
  issued := h.issued
  gone g hg := ⟨(h.gone g hg).1, fun hmem => (h.gone g hg).2 (OrderedMap.mem_keys_erase.mp hmem).1⟩
  exit := h.exit
  failed := h.failed

/-- A callback registers an event. -/
theorem add (h : Tended l₀ calling? l past) (source : EventSource) (callback : κ) :
    Tended l₀ calling? (l.add source callback).2 (.added l.nextHandle callback :: past) where
  orderly := h.orderly.cons ⟨h.later, h.issued⟩
  ascending := h.ascending.insert _ _
  below g hg := by
    rcases OrderedMap.mem_keys_insert.mp hg with rfl | hg
    · exact Nat.lt_succ_self _
    · exact Nat.lt_succ_of_lt (h.below g hg)
  calling g e he hrunning := by
    by_cases heq : l.nextHandle = g
    · subst heq
      cases (OrderedMap.get?_insert_self _ _ _).symm.trans he
      cases hrunning
    · exact h.calling g e ((OrderedMap.get?_insert_of_ne _ _ heq).symm.trans he) hrunning
  listed g c hg := by
    by_cases heq : l.nextHandle = g
    · subst heq
      rw [EventLoop.callback?, EventLoop.add, OrderedMap.get?_insert_self] at hg
      cases hg
      exact .inr List.mem_cons_self
    · rw [EventLoop.callback?, EventLoop.add, OrderedMap.get?_insert_of_ne _ _ heq] at hg
      exact (h.listed g c hg).imp_right (List.mem_cons_of_mem _)
  later := Nat.le_succ_of_le h.later
  issued g c hg := by
    rcases List.mem_cons.mp hg with heq | hg
    · cases heq
      exact Nat.lt_succ_self _
    · exact Nat.lt_succ_of_lt (h.issued g c hg)
  gone g hg := by
    have hpast : .deleted g ∈ past := (List.mem_cons.mp hg).resolve_left (by rintro ⟨⟩)
    obtain ⟨hlt, hgone⟩ := h.gone g hpast
    refine ⟨Nat.lt_succ_of_lt hlt, fun hmem => ?_⟩
    rcases OrderedMap.mem_keys_insert.mp hmem with heq | hmem
    · exact Nat.ne_of_lt hlt heq
    · exact hgone hmem
  exit := by
    refine h.exit.trans ?_
    simp only [List.mem_cons, or_and_right, exists_or, exists_eq_left]
    exact (or_iff_right id).symm
  failed := by
    refine h.failed.trans (exists_congr fun k => ?_)
    rw [List.mem_cons]
    exact (or_iff_right (by rintro ⟨⟩)).symm

/-- The loop is to end, for what a callback did or how it returned. -/
theorem stop (h : Tended l₀ calling? l past) {x : LoopEntry κ} (hx : x.Stops) {failed : Bool}
    (hfailed : failed = true ↔ ∃ k, .returned k false ∈ x :: past) :
    Tended l₀ calling? { l with exitRequested := true, failed } (x :: past) := by
  have hmem : ∀ {y}, y ∈ x :: past → ¬ y.Stops → y ∈ past := fun hy hgoing =>
    (List.mem_cons.mp hy).resolve_left fun heq => hgoing (heq ▸ hx)
  exact {
    orderly := h.orderly.cons hx.follows
    ascending := h.ascending
    below := h.below
    calling := h.calling
    listed := fun g c hg => (h.listed g c hg).imp_right (List.mem_cons_of_mem x)
    later := h.later
    issued := fun g c hg => h.issued g c (hmem hg id)
    gone := fun g hg => h.gone g (hmem hg id)
    exit := iff_of_true rfl ⟨x, List.mem_cons_self, hx⟩
    failed := hfailed }

/-- **Whatever a callback does keeps the loop tended.** -/
theorem act (h : Tended l₀ calling? l past) (a : LoopAct κ) :
    Tended l₀ calling? (a.perform l) (a.entries l ++ past) := by
  cases a with
  | add source callback => exact h.add source callback
  | delete k =>
    rw [LoopAct.entries]
    split
    · next hcontains =>
      have hk : k ∈ l.handles := OrderedMap.contains_eq_true_iff.mp hcontains
      refine (h.delete k).cons trivial (by rintro _ _ ⟨⟩) ?_ id
      rintro _ ⟨⟩
      exact ⟨h.below k hk, fun hmem => (OrderedMap.mem_keys_erase.mp hmem).2 rfl⟩
    · exact h.delete k
  | exit =>
    refine h.stop (x := .exited) trivial (h.failed.trans (exists_congr fun k => ?_))
    rw [List.mem_cons]
    exact (or_iff_right (by rintro ⟨⟩)).symm

theorem returned {k : EventHandle} (h : Tended l₀ (some k) l past) (ok : Bool) :
    let idle := l.modify k fun e => { e with running := false }
    Tended l₀ none (if ok then idle else idle.fail) (.returned k ok :: past) := by
  intro idle
  have hidle : Tended l₀ none idle past := h.modify (fun _ => by rfl) fun g e he hrunning => by
    rw [EventLoop.get?_modify] at he
    split at he
    · obtain ⟨e, -, rfl⟩ := Option.map_eq_some_iff.mp he
      cases hrunning
    · next hne => exact absurd (Option.some.inj (h.calling g e he hrunning)).symm hne
  cases ok with
  | true => exact hidle.cons trivial (by rintro _ _ ⟨⟩) (by rintro _ ⟨⟩) id
  | false =>
    exact hidle.stop (x := .returned k false) trivial (iff_of_true rfl ⟨k, List.mem_cons_self⟩)

/-- Events that the loop has dropped are found missing. -/
theorem miss (h : Tended l₀ calling? l past) : ∀ {gone : List EventHandle},
    (∀ k ∈ gone, k < l.nextHandle ∧ k ∉ l.handles) →
      Tended l₀ calling? l (gone.map .deleted ++ past)
  | [], _ => h
  | k :: gone, hgone => by
    obtain ⟨hk, hrest⟩ := List.forall_mem_cons.mp hgone
    refine (h.miss hrest).cons trivial (by rintro _ _ ⟨⟩) ?_ id
    rintro _ ⟨⟩
    exact hk

end Tended

/-! ### What is served in a round -/

section Reads

variable {κ : Type}

theorem readSincePoll_entries (l : EventLoop κ) (a : LoopAct κ) (past : List (LoopEntry κ)) :
    readSincePoll (a.entries l ++ past) = readSincePoll past := by
  cases a with
  | add | exit => rfl
  | delete k =>
    rw [LoopAct.entries]
    split <;> rfl

theorem readSincePoll_deleted (past : List (LoopEntry κ)) : ∀ gone : List EventHandle,
    readSincePoll (gone.map .deleted ++ past) = readSincePoll past
  | [] => rfl
  | _ :: gone => readSincePoll_deleted past gone

end Reads

/-- What a callback does, one thing after another, to a loop that is tended. -/
theorem Tended.acts {κ : Type} {l₀ : EventLoop κ} {calling? : Option EventHandle} :
    ∀ (acts : List (LoopAct κ)) {l : EventLoop κ} {past : List (LoopEntry κ)},
      Tended l₀ calling? l past →
      ∃ past', acts.foldl LoopAct.note (l, past) = (acts.foldl LoopAct.perform l, past') ∧
        Tended l₀ calling? (acts.foldl LoopAct.perform l) past' ∧
        Later l (acts.foldl LoopAct.perform l) ∧ readSincePoll past' = readSincePoll past
  | [], l, past, h => ⟨past, rfl, h, .refl l, rfl⟩
  | a :: acts, l, past, h => by
    obtain ⟨past', hnote, htended, hlater, hread⟩ := Tended.acts acts (h.act a)
    exact ⟨past', hnote, htended, (Later.perform l a).trans hlater,
      hread.trans (readSincePoll_entries l a past)⟩

end Profiler
