/-
# What the steps of a recording keep

A call is a sequence of steps of a few kinds. Some show neither in the
descriptors and the kept readings of a set nor in what happened
(`Session.account`), some only happen outside, some forget the descriptors on
cpus, and some are attempts to open groups. So a property that steps of these
kinds keep (`Recording.Upkeep`) is kept by every call, also where it fails half
way, but for the few steps that add a group or a thread and that read counters.

Key definitions: `Session.account`, `Happening.isReading`, `Recording.Upkeep`.
Key theorems: `Recording.Upkeep.keeps_enterCpus`, `Recording.Upkeep.keeps_leaveCpu`,
`Recording.Upkeep.keeps_followCpus`, `Recording.Upkeep.keeps_call`.
-/
import Profiler.Proofs.Recording.Opening

namespace Profiler

/-- Whether a counter was read. -/
def Happening.isReading : Happening → Bool
  | counted .. => true
  | _ => false

namespace SelectionSet

/-- Whether events are only counted, what each selection has, without the
buffers of its descriptors, and the threads. -/
def account (s : SelectionSet) :
    Bool × List (List (List EventFile × List CounterInfo)) × OrderedMap Pid Unit :=
  (s.counting, s.groups.map fun g => g.map fun x => (x.files.map EventFile.unmapped, x.kept),
    s.threads)

theorem account_mapSelections (s : SelectionSet) {f : Selection → Selection}
    (hfiles : ∀ x, (f x).files.map EventFile.unmapped = x.files.map EventFile.unmapped)
    (hkept : ∀ x, (f x).kept = x.kept) : (s.mapSelections f).account = s.account := by
  refine congrArg (fun groups => (s.counting, groups, s.threads)) ?_
  rw [mapSelections, List.map_map]
  refine List.map_congr_left fun group _ => ?_
  show List.map _ (group.map f) = _
  rw [List.map_map]
  exact List.map_congr_left fun x _ => Prod.ext (hfiles x) (hkept x)

theorem account_updateFile (s : SelectionSet) (d : Descriptor) {f : EventFile → EventFile}
    (hf : ∀ file, (f file).unmapped = file.unmapped) : (s.updateFile d f).account = s.account := by
  refine s.account_mapSelections (fun x => ?_) fun _ => rfl
  show List.map _ (x.files.map _) = _
  rw [List.map_map]
  refine List.map_congr_left fun file _ => ?_
  show EventFile.unmapped (if _ then _ else _) = _
  split
  · exact hf file
  · rfl

end SelectionSet

/-- What the set has, and what happened. -/
def Session.account {ω : Type} (s : Session (Traced ω)) :
    (Bool × List (List (List EventFile × List CounterInfo)) × OrderedMap Pid Unit) × Nat × Trace :=
  (s.set.account, s.world.count, s.world.trace)

namespace Recording

open Effect (Keeps Leaves keeps_pure keeps_refuse keeps_ofExcept)

variable {ω : Type} (host : Host ω)

theorem loopless_account : Loopless (ω := Traced ω) Session.account := fun _ _ _ => rfl

theorem bufferless_account : host.traced.Bufferless Session.account where
  toQuiet := host.quiet_traced.of fun v => (v.1.account, v.2.2)
  updateFile d _ hf s :=
    congrArg (·, s.world.count, s.world.trace) (s.set.account_updateFile d hf)
  pages _ _ := rfl

/-- A property that steps of each kind keep: those that the account does not
show, those that happen outside, and those that forget descriptors or try to
open some. -/
structure Upkeep (P : Session (Traced ω) → Prop) : Prop where
  of_account : ∀ s s', s'.account = s.account → P s → P s'
  happened : ∀ (s s' : Session (Traced ω)) (x : Happening), x.isOpening = false →
    x.isReading = false → s'.set = s.set → s.Went s' 0 [x] → P s → P s'
  forget : ∀ keep : Nat → Bool, Keeps P (modifySet (·.mapSelections fun x =>
    { x with files := x.files.filter fun f => keep f.cpu }))
  tried : ∀ {change : Attr → Attr} {s s' : Session (Traced ω)} {as : List Attempt},
    s.Tried change s' as → P s → P s'

namespace Upkeep

variable {P : Session (Traced ω) → Prop} (h : Upkeep P)

include h

/-! ### Single steps -/

theorem keeps_of_leaves {α : Type} {x : Recording (Traced ω) α}
    (hx : Leaves Session.account x) : Keeps P x := hx.keeps h.of_account

theorem keeps_modifySet {f : SelectionSet → SelectionSet}
    (hf : ∀ set, (f set).account = set.account) : Keeps P (modifySet f) :=
  h.keeps_of_leaves fun s => congrArg (·, s.world.count, s.world.trace) (hf s.set)

theorem keeps_mapAttrs (f : Attr → Attr) : Keeps P (modifySet (·.mapAttrs f)) :=
  h.keeps_modifySet fun set => set.account_mapSelections (fun _ => rfl) fun _ => rfl

theorem of_went {s s' : Session (Traced ω)} {τ : Trace} (hset : s'.set = s.set)
    (hwent : s.Went s' 0 τ)
    (hτ : τ = [] ∨ ∃ x, τ = [x] ∧ x.isOpening = false ∧ x.isReading = false) (hs : P s) :
    P s' := by
  rcases hτ with rfl | ⟨x, rfl, hopening, hreading⟩
  · refine h.of_account s s' ?_ hs
    rw [Session.account, hset, hwent.count, hwent.trace]
    rfl
  · exact h.happened s s' x hopening hreading hset hwent hs

theorem keeps_close (d : Descriptor) : Keeps P (outside' (host.traced.close d)) := fun s hs => by
  obtain ⟨s', heq, hset, hwent⟩ := close_outcome host d s
  rw [heq]
  exact h.of_went hset hwent (.inr ⟨_, rfl, rfl, rfl⟩) hs

theorem keeps_note (n : Notice) : Keeps P (outside' (host.traced.note n)) := fun s hs => by
  obtain ⟨s', heq, hset, hwent⟩ := note_outcome host n s
  rw [heq]
  exact h.of_went hset hwent (.inr ⟨_, rfl, rfl, rfl⟩) hs

theorem keeps_drain (d : Descriptor) : Keeps P (outside (host.traced.drain d)) := fun s hs => by
  rcases drain_outcome host d s with ⟨s', heq, hset, hwent⟩ | ⟨e, s', heq, hset, hwent⟩
  · rw [heq]
    exact h.of_went hset hwent (.inr ⟨_, rfl, rfl, rfl⟩) hs
  · rw [heq]
    exact h.of_went hset hwent (.inl rfl) hs

theorem keeps_deliver (r : Record) : Keeps P (deliver host.traced r) := fun s hs => by
  obtain ⟨more, s', heq, hset, hwent⟩ := deliver_outcome host r s
  rw [heq]
  split at hwent
  · exact h.of_went hset hwent (.inr ⟨_, rfl, rfl, rfl⟩) hs
  · exact h.of_went hset hwent (.inl rfl) hs

theorem keeps_drainCpu (cpu : Nat) : Keeps P (drainCpu host.traced cpu) :=
  Recording.keeps_drainCpu _ (h.keeps_drain host) (h.keeps_deliver host) cpu

/-! ### Opening and closing -/

theorem keeps_closeAll : ∀ files, Keeps P (closeAll host.traced files)
  | [] => keeps_pure ()
  | file :: rest => (h.keeps_close host file.descriptor).bind fun _ => keeps_closeAll rest

theorem keeps_closeOn (cpu : Nat) : Keeps P (closeOn host.traced cpu) :=
  keeps_getSet.bind fun _ => (h.keeps_closeAll host _).bind fun _ => h.forget (· != cpu)

theorem keeps_closeEvents : Keeps P (closeEvents host.traced) := by
  have hall : Keeps P (modifySet (·.mapSelections fun x => { x with files := [] })) := by
    have hnone := h.forget fun _ => false
    simp only [List.filter_false] at hnone
    exact hnone
  exact keeps_getSet.bind fun _ => (h.keeps_closeAll host _).bind fun _ => hall

theorem keeps_targetThreads : Keeps P (targetThreads host.traced) :=
  h.keeps_of_leaves (leaves_targetThreads (bufferless_account host).toQuiet)

theorem keeps_openPairs (cpus : List Nat) (pairs : List (Nat × Pid)) :
    Keeps P (openPairs host.traced cpus pairs) := by
  intro s hs
  obtain ⟨as, s', htried, ⟨heq, -⟩ | ⟨e, heq⟩⟩ := openPairs_outcome host cpus pairs s
  · rw [heq]
    exact h.tried htried hs
  · rw [heq]
    exact h.tried htried hs

theorem keeps_reopenPairs (cpu : Nat) (pairs : List (Nat × Pid)) :
    Keeps P (reopenPairs host.traced cpu pairs) := by
  intro s hs
  obtain ⟨as, s', heq, htried, -⟩ := reopenPairs_outcome host cpu pairs s
  rw [heq]
  exact h.tried htried hs

theorem keeps_routeIds : Keeps P routeIds := by
  refine h.keeps_of_leaves fun s => ?_
  obtain ⟨r, decodeAttrs, attrOfId, idPositions, heq⟩ := routeIds_outcome s
  rw [heq]
  rfl

theorem keeps_openEvents (cpus : List Nat) : Keeps P (openEvents host.traced cpus) := by
  have hopen : ∀ cpus, Keeps P (openOn host.traced cpus) := fun cpus =>
    (h.keeps_targetThreads host).bind fun threads => (keeps_refuse _).guard <|
      keeps_getSet.bind fun set => (h.keeps_openPairs host cpus _).bind fun _ => h.keeps_routeIds
  rw [openEvents_eq]
  refine (h.keeps_of_leaves (bufferless_account host).onlineCpus).bind fun online => ?_
  cases cpus.find? fun c => !online.contains c with
  | some cpu => exact (keeps_refuse _).bind fun _ => hopen _
  | none => exact hopen _

/-! ### The events and the loop -/

/-- Adding events keeps what adding a group without descriptors and readings
keeps. -/
theorem keeps_addGroup
    (happend : ∀ group : List Selection, (∀ x ∈ group, x.files = [] ∧ x.kept = []) →
      Keeps P (modifySet fun set => { set with groups := set.groups ++ [group] }))
    (names : List String) : Keeps P (addGroup host.traced names) := by
  rw [addGroup]
  refine (keeps_refuse _).guard ?_
  refine (h.keeps_of_leaves (leaves_selectAll (bufferless_account host).toQuiet [] names)
    ).bind_of_gives (gives_selectAll host.traced [] names (List.forall_mem_nil _))
    fun group hgroup => fun s hs => ?_
  have hnone : ∀ x ∈ group, x.files = [] ∧ x.kept = [] := fun x hx => by rw [hgroup x hx]; simp
  exact h.keeps_modifySet (f := SelectionSet.uniteSampleTypes)
    (fun set => set.account_mapSelections (fun _ => rfl) fun _ => rfl) _
    (happend group hnone s hs)

theorem keeps_applyIfSupported (feature : String) (change : Attr → Attr) :
    Keeps P (applyIfSupported host.traced feature change) := by
  rw [applyIfSupported]
  exact keeps_getSet.bind fun set => (h.keeps_of_leaves
    (leaves_checkSupported (bufferless_account host).toQuiet feature change _)).bind fun _ =>
      h.keeps_mapAttrs change

theorem keeps_watchBuffer (cpu : Nat) : Keeps P (watchBuffer cpu) :=
  h.keeps_of_leaves (leaves_watchBuffer loopless_account cpu)

theorem keeps_attach : Keeps P attach := by
  refine Keeps.bind ?_ fun _ => keeps_getSet.bind fun set =>
    h.keeps_of_leaves (leaves_watchBuffers loopless_account _)
  exact h.keeps_modifySet fun _ => rfl

theorem keeps_watchCpus (cpus : List Nat) (interval : Nat) :
    Keeps P (watchCpus host.traced cpus interval) := by
  have hquiet := (bufferless_account host).toQuiet
  rw [watchCpus]
  refine Keeps.bind ?_ fun _ => (h.keeps_of_leaves hquiet.onlineCpus).bind fun online =>
    Keeps.bind ?_ fun _ => ?_
  · exact h.keeps_modifySet fun _ => rfl
  · exact h.keeps_modifySet fun _ => rfl
  · exact (h.keeps_of_leaves (leaves_addTimer loopless_account _ _ _)).bind fun _ => keeps_pure ()

/-! ### Following the cpus -/

theorem keeps_announce (cpu : Nat) : Keeps P (announce host.traced cpu) :=
  Recording.keeps_announce _ (fun _ => h.keeps_modifySet fun _ => rfl) (h.keeps_deliver host)
    (h.keeps_watchBuffer cpu)

theorem keeps_enterCpu (cpu : Nat) : Keeps P (enterCpu host.traced cpu) :=
  Recording.keeps_enterCpu (h.keeps_targetThreads host) (h.keeps_reopenPairs host cpu)
    (h.keeps_of_leaves (leaves_activateCpu (bufferless_account host) cpu))
    (h.keeps_closeOn host cpu) (h.keeps_announce host cpu)

theorem keeps_enterCpus (cpus : List Nat) : Keeps P (enterCpus host.traced cpus) :=
  Recording.keeps_enterCpus (h.keeps_note host) (h.keeps_enterCpu host) cpus

section Readings

variable (hread : ∀ d, Keeps P (outside (host.traced.readCounter d)))

include hread

theorem keeps_leaveCpu (hkeep : ∀ d info, Keeps P (modifySet (·.keepReading d info)))
    (cpu : Nat) : Keeps P (leaveCpu host.traced cpu) :=
  Recording.keeps_leaveCpu hread hkeep
    (h.keeps_of_leaves (leaves_unwatchBuffer loopless_account cpu)) (h.keeps_drainCpu host cpu)
    (h.keeps_closeOn host cpu)

/-- **Following the cpus keeps** what reading counters and keeping the readings
keep, too. -/
theorem keeps_followCpus (hkeep : ∀ d info, Keeps P (modifySet (·.keepReading d info))) :
    Keeps P (followCpus host.traced) :=
  Recording.keeps_followCpus (h.keeps_of_leaves (bufferless_account host).onlineCpus)
    (h.keeps_note host) (h.keeps_leaveCpu host hread hkeep) (h.keeps_enterCpu host)
    fun _ => h.keeps_modifySet fun _ => rfl

/-- **A call keeps** what its own steps keep: those that read counters, add a
group or a thread, and follow the cpus. -/
theorem keeps_call
    (happend : ∀ group : List Selection, (∀ x ∈ group, x.files = [] ∧ x.kept = []) →
      Keeps P (modifySet fun set => { set with groups := set.groups ++ [group] }))
    (hthread : ∀ tid, Keeps P (modifySet (·.addThread tid))) {c : Call}
    (hfollow : c = .followCpus → Keeps P (followCpus host.traced)) :
    Keeps P (c.run host.traced) := by
  have hview := bufferless_account host
  cases c with
  | addGroup names => exact h.keeps_addGroup host happend names
  | setSampleFreq freq => exact h.keeps_mapAttrs _
  | setSamplePeriod period => exact h.keeps_mapAttrs _
  | useDefaultSampleFreq =>
    exact h.keeps_modifySet fun set => set.account_mapSelections (fun _ => rfl) fun _ => rfl
  | setEnableOnExec on => exact h.keeps_mapAttrs _
  | setSampleIdAll => exact h.keeps_mapAttrs _
  | setInherit on => exact h.keeps_mapAttrs _
  | setLowWatermark => exact h.keeps_mapAttrs _
  | setBranchSampling mask => exact (keeps_refuse _).guard (h.keeps_applyIfSupported host _ _)
  | enableFramePointerChains => exact h.keeps_applyIfSupported host _ _
  | enableDwarfChains size => exact (keeps_refuse _).guard (h.keeps_applyIfSupported host _ _)
  | addProcess pid => exact h.keeps_modifySet fun _ => rfl
  | addThread tid => exact hthread tid
  | openEvents cpus => exact h.keeps_openEvents host cpus
  | enableEvents =>
    exact keeps_getSet.bind fun _ => h.keeps_of_leaves (leaves_forFiles hview.enable _)
  | disableEvents =>
    exact keeps_getSet.bind fun _ => h.keeps_of_leaves (leaves_forFiles hview.disable _)
  | readCounters => exact (keeps_readCounters hread).bind fun _ => keeps_pure ()
  | mapEvents least most => exact h.keeps_of_leaves (leaves_mapEvents hview least most)
  | attach => exact h.keeps_attach
  | watchCpus cpus interval => exact h.keeps_watchCpus host cpus interval
  | drainCpu cpu => exact (h.keeps_drainCpu host cpu).bind fun _ => keeps_pure ()
  | finish => exact (keeps_finish _ (h.keeps_drainCpu host)).bind fun _ => keeps_pure ()
  | followCpus => exact (hfollow rfl).bind fun _ => keeps_pure ()
  | closeEvents => exact h.keeps_closeEvents host

end Readings

end Upkeep
end Recording
end Profiler
