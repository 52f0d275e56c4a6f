/-
# What a recording can be asked to do

A set of events is built up, opened, and followed by calls that come in any
order and may fail (`Recording.Call`), while the outside goes its own way
(`Host.Reached`). Every attr of a set that samples asks for a last part in
each record (`Host.Reached.sampling`), and a set whose events have been opened
decodes with the attrs, the ids and the id positions that files list
(`Host.Opened.settled`).

Key definitions: `Recording.Call`, `Recording.Call.run`,
`Recording.Call.Steady`, `Host.Reached`, `Host.Opened`,
`SelectionSet.Sampling`, `SelectionSet.Settled`.
Key theorems: `Recording.Call.keeps_sampling`, `Host.Reached.sampling`,
`Recording.Call.leaves_prepare`, `Host.Opened.settled`.
-/
import Profiler.File.Opened
import Profiler.Proofs.Attr
import Profiler.Proofs.Recording.Following

namespace Profiler

/-! ### What every event starts with -/

theorem EventType.has_sampleIdAll (t : EventType) : t.attr.has .sampleIdAll = true := by
  unfold EventType.attr
  split
  · rw [Attr.has_setSamplePeriod, Attr.has_addSampleFields, Attr.has_set_self]
  · rw [Attr.has_setSampleFreq, Attr.has_set_self]

theorem EventSpec.has_sampleIdAll (e : EventSpec) : e.attr.has .sampleIdAll = true := by
  rw [EventSpec.attr, EventSpec.applyTo, Attr.has_setPreciseIp]
  simp only [Attr.has_set_of_ne, ne_eq, reduceCtorEq, not_false_eq_true,
    e.eventType.has_sampleIdAll]

/-! ### Calls -/

namespace Recording

/-- What a recording can be asked to do. -/
inductive Call where
  | addGroup (names : List String)
  | setSampleFreq (freq : UInt64)
  | setSamplePeriod (period : UInt64)
  | useDefaultSampleFreq
  | setEnableOnExec (on : Bool)
  | setSampleIdAll
  | setInherit (on : Bool)
  | setLowWatermark
  | setBranchSampling (mask : UInt64)
  | enableFramePointerChains
  | enableDwarfChains (size : Nat)
  | addProcess (pid : UInt32)
  | addThread (tid : Pid)
  | openEvents (cpus : List Nat)
  | enableEvents
  | disableEvents
  | readCounters
  | mapEvents (least most : Nat)
  | attach
  | watchCpus (cpus : List Nat) (interval : Nat)
  | drainCpu (cpu : Nat)
  | finish
  | followCpus
  | closeEvents
  deriving Repr

namespace Call

variable {ω : Type} (host : Host ω)

/-- The call, without its result. -/
def run : Call → Recording ω Unit
  | addGroup names => Recording.addGroup host names
  | setSampleFreq freq => modifySet (·.setSampleFreq freq)
  | setSamplePeriod period => modifySet (·.setSamplePeriod period)
  | useDefaultSampleFreq => modifySet (·.useDefaultSampleFreq)
  | setEnableOnExec on => modifySet (·.setEnableOnExec on)
  | setSampleIdAll => modifySet (·.setSampleIdAll)
  | setInherit on => modifySet (·.setInherit on)
  | setLowWatermark => modifySet (·.setLowWatermark)
  | setBranchSampling mask => Recording.setBranchSampling host mask
  | enableFramePointerChains => Recording.enableFramePointerChains host
  | enableDwarfChains size => Recording.enableDwarfChains host size
  | addProcess pid => modifySet (·.addProcess pid)
  | addThread tid => modifySet (·.addThread tid)
  | openEvents cpus => Recording.openEvents host cpus
  | enableEvents => Recording.enableEvents host
  | disableEvents => Recording.disableEvents host
  | readCounters => do let _ ← Recording.readCounters host
  | mapEvents least most => Recording.mapEvents host least most
  | attach => Recording.attach
  | watchCpus cpus interval => Recording.watchCpus host cpus interval
  | drainCpu cpu => do let _ ← Recording.drainCpu host cpu
  | finish => do let _ ← Recording.finish host
  | followCpus => do let _ ← Recording.followCpus host
  | closeEvents => Recording.closeEvents host

/-- The calls that change neither how records are decoded nor what has been
drained and handed on. -/
def Steady : Call → Prop
  | addProcess _ | addThread _ | enableEvents | disableEvents | readCounters | mapEvents _ _
  | watchCpus _ _ => True
  | _ => False

/-- The calls between opening the events and following the cpus: they change
neither the events nor their descriptors. -/
def Prepares : Call → Prop
  | attach | drainCpu _ | finish => True
  | c => c.Steady

/-- The calls while a recording goes on: buffers are drained, and cpus that
have come or gone are followed. -/
def Follows : Call → Prop
  | drainCpu _ | finish | followCpus => True
  | c => c.Steady

end Call

end Recording

section Histories

variable {ω : Type} (host : Host ω)

/-- Where calls have brought a set that samples, whatever came of them and
whatever happened outside. -/
inductive Host.Reached : Session ω → Prop where
  | start (world : ω) (loop : EventLoop RecordingTask) : Reached { world, loop }
  | call {s : Session ω} (h : Reached s) (c : Recording.Call) : Reached (c.run host s).2
  | outside {s : Session ω} (h : Reached s) (world : ω) (loop : EventLoop RecordingTask) :
    Reached { s with world, loop }

/-- The events of the set have been opened, and it may have been prepared for
recording since. -/
inductive Host.Opened : Session ω → Prop where
  | opened {s : Session ω} (h : host.Reached s) (cpus : List Nat)
    (hok : (Recording.openEvents host cpus s).1 = .ok ()) :
    Opened (Recording.openEvents host cpus s).2
  | call {s : Session ω} (h : Opened s) (c : Recording.Call) (hc : c.Prepares) :
    Opened (c.run host s).2
  | outside {s : Session ω} (h : Opened s) (world : ω) (loop : EventLoop RecordingTask) :
    Opened { s with world, loop }

end Histories

/-! ### Sets that sample -/

/-- Events are sampled, and their records end with a last part. -/
structure SelectionSet.Sampling (s : SelectionSet) : Prop where
  counting : s.counting = false
  sampleIdAll : ∀ a ∈ s.attrs, a.has .sampleIdAll = true

/-- Records are decoded with the attrs, the ids and the id positions that files
list. -/
structure SelectionSet.Settled (s : SelectionSet) : Prop where
  decodeAttrs : s.decodeAttrs = s.attrs
  attrOfId : s.attrOfId = RecordFile.tableOfIds s.attrsWithIds
  positions : if 1 < s.attrs.length
    then ∃ p, commonIdPositions s.attrs = .ok p ∧ s.idPositions = some p
    else s.idPositions = none

namespace SelectionSet

variable {s s' : SelectionSet}

/-- How records are decoded, and what files list of the attrs. -/
def described (s : SelectionSet) : Routing × List AttrWithIds := (s.routing, s.attrsWithIds)

theorem Sampling.of_routed (h : s.Sampling) (heq : s'.routed = s.routed) : s'.Sampling := by
  simp only [routed, routing, Prod.mk.injEq, Routing.mk.injEq] at heq
  obtain ⟨⟨hcounting, -, -, -⟩, -, hattrs⟩ := heq
  exact ⟨hcounting.trans h.counting, hattrs ▸ h.sampleIdAll⟩

theorem Sampling.of_described (h : s.Sampling) (heq : s'.described = s.described) :
    s'.Sampling := by
  simp only [described, routing, Prod.mk.injEq, Routing.mk.injEq] at heq
  obtain ⟨⟨hcounting, -, -, -⟩, hattrs⟩ := heq
  exact ⟨hcounting.trans h.counting, attrs_eq_of_attrsWithIds hattrs ▸ h.sampleIdAll⟩

theorem Sampling.mapSelections (h : s.Sampling) {f : Selection → Selection}
    (hf : ∀ x, x.attr.has .sampleIdAll = true → (f x).attr.has .sampleIdAll = true) :
    (s.mapSelections f).Sampling := by
  refine ⟨h.counting, fun a ha => ?_⟩
  rw [attrs, selections_mapSelections, List.map_map] at ha
  obtain ⟨x, hx, rfl⟩ := List.mem_map.mp ha
  exact hf x (h.sampleIdAll _ (List.mem_map_of_mem hx))

theorem Sampling.mapAttrs (h : s.Sampling) {f : Attr → Attr}
    (hf : ∀ a, a.has .sampleIdAll = true → (f a).has .sampleIdAll = true) :
    (s.mapAttrs f).Sampling := h.mapSelections fun x => hf x.attr

theorem Sampling.uniteSampleTypes (h : s.Sampling) : s.uniteSampleTypes.Sampling := by
  rw [SelectionSet.uniteSampleTypes]
  exact h.mapAttrs fun _ ha => ha

theorem Sampling.append (h : s.Sampling) {group : List Selection}
    (hgroup : ∀ x ∈ group, x.attr.has .sampleIdAll = true) :
    ({ s with groups := s.groups ++ [group] } : SelectionSet).Sampling := by
  refine ⟨h.counting, fun a ha => ?_⟩
  rw [attrs, selections, List.flatten_append, List.map_append, List.flatten_singleton] at ha
  rcases List.mem_append.mp ha with ha | ha
  · exact h.sampleIdAll a ha
  · obtain ⟨x, hx, rfl⟩ := List.mem_map.mp ha
    exact hgroup x hx

theorem Settled.of_described (h : s.Settled) (heq : s'.described = s.described) :
    s'.Settled := by
  simp only [described, routing, Prod.mk.injEq, Routing.mk.injEq] at heq
  obtain ⟨⟨-, hdecode, hids, hpositions⟩, hlisted⟩ := heq
  have hattrs := attrs_eq_of_attrsWithIds hlisted
  refine ⟨?_, ?_, ?_⟩
  · rw [hdecode, hattrs, h.decodeAttrs]
  · rw [hids, hlisted, h.attrOfId]
  · rw [hattrs, hpositions]
    exact h.positions

/-- The set decodes with its attrs, by the ids of its descriptors. -/
def ownRouting (s : SelectionSet) : SelectionSet :=
  { s with decodeAttrs := s.attrs, attrOfId := OrderedMap.ofList s.idEntries }

/-- The table of a set is that of a file with its attrs. -/
theorem ofList_idEntries (s : SelectionSet) :
    OrderedMap.ofList s.idEntries = RecordFile.tableOfIds s.attrsWithIds := by
  refine congrArg OrderedMap.ofList ?_
  rw [idEntries, attrsWithIds, List.zipIdx_map, List.flatMap_map]
  refine congrArg (fun f => List.flatMap f _) (funext fun p => ?_)
  show p.1.files.map _ = (p.1.files.map EventFile.id).map _
  rw [List.map_map]
  rfl

end SelectionSet

namespace Recording

variable {ω υ : Type} (host : Host ω)

open Effect (Keeps Leaves Gives keeps_pure keeps_refuse keeps_ofExcept leaves_pure leaves_refuse
  leaves_throw leaves_ofExcept gives_bind gives_guard gives_pure)

/-! ### Adding events -/

section Quiet

variable {host} {V : Session ω → υ} (hquiet : host.Quiet V)

include hquiet

theorem leaves_findEvent? (name : String) : Leaves V (findEvent? host name) := by
  rw [findEvent?]
  split
  · exact (hquiet.tracepointId? _ _).bind fun id? => leaves_pure _
  · exact leaves_pure _

theorem leaves_parseEvent (text : String) : Leaves V (parseEvent host text) := by
  rw [parseEvent]
  refine (leaves_findEvent? hquiet text).bind fun whole => ?_
  dsimp only
  split
  · exact (leaves_findEvent? hquiet _).bind fun named => leaves_ofExcept _
  · exact leaves_ofExcept _

theorem leaves_select (name : String) (pending : List Selection) :
    Leaves V (select host name pending) := by
  rw [select]
  refine (leaves_parseEvent hquiet name).bind fun event => (hquiet.isSupported _).bind fun ok => ?_
  exact (leaves_throw _).guard <| leaves_getSet.bind fun set =>
    (leaves_refuse _).guard (leaves_pure _)

theorem leaves_selectAll : ∀ pending names, Leaves V (selectAll host pending names)
  | _, [] => leaves_pure _
  | pending, name :: rest => (leaves_select hquiet name pending).bind fun _ =>
      leaves_selectAll _ rest

theorem leaves_checkSupported (feature : String) (change : Attr → Attr) : ∀ xs,
    Leaves V (checkSupported host feature change xs)
  | [] => leaves_pure ()
  | x :: rest => by
    rw [checkSupported]
    exact (hquiet.isSupported _).bind fun ok => (leaves_throw _).guard
      (leaves_checkSupported feature change rest)

end Quiet

theorem gives_select (name : String) (pending : List Selection) :
    (select host name pending).Gives fun x _ => x = { event := x.event, attr := x.event.attr } := by
  rw [select]
  exact gives_bind fun event => gives_bind fun ok => gives_guard <| gives_bind fun set =>
    gives_guard <| gives_pure fun _ => rfl

theorem gives_selectAll : ∀ pending names,
    (∀ x ∈ pending, x = { event := x.event, attr := x.event.attr }) →
    (selectAll host pending names).Gives fun group _ =>
      ∀ x ∈ group, x = { event := x.event, attr := x.event.attr }
  | _, [], h => gives_pure fun _ => h
  | pending, name :: rest, h => by
    rw [selectAll]
    refine Gives.bind (gives_select host name pending) fun x hx => ?_
    refine gives_selectAll _ rest fun y hy => ?_
    rcases List.mem_append.mp hy with hy | hy
    · exact h y hy
    · rwa [List.mem_singleton.mp hy]

/-! ### What calls keep -/

theorem keeps_sampling_of_leaves {x : Recording ω α} (hx : Leaves Session.set x) :
    Keeps (fun s => s.set.Sampling) x := hx.keeps fun _ _ h hs => h ▸ hs

theorem keeps_sampling_modifySet {f : SelectionSet → SelectionSet}
    (hf : ∀ set : SelectionSet, set.Sampling → (f set).Sampling) :
    Keeps (fun s : Session ω => s.set.Sampling) (modifySet f) := fun s hs => hf s.set hs

theorem keeps_addGroup (names : List String) :
    Keeps (fun s => s.set.Sampling) (addGroup host names) := by
  rw [addGroup]
  refine (keeps_refuse _).guard ?_
  refine (keeps_sampling_of_leaves (leaves_selectAll host.quiet_set [] names)).bind_of_gives
    (gives_selectAll host [] names fun _ hx => absurd hx List.not_mem_nil) fun group hgroup => ?_
  have hsampled : ∀ x ∈ group, x.attr.has .sampleIdAll = true := fun x hx => by
    rw [hgroup x hx]
    exact x.event.has_sampleIdAll
  exact keeps_sampling_modifySet fun set hset => (hset.append hsampled).uniteSampleTypes

theorem keeps_applyIfSupported (feature : String) {change : Attr → Attr}
    (hchange : ∀ a, a.has .sampleIdAll = true → (change a).has .sampleIdAll = true) :
    Keeps (fun s => s.set.Sampling) (applyIfSupported host feature change) := by
  rw [applyIfSupported]
  exact Keeps.bind (fun _ h => h) fun set =>
    (keeps_sampling_of_leaves (leaves_checkSupported host.quiet_set feature change _)).bind fun _ =>
      keeps_sampling_modifySet fun set hset => hset.mapAttrs hchange

theorem keeps_sampling_announce (cpu : Nat) :
    Keeps (fun s => s.set.Sampling) (announce host cpu) := by
  have hdeliver : ∀ r, Leaves (Session.seen id fun _ => ()) (deliver host r) :=
    leaves_deliver host fun _ _ => rfl
  have hwatch : Leaves (Session.seen SelectionSet.listed fun _ => ()) (watchBuffer (ω := ω) cpu) :=
    leaves_watchBuffer loopless_listed cpu
  refine keeps_announce host (fun ids => ?_) (fun r => ?_) ?_
  · exact keeps_sampling_modifySet fun set hset => ⟨hset.counting, hset.sampleIdAll⟩
  · exact keeps_sampling_of_leaves ((hdeliver r).of fun _ _ h => congrArg Prod.fst h)
  · exact hwatch.keeps fun s s' h hs =>
      hs.of_routed (SelectionSet.routed_of_listed (Prod.ext_iff.mp h).1)

theorem followed_sampling : Followed host (fun _ => ()) fun s => s.set.Sampling where
  silent := host.silent_unit
  of_seen _ _ h hs := hs.of_routed (Prod.ext_iff.mp h).1
  drainCpu cpu := keeps_sampling_of_leaves (leaves_drainCpu host cpu)
  announce := keeps_sampling_announce host

theorem keeps_sampling_routeIds :
    Keeps (fun s : Session ω => s.set.Sampling) routeIds := by
  rw [routeIds]
  refine Keeps.bind (fun _ h => h) fun set => Keeps.bind ?_ fun _ => ?_
  · exact keeps_sampling_modifySet fun set hset => ⟨hset.counting, hset.sampleIdAll⟩
  · dsimp only
    split
    · refine ((keeps_ofExcept _).bind fun p => keeps_pure (some p)).bind fun positions? => ?_
      exact keeps_sampling_modifySet fun set hset => ⟨hset.counting, hset.sampleIdAll⟩
    · refine (keeps_pure none).bind fun positions? => ?_
      exact keeps_sampling_modifySet fun set hset => ⟨hset.counting, hset.sampleIdAll⟩

/-- Open every event for every thread on cpus. -/
def openOn (cpus : List Nat) : Recording ω Unit := do
  let threads ← targetThreads host
  if threads.isEmpty then Effect.refuse .noTarget
  openPairs host cpus (pairs (← getSet).groups.length threads)
  routeIds

theorem openEvents_eq (cpus : List Nat) : openEvents host cpus = (do
    let online ← outside host.onlineCpus
    if let some cpu := cpus.find? fun c => !online.contains c then
      Effect.refuse (.cpuNotOnline cpu)
    openOn host (if cpus.isEmpty then online else cpus)) := rfl

theorem keeps_sampling_openOn (cpus : List Nat) :
    Keeps (fun s => s.set.Sampling) (openOn host cpus) := by
  have h := followed_sampling host
  rw [openOn]
  exact (h.keeps_of_leaves (leaves_targetThreads h.silent.quiet)).bind fun threads =>
    (keeps_refuse _).guard <| (h.keeps_of_leaves leaves_getSet).bind fun set =>
      (h.keeps_of_leaves (leaves_openPairs h.silent _ _)).bind fun _ => keeps_sampling_routeIds

theorem keeps_sampling_openEvents (cpus : List Nat) :
    Keeps (fun s => s.set.Sampling) (openEvents host cpus) := by
  have h := followed_sampling host
  rw [openEvents_eq]
  refine (h.keeps_of_leaves (leaves_outside h.silent.onlineCpus)).bind fun online => ?_
  have hopen := keeps_sampling_openOn host (if cpus.isEmpty then online else cpus)
  cases cpus.find? fun c => !online.contains c with
  | some cpu => exact (keeps_refuse _).bind fun _ => hopen
  | none => exact hopen

/-! ### Calls that prepare a recording -/

theorem leaves_described_of_listed {x : Recording ω α}
    (hx : Leaves (Session.seen SelectionSet.listed fun _ => ()) x) :
    Leaves (fun s => s.set.described) x :=
  hx.of fun s s' h => by
    simp only [Session.seen, SelectionSet.listed, Prod.mk.injEq] at h
    exact Prod.ext h.1.1 h.1.2.2

theorem leaves_described_of_set {x : Recording ω α} (hx : Leaves Session.set x) :
    Leaves (fun s => s.set.described) x := hx.of fun _ _ h => congrArg SelectionSet.described h

/-- **A steady call changes nothing that records are decoded by.** -/
theorem Call.leaves_steady {τ : Type} {log : ω → τ} (hsilent : host.Silent log) {c : Call}
    (hc : c.Steady) : Leaves (Session.seen SelectionSet.listed log) (c.run host) := by
  cases c with
  | addProcess pid | addThread tid => exact leaves_modifySet fun _ => rfl
  | enableEvents => exact leaves_getSet.bind fun _ => leaves_forFiles hsilent.quiet.enable _
  | disableEvents => exact leaves_getSet.bind fun _ => leaves_forFiles hsilent.quiet.disable _
  | readCounters => exact (leaves_readCounters hsilent).bind fun _ => leaves_pure ()
  | mapEvents least most => exact leaves_mapEvents hsilent.bufferless least most
  | watchCpus cpus interval => exact leaves_watchCpus hsilent cpus interval
  | _ => exact hc.elim

/-- **Preparing a recording changes neither the events nor their ids.** -/
theorem Call.leaves_prepare {c : Call} (hc : c.Prepares) :
    Leaves (fun s => s.set.described) (c.run host) := by
  cases c with
  | attach =>
    exact Leaves.bind (fun _ => rfl) fun _ => leaves_described_of_listed
      (leaves_getSet.bind fun _ => leaves_watchBuffers loopless_listed _)
  | drainCpu cpu =>
    exact leaves_described_of_set ((leaves_drainCpu host cpu).bind fun _ => leaves_pure ())
  | finish => exact leaves_described_of_set ((leaves_finish host).bind fun _ => leaves_pure ())
  | _ =>
    exact leaves_described_of_listed (leaves_steady host host.silent_unit (by exact hc))

/-- **No call turns off the last part of records.** -/
theorem Call.keeps_sampling (c : Call) : Keeps (fun s => s.set.Sampling) (c.run host) := by
  have h := followed_sampling host
  cases c with
  | addGroup names => exact keeps_addGroup host names
  | setSampleFreq freq =>
    exact keeps_sampling_modifySet fun set hset => hset.mapAttrs fun a ha => by
      rwa [Attr.has_setSampleFreq]
  | setSamplePeriod period =>
    exact keeps_sampling_modifySet fun set hset => hset.mapAttrs fun a ha => by
      rwa [Attr.has_setSamplePeriod]
  | useDefaultSampleFreq =>
    refine keeps_sampling_modifySet fun set hset => hset.mapSelections fun x hx => ?_
    dsimp only
    split
    · rwa [Attr.has_setSamplePeriod]
    · rwa [Attr.has_setSampleFreq]
  | setEnableOnExec on =>
    exact keeps_sampling_modifySet fun set hset => hset.mapAttrs fun a ha =>
      Attr.has_set (Attr.has_set ha nofun) nofun
  | setSampleIdAll =>
    exact keeps_sampling_modifySet fun set hset => hset.mapAttrs fun a ha =>
      Attr.has_set ha fun _ => rfl
  | setInherit on =>
    exact keeps_sampling_modifySet fun set hset => hset.mapAttrs fun a ha =>
      Attr.has_set ha nofun
  | setLowWatermark => exact keeps_sampling_modifySet fun set hset => hset.mapAttrs fun a ha => ha
  | setBranchSampling mask =>
    exact (keeps_refuse _).guard (keeps_applyIfSupported host _ fun a ha => ha)
  | enableFramePointerChains => exact keeps_applyIfSupported host _ fun a ha => ha
  | enableDwarfChains size =>
    exact (keeps_refuse _).guard (keeps_applyIfSupported host _ fun a ha => Attr.has_set ha nofun)
  | openEvents cpus => exact keeps_sampling_openEvents host cpus
  | followCpus => exact h.keeps_followCpus.bind fun _ => keeps_pure ()
  | closeEvents => exact h.keeps_of_leaves (leaves_closeEvents h.silent)
  | addProcess | addThread | enableEvents | disableEvents | readCounters | mapEvents | attach
  | watchCpus | drainCpu | finish =>
    exact (leaves_prepare host (by exact trivial)).keeps fun _ _ hsame hs => hs.of_described hsame

/-! ### Opening the events -/

theorem routeIds_eq (s : Session ω) : routeIds s = (do
    let positions? ← if 1 < s.set.attrs.length then
        some <$> Effect.ofExcept ((commonIdPositions s.set.attrs).mapError .misuse)
      else pure none
    modifySet fun set => { set with idPositions := positions? } : Recording ω Unit)
      { s with set := s.set.ownRouting } := rfl

/-- Noting how records are decoded settles it, unless the ids of several events
have no common place. -/
theorem gives_routeIds : (routeIds (ω := ω)).Gives fun _ s => s.set.Settled := by
  intro s a hok
  have htable := s.set.ofList_idEntries
  rw [routeIds_eq] at hok ⊢
  by_cases hmany : 1 < s.set.attrs.length
  · simp only [if_pos hmany] at hok ⊢
    cases hpositions : commonIdPositions s.set.attrs with
    | error e =>
      rw [hpositions] at hok
      cases hok
    | ok p => exact ⟨rfl, htable, (if_pos hmany).symm ▸ ⟨p, hpositions, rfl⟩⟩
  · simp only [if_neg hmany] at hok ⊢
    exact ⟨rfl, htable, (if_neg hmany).symm ▸ rfl⟩

theorem gives_openEvents (cpus : List Nat) :
    (openEvents host cpus).Gives fun _ s => s.set.Settled := by
  have hopen : ∀ cpus, (openOn host cpus).Gives fun _ s => s.set.Settled := fun cpus =>
    gives_bind fun threads => gives_guard <| gives_bind fun set => gives_bind fun _ =>
      gives_routeIds
  rw [openEvents_eq]
  refine gives_bind fun online => ?_
  cases cpus.find? fun c => !online.contains c with
  | some cpu => exact gives_bind fun _ => hopen _
  | none => exact hopen _

end Recording

section Histories

variable {ω : Type} {host : Host ω} {s : Session ω}

theorem Host.Reached.sampling (h : host.Reached s) : s.set.Sampling := by
  induction h with
  | start world loop => exact ⟨rfl, nofun⟩
  | call h c ih => exact c.keeps_sampling host _ ih
  | outside h world loop ih => exact ih

theorem Host.Opened.sampling (h : host.Opened s) : s.set.Sampling := by
  induction h with
  | opened h cpus hok => exact Recording.keeps_sampling_openEvents host cpus _ h.sampling
  | call h c hc ih => exact c.keeps_sampling host _ ih
  | outside h world loop ih => exact ih

/-- **An opened set decodes as files say.** -/
theorem Host.Opened.settled (h : host.Opened s) : s.set.Settled := by
  induction h with
  | opened h cpus hok => exact Recording.gives_openEvents host cpus _ _ hok
  | call h c hc ih => exact ih.of_described (c.leaves_prepare host hc _)
  | outside h world loop ih => exact ih

end Histories

end Profiler
