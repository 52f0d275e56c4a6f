/-
# What the steps of a recording leave alone

Opening, mapping and closing descriptors changes what is known of them, and
neither the attrs of the events nor how records are decoded
(`SelectionSet.routed`). Mapping and enabling changes no id either
(`SelectionSet.listed`). Whatever the outside keeps a list of stays as it is,
too, as long as no buffer is drained and no record is handed on
(`Host.Silent`). All this holds whatever comes of a step.

Key definitions: `SelectionSet.Routing`, `SelectionSet.routed`,
`SelectionSet.listed`, `Session.seen`, `Host.Silent`, `Host.Quiet`,
`Host.Bufferless`.
Key theorems: `Recording.leaves_mapAll`, `Recording.leaves_activateCpu`,
`Recording.leaves_closeOn`, `Recording.leaves_openGroup`,
`Recording.seen_attach`.
-/
import Profiler.Proofs.Effect
import Profiler.Recording.Hotplug

namespace Profiler

/-! ### Descriptors that differ in their buffers only -/

namespace EventFile

variable {f g : EventFile}

theorem descriptor_eq (h : f.unmapped = g.unmapped) : f.descriptor = g.descriptor :=
  show f.unmapped.descriptor = g.unmapped.descriptor by rw [h]

theorem cpu_eq (h : f.unmapped = g.unmapped) : f.cpu = g.cpu :=
  show f.unmapped.cpu = g.unmapped.cpu by rw [h]

theorem id_eq (h : f.unmapped = g.unmapped) : f.id = g.id :=
  show f.unmapped.id = g.unmapped.id by rw [h]

end EventFile

/-! ### Views of a recording -/

namespace SelectionSet

/-- What decides how records are decoded, and whether there are any. -/
structure Routing where
  counting : Bool
  decodeAttrs : List Attr
  attrOfId : OrderedMap UInt64 Nat
  idPositions : Option IdPositions

def routing (s : SelectionSet) : Routing :=
  ⟨s.counting, s.decodeAttrs, s.attrOfId, s.idPositions⟩

def attrs (s : SelectionSet) : List Attr := s.selections.map Selection.attr

/-- How records are decoded and handed on, and the attrs. -/
def routed (s : SelectionSet) : Routing × Bool × List Attr := (s.routing, s.attached, s.attrs)

/-- How records are decoded and handed on, and the attrs with their ids. -/
def listed (s : SelectionSet) : Routing × Bool × List AttrWithIds :=
  (s.routing, s.attached, s.attrsWithIds)

theorem map_attr_attrsWithIds (s : SelectionSet) :
    s.attrsWithIds.map AttrWithIds.attr = s.attrs := List.map_map

theorem attrs_eq_of_attrsWithIds {s s' : SelectionSet} (h : s'.attrsWithIds = s.attrsWithIds) :
    s'.attrs = s.attrs := by
  rw [← map_attr_attrsWithIds, h, map_attr_attrsWithIds]

theorem routed_of_listed {s s' : SelectionSet} (h : s'.listed = s.listed) :
    s'.routed = s.routed := by
  simp only [listed, Prod.mk.injEq] at h
  obtain ⟨hrouting, hattached, hattrs⟩ := h
  rw [routed, routed, hrouting, hattached, attrs_eq_of_attrsWithIds hattrs]

theorem selections_mapSelections (s : SelectionSet) (f : Selection → Selection) :
    (s.mapSelections f).selections = s.selections.map f := List.map_flatten.symm

theorem attrs_mapSelections {f : Selection → Selection} (hf : ∀ x, (f x).attr = x.attr)
    (s : SelectionSet) : (s.mapSelections f).attrs = s.attrs := by
  rw [attrs, selections_mapSelections, List.map_map]
  exact List.map_congr_left fun x _ => hf x

theorem attrsWithIds_updateFile {f : EventFile → EventFile} (hf : ∀ file, (f file).id = file.id)
    (s : SelectionSet) (d : Descriptor) : (s.updateFile d f).attrsWithIds = s.attrsWithIds := by
  rw [attrsWithIds, updateFile, selections_mapSelections, List.map_map]
  refine List.map_congr_left fun x _ => ?_
  have hids : (x.files.map fun file => if file.descriptor = d then f file else file).map
      EventFile.id = x.files.map EventFile.id := by
    rw [List.map_map]
    refine List.map_congr_left fun file _ => ?_
    show EventFile.id (if file.descriptor = d then f file else file) = file.id
    split
    · exact hf file
    · rfl
  show (⟨x.attr, _⟩ : AttrWithIds) = ⟨x.attr, _⟩
  exact congrArg _ hids

theorem listed_updateFile {f : EventFile → EventFile} (hf : ∀ file, (f file).id = file.id)
    (s : SelectionSet) (d : Descriptor) : (s.updateFile d f).listed = s.listed :=
  congrArg (fun attrs => (s.routing, s.attached, attrs)) (attrsWithIds_updateFile hf s d)

theorem listed_keepReading (s : SelectionSet) (d : Descriptor) (info : CounterInfo) :
    (s.keepReading d info).listed = s.listed := by
  refine congrArg (fun attrs => (s.routing, s.attached, attrs)) ?_
  rw [attrsWithIds, keepReading, selections_mapSelections, List.map_map]
  refine List.map_congr_left fun x _ => ?_
  show (⟨Selection.attr (if _ then _ else x), Selection.ids (if _ then _ else x)⟩ : AttrWithIds) = _
  split <;> rfl

theorem routed_mapFiles (f : List EventFile → List EventFile) (s : SelectionSet) :
    (s.mapSelections fun x => { x with files := f x.files }).routed = s.routed :=
  congrArg (fun attrs => (s.routing, s.attached, attrs))
    (attrs_mapSelections (f := fun x => { x with files := f x.files }) (fun _ => rfl) s)

end SelectionSet

/-- The part of a session that a view of its set and a list of the outside
show. -/
def Session.seen {ω : Type} {υ τ : Type} (view : SelectionSet → υ) (log : ω → τ) (s : Session ω) :
    υ × τ := (view s.set, log s.world)

/-- Only draining a buffer and handing a record on change what the outside
lists. -/
structure Host.Silent {ω τ : Type} (host : Host ω) (log : ω → τ) : Prop where
  openEvent : ∀ attr tid cpu leader?, Effect.Leaves log (host.openEvent attr tid cpu leader?)
  close : ∀ d, Effect.Leaves log (.ofState (host.close d))
  isSupported : ∀ attr, Effect.Leaves log (.ofState (host.isSupported attr))
  onlineCpus : Effect.Leaves log host.onlineCpus
  threadIds : ∀ pid, Effect.Leaves log (host.threadIds pid)
  tracepointId? : ∀ system event, Effect.Leaves log (.ofState (host.tracepointId? system event))
  enable : ∀ d, Effect.Leaves log (host.enable d)
  disable : ∀ d, Effect.Leaves log (host.disable d)
  readCounter : ∀ d, Effect.Leaves log (host.readCounter d)
  map : ∀ d pages, Effect.Leaves log (host.map d pages)
  share : ∀ d owner, Effect.Leaves log (host.share d owner)
  unmap : ∀ d, Effect.Leaves log (.ofState (host.unmap d))
  note : ∀ n, Effect.Leaves log (.ofState (host.note n))

theorem Host.silent_unit {ω : Type} (host : Host ω) : host.Silent fun _ => () := by
  constructor <;> intros <;> exact fun _ => rfl

open Effect (Keeps Leaves keeps_pure leaves_pure leaves_throw leaves_refuse leaves_iff)

namespace Recording

variable {ω υ τ α : Type} {view : SelectionSet → υ} {log : ω → τ}

theorem getSet_bind (f : SelectionSet → Recording ω α) (s : Session ω) :
    (getSet >>= f) s = f s.set s := rfl

theorem outside_eq {x : Effect ω α} {s : Session ω} {r : Except Error α} {world : ω}
    (h : x s.world = (r, world)) : outside x s = (r, { s with world }) := by
  rw [outside, h]

theorem leaves_outside {x : Effect ω α} (hx : Leaves log x) :
    Leaves (Session.seen view log) (outside x) := fun s => congrArg (view s.set, ·) (hx s.world)

end Recording

section Quiet

variable {ω υ τ : Type} (host : Host ω)

open Recording (outside outside' modifySet leaves_outside)

/-- What is seen of a session stays as it is while the outside is asked
something, and while descriptors are enabled and mapped there. -/
structure Host.Quiet (V : Session ω → υ) : Prop where
  isSupported : ∀ attr, Leaves V (outside' (host.isSupported attr))
  onlineCpus : Leaves V (outside host.onlineCpus)
  threadIds : ∀ pid, Leaves V (outside (host.threadIds pid))
  tracepointId? : ∀ system event, Leaves V (outside' (host.tracepointId? system event))
  enable : ∀ d, Leaves V (outside (host.enable d))
  disable : ∀ d, Leaves V (outside (host.disable d))
  map : ∀ d pages, Leaves V (outside (host.map d pages))
  share : ∀ d owner, Leaves V (outside (host.share d owner))
  unmap : ∀ d, Leaves V (outside' (host.unmap d))

/-- What is seen of a session does not show which buffers it has, either. -/
structure Host.Bufferless (V : Session ω → υ) : Prop extends host.Quiet V where
  updateFile : ∀ d f, (∀ file : EventFile, (f file).unmapped = file.unmapped) →
    Leaves V (modifySet (·.updateFile d f))
  pages : ∀ pages, Leaves V (modifySet fun set => { set with pages })

theorem Host.quiet_set : host.Quiet Session.set := by
  constructor <;> intros <;> exact fun _ => rfl

variable {host} {log : ω → τ} (hsilent : host.Silent log)

include hsilent

theorem Host.Silent.quiet {view : SelectionSet → υ} : host.Quiet (Session.seen view log) where
  isSupported attr := leaves_outside (hsilent.isSupported attr)
  onlineCpus := leaves_outside hsilent.onlineCpus
  threadIds pid := leaves_outside (hsilent.threadIds pid)
  tracepointId? system event := leaves_outside (hsilent.tracepointId? system event)
  enable d := leaves_outside (hsilent.enable d)
  disable d := leaves_outside (hsilent.disable d)
  map d pages := leaves_outside (hsilent.map d pages)
  share d owner := leaves_outside (hsilent.share d owner)
  unmap d := leaves_outside (hsilent.unmap d)

theorem Host.Silent.bufferless : host.Bufferless (Session.seen SelectionSet.listed log) where
  toQuiet := hsilent.quiet
  updateFile d f hf s := by
    have hid : ∀ file, (f file).id = file.id := fun file => EventFile.id_eq (hf file)
    exact congrArg (·, log s.world) (SelectionSet.listed_updateFile hid s.set d)
  pages _ _ := rfl

end Quiet

namespace Recording

variable {ω υ τ α : Type} {view : SelectionSet → υ} {log : ω → τ}

/-! ### Single steps -/

theorem leaves_getSet {V : Session ω → α} : Leaves V getSet := fun _ => rfl

theorem leaves_modifySet {f : SelectionSet → SelectionSet} (hf : ∀ set, view (f set) = view set) :
    Leaves (Session.seen view log) (modifySet f) := fun s => congrArg (·, log s.world) (hf s.set)

theorem leaves_routed_of_listed {x : Recording ω α}
    (hx : Leaves (Session.seen SelectionSet.listed log) x) :
    Leaves (Session.seen SelectionSet.routed log) x :=
  hx.of fun s s' h => by
    simp only [Session.seen, Prod.mk.injEq] at h ⊢
    exact ⟨SelectionSet.routed_of_listed h.1, h.2⟩

/-! ### The loop -/

section Loop

variable {V : Session ω → α}

/-- What is seen shows neither the loop nor what waits for buffers. -/
def Loopless (V : Session ω → α) : Prop := ∀ (s : Session ω) loop readEvents,
  V { s with loop, set := { s.set with readEvents } } = V s

theorem loopless_listed : Loopless (ω := ω) (Session.seen SelectionSet.listed log) :=
  fun _ _ _ => rfl

theorem leaves_watchBuffer (hV : Loopless V) (cpu : Nat) : Leaves V (watchBuffer cpu) := by
  refine leaves_getSet.bind fun set => ?_
  split
  · exact leaves_pure ()
  · exact fun s => hV s _ _

theorem leaves_watchBuffers (hV : Loopless V) : ∀ cpus, Leaves V (watchBuffers cpus)
  | [] => leaves_pure ()
  | cpu :: rest => (leaves_watchBuffer hV cpu).bind fun _ => leaves_watchBuffers hV rest

theorem seen_attach (s : Session ω) : (attach s).2.seen SelectionSet.listed log =
    Session.seen SelectionSet.listed log { s with set := { s.set with attached := true } } :=
  leaves_getSet.bind (fun _ => leaves_watchBuffers loopless_listed _) _

theorem leaves_unwatchBuffer (hV : Loopless V) (cpu : Nat) : Leaves V (unwatchBuffer cpu) := by
  refine leaves_getSet.bind fun set => ?_
  split
  · exact leaves_pure ()
  · exact fun s => hV s _ _

theorem leaves_addTimer (hV : Loopless V) (host : Host ω) (interval : Nat) (task : RecordingTask) :
    Leaves V (addTimer host interval task) := by
  intro s
  rw [addTimer, Effect.get_bind]
  cases s.loop.addTimer (host.now s.world) interval task with
  | ok p => exact hV s p.2 s.set.readEvents
  | error cause => rfl

end Loop

/-! ### Threads -/

section Quiet

variable {host : Host ω} {V : Session ω → υ}

theorem leaves_forFiles {act : Descriptor → Effect ω Unit}
    (hact : ∀ d, Leaves V (outside (act d))) : ∀ files, Leaves V (forFiles act files)
  | [] => leaves_pure ()
  | file :: rest => (hact file.descriptor).bind fun _ => leaves_forFiles hact rest

theorem leaves_addThreadsOf (hquiet : host.Quiet V) : ∀ threads pids,
    Leaves V (addThreadsOf host threads pids)
  | _, [] => leaves_pure _
  | _, pid :: rest => (hquiet.threadIds pid.toNat).bind fun _ => leaves_addThreadsOf hquiet _ rest

theorem leaves_targetThreads (hquiet : host.Quiet V) : Leaves V (targetThreads host) :=
  leaves_getSet.bind fun _ => (leaves_addThreadsOf hquiet _ _).bind fun _ => leaves_pure _

end Quiet

/-! ### Counters -/

section Counters

variable {host : Host ω} {P : Session ω → Prop}

theorem keeps_getSet : Keeps P getSet := fun _ h => h

section Reading

variable (hread : ∀ d, Keeps P (outside (host.readCounter d)))

include hread

theorem keeps_readFiles : ∀ files, Keeps P (readFiles host files)
  | [] => keeps_pure []
  | file :: rest => (hread file.descriptor).bind fun _ =>
      (keeps_readFiles rest).bind fun _ => keeps_pure _

theorem keeps_readSelections : ∀ xs, Keeps P (readSelections host xs)
  | [] => keeps_pure []
  | x :: rest => (keeps_readFiles hread x.2.files).bind fun _ =>
      (keeps_readSelections rest).bind fun _ => keeps_pure _

theorem keeps_readCounters : Keeps P (readCounters host) :=
  keeps_getSet.bind fun _ => keeps_readSelections hread _

theorem keeps_keepReadings (hkeep : ∀ d info, Keeps P (modifySet (·.keepReading d info))) :
    ∀ files, Keeps P (keepReadings host files)
  | [] => keeps_pure ()
  | file :: rest => (hread file.descriptor).bind fun _ => (hkeep _ _).bind fun _ =>
      keeps_keepReadings hkeep rest

end Reading

end Counters

/-! ### Buffers -/

section Bufferless

variable {host : Host ω} {V : Session ω → υ} (hview : host.Bufferless V)

include hview

theorem leaves_mapFiles (pages : Nat) : ∀ owners files,
    Leaves V (mapFiles host pages owners files)
  | _, [] => leaves_pure ()
  | owners, file :: rest => by
    rw [mapFiles]
    split
    · next owner _ =>
      exact (hview.share _ _).bind fun _ =>
        (hview.updateFile file.descriptor (.sendTo owner) fun _ => rfl).bind
          fun _ => leaves_mapFiles pages owners rest
    · exact (hview.map _ _).bind fun _ =>
        (hview.updateFile file.descriptor .own fun _ => rfl).bind
          fun _ => leaves_mapFiles pages _ rest

theorem leaves_unmapFiles : ∀ files, Leaves V (unmapFiles host files)
  | [] => leaves_pure ()
  | file :: rest => (hview.unmap _).bind fun _ =>
      (hview.updateFile file.descriptor .unmapped fun _ => rfl).bind
        fun _ => leaves_unmapFiles rest

theorem leaves_mapAll (pages : Nat) (files : List EventFile) :
    Leaves V (mapAll host pages files) :=
  (leaves_mapFiles hview pages ⟨[]⟩ files).onFailure (leaves_unmapFiles hview files)

theorem leaves_mapFirst : ∀ failure? counts, Leaves V (mapFirst host failure? counts)
  | _, [] => leaves_throw _
  | _, pages :: rest => by
    rw [mapFirst]
    refine leaves_getSet.bind fun set => ?_
    refine (leaves_mapAll hview pages set.files).observe.bind fun r => ?_
    split
    · exact hview.pages pages
    · exact leaves_mapFirst _ rest

theorem leaves_mapEvents (least most : Nat) : Leaves V (mapEvents host least most) := by
  rw [mapEvents]
  dsimp only
  split
  · exact (leaves_refuse _).bind fun _ => leaves_mapFirst hview _ _
  · exact leaves_mapFirst hview _ _

theorem leaves_mapCpu (cpu : Nat) : Leaves V (mapCpu host cpu) :=
  leaves_getSet.bind fun _ => leaves_mapAll hview _ _

theorem leaves_activateCpu (cpu : Nat) : Leaves V (activateCpu host cpu) := by
  have henable : Leaves V (do forFiles host.enable ((← getSet).filesOn cpu)) :=
    leaves_getSet.bind fun set => leaves_forFiles hview.enable _
  rw [activateCpu]
  refine leaves_getSet.bind fun set => ?_
  split
  · exact (leaves_mapCpu hview cpu).bind fun _ => henable
  · exact henable

end Bufferless

section Silent

variable {host : Host ω} (hsilent : host.Silent log)

include hsilent

theorem leaves_closeAll : ∀ files, Leaves (Session.seen view log) (closeAll host files)
  | [] => leaves_pure ()
  | file :: rest => (leaves_outside (hsilent.close file.descriptor)).bind fun _ =>
      leaves_closeAll rest

/-! ### Descriptors -/

theorem leaves_readCounters : Leaves (Session.seen view log) (readCounters host) :=
  leaves_iff.mpr fun _ => keeps_readCounters fun d =>
    leaves_iff.mp (leaves_outside (hsilent.readCounter d)) _

theorem leaves_openMembers (tid : Pid) (cpu : Nat) : ∀ opened attrs,
    Leaves (Session.seen view log) (openMembers host tid cpu opened attrs)
  | _, [] => leaves_pure _
  | opened, _ :: rest =>
    ((leaves_outside (hsilent.openEvent _ _ _ _)).onFailure (leaves_closeAll hsilent opened)).bind
      fun _ => leaves_openMembers tid cpu _ rest

theorem leaves_closeOn (cpu : Nat) :
    Leaves (Session.seen SelectionSet.routed log) (closeOn host cpu) :=
  leaves_getSet.bind fun _ => (leaves_closeAll hsilent _).bind fun _ =>
    leaves_modifySet (SelectionSet.routed_mapFiles (List.filter (·.cpu != cpu)))

theorem leaves_closeEvents :
    Leaves (Session.seen SelectionSet.routed log) (closeEvents host) :=
  leaves_getSet.bind fun _ => (leaves_closeAll hsilent _).bind fun _ =>
    leaves_modifySet (SelectionSet.routed_mapFiles fun _ => [])

theorem leaves_watchCpus (cpus : List Nat) (interval : Nat) :
    Leaves (Session.seen SelectionSet.listed log) (watchCpus host cpus interval) := by
  rw [watchCpus]
  refine Leaves.bind ?_ fun _ => (leaves_outside hsilent.onlineCpus).bind fun _ =>
    Leaves.bind ?_ fun _ => (leaves_addTimer loopless_listed host _ _).bind fun _ => leaves_pure ()
  · exact leaves_modifySet fun _ => rfl
  · exact leaves_modifySet fun _ => rfl

end Silent

/-! ### Groups -/

theorem gives_openMembers (host : Host ω) (tid : Pid) (cpu : Nat) : ∀ opened attrs,
    (openMembers host tid cpu opened attrs).Gives fun files _ =>
      files.length = opened.length + attrs.length
  | _, [] => Effect.gives_pure fun _ => rfl
  | opened, attr :: rest => by
    rw [openMembers]
    refine Effect.gives_bind fun p s files hfiles => ?_
    have hrest := gives_openMembers host tid cpu _ rest s files hfiles
    rw [List.length_append, List.length_singleton] at hrest
    rw [hrest, List.length_cons, Nat.add_assoc, Nat.add_comm 1]

end Recording

theorem map_attr_zipWith_files {members : List Selection} {files : List EventFile}
    (h : files.length = members.length) :
    (members.zipWith (fun x file => { x with files := x.files ++ [file] }) files).map
      Selection.attr = members.map Selection.attr := by
  induction members generalizing files with
  | nil => rfl
  | cons x members ih =>
    obtain ⟨file, files, rfl⟩ := List.exists_cons_of_length_eq_add_one h
    rw [List.zipWith_cons_cons, List.map_cons, List.map_cons,
      ih (Nat.succ_inj.mp h)]

theorem SelectionSet.routed_addFiles {s : SelectionSet} {group : Nat} {files : List EventFile}
    (h : files.length = (s.groups.getD group []).length) :
    (s.addFiles group files).routed = s.routed := by
  refine congrArg (fun attrs => (s.routing, s.attached, attrs)) ?_
  show List.map Selection.attr (List.flatten _) = List.map Selection.attr (List.flatten _)
  rw [List.map_flatten, List.map_flatten]
  refine congrArg List.flatten (List.ext_getElem? fun i => ?_)
  rw [addFiles, List.getElem?_map, List.getElem?_map, List.getElem?_modify]
  cases hmembers : s.groups[i]? with
  | none => rfl
  | some members =>
    by_cases hi : group = i
    · rw [hi, List.getD_eq_getElem?_getD, hmembers] at h
      simpa [hi] using map_attr_zipWith_files h
    · simp [hi]

namespace Recording

variable {ω τ : Type} {log : ω → τ} {host : Host ω}

section Silent

variable (hsilent : host.Silent log)

include hsilent

/-- **Opening a group leaves the attrs and the routing alone,** whether it is
taken or refused. -/
theorem leaves_openGroup (change : Attr → Attr) (group : Nat) (tid : Pid) (cpu : Nat) :
    Leaves (Session.seen SelectionSet.routed log) (openGroup host change group tid cpu) := by
  intro s
  rw [openGroup, getSet_bind]
  have hleaves : Session.seen id log _ = Session.seen id log s := leaves_openMembers hsilent tid cpu
    [] ((s.set.groups.getD group []).map fun x => change x.attr) s
  have hgives := gives_openMembers host tid cpu []
    ((s.set.groups.getD group []).map fun x => change x.attr) s
  cases hopen : openMembers host tid cpu [] ((s.set.groups.getD group []).map fun x =>
      change x.attr) s with
  | mk r s' =>
    rw [hopen] at hleaves hgives
    simp only [Session.seen, id, Prod.mk.injEq] at hleaves
    cases r with
    | error e =>
      rw [Effect.bind_of_error hopen]
      exact Prod.ext (congrArg SelectionSet.routed hleaves.1) hleaves.2
    | ok files =>
      have hlength := hgives files rfl
      rw [List.length_nil, List.length_map, Nat.zero_add, ← hleaves.1] at hlength
      rw [Effect.bind_of_ok hopen]
      refine Prod.ext ?_ hleaves.2
      exact (SelectionSet.routed_addFiles hlength).trans (congrArg _ hleaves.1)

theorem leaves_openOnCpus (group : Nat) (tid : Pid) : ∀ taken refusal? cpus,
    Leaves (Session.seen SelectionSet.routed log) (openOnCpus host group tid taken refusal? cpus)
  | _, _, [] => leaves_pure _
  | _, _, cpu :: rest => by
    rw [openOnCpus]
    refine (leaves_openGroup hsilent id group tid cpu).observe.bind fun r => ?_
    split
    · exact leaves_openOnCpus group tid _ _ rest
    · exact leaves_openOnCpus group tid _ _ rest

theorem leaves_openPairs (cpus : List Nat) : ∀ pairs,
    Leaves (Session.seen SelectionSet.routed log) (openPairs host cpus pairs)
  | [] => leaves_pure ()
  | (group, tid) :: rest => by
    rw [openPairs]
    refine (leaves_openOnCpus hsilent group tid _ _ cpus).bind fun r => ?_
    obtain ⟨taken, refusal?⟩ := r
    dsimp only
    split
    · refine leaves_getSet.bind fun set => Leaves.bind ?_ fun _ => leaves_openPairs cpus rest
      exact leaves_throw _
    · exact leaves_openPairs cpus rest

theorem leaves_reopenPairs (cpu : Nat) : ∀ pairs,
    Leaves (Session.seen SelectionSet.routed log) (reopenPairs host cpu pairs)
  | [] => leaves_pure ()
  | (group, tid) :: rest => by
    rw [reopenPairs]
    refine (leaves_openGroup hsilent reopenedAttr group tid cpu).observe.bind fun r => ?_
    split
    · exact leaves_reopenPairs cpu rest
    · exact leaves_getSet.bind fun set => (leaves_outside (hsilent.note _)).bind fun _ =>
        leaves_reopenPairs cpu rest

end Silent

end Recording
end Profiler
