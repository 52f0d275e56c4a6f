/-
# Configuring a set of events

Before its events are opened a set is configured: groups are added, and how
events are sampled is changed. A call that the kernel may turn down takes the
set where it says or leaves it as it was (`Recording.AllOrNothing`), and all
that a call can do to the groups of a set is one of a few changes
(`SelectionSet.Reconfigured`). So whatever calls were made, in any order, and
whatever came of them (`Host.Configured`), no event is selected twice and the
attrs have one sample type, with the fields that find the id
(`SelectionSet.Consistent`).

Key definitions: `Recording.Call.Configures`, `Recording.Call.Proposes`,
`Host.Configured`, `Recording.AllOrNothing`, `SelectionSet.Reconfigured`,
`SelectionSet.Consistent`.
Key theorems: `Recording.Call.allOrNothing`, `Recording.Call.reconfigures`,
`SelectionSet.Reconfigured.consistent`, `Host.Configured.consistent`,
`Host.configured_or_unchanged`.
-/
import Profiler.Proofs.Record.EventId
import Profiler.Proofs.Recording.Calls
import Profiler.Recording.MemoryKernel

namespace Profiler

/-! ### Sample fields -/

namespace SampleMask

/-- The fields that every selected event is sampled with. -/
def Common (m : SampleMask) : Prop := ∀ f ∈ EventType.commonSampleFields, m.has f

theorem Common.or {m : SampleMask} (h : m.Common) (n : SampleMask) :
    SampleMask.Common (m ||| n) := fun f hf => by rw [has_or, h f hf, Bool.true_or]

theorem Common.clear {m : SampleMask} (h : m.Common) {g : SampleField}
    (hg : g ∉ EventType.commonSampleFields) : SampleMask.Common (m &&& ~~~g.mask) := fun f hf => by
  have hne : f ≠ g := fun heq => hg (heq ▸ hf)
  rw [has_clear m hne, h f hf]

theorem common_of : SampleMask.Common (.of EventType.commonSampleFields) := by
  simp only [Common, EventType.commonSampleFields, List.forall_mem_cons]
  decide

theorem Common.idPositions? {m : SampleMask} (h : m.Common) : ∃ p, m.idPositions? = some p := by
  have hid : m.has .id = true := h .id (by decide)
  cases hidentifier : m.has .identifier with
  | true =>
    exact ⟨⟨_, _⟩, idPositions?_eq_some_iff.mpr
      ⟨by rw [idOffset, if_pos hidentifier], by rw [idOffsetFromEnd, if_pos hidentifier]⟩⟩
  | false =>
    have hno : ¬ m.has .identifier = true := Bool.eq_false_iff.mp hidentifier
    exact ⟨⟨_, _⟩, idPositions?_eq_some_iff.mpr
      ⟨by rw [idOffset, if_neg hno, if_pos hid], by rw [idOffsetFromEnd, if_neg hno, if_pos hid]⟩⟩

end SampleMask

/-! ### The attr that an event starts from -/

/-- What an attr says of the fields of a record. -/
def Attr.fields (a : Attr) : SampleMask × ReadFormat × UInt64 :=
  (a.sampleType, a.readFormat, a.sampleRegsUser)

theorem Attr.fields_set (a : Attr) (f : AttrFlag) (on : Bool) :
    (a.set f on).fields = a.fields := rfl

theorem Attr.fields_setPreciseIp (a : Attr) (level : UInt8) :
    (a.setPreciseIp level).fields = a.fields := rfl

/-- The common fields, tracepoints' own data beside them, and no registers. -/
theorem EventType.fields_attr (t : EventType) :
    ∃ m : SampleMask, m.Common ∧ t.attr.fields = (m, commonReadFormat, 0) := by
  rw [EventType.attr]
  split
  · exact ⟨_, SampleMask.common_of.or _, rfl⟩
  · exact ⟨_, SampleMask.common_of, rfl⟩

/-- Modifiers only turn switches. -/
theorem EventSpec.fields_attr (e : EventSpec) :
    ∃ m : SampleMask, m.Common ∧ e.attr.fields = (m, EventType.commonReadFormat, 0) := by
  simp only [EventSpec.attr, EventSpec.applyTo, Attr.fields_set, Attr.fields_setPreciseIp]
  exact e.eventType.fields_attr

/-! ### What calls do to a set -/

/-- The names under which events are selected. -/
def SelectionSet.eventNames (s : SelectionSet) : List String :=
  s.selections.map fun x => x.event.name

/-- One attr comes from another by a change of how the event is sampled: the
sample type changes by `g`, the user registers by `r`, and what else decodes
records stays. -/
structure Attr.Retuned (g : SampleMask → SampleMask) (r : UInt64 → UInt64) (a b : Attr) :
    Prop where
  sampleType : b.sampleType = g a.sampleType
  readFormat : b.readFormat = a.readFormat
  sampleIdAll : a.has .sampleIdAll = true → b.has .sampleIdAll = true
  sampleRegsUser : b.sampleRegsUser = r a.sampleRegsUser

/-- A change of how all events of a set are sampled. -/
structure Selection.Retunes (g : SampleMask → SampleMask) (r : UInt64 → UInt64)
    (f : Selection → Selection) : Prop where
  common : ∀ m : SampleMask, m.Common → (g m).Common
  event : ∀ x, (f x).event = x.event
  attr : ∀ x : Selection, x.attr.Retuned g r (f x).attr

def SelectionSet.withGroup (s : SelectionSet) (group : List Selection) : SelectionSet :=
  { s with groups := s.groups ++ [group] }

/-- The sample fields that some event of the set has. -/
def SelectionSet.allFields (s : SelectionSet) : SampleMask :=
  s.selections.foldl (fun acc x => acc ||| x.attr.sampleType) 0

/-- A group that can be added for some names: a new selection for each of them,
and no event that is selected already. -/
structure SelectionSet.Admits (s : SelectionSet) (names : List String) (group : List Selection) :
    Prop where
  length : group.length = names.length
  fresh : ∀ x ∈ group, x = { event := x.event, attr := x.event.attr }
  distinct : s.eventNames.Nodup → (s.eventNames ++ group.map fun x => x.event.name).Nodup

/-- All that a call can do to the groups of a set before its events are
opened. -/
inductive SelectionSet.Reconfigured (s : SelectionSet) : Recording.Call → SelectionSet → Prop where
  | spared {c : Recording.Call} {t : SelectionSet} (h : t.groups = s.groups) : Reconfigured s c t
  | tuned {c : Recording.Call} {g : SampleMask → SampleMask} {f : Selection → Selection}
    (h : Selection.Retunes g id f) : Reconfigured s c (s.mapSelections f)
  | unwound {size : Nat} {g : SampleMask → SampleMask} {f : Selection → Selection}
    (h : Selection.Retunes g (fun _ => userRegisters) f) :
    Reconfigured s (.enableDwarfChains size) (s.mapSelections f)
  | grown {names : List String} {group : List Selection} (hne : names ≠ [])
    (h : s.Admits names group) :
    Reconfigured s (.addGroup names) (s.withGroup group).uniteSampleTypes

namespace Recording

/-- The calls that configure a set. -/
def Call.Configures : Call → Prop
  | addGroup _ | setSampleFreq _ | setSamplePeriod _ | useDefaultSampleFreq | setEnableOnExec _
  | setSampleIdAll | setInherit _ | setLowWatermark | setBranchSampling _
  | enableFramePointerChains | enableDwarfChains _ | addProcess _ | addThread _ => True
  | _ => False

/-- The calls that may be turned down: what they ask for has to be in order, and
the kernel has to support it. -/
def Call.Proposes : Call → Prop
  | addGroup _ | setBranchSampling _ | enableFramePointerChains | enableDwarfChains _ => True
  | _ => False

/-- The step succeeds and takes the set to one that is meant, or it fails and
leaves the set as it was. -/
def AllOrNothing {ω : Type} (x : Recording ω Unit) (Q : SelectionSet → SelectionSet → Prop) :
    Prop :=
  ∀ s, ((x s).1 = .ok () ∧ Q s.set (x s).2.set) ∨ (∃ e, (x s).1 = .error e) ∧ (x s).2.set = s.set

section AllOrNothing

variable {ω : Type} {Q Q' : SelectionSet → SelectionSet → Prop}

open Effect (Leaves bind_of_ok bind_of_error)

theorem AllOrNothing.imp {x : Recording ω Unit} (h : AllOrNothing x Q)
    (hQ : ∀ set set', Q set set' → Q' set set') : AllOrNothing x Q' := fun s =>
  (h s).imp_left fun h => ⟨h.1, hQ _ _ h.2⟩

theorem allOrNothing_modifySet {f : SelectionSet → SelectionSet} (h : ∀ set, Q set (f set)) :
    AllOrNothing (ω := ω) (modifySet f) Q := fun s => .inl ⟨rfl, h s.set⟩

theorem allOrNothing_guard {c : Prop} [Decidable c] {cause : Misuse} {f : Unit → Recording ω Unit}
    (hf : ¬ c → AllOrNothing (f ()) Q) :
    AllOrNothing (if c then Effect.refuse cause >>= f else f ()) Q := by
  split
  · exact fun s => .inr ⟨⟨_, rfl⟩, rfl⟩
  · next hc => exact hf hc

theorem allOrNothing_bind {α : Type} {x : Recording ω α} {f : α → Recording ω Unit}
    {P : α → SelectionSet → Prop} (hleaves : Leaves Session.set x)
    (hx : x.Gives fun a s => P a s.set)
    (hf : ∀ a, AllOrNothing (f a) fun set set' => P a set → Q set set') :
    AllOrNothing (x >>= f) Q := by
  intro s
  have hset := hleaves s
  cases h : x s with
  | mk r s' =>
    rw [h] at hset
    cases r with
    | error e =>
      rw [bind_of_error h]
      exact .inr ⟨⟨e, rfl⟩, hset⟩
    | ok a =>
      have hP := hx s a (by rw [h])
      rw [h] at hP
      rw [bind_of_ok h, ← hset]
      exact (hf a s').imp_left fun ha => ⟨ha.1, ha.2 hP⟩

end AllOrNothing

section Steps

variable {ω : Type} (host : Host ω)

open Effect (Gives Leaves leaves_pure leaves_refuse gives_bind gives_guard gives_unless gives_pure)

theorem gives_readSet {α : Type} {f : SelectionSet → Recording ω α}
    {R : SelectionSet → α → Prop} (hleaves : ∀ set, Leaves Session.set (f set))
    (hf : ∀ set, (f set).Gives fun a _ => R set a) :
    (getSet >>= f).Gives fun a s => R s.set a := by
  have hread : (getSet (ω := ω)).Gives fun set s => set = s.set := by rintro s _ ⟨⟩; rfl
  refine (Gives.bind_of_leaves (P := fun set now => set = now) hread hleaves hf).imp fun a s => ?_
  rintro ⟨set, rfl, ha⟩
  exact ha

theorem gives_select_other (name : String) (pending : List Selection) :
    (select host name pending).Gives fun x s =>
      x.event.name ∉ (s.set.selections ++ pending).map fun y => y.event.name := by
  rw [select]
  refine gives_bind fun event => gives_bind fun ok => gives_guard ?_
  refine gives_readSet (R := fun set (x : Selection) =>
    x.event.name ∉ (set.selections ++ pending).map fun y => y.event.name)
    (fun set => ?_) fun set => ?_
  · exact (leaves_refuse _).guard (leaves_pure _)
  · refine gives_unless fun hother => gives_pure fun s hmem => hother ?_
    obtain ⟨y, hy, heq⟩ := List.mem_map.mp hmem
    exact List.any_eq_true.mpr ⟨y, hy, beq_iff_eq.mpr heq⟩

/-- Each name is selected, and no event twice. -/
theorem gives_selectAll_distinct : ∀ pending names,
    (selectAll host pending names).Gives fun group s =>
      group.length = pending.length + names.length ∧
        (((s.set.selections ++ pending).map fun y => y.event.name).Nodup →
          ((s.set.selections ++ group).map fun y => y.event.name).Nodup)
  | _, [] => gives_pure fun _ => ⟨rfl, id⟩
  | pending, name :: rest => by
    rw [selectAll]
    refine (Gives.bind_of_leaves
      (P := fun x set => x.event.name ∉ (set.selections ++ pending).map fun y => y.event.name)
      (gives_select_other host name pending) (fun x => leaves_selectAll host.quiet_set _ rest)
      fun x => gives_selectAll_distinct (pending ++ [x]) rest).imp fun group s => ?_
    rintro ⟨x, hother, hlength, hdistinct⟩
    refine ⟨?_, fun h => hdistinct ?_⟩
    · rw [hlength, List.length_append, List.length_singleton, List.length_cons, Nat.add_assoc,
        Nat.add_comm 1]
    · rw [← List.append_assoc, List.map_append, List.map_singleton]
      refine List.nodup_append.mpr ⟨h, List.pairwise_singleton _ _, fun other hmem _ hname => ?_⟩
      rw [List.mem_singleton.mp hname]
      exact fun heq => hother (heq ▸ hmem)

theorem allOrNothing_addGroup (names : List String) :
    AllOrNothing (addGroup host names) fun set set' => set.Reconfigured (.addGroup names) set' := by
  rw [addGroup]
  refine allOrNothing_guard fun hne => ?_
  refine allOrNothing_bind (P := fun group set => set.Admits names group)
    (leaves_selectAll host.quiet_set [] names) ?_ fun group => ?_
  · intro s group hok
    have hfresh := gives_selectAll host [] names (List.forall_mem_nil _) s group hok
    obtain ⟨hlength, hdistinct⟩ := gives_selectAll_distinct host [] names s group hok
    refine ⟨hlength.trans (Nat.zero_add _), hfresh, fun h => ?_⟩
    rw [List.append_nil, List.map_append] at hdistinct
    exact hdistinct h
  · exact allOrNothing_modifySet fun set h => .grown (by simpa using hne) h

theorem allOrNothing_applyIfSupported (feature : String) (change : Attr → Attr) :
    AllOrNothing (applyIfSupported host feature change) fun set set' =>
      set' = set.mapAttrs change := by
  rw [applyIfSupported]
  refine allOrNothing_bind (P := fun _ _ => True) leaves_getSet (fun _ _ _ => trivial) fun set => ?_
  refine allOrNothing_bind (P := fun _ _ => True)
    (leaves_checkSupported host.quiet_set feature change _) (fun _ _ _ => trivial) fun _ => ?_
  exact allOrNothing_modifySet fun set _ _ => rfl

theorem allOrNothing_setBranchSampling (mask : UInt64) :
    AllOrNothing (setBranchSampling host mask) fun set set' =>
      set' = set.mapAttrs (withBranches mask) := by
  rw [setBranchSampling]
  exact allOrNothing_guard fun _ => allOrNothing_applyIfSupported host _ _

theorem allOrNothing_enableDwarfChains (size : Nat) :
    AllOrNothing (enableDwarfChains host size) fun set set' =>
      set' = set.mapAttrs (withStackDumps size) := by
  rw [enableDwarfChains]
  exact allOrNothing_guard fun _ => allOrNothing_applyIfSupported host _ _

/-! ### What each call does -/

theorem retunes_of_fields (f : Selection → Attr) (hfields : ∀ x, (f x).fields = x.attr.fields)
    (hall : ∀ x, x.attr.has .sampleIdAll = true → (f x).has .sampleIdAll = true) :
    Selection.Retunes id id fun x => { x with attr := f x } where
  common _ h := h
  event _ := rfl
  attr x := by
    have hfields := hfields x
    simp only [Attr.fields, Prod.mk.injEq] at hfields
    exact ⟨hfields.1, hfields.2.1, hall x, hfields.2.2⟩

theorem retunes_withBranches (mask : UInt64) :
    Selection.Retunes
      (fun m => if mask = 0 then m &&& ~~~SampleField.branchStack.mask
        else m ||| SampleField.branchStack.mask) id
      fun x => { x with attr := withBranches mask x.attr } where
  common m h := by
    split
    · exact h.clear (by decide)
    · exact h.or _
  event _ := rfl
  attr _ := ⟨rfl, rfl, id, rfl⟩

theorem retunes_addSampleFields (fs : List SampleField) :
    Selection.Retunes (· ||| SampleMask.of fs) id
      fun x => { x with attr := x.attr.addSampleFields fs } where
  common _ h := h.or _
  event _ := rfl
  attr _ := ⟨rfl, rfl, id, rfl⟩

theorem retunes_withStackDumps (size : Nat) :
    Selection.Retunes (· ||| SampleMask.of [.callchain, .regsUser, .stackUser])
      (fun _ => userRegisters) fun x => { x with attr := withStackDumps size x.attr } where
  common _ h := h.or _
  event _ := rfl
  attr _ := ⟨rfl, rfl, fun ha => Attr.has_set ha nofun, rfl⟩

/-- **A call that may be turned down does all it says or nothing.** -/
theorem Call.allOrNothing {c : Call} (hc : c.Proposes) :
    AllOrNothing (c.run host) fun set set' => set.Reconfigured c set' := by
  cases c with
  | addGroup names => exact allOrNothing_addGroup host names
  | setBranchSampling mask =>
    refine (allOrNothing_setBranchSampling host mask).imp ?_
    rintro set _ rfl
    exact .tuned (retunes_withBranches mask)
  | enableFramePointerChains =>
    refine (allOrNothing_applyIfSupported host _ _).imp ?_
    rintro set _ rfl
    exact .tuned (retunes_addSampleFields [.callchain])
  | enableDwarfChains size =>
    refine (allOrNothing_enableDwarfChains host size).imp ?_
    rintro set _ rfl
    exact .unwound (retunes_withStackDumps size)
  | _ => exact hc.elim

/-- **What a call that configures a set does to its groups,** whatever comes of
it. -/
theorem Call.reconfigures {c : Call} (hc : c.Configures) (s : Session ω) :
    s.set.Reconfigured c (c.run host s).2.set := by
  have hproposed : c.Proposes → s.set.Reconfigured c (c.run host s).2.set := fun h => by
    rcases c.allOrNothing host h s with ⟨-, hdone⟩ | ⟨-, hset⟩
    · exact hdone
    · exact .spared (congrArg _ hset)
  cases c with
  | addGroup | setBranchSampling | enableFramePointerChains | enableDwarfChains =>
    exact hproposed trivial
  | setSampleFreq freq =>
    refine .tuned (retunes_of_fields (fun x => x.attr.setSampleFreq freq) (fun _ => rfl) ?_)
    exact fun x hx => (Attr.has_setSampleFreq _ _).trans hx
  | setSamplePeriod period =>
    refine .tuned (retunes_of_fields (fun x => x.attr.setSamplePeriod period) (fun _ => rfl) ?_)
    exact fun x hx => (Attr.has_setSamplePeriod _ _).trans hx
  | useDefaultSampleFreq =>
    refine .tuned (retunes_of_fields (fun x => if x.event.eventType.isTracepoint then
      x.attr.setSamplePeriod _ else x.attr.setSampleFreq _) (fun x => ?_) fun x hx => ?_)
    · split <;> rfl
    · split
      · exact (Attr.has_setSamplePeriod _ _).trans hx
      · exact (Attr.has_setSampleFreq _ _).trans hx
  | setEnableOnExec on =>
    refine .tuned (retunes_of_fields (fun x => (x.attr.set .enableOnExec on).set .disabled on)
      (fun _ => rfl) ?_)
    exact fun x hx => Attr.has_set (Attr.has_set hx nofun) nofun
  | setSampleIdAll =>
    refine .tuned (retunes_of_fields (fun x => x.attr.set .sampleIdAll true) (fun _ => rfl) ?_)
    exact fun x hx => Attr.has_set hx fun _ => rfl
  | setInherit on =>
    refine .tuned (retunes_of_fields (fun x => x.attr.set .inherit on) (fun _ => rfl) ?_)
    exact fun x hx => Attr.has_set hx nofun
  | setLowWatermark =>
    exact .tuned (retunes_of_fields (fun x => { x.attr with wakeup := 1 }) (fun _ => rfl)
      fun _ hx => hx)
  | addProcess pid | addThread tid => exact .spared rfl
  | _ => exact hc.elim

end Steps

end Recording

/-! ### What holds of every set that is configured -/

/-- The events of a set are told apart, no group is empty, and the records of
all events are laid out alike but for the user registers. -/
structure SelectionSet.Consistent (s : SelectionSet) : Prop where
  names : s.eventNames.Nodup
  groups : [] ∉ s.groups
  sampleType : ∃ m : SampleMask, m.Common ∧ ∀ x ∈ s.selections, x.attr.sampleType = m
  readFormat : ∀ x ∈ s.selections, x.attr.readFormat = EventType.commonReadFormat
  sampleIdAll : ∀ x ∈ s.selections, x.attr.has .sampleIdAll = true

namespace SelectionSet

variable {s t : SelectionSet}

theorem eventNames_mapSelections (s : SelectionSet) {f : Selection → Selection}
    (hf : ∀ x, (f x).event = x.event) : (s.mapSelections f).eventNames = s.eventNames := by
  rw [eventNames, selections_mapSelections, List.map_map]
  exact List.map_congr_left fun x _ => congrArg EventSpec.name (hf x)

theorem eventNames_uniteSampleTypes (s : SelectionSet) :
    s.uniteSampleTypes.eventNames = s.eventNames := by
  rw [uniteSampleTypes]
  exact s.eventNames_mapSelections fun _ => rfl

theorem nil_notMem_mapSelections {f : Selection → Selection} (h : [] ∉ s.groups) :
    [] ∉ (s.mapSelections f).groups := fun hmem => by
  obtain ⟨group, hgroup, hnil⟩ := List.mem_map.mp hmem
  exact h (List.map_eq_nil_iff.mp hnil ▸ hgroup)

theorem Consistent.of_groups (h : s.Consistent) (heq : t.groups = s.groups) : t.Consistent := by
  have hselections : t.selections = s.selections := congrArg List.flatten heq
  have hnames : t.eventNames = s.eventNames := by rw [eventNames, hselections, eventNames]
  exact ⟨hnames ▸ h.names, heq ▸ h.groups, hselections ▸ h.sampleType, hselections ▸ h.readFormat,
    hselections ▸ h.sampleIdAll⟩

theorem Consistent.retune (h : s.Consistent) {g : SampleMask → SampleMask} {r : UInt64 → UInt64}
    {f : Selection → Selection} (hf : Selection.Retunes g r f) :
    (s.mapSelections f).Consistent := by
  obtain ⟨m, hcommon, hm⟩ := h.sampleType
  refine ⟨(s.eventNames_mapSelections hf.event).symm ▸ h.names, nil_notMem_mapSelections h.groups,
    ⟨g m, hf.common m hcommon, ?_⟩, ?_, ?_⟩ <;>
    rw [selections_mapSelections] <;> refine List.forall_mem_map.mpr fun x hx => ?_
  · rw [(hf.attr x).sampleType, hm x hx]
  · rw [(hf.attr x).readFormat, h.readFormat x hx]
  · exact (hf.attr x).sampleIdAll (h.sampleIdAll x hx)

theorem selections_withGroup (s : SelectionSet) (group : List Selection) :
    (s.withGroup group).selections = s.selections ++ group := by
  rw [selections, withGroup, List.flatten_append, List.flatten_singleton]
  rfl

theorem forall_mem_unite {P : Selection → Prop} : (∀ x ∈ s.uniteSampleTypes.selections, P x) ↔
    ∀ x ∈ s.selections, P { x with attr := { x.attr with sampleType := s.allFields } } := by
  rw [uniteSampleTypes, mapAttrs, selections_mapSelections]
  exact List.forall_mem_map

namespace Admits

variable {names : List String} {group : List Selection}

theorem ne_nil (h : s.Admits names group) (hne : names ≠ []) : group ≠ [] := fun hnil =>
  hne <| List.length_eq_zero_iff.mp <| by rw [← h.length, hnil, List.length_nil]

/-- What holds of the events of a set, and of every new one, holds with the
group. -/
theorem forall_mem (h : s.Admits names group) {P : Selection → Prop}
    (hold : ∀ x ∈ s.selections, P x)
    (hnew : ∀ e : EventSpec, P { event := e, attr := e.attr }) :
    ∀ x ∈ (s.withGroup group).selections, P x := fun x hx => by
  rw [selections_withGroup] at hx
  rcases List.mem_append.mp hx with hx | hx
  · exact hold x hx
  · rw [h.fresh x hx]
    exact hnew x.event

theorem common_allFields (h : s.Admits names group) (hne : names ≠ []) :
    (s.withGroup group).allFields.Common := fun f hf => by
  obtain ⟨x, hx⟩ := List.exists_mem_of_ne_nil group (h.ne_nil hne)
  obtain ⟨m, hcommon, hfields⟩ := x.event.fields_attr
  have hhas : x.attr.sampleType.has f := by
    rw [h.fresh x hx, show x.event.attr.sampleType = m from congrArg Prod.fst hfields]
    exact hcommon f hf
  refine SampleMask.has_foldl_or (fun x : Selection => x.attr.sampleType) _ _ (.inr ⟨x, ?_, hhas⟩)
  rw [selections_withGroup]
  exact List.mem_append_right _ hx

end Admits

theorem Consistent.grow (h : s.Consistent) {names : List String} {group : List Selection}
    (hne : names ≠ []) (hgroup : s.Admits names group) :
    (s.withGroup group).uniteSampleTypes.Consistent := by
  refine ⟨?_, nil_notMem_mapSelections ?_, ⟨_, hgroup.common_allFields hne, ?_⟩, ?_, ?_⟩
  · rw [eventNames_uniteSampleTypes, eventNames, selections_withGroup, List.map_append]
    exact hgroup.distinct h.names
  · intro hmem
    rcases List.mem_append.mp hmem with hmem | hmem
    · exact h.groups hmem
    · exact hgroup.ne_nil hne (List.mem_singleton.mp hmem).symm
  · exact forall_mem_unite.mpr fun _ _ => rfl
  · refine forall_mem_unite.mpr (hgroup.forall_mem h.readFormat fun e => ?_)
    obtain ⟨m, -, hfields⟩ := e.fields_attr
    exact congrArg (fun p => p.2.1) hfields
  · exact forall_mem_unite.mpr (hgroup.forall_mem h.sampleIdAll fun e => e.has_sampleIdAll)

/-- **What a call does to a set keeps it consistent.** -/
theorem Reconfigured.consistent {c : Recording.Call} (hst : s.Reconfigured c t)
    (h : s.Consistent) : t.Consistent := by
  cases hst with
  | spared heq => exact h.of_groups heq
  | tuned hf => exact h.retune hf
  | unwound hf => exact h.retune hf
  | grown hne hgroup => exact h.grow hne hgroup

theorem Consistent.commonIdPositions (h : s.Consistent) (hne : s.selections ≠ []) :
    ∃ p, commonIdPositions s.attrs = .ok p := by
  obtain ⟨m, hcommon, hm⟩ := h.sampleType
  obtain ⟨p, hp⟩ := hcommon.idPositions?
  have hattrs : s.attrs ≠ [] := fun hnil => hne (List.map_eq_nil_iff.mp hnil)
  refine ⟨p, (commonIdPositions_eq_ok_iff hattrs).mpr (List.forall_mem_map.mpr fun x hx => ?_)⟩
  rw [hm x hx, hp]

end SelectionSet

/-! ### Histories of calls -/

section Histories

variable {ω : Type} (host : Host ω)

/-- Where calls that configure a set have brought it, in any order, whatever
came of them and whatever happened outside. The last call comes first in the
list. -/
inductive Host.Configured : List Recording.Call → Session ω → Prop where
  | start (counting : Bool) (world : ω) (loop : EventLoop RecordingTask) :
    Configured [] { set := { counting }, world, loop }
  | call {calls : List Recording.Call} {s : Session ω} (h : Configured calls s)
    (c : Recording.Call) (hc : c.Configures) : Configured (c :: calls) (c.run host s).2
  | outside {calls : List Recording.Call} {s : Session ω} (h : Configured calls s) (world : ω)
    (loop : EventLoop RecordingTask) : Configured calls { s with world, loop }

variable {host} {calls : List Recording.Call} {s : Session ω}

theorem Host.Configured.consistent (h : host.Configured calls s) : s.set.Consistent := by
  induction h with
  | start counting world loop =>
    exact ⟨List.nodup_nil, List.not_mem_nil, ⟨_, SampleMask.common_of, List.forall_mem_nil _⟩,
      List.forall_mem_nil _, List.forall_mem_nil _⟩
  | call h c hc ih => exact (c.reconfigures host hc _).consistent ih
  | outside h world loop ih => exact ih

/-- **Configuring is all or nothing.** A call that adds events, or that changes
what is sampled, and fails leaves the set as it was, whatever the kernel
supports. After any calls in any order the names of the selected events are
distinct, no group is empty, the attrs have one sample type, with the common
fields, and if there are events their ids have common places. -/
theorem Host.configured_or_unchanged (host : Host ω) :
    (∀ (c : Recording.Call) (s : Session ω) (e : Error), c.Proposes →
      (c.run host s).1 = .error e → (c.run host s).2.set = s.set) ∧
    ∀ (calls : List Recording.Call) (s : Session ω), host.Configured calls s →
      (s.set.selections.map fun x => x.event.name).Nodup ∧ [] ∉ s.set.groups ∧
        (∃ m : SampleMask, (∀ f ∈ [SampleField.ip, .tid, .time, .period, .cpu, .id], m.has f) ∧
          ∀ a ∈ s.set.attrs, a.sampleType = m) ∧
        (s.set.selections ≠ [] → ∃ p, commonIdPositions s.set.attrs = .ok p) := by
  constructor
  · intro c s e hc he
    rcases c.allOrNothing host hc s with ⟨hok, -⟩ | ⟨-, hset⟩
    · rw [he] at hok
      cases hok
    · exact hset
  · intro calls s h
    have hconsistent := h.consistent
    obtain ⟨m, hcommon, hm⟩ := hconsistent.sampleType
    exact ⟨hconsistent.names, hconsistent.groups, ⟨m, hcommon, List.forall_mem_map.mpr hm⟩,
      hconsistent.commonIdPositions⟩

end Histories

/-- A kernel without instruction counters refuses the second event of a group:
the first is not added either, and the set goes on as it was. -/
theorem Host.configured_or_unchanged_refused :
    let kernel : MemoryKernel := { rules := { rejectedConfigs := [1] } }
    let s := ((Recording.Call.addGroup ["cpu-cycles"]).run MemoryKernel.host
      { world := kernel }).2
    let refused := (Recording.Call.addGroup ["cpu-clock", "instructions"]).run MemoryKernel.host s
    refused.1 = .error (.kernelRejected "instructions") ∧ refused.2.set = s.set ∧
      ∃ p, commonIdPositions refused.2.set.attrs = .ok p := by
  intro kernel s refused
  have hfails : refused.1 = .error (.kernelRejected "instructions") := by decide +kernel
  have hsome : s.set.selections ≠ [] := by decide +kernel
  have hs : MemoryKernel.host.Configured [.addGroup ["cpu-cycles"]] s :=
    .call (.start false kernel {}) _ trivial
  have h := Host.configured_or_unchanged MemoryKernel.host
  have hset : refused.2.set = s.set := h.1 _ _ _ trivial hfails
  rw [hset]
  exact ⟨hfails, rfl, (h.2 _ _ hs).2.2.2 hsome⟩

end Profiler
