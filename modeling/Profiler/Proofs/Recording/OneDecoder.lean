/-
# One decoder for all events

The attrs of a set that is configured give the records of all events one shape.
What is left to tell them apart are the user registers, which only stack
unwinding asks for: an event that is added after it was turned on has the sample
field for registers and none of the registers. Where no event comes that late,
and whenever unwinding has just been turned on, one decoder reads all records.

Key definitions: `SelectionSet.Captures`, `SelectionSet.DecodesAlike`,
`Recording.Call.Adds`, `Recording.Call.Unwinds`.
Key theorems: `SelectionSet.Reconfigured.captures`, `Host.Configured.captures`,
`Host.Configured.decode_eq_iff_registers`.
-/
import Profiler.Proofs.Record.Shape
import Profiler.Proofs.Recording.Configured

namespace Profiler

namespace SelectionSet

variable {s t : SelectionSet} {r : UInt64}

/-- Samples of every event hold these user registers. -/
def Captures (s : SelectionSet) (r : UInt64) : Prop :=
  ∀ x ∈ s.selections, x.attr.sampleRegsUser = r

/-- The attrs of all events read every record alike. -/
def DecodesAlike (s : SelectionSet) : Prop :=
  ∀ a ∈ s.attrs, ∀ b ∈ s.attrs, ∀ bs, Record.decode a bs = Record.decode b bs

theorem Consistent.shapedLike (h : s.Consistent) {a b : Attr} (ha : a ∈ s.attrs)
    (hb : b ∈ s.attrs) : a.ShapedLike b := by
  obtain ⟨m, -, hm⟩ := h.sampleType
  obtain ⟨x, hx, rfl⟩ := List.mem_map.mp ha
  obtain ⟨y, hy, rfl⟩ := List.mem_map.mp hb
  exact ⟨(hm x hx).trans (hm y hy).symm, (h.readFormat x hx).trans (h.readFormat y hy).symm,
    (h.sampleIdAll x hx).trans (h.sampleIdAll y hy).symm⟩

theorem Consistent.decodesAlike (h : s.Consistent) (hr : s.Captures r) : s.DecodesAlike := by
  intro a ha b hb
  refine (Record.decode_eq_iff (h.shapedLike ha hb)).mpr ?_
  obtain ⟨x, hx, rfl⟩ := List.mem_map.mp ha
  obtain ⟨y, hy, rfl⟩ := List.mem_map.mp hb
  exact (hr x hx).trans (hr y hy).symm

theorem captures_mapSelections {g : SampleMask → SampleMask} {change : UInt64 → UInt64}
    {f : Selection → Selection} (hf : Selection.Retunes g change f)
    (h : ∀ x ∈ s.selections, change x.attr.sampleRegsUser = r) :
    (s.mapSelections f).Captures r := by
  rw [Captures, selections_mapSelections]
  exact List.forall_mem_map.mpr fun x hx => ((hf.attr x).sampleRegsUser).trans (h x hx)

end SelectionSet

namespace Recording.Call

/-- The calls that add events. -/
def Adds : Call → Prop
  | addGroup _ => True
  | _ => False

/-- The calls that turn on stack unwinding. -/
def Unwinds : Call → Prop
  | enableDwarfChains _ => True
  | _ => False

end Recording.Call

/-- A call keeps the registers that all events have in common, unless it adds
events to those that have some or turns on unwinding for all of them. -/
theorem SelectionSet.Reconfigured.captures {s t : SelectionSet} {c : Recording.Call} {r : UInt64}
    (hst : s.Reconfigured c t) (h : s.Captures r) (hadds : c.Adds → r = 0) :
    t.Captures r ∨ c.Unwinds ∧ t.Captures userRegisters := by
  cases hst with
  | spared heq =>
    have hselections : t.selections = s.selections := congrArg List.flatten heq
    rw [Captures, hselections]
    exact .inl h
  | tuned hf => exact .inl (captures_mapSelections hf h)
  | unwound hf => exact .inr ⟨trivial, captures_mapSelections hf fun _ _ => rfl⟩
  | grown hne hgroup =>
    refine .inl (forall_mem_unite.mpr (hgroup.forall_mem h fun e => ?_))
    obtain ⟨m, -, hfields⟩ := e.fields_attr
    rw [hadds trivial]
    exact congrArg (fun p => p.2.2) hfields

section Histories

variable {ω : Type} {host : Host ω} {calls : List Recording.Call} {s : Session ω}

/-- Where no event is added after unwinding was asked for, all events have the
same registers. -/
theorem Host.Configured.captures (h : host.Configured calls s)
    (horder : calls.Pairwise fun later earlier => later.Adds → ¬ earlier.Unwinds) :
    ∃ r, s.set.Captures r ∧ ((∀ c ∈ calls, ¬ c.Unwinds) → r = 0) := by
  induction h with
  | start counting world loop => exact ⟨0, List.forall_mem_nil _, fun _ => rfl⟩
  | call h c hc ih =>
    obtain ⟨hlate, horder⟩ := List.pairwise_cons.mp horder
    obtain ⟨r, hr, hnone⟩ := ih horder
    have hadds : c.Adds → r = 0 := fun hadds => hnone fun earlier hmem => hlate earlier hmem hadds
    rcases (c.reconfigures host hc _).captures hr hadds with hkept | ⟨hunwinds, hall⟩
    · exact ⟨r, hkept, fun hcalls => hnone (List.forall_mem_cons.mp hcalls).2⟩
    · exact ⟨_, hall, fun hcalls => absurd hunwinds (List.forall_mem_cons.mp hcalls).1⟩
  | outside h world loop ih => exact ih horder

/-- **One decoder reads the records of all events, but for the user registers.**
After any calls in any order two attrs of the set read every record alike just
if they capture the same registers, and records other than samples in any case.
All attrs of the set read alike if no event was added after unwinding was asked
for, and once unwinding has been turned on with all events there. -/
theorem Host.Configured.decode_eq_iff_registers (h : host.Configured calls s) :
    (∀ a ∈ s.set.attrs, ∀ b ∈ s.set.attrs,
      ((∀ bs, Record.decode a bs = Record.decode b bs) ↔ a.sampleRegsUser = b.sampleRegsUser) ∧
      ∀ bs, (∀ header, RecordHeader.decode bs = .ok header →
        RecordKind.ofCode? header.type ≠ some .sample) → Record.decode a bs = Record.decode b bs) ∧
    (calls.Pairwise (fun later earlier => later.Adds → ¬ earlier.Unwinds) → s.set.DecodesAlike) ∧
    ∀ size, (Recording.enableDwarfChains host size s).1 = .ok () →
      (Recording.enableDwarfChains host size s).2.set.DecodesAlike := by
  refine ⟨fun a ha b hb => ?_, fun horder => ?_, fun size hok => ?_⟩
  · have hshape := h.consistent.shapedLike ha hb
    refine ⟨Record.decode_eq_iff hshape, fun bs hother => ?_⟩
    exact Record.decode_congr hshape fun header hheader hsample =>
      absurd hsample (hother header hheader)
  · obtain ⟨r, hr, -⟩ := h.captures horder
    exact h.consistent.decodesAlike hr
  · have hafter : host.Configured (.enableDwarfChains size :: calls)
        (Recording.enableDwarfChains host size s).2 := h.call (.enableDwarfChains size) trivial
    refine hafter.consistent.decodesAlike (r := userRegisters) ?_
    rcases Recording.allOrNothing_enableDwarfChains host size s with ⟨-, hset⟩ | ⟨⟨e, he⟩, -⟩
    · rw [hset]
      exact SelectionSet.captures_mapSelections (Recording.retunes_withStackDumps size)
        fun _ _ => rfl
    · rw [hok] at he
      cases he

end Histories

/-! ### An event that comes after unwinding -/

section Late

open Recording MemoryKernel

/-- A set with one event. -/
def oneEvent : Session MemoryKernel :=
  ((Recording.Call.addGroup ["cpu-cycles"]).run host { world := {} }).2

/-- Unwinding is turned on for it. -/
def unwoundEvent : Session MemoryKernel :=
  ((Recording.Call.enableDwarfChains 8192).run host oneEvent).2

/-- Another event comes after that. -/
def lateEvent : Session MemoryKernel :=
  ((Recording.Call.addGroup ["cpu-clock"]).run host unwoundEvent).2

theorem configured_lateEvent :
    host.Configured [.addGroup ["cpu-clock"], .enableDwarfChains 8192, .addGroup ["cpu-cycles"]]
      lateEvent := by
  unfold lateEvent unwoundEvent oneEvent
  refine .call ?_ (.addGroup ["cpu-clock"]) trivial
  refine .call ?_ (.enableDwarfChains 8192) trivial
  refine .call ?_ (.addGroup ["cpu-cycles"]) trivial
  exact .start false ({} : MemoryKernel) {}

/-- The records of both events are read alike when unwinding is turned on once
more; of other records a lost one is read alike before that too. -/
theorem Host.Configured.decode_eq_iff_registers_lateEvent :
    let again := enableDwarfChains host 8192 lateEvent
    let bytes := (Record.lost { id := 1, lost := 2 }).encode
    again.1 = .ok () ∧ again.2.set.DecodesAlike ∧
      ∀ a ∈ lateEvent.set.attrs, ∀ b ∈ lateEvent.set.attrs,
        Record.decode a bytes = Record.decode b bytes := by
  intro again bytes
  have hok : again.1 = .ok () := by decide +kernel
  have hheader : RecordHeader.decode bytes = .ok ⟨2, 0, 24⟩ := by decide +kernel
  have h := configured_lateEvent.decode_eq_iff_registers
  refine ⟨hok, h.2.2 8192 hok, fun a ha b hb => (h.1 a ha b hb).2 bytes fun header hdecoded => ?_⟩
  rw [hheader] at hdecoded
  cases hdecoded
  decide

/-- **One decoder does not read the records of an event that comes late.** A
sample with the registers that the first event asks for is not a record of the
second, whose attr has the field for registers and asks for none. -/
theorem not_decodesAlike_lateEvent :
    ¬ ∀ (calls : List Recording.Call) (s : Session MemoryKernel), host.Configured calls s →
      s.set.DecodesAlike := by
  intro h
  have halike := h _ _ configured_lateEvent
  have hattrs : ∃ a b, lateEvent.set.attrs = [a, b] ∧
      let bytes := (Record.sample { Sample.ofAttr a with
        userRegs := { abi := 2, mask := userRegisters, values := List.replicate 20 0 } }).encode
      (Record.decode a bytes).toBool = true ∧ (Record.decode b bytes).toBool = false :=
    ⟨lateEvent.set.attrs.getD 0 {}, lateEvent.set.attrs.getD 1 {}, by decide +kernel,
      by decide +kernel, by decide +kernel⟩
  obtain ⟨a, b, hattrs, ha, hb⟩ := hattrs
  rw [halike a (by simp [hattrs]) b (by simp [hattrs]), hb] at ha
  cases ha

end Late

end Profiler
