/-
# Samples, read as they are written

A sample has a field for each bit of its sample type, in a fixed order that is
not that of the bits. Its encoder and its decoder go through the fields in the
same order; a field that is not selected takes no bytes and is as it was.

Key theorem: `Sample.follows_parse`.
-/
import Profiler.Proofs.Record.Parts

namespace Profiler

open Format Parse

theorem selected_iff {α : Type} (P : α → Prop) (absent v : α) (h : P absent) (present : Bool) :
    (if present then P v else v = absent) ↔ (present = false → v = absent) ∧ P v := by
  cases present with
  | true => simp
  | false => exact ⟨fun hv => ⟨fun _ => hv, hv ▸ h⟩, fun hv => hv.1 rfl⟩

theorem ReadValues.selected_iff {present : Bool} {fmt : ReadFormat} {v : ReadValues} :
    (if present then v.WellFormed fmt ∧ v.values.length < UInt64.size else v = {}) ↔
      (if present then v.WellFormed fmt else v = {}) ∧ v.values.length < UInt64.size := by
  cases present with
  | true => simp
  | false => exact ⟨fun hv => ⟨hv, hv ▸ by decide⟩, And.left⟩

theorem UserRegs.selected_iff {present : Bool} {mask : UInt64} {r : UserRegs} :
    (if present then r.mask = mask ∧ r.WellFormed else r = { mask }) ↔
      r.mask = mask ∧ (present = false → r.abi = 0) ∧ r.WellFormed := by
  cases present with
  | true => simp
  | false =>
    constructor
    · rintro rfl
      exact ⟨rfl, fun _ => rfl, rfl⟩
    · rintro ⟨rfl, habi, hlen⟩
      obtain ⟨abi, mask, values⟩ := r
      obtain rfl : abi = 0 := habi rfl
      obtain rfl : values = [] := List.length_eq_zero_iff.mp hlen
      rfl

theorem UserStack.selected_iff {present : Bool} {s : UserStack} :
    (if present then s.WellFormed ∧ s.data.length < UInt64.size else s = {}) ↔
      (present = false → s.data = []) ∧ s.WellFormed ∧ s.data.length < UInt64.size := by
  cases present with
  | true => simp
  | false =>
    constructor
    · rintro rfl
      exact ⟨fun _ => rfl, fun _ => rfl, by decide⟩
    · rintro ⟨hdata, hs, -⟩
      obtain ⟨data, dynSize⟩ := s
      obtain rfl : data = [] := hdata rfl
      obtain rfl : dynSize = 0 := hs rfl
      rfl

namespace Sample

theorem has_eq {a : Attr} {s : Sample} (htype : s.sampleType = a.sampleType) (f : SampleField) :
    (ofAttr a).has f = s.has f := by
  rw [has, has, htype]
  rfl

theorem follows_parse (a : Attr) (misc : UInt16) :
    Follows (Sample.parse a misc)
      (written Sample.encode fun s => s.misc = misc ∧ s.WellFormed a ∧ s.CountsFit) := by
  refine Follows.congr
    (Follows.field Sample.identifier (fun _ _ => rfl) (follows_u64.whenSelected _ _) fun _ =>
    Follows.field Sample.ip (fun _ _ => rfl) (follows_u64.whenSelected _ _) fun _ =>
    Follows.field Sample.pid (fun _ _ => rfl) (follows_u32.whenSelected _ _) fun _ =>
    Follows.field Sample.tid (fun _ _ => rfl) (follows_u32.whenSelected _ _) fun _ =>
    Follows.field Sample.time (fun _ _ => rfl) (follows_u64.whenSelected _ _) fun _ =>
    Follows.field Sample.addr (fun _ _ => rfl) (follows_u64.whenSelected _ _) fun _ =>
    Follows.field Sample.id (fun _ _ => rfl) (follows_u64.whenSelected _ _) fun _ =>
    Follows.field Sample.streamId (fun _ _ => rfl) (follows_u64.whenSelected _ _) fun _ =>
    Follows.field Sample.cpu (fun _ _ => rfl) (follows_u32.whenSelected _ _) fun _ =>
    Follows.field Sample.cpuReserved (fun _ _ => rfl) (follows_u32.whenSelected _ _) fun _ =>
    Follows.field Sample.period (fun _ _ => rfl) (follows_u64.whenSelected _ _) fun _ =>
    Follows.field Sample.read (fun _ _ => rfl) ((ReadValues.follows_parse _).whenSelected _ _) fun _ =>
    Follows.field Sample.callchain (fun _ _ => rfl) (follows_callchain.whenSelected _ _) fun _ =>
    Follows.field Sample.raw (fun _ _ => rfl) (follows_raw.whenSelected _ _) fun _ =>
    Follows.field Sample.branchStack (fun _ _ => rfl)
      (follows_parseBranches.whenSelected _ _) fun _ =>
    Follows.field Sample.userRegs (fun _ _ => rfl)
      ((UserRegs.follows_parse _).whenSelected _ _) fun _ =>
    Follows.field Sample.userStack (fun _ _ => rfl) (UserStack.follows_parse.whenSelected _ _) fun _ =>
    Follows.built _) fun bs s => ?_
  simp only [selected_written, nothing_eq_written, written_andThen_written, if_true_left,
    Bool.not_eq_true, List.append_nil, and_true]
  have hcallchain := selected_iff (fun ips : List UInt64 => ips.length < UInt64.size) [] s.callchain
    (by decide)
  have hraw := selected_iff (fun data : Bytes => data.length < UInt32.size) [] s.raw (by decide)
  have hbranches := selected_iff (fun bs : List Branch => bs.length * 3 < UInt64.size) [] s.branchStack
    (by decide)
  simp only [written, ReadValues.selected_iff, hcallchain, hraw, hbranches,
    show (ofAttr a).userRegs = { mask := a.sampleRegsUser } from rfl, UserRegs.selected_iff,
    UserStack.selected_iff]
  constructor
  · rintro ⟨⟨hv, hbs⟩, hs⟩
    have htype : s.sampleType = a.sampleType := congrArg Sample.sampleType hs
    have hformat : (ofAttr a).readFormat = s.readFormat := (congrArg Sample.readFormat hs).symm
    have hmisc : s.misc = misc := congrArg Sample.misc hs
    simp only [has_eq htype, hformat] at hv hbs
    obtain ⟨identifier, ip, pid, tid, time, addr, id, streamId, cpu, cpuReserved, period,
      ⟨read, values⟩, ⟨callchain, callchainLength⟩, ⟨raw, rawLength⟩,
      ⟨branchStack, branchStackLength⟩, ⟨mask, abi, userRegs⟩, stackData, userStack, stack⟩ := hv
    refine ⟨⟨hmisc, ?_, ⟨values, callchainLength, branchStackLength, stack⟩⟩, ?_⟩
    · exact ⟨htype, hformat.symm, mask, identifier, ip, pid, tid, time, addr, id, streamId, cpu,
        cpuReserved, period, read, callchain, raw, rawLength, branchStack, abi, userRegs, stackData,
        userStack⟩
    · simp only [hbs, encode, List.append_assoc]
  · rintro ⟨⟨hmisc, hs, hcounts⟩, hbs⟩
    have hformat : (ofAttr a).readFormat = s.readFormat := hs.readFormat.symm
    simp only [has_eq hs.sampleType, hformat]
    refine ⟨⟨⟨hs.identifier, hs.ip, hs.pid, hs.tid, hs.time, hs.addr, hs.id, hs.streamId, hs.cpu,
      hs.cpuReserved, hs.period, ⟨hs.read, hcounts.values⟩, ⟨hs.callchain, hcounts.callchain⟩,
      ⟨hs.raw, hs.rawLength⟩, ⟨hs.branchStack, hcounts.branchStack⟩, ⟨hs.mask, hs.abi, hs.userRegs⟩,
      hs.stackData, hs.userStack, hcounts.stack⟩, ?_⟩, ?_⟩
    · simp only [hbs, encode, List.append_assoc]
    · rw [← hmisc, ← show s.sampleType = (ofAttr a).sampleType from hs.sampleType]

end Sample

end Profiler
