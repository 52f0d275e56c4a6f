/-
# Shortened samples are read back

A sample that was read can be shortened any number of times, in two ways and in
any order (`Sample.Edit`). Both change which fields are stored or how long they
are, and the decoder takes a sample only if all its fields fit together. An
edit leaves a sample that fits the attr it was read with, but for the fields it
stores (`Sample.Storable`): so under the attr with the sample's own type it is
still read as it is written.

Key definitions: `Sample.Edit`, `Sample.Edit.run`, `Sample.Storable`,
`Sample.Unwound`.
Key theorems: `Sample.Storable.run`, `Sample.Unwound.run`,
`Sample.decodeReassembled_foldl_run`.
-/
import Profiler.Proofs.Attr
import Profiler.Proofs.Record.RoundTrip
import Profiler.Record.Trim

namespace Profiler

namespace Sample

/-- A way to shorten a sample. -/
inductive Edit where
  | trim (length : Nat)
  | replace (ips : List UInt64)
  deriving DecidableEq, Repr

def Edit.run (s : Sample) : Edit → Sample
  | trim length => s.trimUserStack length
  | replace ips => s.replaceRegsAndStack ips

variable {a : Attr} {s : Sample}

/-! ### What an edit does to the stored fields -/

/-- Unwinding leaves a call chain, and no registers and no stack. -/
theorem has_replaceRegsAndStack (s : Sample) (ips : List UInt64) (f : SampleField) :
    (s.replaceRegsAndStack ips).has f =
      (decide (f = .callchain) || s.has f && decide (f ≠ .regsUser ∧ f ≠ .stackUser)) := by
  show SampleMask.has ((s.sampleType ||| SampleField.callchain.mask) &&&
    ~~~(SampleField.regsUser.mask ||| SampleField.stackUser.mask)) f = _
  have hmasks : ~~~(SampleField.regsUser.mask ||| SampleField.stackUser.mask) =
      ~~~SampleField.regsUser.mask &&& ~~~SampleField.stackUser.mask := by decide
  rw [hmasks, ← UInt64.and_assoc]
  by_cases hstack : f = .stackUser
  · subst hstack
    simp [SampleMask.has_clear_self]
  rw [SampleMask.has_clear _ hstack]
  by_cases hregs : f = .regsUser
  · subst hregs
    simp [SampleMask.has_clear_self]
  rw [SampleMask.has_clear _ hregs, SampleMask.has_or, SampleMask.has_mask]
  simp [hstack, hregs, has, Bool.or_comm, eq_comm]

theorem has_replaceRegsAndStack_of_ne (s : Sample) (ips : List UInt64) {f : SampleField}
    (hchain : f ≠ .callchain) (hregs : f ≠ .regsUser) (hstack : f ≠ .stackUser) :
    (s.replaceRegsAndStack ips).has f = s.has f := by
  simp [has_replaceRegsAndStack, hchain, hregs, hstack]

theorem Edit.eventId_run (s : Sample) (e : Edit) : (e.run s).eventId = s.eventId := by
  cases e with
  | trim length => rfl
  | replace ips =>
    have hkept : ∀ f ∈ [SampleField.identifier, .id],
        (s.replaceRegsAndStack ips).has f = s.has f := by
      simp [has_replaceRegsAndStack]
    simp only [List.forall_mem_cons] at hkept
    simp only [run, eventId, hkept.1, hkept.2.1]
    rfl

theorem prefix_appendUserFrames (chain ips : List UInt64) :
    chain <+: appendUserFrames chain ips := by
  unfold appendUserFrames
  split
  · exact List.prefix_rfl
  split
  · exact List.prefix_append _ _
  · rw [List.append_assoc]
    exact List.prefix_append _ _

theorem suffix_appendUserFrames (chain ips : List UInt64) :
    ips <:+ appendUserFrames chain ips := by
  unfold appendUserFrames
  split
  · next h => exact List.isEmpty_iff.mp h ▸ List.nil_suffix
  split
  · exact List.suffix_append _ _
  · exact List.suffix_append _ _

/-! ### The stack in use -/

/-- No more of the stack is in use than is stored. -/
def StackHolds (s : Sample) : Prop := s.userStack.dynSize.toNat ≤ s.userStack.data.length

theorem StackHolds.wellFormed (h : s.StackHolds) : s.userStack.WellFormed := fun hdata => by
  have hzero : s.userStack.dynSize.toNat ≤ 0 := by simpa [StackHolds, hdata] using h
  exact UInt64.toNat_inj.mp (Nat.le_zero.mp hzero)

theorem stackHolds_trimUserStack (hfit : s.userStack.data.length < UInt64.size) (length : Nat) :
    (s.trimUserStack length).StackHolds := by
  have hlen : (s.userStack.data.take (length / 8 * 8)).length < UInt64.size :=
    Nat.lt_of_le_of_lt (List.length_take_le' _ _) hfit
  have hword := UInt64.toNat_ofNat_of_lt' hlen
  simp only [StackHolds, trimUserStack]
  split
  · next h => exact hword ▸ UInt64.le_iff_toNat_le.mp h
  · exact Nat.le_of_eq hword

/-! ### What every edit keeps -/

/-- A sample that fits an attr but for the fields it stores, in which every
number of entries but that of the call chain is a word. -/
structure Storable (a : Attr) (s : Sample) : Prop where
  wellFormed : s.WellFormed { a with sampleType := s.sampleType }
  counts : { s with callchain := [] }.CountsFit

namespace Storable

theorem countsFit (h : s.Storable a) (hchain : s.callchain.length < UInt64.size) : s.CountsFit :=
  ⟨h.counts.values, hchain, h.counts.branchStack, h.counts.stack⟩

theorem stackHolds_run (h : s.Storable a) (e : Edit) : (e.run s).StackHolds := by
  cases e with
  | trim length => exact stackHolds_trimUserStack h.counts.stack length
  | replace ips => exact Nat.zero_le _

theorem trim (h : s.Storable a) (length : Nat) : (s.trimUserStack length).Storable a where
  wellFormed := { h.wellFormed with
    stackData := fun hno => by
      have hdata := h.wellFormed.stackData hno
      simp [trimUserStack, hdata]
    userStack := (h.stackHolds_run (.trim length)).wellFormed }
  counts := { h.counts with
    stack := Nat.lt_of_le_of_lt (List.length_take_le' _ _) h.counts.stack }

theorem replace (h : s.Storable a) (ips : List UInt64) : (s.replaceRegsAndStack ips).Storable a := by
  have hs := h.wellFormed
  have hkept : ∀ f, f ≠ .callchain → f ≠ .regsUser → f ≠ .stackUser →
      (s.replaceRegsAndStack ips).has f = false → s.has f = false :=
    fun f hchain hregs hstack hno => by
      rwa [has_replaceRegsAndStack_of_ne s ips hchain hregs hstack] at hno
  have hread : (s.replaceRegsAndStack ips).has .read = s.has .read :=
    has_replaceRegsAndStack_of_ne s ips nofun nofun nofun
  refine ⟨?_, { h.counts with stack := (by decide : 0 < UInt64.size) }⟩
  exact {
    sampleType := rfl
    readFormat := hs.readFormat
    mask := hs.mask
    identifier := fun hno => hs.identifier (hkept _ nofun nofun nofun hno)
    ip := fun hno => hs.ip (hkept _ nofun nofun nofun hno)
    pid := fun hno => hs.pid (hkept _ nofun nofun nofun hno)
    tid := fun hno => hs.tid (hkept _ nofun nofun nofun hno)
    time := fun hno => hs.time (hkept _ nofun nofun nofun hno)
    addr := fun hno => hs.addr (hkept _ nofun nofun nofun hno)
    id := fun hno => hs.id (hkept _ nofun nofun nofun hno)
    streamId := fun hno => hs.streamId (hkept _ nofun nofun nofun hno)
    cpu := fun hno => hs.cpu (hkept _ nofun nofun nofun hno)
    cpuReserved := fun hno => hs.cpuReserved (hkept _ nofun nofun nofun hno)
    period := fun hno => hs.period (hkept _ nofun nofun nofun hno)
    read := by rw [hread]; exact hs.read
    callchain := fun hno => by simp [has_replaceRegsAndStack] at hno
    raw := fun hno => hs.raw (hkept _ nofun nofun nofun hno)
    rawLength := hs.rawLength
    branchStack := fun hno => hs.branchStack (hkept _ nofun nofun nofun hno)
    abi := fun _ => rfl
    userRegs := rfl
    stackData := fun _ => rfl
    userStack := fun _ => rfl }

/-- **An edit leaves a sample that fits the attr.** -/
theorem run (h : s.Storable a) : ∀ e : Edit, (e.run s).Storable a
  | .trim length => h.trim length
  | .replace ips => h.replace ips

theorem callchain_run (h : s.Storable a) (e : Edit) : s.callchain <+: (e.run s).callchain := by
  cases e with
  | trim length => exact List.prefix_rfl
  | replace ips =>
    have hkept : (if s.has .callchain then s.callchain else []) = s.callchain := by
      cases hchain : s.has .callchain with
      | true => rfl
      | false => exact (h.wellFormed.callchain hchain).symm
    simp only [Edit.run, replaceRegsAndStack, hkept]
    exact prefix_appendUserFrames s.callchain ips

theorem foldl_run (h : s.Storable a) (es : List Edit) : (es.foldl Edit.run s).Storable a := by
  induction es generalizing s with
  | nil => exact h
  | cons e es ih => exact ih (h.run e)

theorem callchain_foldl_run (h : s.Storable a) (es : List Edit) :
    s.callchain <+: (es.foldl Edit.run s).callchain := by
  induction es generalizing s with
  | nil => exact List.prefix_rfl
  | cons e es ih => exact (h.callchain_run e).trans (ih (h.run e))

end Storable

/-! ### Registers and stack that are gone -/

/-- The call chain is stored in the place of registers and stack. -/
structure Unwound (s : Sample) : Prop where
  callchain : s.has .callchain = true
  regsUser : s.has .regsUser = false
  stackUser : s.has .stackUser = false

theorem unwound_replaceRegsAndStack (s : Sample) (ips : List UInt64) :
    (s.replaceRegsAndStack ips).Unwound := by
  constructor <;> simp [has_replaceRegsAndStack]

namespace Unwound

theorem run (h : s.Unwound) : ∀ e : Edit, (e.run s).Unwound
  | .trim _ => ⟨h.callchain, h.regsUser, h.stackUser⟩
  | .replace ips => unwound_replaceRegsAndStack s ips

theorem foldl_run (h : s.Unwound) (es : List Edit) : (es.foldl Edit.run s).Unwound := by
  induction es generalizing s with
  | nil => exact h
  | cons e es ih => exact ih (h.run e)

theorem encode_eq (h : s.Unwound) (regs : UserRegs) (stack : UserStack) :
    { s with userRegs := regs, userStack := stack }.encode = s.encode := by
  have hregs : { s with userRegs := regs, userStack := stack }.has .regsUser = false := h.regsUser
  have hstack : { s with userRegs := regs, userStack := stack }.has .stackUser = false :=
    h.stackUser
  simp only [encode, hregs, hstack, h.regsUser, h.stackUser, Bytes.whenSelected]
  rfl

end Unwound

theorem callchain_foldl_trim {es : List Edit} (h : ∀ e ∈ es, ∃ length, e = .trim length) :
    (es.foldl Edit.run s).callchain = s.callchain := by
  induction es generalizing s with
  | nil => rfl
  | cons e es ih =>
    obtain ⟨⟨length, rfl⟩, hes⟩ := List.forall_mem_cons.mp h
    exact ih hes

/-! ### Any number of edits -/

theorem storable_of_decode {bs : Bytes} (h : Record.decode a bs = .ok (.sample s)) :
    s.Storable a := by
  obtain ⟨header, body, -, -, hlayout, -⟩ := Record.decode_eq_ok_iff.mp h
  have hs : s.WellFormed a := hlayout.wellFormed.shaped
  have hcounts : s.CountsFit := hlayout.countsFit
  refine ⟨?_, { hcounts with callchain := (by decide : 0 < UInt64.size) }⟩
  rw [hs.sampleType]
  exact hs

theorem eventId_foldl_run (s : Sample) (es : List Edit) :
    (es.foldl Edit.run s).eventId = s.eventId := by
  induction es generalizing s with
  | nil => rfl
  | cons e es ih => exact (ih (e.run s)).trans (e.eventId_run s)

/-- **A sample that was read can be shortened in any way and is still read as
it is written**, under the attr that stores what the sample stores. No more of
the stack is in use than is stored, the event is known by the same id, and once
the frames of the stack are in the call chain neither registers nor stack are
written again: the frames stay in the chain, at its end until more are added. -/
theorem decodeReassembled_foldl_run {bs : Bytes} (h : Record.decode a bs = .ok (.sample s))
    (es : List Edit) :
    let t := es.foldl Edit.run s
    (t.callchain.length < UInt64.size →
      Record.decodeReassembled { a with sampleType := t.sampleType } (Record.sample t).encode =
        .ok (.sample t)) ∧
      (es ≠ [] → t.StackHolds) ∧
      t.eventId = s.eventId ∧
      ∀ before ips after, es = before ++ .replace ips :: after →
        t.Unwound ∧
          (∀ regs stack, { t with userRegs := regs, userStack := stack }.encode = t.encode) ∧
          ips <:+: t.callchain ∧
          ((∀ e ∈ after, ∃ length, e = .trim length) → ips <:+ t.callchain) := by
  intro t
  have hs : s.Storable a := storable_of_decode h
  have ht : t.Storable a := hs.foldl_run es
  refine ⟨fun hchain => ?_, fun hne => ?_, eventId_foldl_run s es, fun before ips after hes => ?_⟩
  · have hwell : (Record.sample t).WellFormed { a with sampleType := t.sampleType } :=
      ⟨ht.wellFormed, trivial⟩
    exact Record.decodeReassembled_encode hwell (ht.countsFit hchain)
  · obtain ⟨before, last, rfl⟩ := (List.eq_nil_or_concat es).resolve_left hne
    simp only [t, List.concat_eq_append, List.foldl_append]
    exact (hs.foldl_run before).stackHolds_run last
  · obtain ⟨u, hu⟩ : ∃ u, u = before.foldl Edit.run s := ⟨_, rfl⟩
    have hafter : t = after.foldl Edit.run (u.replaceRegsAndStack ips) := by
      simp only [t, hes, hu, List.foldl_append, List.foldl_cons, Edit.run]
    have hstorable : (u.replaceRegsAndStack ips).Storable a :=
      Storable.replace (hu ▸ hs.foldl_run before) ips
    have hunwound : t.Unwound :=
      hafter ▸ (unwound_replaceRegsAndStack u ips).foldl_run after
    have hips : ips <:+ (u.replaceRegsAndStack ips).callchain := suffix_appendUserFrames _ ips
    refine ⟨hunwound, hunwound.encode_eq, ?_, fun htrims => ?_⟩
    · exact hips.isInfix.trans (hafter ▸ hstorable.callchain_foldl_run after).isInfix
    · rw [hafter, callchain_foldl_trim htrims]
      exact hips

/-- A sample with registers and a stack, whose stack is cut, unwound and cut
again. -/
theorem decodeReassembled_foldl_run_unwound :
    let a : Attr := {
      sampleType := SampleMask.of [.ip, .id, .regsUser, .stackUser]
      sampleRegsUser := 1 }
    let s : Sample := { ofAttr a with
      ip := 4096
      id := 7
      userRegs := { abi := 2, mask := 1, values := [10] }
      userStack := { data := List.replicate 16 1, dynSize := 16 } }
    let es : List Edit := [.trim 13, .replace [4112, 4128], .trim 0]
    let t := es.foldl Edit.run s
    Record.decode a (Record.sample s).encode = .ok (.sample s) ∧
      t.callchain = [userContext, 4112, 4128] ∧ t.callchain.length < UInt64.size ∧
      Record.decodeReassembled { a with sampleType := t.sampleType } (Record.sample t).encode =
        .ok (.sample t) ∧
      t.StackHolds ∧ t.eventId = some 7 ∧ t.Unwound ∧ [4112, 4128] <:+ t.callchain := by
  intro a s es t
  have hdecoded : Record.decode a (Record.sample s).encode = .ok (.sample s) := by decide
  have hchain : t.callchain.length < UInt64.size := by decide
  obtain ⟨hread, hstack, hid, hframes⟩ := decodeReassembled_foldl_run hdecoded es
  obtain ⟨hunwound, -, -, hsuffix⟩ := hframes [.trim 13] [4112, 4128] [.trim 0] rfl
  refine ⟨hdecoded, by decide, hchain, hread hchain, hstack (List.cons_ne_nil _ _),
    hid.trans (by decide), hunwound, hsuffix ?_⟩
  simp only [List.forall_mem_singleton]
  exact ⟨0, rfl⟩

end Sample
end Profiler
