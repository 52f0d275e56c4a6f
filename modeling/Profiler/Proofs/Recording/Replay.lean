/-
# What a recording hands on is read back from its file

While a recording goes on, its records are decoded with the attrs of its
events, by a table of ids that grows when a cpu comes. A file has the same
attrs and the ids of the time before, and whoever reads it learns the others
from the announcements among its records. The two agree at every moment
(`RecordFile.InStep`): decoding a record, storing it and looking up its id again
leads to the attr that it was decoded with (`RecordFile.InStep.attrFor_encode`),
and an announcement teaches the reader what the recording has just learned
(`RecordFile.InStep.keeps_announce`). So the file gives back every record, also
where draining and following the cpus fail half way.

Key definitions: `Watched.FromKernel`, `RecordFile.InStep`.
Key theorems: `RecordFile.InStep.attrFor_encode`,
`RecordFile.InStep.keeps_deliverCut`, `RecordFile.InStep.keeps_announce`,
`RecordFile.followed_inStep`, `RecordFile.inStep_of_continues`,
`RecordFile.readAll_recorded`.
-/
import Profiler.Proofs.File.Container
import Profiler.Proofs.File.ReadAll
import Profiler.Proofs.Recording.Watched
import Profiler.Recording.MemoryKernel

namespace Profiler

open Effect (Keeps keeps_pure)

/-! ### The data of a buffer -/

/-- The header of a record that was cut off is the one it begins with. -/
theorem decode_of_mem_cutRecords {misfit : RecordHeader → Nat → Corruption} {position : Nat}
    {bs : Bytes} {raw : RawRecord} (h : raw ∈ (cutRecords misfit position bs).values) :
    RecordHeader.decode raw.bytes = .ok raw.header := by
  fun_induction cutRecords misfit position bs with
  | case5 position bs hne header hheader n front rest hsplit hsize ih =>
    rcases List.mem_cons.mp h with rfl | h
    · obtain ⟨body, rfl⟩ := RecordHeader.decode_eq_ok_iff.mp hheader
      obtain ⟨hfront, -⟩ := Bytes.splitAt?_eq_some hsplit
      have hlen : header.encode.length ≤ n := by
        rw [RecordHeader.length_encode]
        omega
      refine RecordHeader.decode_eq_ok_iff.mpr ⟨body.take (n - header.encode.length), ?_⟩
      rw [hfront, List.take_append, List.take_of_length_le hlen]
    · exact ih h
  | _ => exact absurd h List.not_mem_nil

/-- Every record in the drained data has a number that the kernel uses. -/
def Watched.FromKernel {ω : Type} (w : Watched ω) : Prop :=
  ∀ data ∈ w.drained, ∀ raw ∈ (ringRecords data).values, raw.header.type < firstUserDefinedType

instance {ω : Type} (w : Watched ω) : Decidable w.FromKernel :=
  have : ∀ data, Decidable (∀ raw ∈ (ringRecords data).values,
      raw.header.type < firstUserDefinedType) := fun _ => List.decidableBAll _ _
  List.decidableBAll _ _

/-- What was drained before is of the kernel if all of it is. -/
theorem Watched.FromKernel.of_extends {ω : Type} {w past : Watched ω} (h : w.FromKernel)
    (hextends : w.Extends past) : past.FromKernel :=
  fun data hdata => h data (hextends.drained.subset hdata)

theorem Watched.FromKernel.of_log {ω : Type} {w past : Watched ω} (h : w.FromKernel)
    (hlog : w.log = past.log) : past.FromKernel :=
  h.of_extends (past.extends_refl.of_log hlog)

namespace RecordFile

/-! ### One record, live and read back -/

theorem foldl_learnIds_idPositions? (f : RecordFile) (rs : List Record) :
    (rs.foldl learnIds f).idPositions? = f.idPositions? := by
  induction rs generalizing f with
  | nil => rfl
  | cons r rs ih => rw [List.foldl_cons, ih, learnIds_idPositions?]

theorem Placed.foldl {f : RecordFile} (h : f.Placed) (rs : List Record) :
    (rs.foldl learnIds f).Placed := by
  unfold Placed
  rw [foldl_learnIds_attrs, foldl_learnIds_idPositions?]
  exact h

theorem learnIds_of_kernel (f : RecordFile) {r : Record} (h : r.type < firstUserDefinedType) :
    f.learnIds r = f := by
  cases r with
  | eventIds ids =>
    have hcode : ¬ RecordKind.eventId.code < firstUserDefinedType := by decide
    exact absurd h hcode
  | _ => rfl

/-- Storing a record leaves it with the attr that it was decoded with. -/
theorem attrFor_encode_of_decode {f : RecordFile} (hf : f.Placed) {bs : Bytes} {a : Attr}
    {r : Record} (ha : f.attrFor bs = a) (hmem : ∃ entry ∈ f.attrs, entry.attr = a)
    (hr : Record.decode a bs = .ok r) (hkernel : r.type < firstUserDefinedType) :
    f.attrFor r.encode = a := by
  rw [← ha]
  unfold Placed at hf
  split at hf
  · obtain ⟨p, hp, hentries⟩ := hf
    obtain ⟨entry, hentry, rfl⟩ := hmem
    obtain ⟨hall, hplaces⟩ := hentries entry hentry
    unfold attrFor
    rw [hp]
    simp only [bind, Option.bind_some,
      Record.peekEventId_encode_of_decode hr hkernel hall hplaces]
  · rw [attrFor_of_no_positions hf, attrFor_of_no_positions hf]

/-- What a recording and a reader decode with is the same where their tables
are. -/
theorem attrFor_of_attrFor? {f : RecordFile} {set : SelectionSet}
    (hattrs : set.decodeAttrs = f.attrs.map AttrWithIds.attr)
    (hpositions : set.idPositions = f.idPositions?) (htable : set.attrOfId = f.idToAttr)
    {bs : Bytes} {a : Attr} (h : set.attrFor? bs = some a) :
    f.attrFor bs = a ∧ ∃ entry ∈ f.attrs, entry.attr = a := by
  unfold SelectionSet.attrFor? at h
  unfold attrFor
  rw [hattrs, hpositions, htable, List.getElem?_map, Option.map_eq_some_iff] at h
  obtain ⟨entry, hentry, rfl⟩ := h
  refine ⟨?_, entry, List.mem_of_getElem? hentry, rfl⟩
  generalize (do f.idToAttr.get? (← peekEventId (← f.idPositions?) bs) : Option Nat) = place
    at hentry ⊢
  cases place with
  | none =>
    show f.firstAttr = entry.attr
    cases hf : f.attrs with
    | nil =>
      rw [hf] at hentry
      cases hentry
    | cons first rest =>
      rw [hf] at hentry
      cases hentry
      unfold firstAttr
      rw [hf]
  | some i =>
    have hfound : (some i).bind (fun i => f.attrs[i]?) = some entry := hentry
    dsimp only
    rw [hfound]

/-! ### The recording and its reader -/

variable {ω : Type}

/-- A reader of what has been handed on decodes as the recording does. The
tables are the same only if someone takes the records. -/
structure InStep (f : RecordFile) (t : Session (Watched ω)) : Prop where
  counting : t.set.counting = false
  attrs : t.set.attrs = f.attrs.map AttrWithIds.attr
  decodeAttrs : t.set.decodeAttrs = f.attrs.map AttrWithIds.attr
  positions : t.set.idPositions = f.idPositions?
  table : t.set.attached = true → t.set.attrOfId = (t.world.received.foldl learnIds f).idToAttr
  idle : t.set.attached = false → t.world.received = []
  readable : f.Readable t.world.received
  whole : ∀ r ∈ t.world.received, r.type ≠ RecordKind.split.code

namespace InStep

variable {f : RecordFile} {t t' : Session (Watched ω)}

theorem of_seen (h : f.InStep t)
    (heq : t'.seen SelectionSet.routed Watched.log = t.seen SelectionSet.routed Watched.log) :
    f.InStep t' := by
  simp only [Session.seen, SelectionSet.routed, SelectionSet.routing, Watched.log, Prod.mk.injEq,
    SelectionSet.Routing.mk.injEq] at heq
  obtain ⟨⟨⟨hcounting, hdecode, htable, hpositions⟩, hattached, hattrs⟩, -, hreceived⟩ := heq
  exact {
    counting := by rw [hcounting, h.counting]
    attrs := by rw [hattrs, h.attrs]
    decodeAttrs := by rw [hdecode, h.decodeAttrs]
    positions := by rw [hpositions, h.positions]
    table := by
      rw [hattached, htable, hreceived]
      exact h.table
    idle := by
      rw [hattached, hreceived]
      exact h.idle
    readable := hreceived ▸ h.readable
    whole := hreceived ▸ h.whole }

/-- **A record leads the reader to the attr that it was decoded with.** -/
theorem attrFor_encode (h : f.InStep t) (hplaced : f.Placed)
    (hattached : t.set.attached = true) {bs : Bytes} {a : Attr} {r : Record}
    (ha : t.set.attrFor? bs = some a) (hr : Record.decode a bs = .ok r)
    (hkernel : r.type < firstUserDefinedType) :
    (t.world.received.foldl learnIds f).attrFor r.encode = a := by
  have hattrs : (t.world.received.foldl learnIds f).attrs = f.attrs := foldl_learnIds_attrs f _
  have hpositions := f.foldl_learnIds_idPositions? t.world.received
  obtain ⟨hfound, hmem⟩ := attrFor_of_attrFor? (hattrs ▸ h.decodeAttrs)
    (h.positions.trans hpositions.symm) (h.table hattached) ha
  exact attrFor_encode_of_decode (hplaced.foldl _) hfound hmem hr hkernel

theorem attach (h : f.InStep t) (hids : t.set.attrOfId = f.idToAttr) :
    f.InStep (Recording.attach t).2 := by
  have hon : f.InStep { t with set := { t.set with attached := true } } :=
    { h with
      table := fun _ => by
        cases hattached : t.set.attached with
        | true => exact h.table hattached
        | false => rwa [h.idle hattached]
      idle := nofun }
  have hseen : (Recording.attach t).2.seen SelectionSet.listed Watched.log = _ :=
    Recording.seen_attach t
  refine hon.of_seen (Prod.ext ?_ (log_attach t))
  exact SelectionSet.routed_of_listed (Prod.ext_iff.mp hseen).1

/-- One more record is handed on. The recording has learned from it what the
reader will. -/
theorem receive (h : f.InStep t) (hattached : t.set.attached = true) {r : Record}
    (hrouted : t'.set.routed = { t.set with attrOfId := t'.set.attrOfId }.routed)
    (hreceived : t'.world.received = t.world.received ++ [r])
    (htable : t'.set.attrOfId = ((t.world.received.foldl learnIds f).learnIds r).idToAttr)
    (hr : r.WellFormed ((t.world.received.foldl learnIds f).attrFor r.encode))
    (hwhole : r.type ≠ RecordKind.split.code) : f.InStep t' := by
  simp only [SelectionSet.routed, SelectionSet.routing, Prod.mk.injEq,
    SelectionSet.Routing.mk.injEq] at hrouted
  obtain ⟨⟨hcounting, hdecode, -, hpositions⟩, hattached', hattrs⟩ := hrouted
  exact {
    counting := by rw [hcounting, h.counting]
    attrs := hattrs.trans h.attrs
    decodeAttrs := by rw [hdecode, h.decodeAttrs]
    positions := by rw [hpositions, h.positions]
    table := fun _ => by rw [hreceived, List.foldl_concat, htable]
    idle := fun hoff => by
      rw [hattached', hattached] at hoff
      cases hoff
    readable := hreceived ▸ (readable_concat f _ r).mpr ⟨h.readable, hr⟩
    whole := by
      rw [hreceived]
      intro s hs
      rcases List.mem_append.mp hs with hs | hs
      · exact h.whole s hs
      · rwa [List.mem_singleton.mp hs] }

/-! ### Handing on what is drained -/

variable {host : Host ω}

/-- A record of the kernel that was decoded is handed on. -/
theorem deliver (h : f.InStep t) (hplaced : f.Placed) {bs : Bytes} {a : Attr} {r : Record}
    (ha : t.set.attrFor? bs = some a) (hr : Record.decode a bs = .ok r)
    (hkernel : r.type < firstUserDefinedType) :
    f.InStep (Recording.deliver host.watched r t).2 := by
  by_cases hattached : t.set.attached = true
  · rw [deliver_of_attached hattached]
    have hsame := learnIds_of_kernel (t.world.received.foldl learnIds f) hkernel
    obtain ⟨header, body, -, -, hlayout, -⟩ := Record.decode_eq_ok_iff.mp hr
    refine h.receive hattached rfl rfl ?_ ?_ fun hsplit => ?_
    · rw [hsame, ← h.table hattached]
    · rw [h.attrFor_encode hplaced hattached ha hr hkernel]
      exact hlayout.wellFormed
    · rw [hsplit] at hkernel
      exact absurd hkernel (by decide)
  · rwa [deliver_of_not_attached hattached]

/-- **Records of the kernel are handed on in step,** up to the first that
cannot be decoded. -/
theorem keeps_deliverCut (hplaced : f.Placed) : ∀ raws : List RawRecord,
    (∀ raw ∈ raws, RecordHeader.decode raw.bytes = .ok raw.header ∧
      raw.header.type < firstUserDefinedType) →
    Keeps f.InStep (Recording.deliverCut host.watched raws)
  | [], _ => keeps_pure true
  | raw :: rest, hraws => by
    intro t h
    obtain ⟨hheader, hkernel⟩ := hraws raw List.mem_cons_self
    rw [Recording.deliverCut, Recording.getSet_bind]
    cases ha : t.set.attrFor? raw.bytes with
    | none => exact h
    | some a =>
      cases hr : Record.decode a raw.bytes with
      | error e =>
        have hrejected : (Effect.ofExcept ((Record.decode a raw.bytes).mapError .corrupt) :
            Recording (Watched ω) Record) t = (.error (.corrupt e), t) := by
          rw [hr]
          rfl
        dsimp only
        rw [Effect.bind_of_error hrejected]
        exact h
      | ok r =>
        have hdecoded : (Effect.ofExcept ((Record.decode a raw.bytes).mapError .corrupt) :
            Recording (Watched ω) Record) t = (.ok r, t) := by
          rw [hr]
          rfl
        dsimp only
        rw [Effect.bind_of_ok hdecoded]
        obtain ⟨header, body, hbytes, -, -, htype⟩ := Record.decode_eq_ok_iff.mp hr
        have hsame := RecordHeader.decode_eq_ok_iff.mpr ⟨body, hbytes⟩
        cases hheader.symm.trans hsame
        refine Keeps.after (h.deliver hplaced ha hr (htype ▸ hkernel)) fun more => ?_
        split
        · exact keeps_deliverCut hplaced rest fun raw hraw =>
            hraws raw (List.mem_cons_of_mem _ hraw)
        · exact keeps_pure false

theorem keeps_deliverRecords (hplaced : f.Placed) {data : Bytes}
    (hdata : ∀ raw ∈ (ringRecords data).values, raw.header.type < firstUserDefinedType) :
    Keeps f.InStep (Recording.deliverRecords host.watched data) := by
  have hcut : Keeps f.InStep (Recording.deliverCut host.watched (ringRecords data).values) :=
    keeps_deliverCut hplaced _ fun raw hraw => ⟨decode_of_mem_cutRecords hraw, hdata raw hraw⟩
  exact Recording.keeps_deliverRecords host.watched hcut

end InStep

section Followed

variable {f : RecordFile} {t : Session (Watched ω)} {host : Host ω}

theorem keeps_fromKernel {α : Type} {x : Recording (Watched ω) α} (hx : Keeps f.InStep x)
    (hextends : ∀ past, Keeps (fun t => t.world.Extends past) x) :
    Keeps (fun t => t.world.FromKernel → f.InStep t) x := fun t h hkernel =>
  hx t (h (hkernel.of_extends (hextends t.world t t.world.extends_refl)))

/-- **A buffer is drained in step** if it holds records of the kernel. -/
theorem keeps_drainCpu (hplaced : f.Placed) (cpu : Nat) :
    Keeps (fun t => t.world.FromKernel → f.InStep t) (Recording.drainCpu host.watched cpu) := by
  intro t h
  rw [Recording.drainCpu, Recording.getSet_bind]
  cases t.set.bufferOwner? cpu with
  | none => exact h
  | some owner =>
    dsimp only
    rcases outside_drain host owner t with ⟨e, t', hfails, hseen⟩ | ⟨data, world, hgives⟩
    · rw [Effect.bind_of_error hfails]
      intro hkernel
      exact (h (hkernel.of_log (Prod.ext_iff.mp hseen).2)).of_seen hseen
    · rw [Effect.bind_of_ok hgives]
      intro hkernel
      have hextends : ∀ past, Keeps (fun t => t.world.Extends past)
          (Recording.deliverRecords host.watched data) := fun past =>
        Recording.keeps_deliverRecords _ <| Recording.keeps_deliverCut _
          (keeps_extends_deliver past) _
      have hdata := hkernel.of_extends (hextends _ _ (Watched.extends_refl _))
      have hbefore := h fun bs hbs => hdata bs (List.mem_append_left _ hbs)
      exact InStep.keeps_deliverRecords hplaced (hdata data List.mem_concat_self) _
        { hbefore with }

theorem lt_of_mem_announcement {set : SelectionSet} {cpu : Nat} {e : UInt64 × UInt64}
    (h : e ∈ Recording.announcement set cpu) : e.1.toNat < set.attrs.length := by
  obtain ⟨⟨x, i⟩, hx, he⟩ := List.mem_flatMap.mp h
  obtain ⟨file, -, rfl⟩ := List.mem_map.mp he
  have hi : i < set.selections.length :=
    (List.getElem?_eq_some_iff.mp (List.mem_zipIdx_iff_getElem?.mp hx)).1
  rw [SelectionSet.attrs, List.length_map]
  exact Nat.lt_of_le_of_lt (Nat.mod_le _ _) hi

/-- A reader learns from an announcement what the recording has learned. -/
theorem learnIds_announcement (f : RecordFile) {ids : List (UInt64 × UInt64)}
    (hids : ∀ e ∈ ids, e.1.toNat < f.attrs.length) :
    (f.learnIds (.eventIds ids)).idToAttr =
      ids.foldl (fun m e => m.insert e.2 e.1.toNat) f.idToAttr := by
  have hall : ids.filter (fun e => e.1.toNat < f.attrs.length) = ids :=
    List.filter_eq_self.mpr fun e he => decide_eq_true (hids e he)
  rw [learnIds_idToAttr, Record.announced, hall, List.foldl_map]

/-- Without someone who takes the records, the table does not matter. -/
theorem InStep.learn_of_not_attached (h : f.InStep t) (hattached : ¬ t.set.attached = true)
    (ids : List (UInt64 × UInt64)) : f.InStep { t with set := t.set.learnIds ids } :=
  { h with table := fun hon => absurd hon hattached }

/-- An announcement is handed on once the recording has learned from it. -/
theorem InStep.deliver_announcement (h : f.InStep t) {ids : List (UInt64 × UInt64)}
    (hids : ∀ e ∈ ids, e.1.toNat < t.set.attrs.length) :
    f.InStep (Recording.deliver host.watched (.eventIds ids)
      { t with set := t.set.learnIds ids }).2 := by
  by_cases hattached : t.set.attached = true
  · have htaken : ({ t with set := t.set.learnIds ids } : Session (Watched ω)).set.attached =
        true := hattached
    have hwhole : RecordKind.eventId.code ≠ RecordKind.split.code := by decide
    rw [deliver_of_attached htaken]
    refine h.receive hattached rfl rfl ?_ ⟨trivial, trivial⟩ hwhole
    rw [learnIds_announcement, ← h.table hattached]
    · rfl
    · intro e he
      have hlt := hids e he
      rwa [h.attrs, List.length_map, ← foldl_learnIds_attrs f t.world.received] at hlt
  · have hlost : ¬ ({ t with set := t.set.learnIds ids } : Session (Watched ω)).set.attached =
        true := hattached
    rw [deliver_of_not_attached hlost]
    exact h.learn_of_not_attached hattached ids

/-- **The ids of a cpu are announced in step.** -/
theorem InStep.keeps_announce (cpu : Nat) :
    Keeps f.InStep (Recording.announce host.watched cpu) := by
  intro t h
  have hids : ∀ e ∈ Recording.announcement t.set cpu, e.1.toNat < t.set.attrs.length :=
    fun e => lt_of_mem_announcement
  have hannounce : Recording.announce host.watched cpu t =
      ((if t.set.counting || (Recording.announcement t.set cpu).isEmpty then pure true else do
        if ← Recording.deliver host.watched (.eventIds (Recording.announcement t.set cpu)) then
          Recording.watchBuffer cpu
          return true
        else return false) : Recording (Watched ω) Bool)
        { t with set := t.set.learnIds (Recording.announcement t.set cpu) } := rfl
  have hwatch : Keeps f.InStep (Recording.watchBuffer (ω := Watched ω) cpu) :=
    (Recording.leaves_routed_of_listed
      (Recording.leaves_watchBuffer Recording.loopless_listed cpu)).keeps
        fun _ _ hseen h => h.of_seen hseen
  rw [hannounce, h.counting, Bool.false_or]
  split
  · next hnone =>
    rw [List.isEmpty_iff.mp hnone]
    exact h
  · refine Keeps.after (h.deliver_announcement hids) fun more => ?_
    split
    · exact hwatch.bind fun _ => keeps_pure true
    · exact keeps_pure false

/-- **Draining and following the cpus stay in step** with the reader. -/
theorem followed_inStep (host : Host ω) (hplaced : f.Placed) :
    Recording.Followed host.watched Watched.log fun t => t.world.FromKernel → f.InStep t where
  silent := host.silent_watched
  of_seen _ _ hseen h hkernel :=
    (h (hkernel.of_log (Prod.ext_iff.mp hseen).2)).of_seen hseen
  drainCpu := keeps_drainCpu hplaced
  announce cpu := keeps_fromKernel (InStep.keeps_announce cpu) fun past =>
    (followed_extends host past).announce cpu

end Followed

/-! ### A whole recording -/

section Whole

variable {host : Host ω} {s : Session ω} {u t : Session (Watched ω)} {f : RecordFile}

/-- The table of an opened set is that of a file with its attrs. -/
theorem Fresh.attrOfId_eq (hf : f.Fresh) (hattrs : f.attrs = s.set.attrsWithIds)
    (hsettled : s.set.Settled) : s.set.attrOfId = f.idToAttr := by
  rw [hf.idToAttr, hattrs, hsettled.attrOfId]

/-- A file that has just been opened is in step with a recording that has
handed nothing on, if its attrs are those of the set. -/
theorem Fresh.inStep (hf : f.Fresh) (hattrs : f.attrs = s.set.attrsWithIds)
    (hsampling : s.set.Sampling) (hsettled : s.set.Settled) : f.InStep s.watched := by
  have hmap : f.attrs.map AttrWithIds.attr = s.set.attrs := by
    rw [hattrs, SelectionSet.map_attr_attrsWithIds]
  have hlength : f.attrs.length = s.set.attrs.length := by rw [← hmap, List.length_map]
  exact {
    counting := hsampling.counting
    attrs := hmap.symm
    decodeAttrs := hsettled.decodeAttrs.trans hmap.symm
    positions := by
      have hfile := hf.positions
      have hset := hsettled.positions
      rw [hmap, hlength] at hfile
      split at hset
      · next hmany =>
        rw [if_pos hmany] at hfile
        obtain ⟨p, hp, hset⟩ := hset
        obtain ⟨q, hq, hfile⟩ := hfile
        cases hp.symm.trans hq
        exact hset.trans hfile.symm
      · next hone =>
        rw [if_neg hone] at hfile
        exact hset.trans hfile.symm
    table := fun _ => hf.attrOfId_eq hattrs hsettled
    idle := fun _ => rfl
    readable := trivial
    whole := nofun }

/-- **A recording and its reader stay in step,** however the recording goes on. -/
theorem inStep_of_continues (hst : host.Continues s.watched t) (hplaced : f.Placed)
    (hids : s.set.attrOfId = f.idToAttr) (hs : f.InStep s.watched)
    (hkernel : t.world.FromKernel) : f.InStep t :=
  hst.keeps (followed_inStep host hplaced)
    (fun t hsame h hkernel => (h (hkernel.of_log (log_attach t))).attach (hsame.trans hids))
    (fun _ => hs) hkernel

theorem positions_of_settled (hsettled : s.set.Settled) (hsome : s.set.attrsWithIds ≠ []) :
    s.set.attrsWithIds.length = 1 ∨
      ∃ p, commonIdPositions (s.set.attrsWithIds.map AttrWithIds.attr) = .ok p := by
  have hlength : s.set.attrs.length = s.set.attrsWithIds.length := by
    rw [← SelectionSet.map_attr_attrsWithIds, List.length_map]
  have hpos : 0 < s.set.attrsWithIds.length := List.length_pos_iff.mpr hsome
  have hpositions := hsettled.positions
  rw [SelectionSet.map_attr_attrsWithIds]
  split at hpositions
  · obtain ⟨p, hp, -⟩ := hpositions
    exact .inr ⟨p, hp⟩
  · exact .inl (by omega)


/-- **A file gives back what a recording has handed on.** The attrs of an opened
set are written, and however the recording goes on, every record that is handed
on is written after them. Then the file is read as these records, in their
order. At any moment in between, who has read the records so far has the table
of the recording, so the attr that a record of the kernel is decoded with then
is the one that is found for it in the file. -/
theorem readAll_recorded {d₀ : FileDraft} (hopened : host.Opened s)
    (hattrs : FileDraft.writeAttrs {} s.set.attrsWithIds = .ok d₀)
    (hst : host.Continues s.watched t) (hkernel : t.world.FromKernel) :
    ∃ d file, t.world.received.foldlM FileDraft.writeRecord d₀ = .ok d ∧ d.close = .ok file ∧
      (file.length < UInt64.size → ∀ path, ∃ f, ofBytes path file = .ok f ∧
        f.readAll.1 = .ok t.world.received ∧
        ∀ u, host.Continues s.watched u → host.Continues u t →
          u.world.received <+: t.world.received ∧
          (u.set.attached = true →
            (u.world.received.foldl learnIds f).idToAttr = u.set.attrOfId ∧
            ∀ bs a r, u.set.attrFor? bs = some a → Record.decode a bs = .ok r →
              r.type < firstUserDefinedType →
              (u.world.received.foldl learnIds f).attrFor r.encode = a)) := by
  obtain ⟨hsome, rfl⟩ := FileDraft.writeAttrs_eq_ok_iff.mp hattrs
  let d : FileDraft := {
    attrs? := some s.set.attrsWithIds
    data := t.world.received.flatMap fun r => r.splitForFile.flatten }
  obtain ⟨file, hclose⟩ : ∃ file, d.close = .ok file := ⟨_, rfl⟩
  refine ⟨d, file, FileDraft.foldlM_writeRecord rfl _, hclose, fun hsize path => ?_⟩
  have hclosed : d.Closed s.set.attrsWithIds file :=
    ⟨rfl, hsome, List.Pairwise.nil, nofun, hclose, hsize⟩
  have hpositions := positions_of_settled hopened.settled hsome
  obtain ⟨positions?, hok⟩ := hclosed.ofBytes_eq path hpositions
  have hfresh := fresh_of_ofBytes hok
  have hsampled : ∀ entry ∈ s.set.attrsWithIds, entry.attr.has .sampleIdAll = true := by
    intro entry hentry
    refine hopened.sampling.sampleIdAll _ ?_
    rw [← SelectionSet.map_attr_attrsWithIds]
    exact List.mem_map_of_mem hentry
  have hplaced := hfresh.placed fun _ => hsampled
  -- the file knows the ids of the time when its attrs were written
  have hstep : ∀ {u}, host.Continues s.watched u → u.world.FromKernel → InStep _ u := fun hsu =>
    inStep_of_continues hsu hplaced (hfresh.attrOfId_eq rfl hopened.settled)
      (hfresh.inStep rfl hopened.sampling hopened.settled)
  refine ⟨_, hok, ?_, fun u hsu hut => ⟨hut.extends.received, fun hattached => ?_⟩⟩
  · have hend := hstep hst hkernel
    rw [readAll_of_readable hend.readable hend.whole hclosed.slice_data]
  · have hnow := hstep hsu (hkernel.of_extends hut.extends)
    exact ⟨(hnow.table hattached).symm, fun bs a r ha hr hr' =>
      hnow.attrFor_encode hplaced hattached ha hr hr'⟩

/-- A sample of the second event, a cpu that comes, and a sample of the second
event there, which has a new id. -/
theorem readAll_recorded_new_cpu :
    let host := MemoryKernel.host
    let chosen : Session MemoryKernel := [.addGroup ["cpu-cycles"], .addGroup ["page-faults"],
      .addThread SelectionSet.everyThread].foldl (fun s (c : Recording.Call) => (c.run host s).2)
        { world := { rules := { online := [0] } } }
    let s := (Recording.openEvents host [] chosen).2
    let sample := fun id => Record.sample
      { sampleType := SampleMask.of EventType.commonSampleFields
        readFormat := EventType.commonReadFormat, ip := 4096, pid := 7, tid := 8, id }
    let call (c : Recording.Call) (t : Session (Watched MemoryKernel)) := (c.run host.watched t).2
    let between (change : MemoryKernel → MemoryKernel) (t : Session (Watched MemoryKernel)) :
        Session (Watched MemoryKernel) :=
      { t with world := { t.world with world := change t.world.world } }
    let taken := (Recording.attach (call (.mapEvents 8 8) s.watched)).2
    let started := call .enableEvents (call (.watchCpus [] 1000) taken)
    let drained := call (.drainCpu 0) (between (·.put 0 (sample 2).encode) started)
    let grown := call .followCpus
      (between (fun k => { k with rules := { k.rules with online := [0, 1] } }) drained)
    let filled := between (·.put 1 (sample 4).encode) grown
    let t := call .finish filled
    let before : List Record := [sample 2, .eventIds [(0, 3), (1, 4)]]
    let rs := before ++ [sample 4]
    let d₀ : FileDraft := { attrs? := some s.set.attrsWithIds }
    host.Opened s ∧ FileDraft.writeAttrs {} s.set.attrsWithIds = .ok d₀ ∧
      host.Continues s.watched t ∧ t.world.FromKernel ∧ t.world.received = rs ∧
      ∃ d file f, rs.foldlM FileDraft.writeRecord d₀ = .ok d ∧ d.close = .ok file ∧
        ofBytes "perf.data" file = .ok f ∧ f.readAll.1 = .ok rs ∧
        (before.foldl learnIds f).attrFor (sample 4).encode = s.set.attrs.getD 1 {} := by
  intro host chosen s sample call between taken started drained grown filled t before rs d₀
  have hchosen : host.Reached chosen := .call (.call (.call (.start _ _) _) _) _
  have hopened : host.Opened s := .opened hchosen [] (by decide +kernel)
  have hbetween : ∀ t, host.Continues s.watched t → ∀ change,
      host.Continues s.watched (between change t) :=
    fun t h change => h.outside (change t.world.world) t.loop
  have hstart : host.Continues s.watched s.watched := .refl
  have hmapped := hstart.call (.mapEvents 8 8) trivial
  have htaken : host.Continues s.watched taken := hmapped.attach (by decide +kernel)
  have hstarted : host.Continues s.watched started :=
    (htaken.call (.watchCpus [] 1000) trivial).call .enableEvents trivial
  have hput := hbetween started hstarted (·.put 0 (sample 2).encode)
  have hdrained : host.Continues s.watched drained := hput.call (.drainCpu 0) trivial
  have hcome := hbetween drained hdrained fun k =>
    { k with rules := { k.rules with online := [0, 1] } }
  have hgrown : host.Continues s.watched grown := hcome.call .followCpus trivial
  have hfilled : host.Continues s.watched filled :=
    hbetween grown hgrown (·.put 1 (sample 4).encode)
  have hlast : host.Continues filled t := Host.Continues.refl.call .finish trivial
  have ht : host.Continues s.watched t := hfilled.call .finish trivial
  have hkernel : t.world.FromKernel := by decide +kernel
  have hreceived : t.world.received = rs := by decide +kernel
  have hbefore : filled.world.received = before := by decide +kernel
  have hattached : filled.set.attached = true := by decide +kernel
  have hlive : filled.set.attrFor? (sample 4).encode = some (s.set.attrs.getD 1 {}) := by
    decide +kernel
  have hdecoded : Record.decode (s.set.attrs.getD 1 {}) (sample 4).encode = .ok (sample 4) := by
    decide +kernel
  have hsome : s.set.attrsWithIds.isEmpty = false := by decide +kernel
  have hsmall : ((rs.foldlM FileDraft.writeRecord d₀).bind FileDraft.close).toOption.all
      (fun file => file.length < UInt64.size) = true := by decide +kernel
  have hattrs : FileDraft.writeAttrs {} s.set.attrsWithIds = .ok d₀ :=
    FileDraft.writeAttrs_eq_ok_iff.mpr ⟨List.isEmpty_eq_false_iff.mp hsome, rfl⟩
  obtain ⟨d, file, hwritten, hclose, hread⟩ := readAll_recorded hopened hattrs ht hkernel
  rw [hreceived] at hwritten hread
  have hsize : file.length < UInt64.size := by
    have hfile : (Except.ok d).bind FileDraft.close = .ok file := hclose
    rw [hwritten, hfile] at hsmall
    exact of_decide_eq_true hsmall
  obtain ⟨f, hf, hall, hmoments⟩ := hread hsize "perf.data"
  obtain ⟨-, hrouted⟩ := hmoments filled hfilled hlast
  obtain ⟨-, hfound⟩ := hrouted hattached
  rw [hbefore] at hfound
  exact ⟨hopened, hattrs, ht, hkernel, hreceived, d, file, f, hwritten, hclose, hf, hall,
    hfound _ _ _ hlive hdecoded (by decide)⟩

end Whole

end RecordFile
end Profiler
