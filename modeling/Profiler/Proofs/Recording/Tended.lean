/-
# What a recording knows of its buffers

At any time of a recording that hands records on, descriptors send their records
to the owner of the buffer of their cpu, only buffers that have an owner hold
records, and the ids of a buffer that was not there at first have been announced
(`Session.Tended`). Steps that hand nothing on keep that if they close
descriptors only where nothing is held (`Session.Tended.passed`), and so do
closing the descriptors of a cpu (`Session.Tended.dropped`), a cpu that comes
(`Session.Tended.entered`) and draining (`Session.Tended.drained`).

Key definitions: `Session.Tended`, `Session.Tells`.
Key theorems: `Session.Tended.passed`, `Session.Tended.entered`,
`Session.Tended.drained`, `Session.Tended.dropped`, `Recording.tended_drainCpu`,
`Recording.tended_drainCpus`, `Recording.tended_finish`.
-/
import Profiler.Proofs.Recording.Drained

namespace Profiler

/-! ### Owners and ids of a cpu -/

namespace SelectionSet

variable {s s' : SelectionSet} {cpu other : Nat} {b : Descriptor}

theorem bufferOwner?_of_onCpu (h : s'.onCpu cpu = s.onCpu cpu) :
    s'.bufferOwner? cpu = s.bufferOwner? cpu := by
  rw [bufferOwner?, filesOn_of_onCpu h, bufferOwner?]

theorem mapped_of_bufferOwner? (h : s.bufferOwner? cpu = some b) :
    ∃ f ∈ s.filesOn cpu, f.mapped = true ∧ f.descriptor = b := by
  obtain ⟨f, hfind, hd⟩ := Option.map_eq_some_iff.mp h
  exact ⟨f, List.mem_of_find?_eq_some hfind, List.find?_some hfind, hd⟩

theorem bufferOwner?_of_filesOn (h : s.filesOn cpu = []) : s.bufferOwner? cpu = none := by
  rw [bufferOwner?, h]
  rfl

theorem Distinct.cpu_of_bufferOwner? (h : s.Distinct) (hcpu : s.bufferOwner? cpu = some b)
    (hother : s.bufferOwner? other = some b) : other = cpu := by
  obtain ⟨f, hf, -, hd⟩ := mapped_of_bufferOwner? hcpu
  obtain ⟨g, hg, -, hd'⟩ := mapped_of_bufferOwner? hother
  obtain rfl : f = g :=
    h.eq (mem_filesOn.mp hf).1 (mem_filesOn.mp hg).1 (hd.trans hd'.symm)
  exact (mem_filesOn.mp hg).2.symm.trans (mem_filesOn.mp hf).2

/-- Descriptors that have been placed send their records to the owner. -/
theorem bufferOwner?_placeOn {f : EventFile} (hf : f ∈ (s.placeOn cpu).filesOn cpu)
    (hb : f.buffer? = some b) : (s.placeOn cpu).bufferOwner? cpu = some b := by
  rw [filesOn_placeOn_self] at hf
  rw [bufferOwner?, filesOn_placeOn_self]
  cases hfiles : s.filesOn cpu with
  | nil =>
    rw [hfiles] at hf
    exact absurd hf List.not_mem_nil
  | cons lead rest =>
    have hfirst : s.firstOn? cpu = some lead.descriptor := by
      rw [firstOn?, hfiles]
      rfl
    have hplace : ∀ g : EventFile, g.place (some lead.descriptor) =
        if lead.descriptor = g.descriptor then g.own else g.sendTo lead.descriptor := fun _ => rfl
    obtain ⟨g, -, rfl⟩ := List.mem_map.mp hf
    have howner : some b = some lead.descriptor := by
      rw [← hb, hfirst, hplace]
      split
      · next heq => exact congrArg some heq.symm
      · rfl
    have hmapped : (lead.place (some lead.descriptor)).mapped = true := by
      rw [hplace, if_pos rfl]
      rfl
    rw [hfirst, List.map_cons, List.find?_cons_of_pos hmapped, Option.map_some,
      EventFile.descriptor_place, howner]

theorem mem_bufferCpus (h : s.bufferOwner? cpu = some b) : cpu ∈ s.bufferCpus := by
  obtain ⟨f, hf, hmapped, -⟩ := mapped_of_bufferOwner? h
  obtain ⟨hfile, hcpu⟩ := mem_filesOn.mp hf
  have hkey : (cpu, ()) ∈ (s.files.filter (·.mapped)).map fun f => (f.cpu, ()) :=
    List.mem_map.mpr ⟨f, List.mem_filter.mpr ⟨hfile, hmapped⟩, by rw [hcpu]⟩
  exact OrderedMap.mem_keys_foldl_insert.mpr (.inr (List.mem_map_of_mem (f := Prod.fst) hkey))

end SelectionSet

namespace Recording

variable {set set' : SelectionSet} {cpu : Nat}

theorem announcement_of_onCpu (h : set'.onCpu cpu = set.onCpu cpu) :
    announcement set' cpu = announcement set cpu := by
  have heq : ∀ set : SelectionSet, announcement set cpu =
      (set.onCpu cpu).zipIdx.flatMap fun p => p.1.map fun f => (UInt64.ofNat p.2, f.id) :=
    fun set => by
      rw [SelectionSet.onCpu, List.zipIdx_map, List.flatMap_map]
      rfl
  rw [heq, h, ← heq]

/-- The id of each descriptor on the cpu is announced, with the place of its
attr. -/
theorem mem_announcement {i : Nat} {x : Selection} (hx : set.selections[i]? = some x)
    {f : EventFile} (hf : f ∈ x.filesOn cpu) :
    (UInt64.ofNat i, f.id) ∈ announcement set cpu :=
  List.mem_flatMap.mpr ⟨(x, i), List.mk_mem_zipIdx_iff_getElem?.mpr hx,
    List.mem_map_of_mem (f := fun f : EventFile => (UInt64.ofNat i, f.id)) hf⟩

theorem filesOn_of_announcement (h : announcement set cpu = []) : set.filesOn cpu = [] := by
  refine List.eq_nil_iff_forall_not_mem.mpr fun f hf => ?_
  obtain ⟨hfile, hcpu⟩ := SelectionSet.mem_filesOn.mp hf
  obtain ⟨x, hx, hfx⟩ := List.mem_flatMap.mp hfile
  obtain ⟨i, hi⟩ := List.mem_iff_getElem?.mp hx
  have hmem : (UInt64.ofNat i, f.id) ∈ announcement set cpu :=
    mem_announcement hi (List.mem_filter.mpr ⟨hfx, beq_iff_eq.mpr hcpu⟩)
  rw [h] at hmem
  exact absurd hmem List.not_mem_nil

end Recording

/-! ### What is known of buffers -/

/-- What is known at any time of a recording that hands records on, while cpus
are still to come: descriptors send their records to the owner of their cpu's
buffer, only buffers that have an owner hold records, and the ids of buffers
that `base` did not know have been announced. -/
structure Session.Tended {ω : Type} (D : Bytes → Record → Prop) (Told : Descriptor → Trace → Prop)
    (base : Trace) (come : List Nat) (s : Session (Traced ω)) : Prop where
  sound : s.Sound
  attached : s.set.attached = true
  sampling : s.set.counting = false
  routed : ∀ f ∈ s.set.files, ∀ b, f.buffer? = some b → s.set.bufferOwner? f.cpu = some b
  owned : ∀ b, s.world.trace.pending b ≠ [] →
    ∃ cpu, cpu ∉ come ∧ s.set.bufferOwner? cpu = some b
  sized : ∀ b, ∀ bs ∈ s.world.trace.pending b, ∃ raw : RawRecord, raw.Sized ∧ raw.bytes = bs
  announced : ∀ cpu b, s.set.bufferOwner? cpu = some b → base.opening? b = none →
    ∃ ids, .delivered (.eventIds ids) ∈ s.world.trace ∧
      ∀ p ∈ Recording.announcement s.set cpu, p ∈ ids
  orderly : s.world.trace.Orderly D Told

/-- What is handed on from now on is as it should be: records are decoded as
they may be, and whoever owns a buffer has been told of. -/
structure Session.Tells {ω : Type} (D : Bytes → Record → Prop) (Told : Descriptor → Trace → Prop)
    (s : Session (Traced ω)) : Prop where
  decodes : ∀ bs r, s.set.Decodes bs r → D bs r
  told : ∀ cpu b, s.set.bufferOwner? cpu = some b →
    ∀ earlier, s.world.trace <:+ earlier → Told b earlier

namespace Session

variable {ω : Type} {D : Bytes → Record → Prop} {Told : Descriptor → Trace → Prop} {base : Trace}
  {come : List Nat} {s s' : Session (Traced ω)} {cpu : Nat} {τ : Trace}

theorem Tended.coming (h : s.Tended D Told base []) (hcome : ∀ cpu ∈ come, s.set.filesOn cpu = []) :
    s.Tended D Told base come := by
  refine { h with owned := fun b hpending => ?_ }
  obtain ⟨cpu, -, howner⟩ := h.owned b hpending
  refine ⟨cpu, fun hmem => ?_, howner⟩
  cases (SelectionSet.bufferOwner?_of_filesOn (hcome cpu hmem)).symm.trans howner

theorem Tended.come_nil (h : s.Tended D Told base come) : s.Tended D Told base [] :=
  { h with owned := fun b hpending =>
      (h.owned b hpending).imp fun _ howner => ⟨List.not_mem_nil, howner.2⟩ }

/-- Closing a descriptor whose cpu's buffer holds nothing is in time. -/
theorem Tended.emptied (h : s.Tended D Told base come) (hτ : ∀ x ∈ τ, x.isData = false)
    (hopens : ∀ x ∈ τ, ∀ d, x.opens? = some d → s.world.count ≤ d)
    (hidle : ∀ b, s.set.bufferOwner? cpu = some b → s.world.trace.pending b = [])
    {d : Descriptor} {f : EventFile} (hf : Trace.opening? d (τ ++ s.world.trace) = some f)
    (hcpu : f.cpu = cpu) : Trace.Emptied D d (τ ++ s.world.trace) := by
  intro f' b g hf' hg hsame
  obtain rfl : f = f' := Option.some.inj (hf.symm.trans hf')
  rw [Trace.appendedTo_append hτ, Trace.readFrom_append hτ]
  refine h.orderly.all_read (Decidable.byContradiction fun hpending => ?_)
  obtain ⟨c, -, howner⟩ := h.owned b hpending
  obtain ⟨file, hfile, -, rfl⟩ := SelectionSet.mapped_of_bufferOwner? howner
  obtain ⟨hmem, hon⟩ := SelectionSet.mem_filesOn.mp hfile
  -- the owner of the buffer was opened before
  have hold : Trace.opening? file.descriptor (τ ++ s.world.trace) = some file.unmapped := by
    rw [Trace.opening?_append_of_ne fun x hx hopened =>
      absurd (h.sound.below file hmem) (Nat.not_lt_of_le (hopens x hx _ hopened))]
    exact h.sound.opened file hmem
  obtain rfl : file.unmapped = g := Option.some.inj (hold.symm.trans hg)
  have hc : c = cpu := hon.symm.trans (hsame.trans hcpu)
  exact hpending (hidle _ (hc ▸ howner))

/-- **A step that hands nothing on** keeps what is known if it forgets
descriptors only where nothing is held, and closes them in time. -/
theorem Tended.passed (h : s.Tended D Told base come) (hsound : s'.Sound)
    (hunturned : s.Unturned s')
    (honCpu : ∀ cpu, s'.set.onCpu cpu = s.set.onCpu cpu ∨ s'.set.filesOn cpu = [] ∧
      ∀ b, s.set.bufferOwner? cpu = some b → s.world.trace.pending b = [])
    (htrace : s'.world.trace = τ ++ s.world.trace) (hτ : ∀ x ∈ τ, x.isData = false)
    (hclosed : ∀ d e, .closed d :: e <:+ τ → Trace.Emptied D d (e ++ s.world.trace)) :
    s'.Tended D Told base come := by
  have hpending : ∀ b, s'.world.trace.pending b = s.world.trace.pending b := fun b => by
    rw [htrace, Trace.pending_append hτ]
  have hkept : ∀ cpu, s'.set.filesOn cpu ≠ [] → s'.set.onCpu cpu = s.set.onCpu cpu :=
    fun cpu hne => (honCpu cpu).resolve_right fun hnone => hne hnone.1
  refine ⟨hsound, hunturned.attached.trans h.attached, hunturned.counting.trans h.sampling,
    fun f hf b hb => ?_, fun b hb => ?_, fun b bs hbs => h.sized b bs (hpending b ▸ hbs),
    fun cpu b howner hnew => ?_, ?_⟩
  · have hon : f ∈ s'.set.filesOn f.cpu := SelectionSet.mem_filesOn.mpr ⟨hf, rfl⟩
    have hsame := hkept f.cpu (List.ne_nil_of_mem hon)
    rw [SelectionSet.filesOn_of_onCpu hsame] at hon
    rw [SelectionSet.bufferOwner?_of_onCpu hsame]
    exact h.routed f (SelectionSet.mem_filesOn.mp hon).1 b hb
  · rw [hpending] at hb
    obtain ⟨cpu, hcome, howner⟩ := h.owned b hb
    rcases honCpu cpu with hsame | ⟨-, hidle⟩
    · exact ⟨cpu, hcome, (SelectionSet.bufferOwner?_of_onCpu hsame).trans howner⟩
    · exact absurd (hidle b howner) hb
  · obtain ⟨f, hf, -⟩ := SelectionSet.mapped_of_bufferOwner? howner
    have hsame := hkept cpu (List.ne_nil_of_mem hf)
    rw [SelectionSet.bufferOwner?_of_onCpu hsame] at howner
    obtain ⟨ids, htold, hids⟩ := h.announced cpu b howner hnew
    rw [Recording.announcement_of_onCpu hsame, htrace]
    exact ⟨ids, List.mem_append_right _ htold, hids⟩
  · rw [htrace]
    exact h.orderly.dataless hτ hclosed

theorem Tended.noted (h : s.Tended D Told base come) (hsound : s'.Sound) (hunturned : s.Unturned s')
    (hheld : s'.set.held = s.set.held) (htrace : s'.world.trace = τ ++ s.world.trace)
    (hτ : ∀ x ∈ τ, x.isData = false ∧ ∀ d, x ≠ .closed d) : s'.Tended D Told base come :=
  h.passed hsound hunturned (fun cpu => .inl (SelectionSet.onCpu_of_held hheld cpu)) htrace
    (fun x hx => (hτ x hx).1)
    fun d _ hmoment => absurd rfl ((hτ _ (hmoment.subset List.mem_cons_self)).2 d)

theorem Tended.idle_of_come (h : s.Tended D Told base come) (hcome : cpu ∈ come) {b : Descriptor}
    (howner : s.set.bufferOwner? cpu = some b) : s.world.trace.pending b = [] := by
  refine Decidable.byContradiction fun hpending => ?_
  obtain ⟨c, hc, howner'⟩ := h.owned b hpending
  exact hc (SelectionSet.Distinct.cpu_of_bufferOwner? h.sound.distinct howner howner' ▸ hcome)

/-- **A cpu has come:** its descriptors send their records to the owner of its
buffer, its ids have been announced, and all else is as it was. -/
theorem Tended.entered (h : s.Tended D Told base come) (hcome : cpu ∈ come) (hsound : s'.Sound)
    (hunturned : s.Unturned s')
    (hother : ∀ other, other ≠ cpu → s'.set.onCpu other = s.set.onCpu other)
    (hrouted : ∀ f ∈ s'.set.filesOn cpu, ∀ b, f.buffer? = some b →
      s'.set.bufferOwner? cpu = some b)
    (htold : s'.set.filesOn cpu ≠ [] →
      .delivered (.eventIds (Recording.announcement s'.set cpu)) ∈ s'.world.trace)
    (hsuffix : s.world.trace <:+ s'.world.trace)
    (hpending : ∀ b, s'.world.trace.pending b = s.world.trace.pending b)
    (horderly : s'.world.trace.Orderly D Told) : s'.Tended D Told base come := by
  refine ⟨hsound, hunturned.attached.trans h.attached, hunturned.counting.trans h.sampling,
    fun f hf b hb => ?_, fun b hb => ?_, fun b bs hbs => h.sized b bs (hpending b ▸ hbs),
    fun c b howner hnew => ?_, horderly⟩
  · have hon : f ∈ s'.set.filesOn f.cpu := SelectionSet.mem_filesOn.mpr ⟨hf, rfl⟩
    by_cases hcpu : f.cpu = cpu
    · rw [hcpu] at hon ⊢
      exact hrouted f hon b hb
    · have hsame := hother f.cpu hcpu
      rw [SelectionSet.filesOn_of_onCpu hsame] at hon
      rw [SelectionSet.bufferOwner?_of_onCpu hsame]
      exact h.routed f (SelectionSet.mem_filesOn.mp hon).1 b hb
  · rw [hpending] at hb
    obtain ⟨c, hc, howner⟩ := h.owned b hb
    have hne : c ≠ cpu := fun heq => hc (heq ▸ hcome)
    exact ⟨c, hc, (SelectionSet.bufferOwner?_of_onCpu (hother c hne)).trans howner⟩
  · by_cases hc : c = cpu
    · subst hc
      obtain ⟨f, hf, -⟩ := SelectionSet.mapped_of_bufferOwner? howner
      exact ⟨_, htold (List.ne_nil_of_mem hf), fun p hp => hp⟩
    · rw [SelectionSet.bufferOwner?_of_onCpu (hother c hc)] at howner
      obtain ⟨ids, hids, hall⟩ := h.announced c b howner hnew
      rw [Recording.announcement_of_onCpu (hother c hc)]
      exact ⟨ids, hsuffix.subset hids, hall⟩

/-- **Buffers have been drained:** the set is as it was, and no buffer holds more
than before. -/
theorem Tended.drained (h : s.Tended D Told base come) (hsound : s'.Sound) (hset : s'.set = s.set)
    (hsuffix : s.world.trace <:+ s'.world.trace)
    (hless : ∀ b, s'.world.trace.pending b = s.world.trace.pending b ∨
      s'.world.trace.pending b = [])
    (horderly : s'.world.trace.Orderly D Told) : s'.Tended D Told base come := by
  refine ⟨hsound, hset ▸ h.attached, hset ▸ h.sampling, hset ▸ h.routed, fun b hb => ?_,
    fun b bs hbs => ?_, fun cpu b howner hnew => ?_, horderly⟩
  · rw [hset]
    exact h.owned b fun hnone => (hless b).elim (fun heq => hb (heq.trans hnone)) hb
  · rcases hless b with heq | hnone
    · exact h.sized b bs (heq ▸ hbs)
    · rw [hnone] at hbs
      exact absurd hbs List.not_mem_nil
  · rw [hset] at howner ⊢
    obtain ⟨ids, htold, hids⟩ := h.announced cpu b howner hnew
    exact ⟨ids, hsuffix.subset htold, hids⟩

theorem Tells.passed (h : s.Tells D Told)
    (hdecodes : ∀ bs r, s'.set.Decodes bs r → s.set.Decodes bs r)
    (honCpu : ∀ cpu, s'.set.onCpu cpu = s.set.onCpu cpu ∨ s'.set.filesOn cpu = [])
    (htrace : s.world.trace <:+ s'.world.trace) : s'.Tells D Told := by
  refine ⟨fun bs r hr => h.decodes bs r (hdecodes bs r hr), fun cpu b howner earlier hearlier => ?_⟩
  rcases honCpu cpu with hsame | hnone
  · rw [SelectionSet.bufferOwner?_of_onCpu hsame] at howner
    exact h.told cpu b howner earlier (htrace.trans hearlier)
  · cases (SelectionSet.bufferOwner?_of_filesOn hnone).symm.trans howner

theorem Tended.unwatching (h : s.Tended D Told base come) (cpu : Nat) :
    (s.unwatching cpu).Tended D Told base come := by
  have hset := s.set_unwatching cpu
  have hworld := s.world_unwatching cpu
  have htrace : (s.unwatching cpu).world.trace = [] ++ s.world.trace := by rw [hworld]; rfl
  refine h.noted (h.sound.passed ⟨?_, by rw [hset], by rw [hworld], [], List.forall_mem_nil _,
    htrace⟩) (s.unturned_unwatching cpu) (s.held_unwatching cpu) htrace (List.forall_mem_nil _)
  rw [hset]
  rfl

theorem Tells.unwatching (h : s.Tells D Told) (cpu : Nat) : (s.unwatching cpu).Tells D Told := by
  refine h.passed (fun bs r hr => ?_)
    (fun other => .inl (SelectionSet.onCpu_of_held (s.held_unwatching cpu) other))
    (s.world_unwatching cpu ▸ List.suffix_rfl)
  rw [s.set_unwatching cpu] at hr
  exact hr

/-- **Closing the descriptors of a cpu** is in time where its buffer holds
nothing. -/
theorem Tended.dropped (h : s.Tended D Told base come) (hsound : s'.Sound)
    (hset : s'.set = s.set.dropFilesOn cpu)
    (htrace : s'.world.trace = Trace.closes (s.set.filesOn cpu) ++ s.world.trace)
    (hidle : ∀ b, s.set.bufferOwner? cpu = some b → s.world.trace.pending b = []) :
    s'.Tended D Told base come := by
  have hunturned : s.Unturned s' := by constructor <;> rw [hset] <;> rfl
  refine h.passed hsound hunturned (fun other => ?_) htrace (Trace.isData_closes _)
    fun d e hmoment => ?_
  · by_cases heq : other = cpu
    · refine .inr ⟨?_, heq ▸ hidle⟩
      rw [hset, heq]
      exact SelectionSet.filesOn_dropFilesOn_self
    · rw [hset]
      exact .inl (SelectionSet.onCpu_dropFilesOn_of_ne heq)
  · have hnone : ∀ x ∈ e, x.isOpening = false ∧ x.isData = false ∧ x.opens? = none :=
      fun x hx => by
        obtain ⟨g, -, rfl⟩ := Trace.mem_closes (hmoment.subset (List.mem_cons_of_mem _ hx))
        exact ⟨rfl, rfl, rfl⟩
    obtain ⟨f, hf, heq⟩ := Trace.mem_closes (hmoment.subset List.mem_cons_self)
    obtain rfl : d = f.descriptor := Happening.closed.inj heq
    obtain ⟨hmem, hcpu⟩ := SelectionSet.mem_filesOn.mp hf
    refine h.emptied (f := f.unmapped) (fun x hx => (hnone x hx).2.1) (fun x hx d hd => ?_) hidle
      ?_ hcpu
    · cases (hnone x hx).2.2.symm.trans hd
    · rw [Trace.opening?_append fun x hx => (hnone x hx).1]
      exact h.sound.opened f hmem

end Session

namespace Recording

variable {ω : Type} {host : Host ω} {D : Bytes → Record → Prop}
  {Told : Descriptor → Trace → Prop} {base : Trace} {come : List Nat} {cpu : Nat}
  {s s' : Session (Traced ω)}

/-! ### Draining -/

/-- **Draining a cpu:** its buffer holds nothing then, and the others hold what
they held. -/
theorem tended_drainCpu (h : s.Tended D Told base come) (htells : s.Tells D Told)
    (hok : drainCpu host.traced cpu s = (.ok true, s')) :
    s'.Tended D Told base come ∧ s'.set = s.set ∧ s.world.trace <:+ s'.world.trace ∧
      (∀ b, s'.world.trace.pending b = s.world.trace.pending b ∨ s'.world.trace.pending b = []) ∧
      ∀ b, s.set.bufferOwner? cpu = some b → s'.world.trace.pending b = [] := by
  have hsound := keeps_sound_drainCpu host cpu s h.sound
  rw [hok] at hsound
  obtain ⟨hset, ⟨hnone, rfl⟩ | ⟨b, records, howner, hrecords, hwent⟩⟩ :=
    drainCpu_eq_ok h.attached h.sized hok
  · refine ⟨h, rfl, List.suffix_rfl, fun b => .inl rfl, fun b howner => ?_⟩
    cases hnone.symm.trans howner
  · have htrace : s'.world.trace = Trace.hands records ++ .drained b :: s.world.trace := by
      rw [hwent.trace, List.append_assoc]
      rfl
    have hsuffix : s.world.trace <:+ s'.world.trace :=
      htrace ▸ (List.suffix_cons _ _).trans (List.suffix_append _ _)
    have hpending : ∀ c, s'.world.trace.pending c =
        if b = c then [] else s.world.trace.pending c := fun c => by
      rw [htrace, Trace.pending_hands]
      rfl
    have hless : ∀ c, s'.world.trace.pending c = s.world.trace.pending c ∨
        s'.world.trace.pending c = [] := fun c => by
      rw [hpending]
      split
      · exact .inr rfl
      · exact .inl rfl
    have horderly : s'.world.trace.Orderly D Told := htrace ▸
      h.orderly.handed (hrecords.imp fun bs r => htells.decodes bs r) (htells.told cpu b howner)
    refine ⟨h.drained hsound hset hsuffix hless horderly, hset, hsuffix, hless, fun c hc => ?_⟩
    rw [hpending, if_pos (Option.some.inj (howner.symm.trans hc))]

theorem tended_drainCpus : ∀ {cpus : List Nat} {s s' : Session (Traced ω)},
    s.Tended D Told base come → s.Tells D Told →
    drainCpus host.traced cpus s = (.ok true, s') →
    s'.Tended D Told base come ∧ s'.set = s.set ∧ s.world.trace <:+ s'.world.trace ∧
      (∀ b, s'.world.trace.pending b = s.world.trace.pending b ∨ s'.world.trace.pending b = []) ∧
      ∀ cpu ∈ cpus, ∀ b, s.set.bufferOwner? cpu = some b → s'.world.trace.pending b = []
  | [], s, _, h, _, hok => by
    cases hok
    exact ⟨h, rfl, List.suffix_rfl, fun _ => .inl rfl, List.forall_mem_nil _⟩
  | cpu :: rest, s, s', h, htells, hok => by
    rw [drainCpus] at hok
    obtain ⟨more, s₁, hdrain, hok⟩ := Effect.bind_eq_ok hok
    cases more with
    | false => cases hok
    | true =>
      obtain ⟨h₁, hset₁, htrace₁, hless₁, hdrained₁⟩ := tended_drainCpu h htells hdrain
      have htells₁ : s₁.Tells D Told := htells.passed (hset₁ ▸ fun _ _ => id)
        (fun _ => .inl (by rw [hset₁])) htrace₁
      obtain ⟨h', hset', htrace', hless', hdrained'⟩ := tended_drainCpus h₁ htells₁ hok
      refine ⟨h', hset'.trans hset₁, htrace₁.trans htrace', fun b => ?_, ?_⟩
      · rcases hless' b with heq | hnone
        · rw [heq]
          exact hless₁ b
        · exact .inr hnone
      · rw [List.forall_mem_cons]
        refine ⟨fun b howner => ?_, fun other hother b howner =>
          hdrained' other hother b (hset₁ ▸ howner)⟩
        exact (hless' b).elim (fun heq => heq.trans (hdrained₁ b howner)) id

/-- **After a last drain** no buffer holds a record. -/
theorem tended_finish (h : s.Tended D Told base come) (htells : s.Tells D Told)
    (hok : finish host.traced s = (.ok true, s')) :
    s'.Tended D Told base come ∧ s'.set = s.set ∧ s.world.trace <:+ s'.world.trace ∧
      ∀ b, s'.world.trace.pending b = [] := by
  rw [finish, getSet_bind] at hok
  obtain ⟨h', hset, htrace, hless, hdrained⟩ := tended_drainCpus h htells hok
  refine ⟨h', hset, htrace, fun b => Decidable.byContradiction fun hpending => hpending ?_⟩
  obtain ⟨cpu, -, howner⟩ := h'.owned b hpending
  rw [hset] at howner
  exact hdrained cpu (SelectionSet.mem_bufferCpus howner) b howner

end Recording
end Profiler
