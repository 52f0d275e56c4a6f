/-
# Every record is handed on once

Records come into the buffers of the cpus while cpus are drained, go, and come
back. A cpu that goes is drained before its descriptors are closed, one that
comes is announced before it is drained, and nobody but the descriptors on a cpu
owns its buffer; so along any run in which nothing fails each record is handed on
exactly once, in the order of its buffer (`Host.Delivers.exactly_once`). What a
recording knows of its buffers (`Session.Tended`) it knows at any time of a run
(`Host.Delivers.tended`).

Key definitions: `Session.Decoded`, `Session.Announced`, `Host.Delivers`.
Key theorems: `Session.TendedIn.put`, `Host.Ready.tended`, `Host.Delivers.tended`,
`Host.Delivers.exactly_once`.
-/
import Profiler.Proofs.Recording.TendedTurns

namespace Profiler

/-! ### Runs -/

namespace Session

variable {ω : Type}

/-- The kernel has put a record into a buffer. -/
def put (s : Session (Traced ω)) (b : Descriptor) (bs : Bytes) : Session (Traced ω) :=
  { s with world := s.world.happen (.appended b bs) }

/-- A record decodes with the attr that some session had for it. -/
def Decoded (visited : List (Session (Traced ω))) (bs : Bytes) (r : Record) : Prop :=
  ∃ u ∈ visited, u.set.Decodes bs r

/-- If `base` did not know the buffer, then a session of before, which owned it,
had announced the id of each descriptor on its cpu, with the place of the attr. -/
def Announced (base : Trace) (visited : List (Session (Traced ω))) (b : Descriptor)
    (earlier : Trace) : Prop :=
  base.opening? b = none → ∃ u ∈ visited, u.world.trace <:+ earlier ∧ ∃ cpu ids,
    u.set.bufferOwner? cpu = some b ∧ .delivered (.eventIds ids) ∈ u.world.trace ∧
    ∀ (i : Nat) (x : Selection), u.set.selections[i]? = some x →
      ∀ f ∈ x.filesOn cpu, (UInt64.ofNat i, f.id) ∈ ids

end Session

/-- The sessions that a recording goes through, the last first, while records
are handed on: the kernel puts whole records into buffers that some descriptor
sends its records to, cpus are drained and followed, and nothing fails or is
refused. At first every cpu with descriptors that is followed is known to be
online. -/
inductive Host.Delivers {ω : Type} (host : Host ω) (base : Session (Traced ω)) :
    List (Session (Traced ω)) → Prop where
  | ready {cpus : List Nat} (h : host.Ready cpus base) (hattached : base.set.attached = true)
      (hsampling : base.set.counting = false) (hknows : ∀ cpu, base.Knows cpu) :
      Delivers host base [base]
  | appended {s : Session (Traced ω)} {past : List (Session (Traced ω))}
      (h : Delivers host base (s :: past)) {f : EventFile} {b : Descriptor} {raw : RawRecord}
      (hf : f ∈ s.set.files) (hb : f.buffer? = some b) (hraw : raw.Sized) :
      Delivers host base (s.put b raw.bytes :: s :: past)
  | drained {s s' : Session (Traced ω)} {past : List (Session (Traced ω))}
      (h : Delivers host base (s :: past)) (cpu : Nat)
      (hok : Recording.drainCpu host.traced cpu s = (.ok true, s')) :
      Delivers host base (s' :: s :: past)
  | followed {s s' : Session (Traced ω)} {past : List (Session (Traced ω))}
      (h : Delivers host base (s :: past))
      (hok : Recording.followCpus host.traced s = (.ok true, s')) :
      Delivers host base (s' :: s :: past)
  | finished {s s' : Session (Traced ω)} {past : List (Session (Traced ω))}
      (h : Delivers host base (s :: past))
      (hok : Recording.finish host.traced s = (.ok true, s')) :
      Delivers host base (s' :: s :: past)
  | outside {s : Session (Traced ω)} {past : List (Session (Traced ω))}
      (h : Delivers host base (s :: past)) (world : ω) (loop : EventLoop RecordingTask) :
      Delivers host base ({ s with loop, world := { s.world with world } } :: s :: past)

namespace Session

variable {ω : Type} {base s s' : Session (Traced ω)} {visited : List (Session (Traced ω))}

/-- What is known of the records of a run. -/
abbrev TendedIn (base : Trace) (visited : List (Session (Traced ω))) (s : Session (Traced ω)) :
    Prop := s.Tended (Decoded visited) (Announced base visited) base []

theorem TendedIn.cons (h : s.TendedIn base.world.trace visited) (s' : Session (Traced ω)) :
    s.TendedIn base.world.trace (s' :: visited) :=
  { h with
    orderly := h.orderly.mono
      (fun _ _ ⟨u, hu, hr⟩ => ⟨u, List.mem_cons_of_mem _ hu, hr⟩)
      fun _ _ htold hnew => (htold hnew).imp fun _ hu => ⟨List.mem_cons_of_mem _ hu.1, hu.2⟩ }

theorem TendedIn.tells (h : s.TendedIn base.world.trace visited) (hs : s ∈ visited) :
    s.Tells (Decoded visited) (Announced base.world.trace visited) where
  decodes _ _ hr := ⟨s, hs, hr⟩
  told cpu b howner earlier hearlier hnew := by
    obtain ⟨ids, htold, hids⟩ := h.announced cpu b howner hnew
    exact ⟨s, hs, hearlier, cpu, ids, howner, htold, fun i x hx f hf =>
      hids _ (Recording.mem_announcement hx hf)⟩

theorem TendedIn.put (h : s.TendedIn base.world.trace visited) {f : EventFile} {b : Descriptor}
    {raw : RawRecord} (hf : f ∈ s.set.files) (hb : f.buffer? = some b) (hraw : raw.Sized) :
    (s.put b raw.bytes).TendedIn base.world.trace visited := by
  have hpending : ∀ c, (s.world.happen (.appended b raw.bytes)).trace.pending c =
      if b = c then s.world.trace.pending c ++ [raw.bytes] else s.world.trace.pending c :=
    fun _ => rfl
  refine ⟨h.sound.passed
      ⟨rfl, rfl, rfl, [.appended b raw.bytes], by simp [Happening.isOpening], rfl⟩,
    h.attached, h.sampling, h.routed, fun c hc => ?_, fun c bs hbs => ?_,
    fun cpu c howner hnew => ?_, h.orderly.appended b raw.bytes⟩
  · by_cases heq : b = c
    · exact ⟨f.cpu, List.not_mem_nil, heq ▸ h.routed f hf b hb⟩
    · refine h.owned c fun hnone => hc ?_
      exact (hpending c).trans ((if_neg heq).trans hnone)
  · have hmem : bs ∈ (if b = c then s.world.trace.pending c ++ [raw.bytes]
      else s.world.trace.pending c) := hpending c ▸ hbs
    split at hmem
    · rcases List.mem_append.mp hmem with hold | hnew
      · exact h.sized c bs hold
      · exact ⟨raw, hraw, (List.mem_singleton.mp hnew).symm⟩
    · exact h.sized c bs hmem
  · obtain ⟨ids, htold, hids⟩ := h.announced cpu c howner hnew
    exact ⟨ids, List.mem_cons_of_mem _ htold, hids⟩

end Session

/-- A set that is ready has nothing to hand on yet. -/
theorem Host.Ready.tended {ω : Type} {host : Host ω} {cpus : List Nat} {base : Session (Traced ω)}
    (h : host.Ready cpus base) (hattached : base.set.attached = true)
    (hsampling : base.set.counting = false) : base.TendedIn base.world.trace [base] := by
  obtain ⟨hfresh, -⟩ := h.prepared
  have hpending : ∀ b, base.world.trace.pending b = [] := fun b => by
    have hnone := Trace.pending_append hfresh.dataless b []
    rwa [List.append_nil] at hnone
  refine ⟨hfresh.sound, hattached, hsampling, fun f hf b hb => ?_,
    fun b hb => absurd (hpending b) hb, fun b bs hbs => ?_, fun cpu b howner hnew => ?_,
    Trace.Orderly.of_dataless hfresh.dataless⟩
  · exact (hfresh.buffered f.cpu).find?_mapped (SelectionSet.mem_filesOn.mpr ⟨hf, rfl⟩) hb
  · rw [hpending] at hbs
    exact absurd hbs List.not_mem_nil
  · obtain ⟨f, hf, -, rfl⟩ := SelectionSet.mapped_of_bufferOwner? howner
    cases hnew.symm.trans (hfresh.sound.opened f (SelectionSet.mem_filesOn.mp hf).1)

/-- **What is known of the records of a run.** -/
theorem Host.Delivers.tended {ω : Type} {host : Host ω} {base s : Session (Traced ω)}
    {past : List (Session (Traced ω))} (h : host.Delivers base (s :: past)) :
    s.TendedIn base.world.trace (s :: past) ∧ ∀ cpu, s.Knows cpu := by
  generalize hvisited : s :: past = visited at h
  induction h generalizing s past with
  | ready hready hattached hsampling hknows =>
    cases hvisited
    exact ⟨hready.tended hattached hsampling, hknows⟩
  | @appended s₀ past' h f b raw hf hb hraw ih =>
    cases hvisited
    obtain ⟨htended, hknows⟩ := ih rfl
    exact ⟨(htended.cons _).put hf hb hraw, hknows⟩
  | @drained s₀ s' past' h cpu hok ih =>
    cases hvisited
    obtain ⟨htended, hknows⟩ := ih rfl
    have hcons := htended.cons s'
    obtain ⟨htended', hset, -⟩ := Recording.tended_drainCpu hcons
      (hcons.tells (List.mem_cons_of_mem _ List.mem_cons_self)) hok
    refine ⟨htended', fun cpu => ?_⟩
    rw [Session.Knows, hset]
    exact hknows cpu
  | @followed s₀ s' past' h hok ih =>
    cases hvisited
    obtain ⟨htended, hknows⟩ := ih rfl
    have hcons := htended.cons s'
    exact Recording.tended_followCpus hcons
      (hcons.tells (List.mem_cons_of_mem _ List.mem_cons_self)) hknows hok
  | @finished s₀ s' past' h hok ih =>
    cases hvisited
    obtain ⟨htended, hknows⟩ := ih rfl
    have hcons := htended.cons s'
    obtain ⟨htended', hset, -⟩ := Recording.tended_finish hcons
      (hcons.tells (List.mem_cons_of_mem _ List.mem_cons_self)) hok
    refine ⟨htended', fun cpu => ?_⟩
    rw [Session.Knows, hset]
    exact hknows cpu
  | @outside s₀ past' h world loop ih =>
    cases hvisited
    obtain ⟨htended, hknows⟩ := ih rfl
    have hcons := htended.cons { s₀ with loop, world := { s₀.world with world } }
    exact ⟨hcons.noted (hcons.sound.passed ⟨rfl, rfl, rfl, [], List.forall_mem_nil _, rfl⟩)
      ⟨rfl, rfl, rfl, rfl⟩ rfl (List.nil_append _).symm (List.forall_mem_nil _), hknows⟩

/-- **Every record is handed on exactly once,** in the order of its buffer: those
that were put into a buffer have been handed on but for those that it holds, and
a last drain leaves none; whatever else was handed on announces ids. When a
descriptor is closed, nothing is left in the buffers of its cpu. When a record
comes from a buffer that was not there at first, the ids of its cpu have been
announced. -/
theorem Host.Delivers.exactly_once {ω : Type} {host : Host ω} {base s : Session (Traced ω)}
    {past : List (Session (Traced ω))} (h : host.Delivers base (s :: past)) :
    (∀ b, ∃ done, s.world.trace.appendedTo b = done ++ s.world.trace.pending b ∧
      List.Forall₂ (Session.Decoded (s :: past)) done (s.world.trace.readFrom b)) ∧
    (∀ s', Recording.finish host.traced s = (.ok true, s') → s.world.trace <:+ s'.world.trace ∧
      ∀ b, List.Forall₂ (Session.Decoded (s :: past)) (s'.world.trace.appendedTo b)
        (s'.world.trace.readFrom b)) ∧
    (∀ (r : Record) (earlier : Trace), .delivered r :: earlier <:+ s.world.trace →
      earlier.source? = none → ∃ ids, r = .eventIds ids) ∧
    (∀ (d b : Descriptor) (earlier : Trace) (f g : EventFile),
      .closed d :: earlier <:+ s.world.trace → earlier.opening? d = some f →
      earlier.opening? b = some g → g.cpu = f.cpu →
      List.Forall₂ (Session.Decoded (s :: past)) (earlier.appendedTo b) (earlier.readFrom b)) ∧
    ∀ (r : Record) (b : Descriptor) (earlier : Trace), .delivered r :: earlier <:+ s.world.trace →
      earlier.source? = some b → Session.Announced base.world.trace (s :: past) b earlier := by
  obtain ⟨htended, -⟩ := h.tended
  have horderly := htended.orderly
  refine ⟨horderly.accounted, fun s' hok => ?_, horderly.sourced,
    fun d b earlier f g hmoment hf hg hcpu => horderly.emptied d earlier hmoment f b g hf hg hcpu,
    fun r b earlier hmoment hsource => horderly.told r earlier b hmoment hsource⟩
  obtain ⟨htended', -, htrace, hnone⟩ :=
    Recording.tended_finish htended (htended.tells List.mem_cons_self) hok
  exact ⟨htrace, fun b => htended'.orderly.all_read (hnone b)⟩

/-- The second cpu goes and comes back. Its record is handed on when it goes, and
what its new buffer gives after the new id was announced. -/
theorem Host.Delivers.exactly_once_back_online :
    let host := MemoryKernel.host
    let lost (id : UInt64) : Record :=
      .lost { id, sampleId := { sampleIdAll := true, sampleType := 455, id } }
    let chosen := MemoryKernel.chosen false ["cpu-clock"] {}
    let opened := (Recording.openEvents host.traced [] chosen).2
    let watched := [.mapEvents 8 8, .attach, .watchCpus [] 1000].foldl
      (fun s (c : Recording.Call) => (c.run host.traced s).2) opened
    let begun := watched.put 0 (lost 1).stored.bytes
    let filled := begun.put 1 (lost 2).stored.bytes
    let gone := (Recording.followCpus host.traced (MemoryKernel.ruled { online := [0] } filled)).2
    let back := (Recording.followCpus host.traced (MemoryKernel.ruled { online := [0, 1] } gone)).2
    let refilled := back.put 2 (lost 3).stored.bytes
    let done := (Recording.finish host.traced refilled).2
    ∃ past, host.Delivers watched (done :: past) ∧ done.world.trace.pending 2 = [] ∧
      [0, 1, 2].map done.world.trace.readFrom = [[lost 1], [lost 2], [lost 3]] ∧
      (∀ b, ∃ handed, done.world.trace.appendedTo b = handed ++ done.world.trace.pending b ∧
        List.Forall₂ (Session.Decoded (done :: past)) handed (done.world.trace.readFrom b)) ∧
      ∀ (r : Record) (earlier : Trace), .delivered r :: earlier <:+ done.world.trace →
        earlier.source? = some 2 → ∃ u ∈ done :: past, u.world.trace <:+ earlier ∧
          ∃ ids, .delivered (.eventIds ids) ∈ u.world.trace := by
  intro host lost chosen opened watched begun filled gone back refilled done
  have hunopened : chosen.Unopened := Session.unopened_of_nil (by decide +kernel)
    (by decide +kernel) (by decide +kernel)
  have honline : (host.onlineCpus chosen.world.world).1 = .ok [0, 1] := by decide +kernel
  have hopened : (Recording.openEvents host.traced [] chosen).1 = .ok () := by decide +kernel
  have hdetached : opened.set.attached = false := by decide +kernel
  have hattached : watched.set.attached = true := by decide +kernel
  have hsampling : watched.set.counting = false := by decide +kernel
  have hknown : ∀ f ∈ watched.set.files, f.cpu ∈ watched.set.onlineCpus := by decide +kernel
  have hfresh : watched.world.trace.opening? 2 = none := by decide +kernel
  have hbuffers : (∃ f ∈ watched.set.files, f.buffer? = some 0) ∧
      ∃ f ∈ watched.set.files, f.buffer? = some 1 := by decide +kernel
  have hgone : (Recording.followCpus host.traced (MemoryKernel.ruled { online := [0] } filled)).1 =
      .ok true := by decide +kernel
  have hback : (Recording.followCpus host.traced (MemoryKernel.ruled { online := [0, 1] } gone)).1 =
      .ok true := by decide +kernel
  have hbuffer : ∃ f ∈ back.set.files, f.buffer? = some 2 := by decide +kernel
  have hdone : (Recording.finish host.traced refilled).1 = .ok true := by decide +kernel
  have hempty : done.world.trace.pending 2 = [] := by decide +kernel
  have hread : [0, 1, 2].map done.world.trace.readFrom = [[lost 1], [lost 2], [lost 3]] := by
    decide +kernel
  have hsized₁ : (lost 1).stored.Sized := Record.stored_sized (by decide +kernel)
  have hsized₂ : (lost 2).stored.Sized := Record.stored_sized (by decide +kernel)
  have hsized₃ : (lost 3).stored.Sized := Record.stored_sized (by decide +kernel)
  have hready : host.Ready [0, 1] watched :=
    (MemoryKernel.ready_chosen hunopened honline hopened).awaited hdetached 8 8 [] 1000
  have hknows : ∀ cpu, watched.Knows cpu := by
    intro cpu _ hfiles
    obtain ⟨f, hf⟩ := List.exists_mem_of_ne_nil _ hfiles
    obtain ⟨hmem, hcpu⟩ := SelectionSet.mem_filesOn.mp hf
    exact hcpu ▸ hknown f hmem
  clear_value watched lost
  obtain ⟨⟨f, hf, hb⟩, g, hg, hb'⟩ := hbuffers
  have hbegun : host.Delivers watched [begun, watched] :=
    .appended (.ready hready hattached hsampling hknows) hf hb hsized₁
  have hfilled : host.Delivers watched [filled, begun, watched] :=
    .appended hbegun hg hb' hsized₂
  clear_value filled
  have hleft : host.Delivers watched (gone :: _) :=
    .followed (.outside hfilled _ _) (Prod.ext hgone rfl)
  clear_value gone
  have hcame : host.Delivers watched (back :: _) :=
    .followed (.outside hleft _ _) (Prod.ext hback rfl)
  clear_value back
  obtain ⟨f', hf', hb''⟩ := hbuffer
  have hrefilled : host.Delivers watched (refilled :: back :: _) :=
    .appended hcame hf' hb'' hsized₃
  clear_value refilled
  have hlast : host.Delivers watched (done :: refilled :: _) :=
    .finished hrefilled (Prod.ext hdone rfl)
  clear_value done
  obtain ⟨haccounted, -, -, -, htold⟩ := hlast.exactly_once
  refine ⟨_, hlast, hempty, hread, haccounted, fun r earlier hmoment hsource => ?_⟩
  obtain ⟨u, hu, hearlier, -, ids, -, hids, -⟩ := htold r 2 earlier hmoment hsource hfresh
  exact ⟨u, hu, hearlier, ids, hids⟩

end Profiler
