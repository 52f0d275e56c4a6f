/-
# Cpus that go and cpus that come

A cpu that goes is drained before its descriptors are closed
(`Recording.tended_leaveCpu`), and one that comes is announced before it is
drained (`Recording.tended_enterCpu`). So what a recording knows of its buffers
it still knows after it has followed the cpus (`Recording.tended_followCpus`).

Key theorems: `Recording.tended_leaveCpu`, `Recording.tended_leaveCpus`,
`Recording.announce_eq_ok`, `Recording.tended_enterCpu`,
`Recording.tended_enterCpus`, `Recording.tended_followCpus`.
-/
import Profiler.Proofs.Recording.Tended

namespace Profiler
namespace Recording

variable {ω : Type} {host : Host ω} {D : Bytes → Record → Prop}
  {Told : Descriptor → Trace → Prop} {base : Trace} {come : List Nat} {cpu : Nat}
  {s s' : Session (Traced ω)}

/-! ### Cpus that go -/

/-- **Leaving a cpu:** its buffer is drained, and then its descriptors are
closed. -/
theorem tended_leaveCpu (h : s.Tended D Told base come) (htells : s.Tells D Told)
    (hok : leaveCpu host.traced cpu s = (.ok true, s')) :
    s'.Tended D Told base come ∧ s'.Tells D Told ∧ s.Unturned s' ∧ s'.set.filesOn cpu = [] ∧
      ∀ other, s'.set.onCpu other = s.set.onCpu other ∨ s'.set.filesOn other = [] := by
  have hsound := keeps_sound_leaveCpu host cpu s h.sound
  rw [hok] at hsound
  obtain ⟨r, s₂, hdrain⟩ : ∃ r s₂, drainCpu host.traced cpu (s.unwatching cpu) = (r, s₂) :=
    ⟨_, _, rfl⟩
  obtain ⟨s'', -, hleave, hcases⟩ := leaveCpu_sampling host cpu h.sampling hdrain
  cases hok.symm.trans hleave
  obtain ⟨-, hset', hwent'⟩ | ⟨hne, -⟩ := hcases
  · -- nobody waits for the buffer any more, then it is drained, and then it is closed
    obtain ⟨h₂, hset₂, htrace₂, -, hdrained⟩ :=
      tended_drainCpu (h.unwatching cpu) (htells.unwatching cpu) hdrain
    have hheld₂ : s₂.set.held = s.set.held := by rw [hset₂, s.held_unwatching cpu]
    have hunturned₂ : s.Unturned s₂ := (s.unturned_unwatching cpu).trans (.of_set hset₂)
    have hidle : ∀ b, s₂.set.bufferOwner? cpu = some b → s₂.world.trace.pending b = [] :=
      fun b howner => hdrained b (hset₂ ▸ howner)
    rw [← SelectionSet.filesOn_of_held hheld₂ cpu] at hwent'
    have hgone : s'.set.filesOn cpu = [] := by
      rw [hset']
      exact SelectionSet.filesOn_dropFilesOn_self
    have honCpu : ∀ other, s'.set.onCpu other = s.set.onCpu other ∨ s'.set.filesOn other = [] := by
      intro other
      by_cases heq : other = cpu
      · exact .inr (heq ▸ hgone)
      · rw [hset', SelectionSet.onCpu_dropFilesOn_of_ne heq]
        exact .inl (SelectionSet.onCpu_of_held hheld₂ other)
    have hunturned' : s₂.Unturned s' := by constructor <;> rw [hset'] <;> rfl
    refine ⟨h₂.dropped hsound hset' hwent'.trace hidle, htells.passed (fun bs r hr => ?_) honCpu ?_,
      hunturned₂.trans hunturned', hgone, honCpu⟩
    · rw [hset', hset₂, s.set_unwatching cpu] at hr
      exact hr
    · rw [s.world_unwatching cpu] at htrace₂
      exact htrace₂.trans (hwent'.trace ▸ List.suffix_append _ _)
  · exact absurd rfl hne

theorem tended_leaveCpus : ∀ {gone : List Nat} {s s' : Session (Traced ω)},
    s.Tended D Told base come → s.Tells D Told →
    leaveCpus host.traced gone s = (.ok true, s') →
    s'.Tended D Told base come ∧ s.Unturned s' ∧ (∀ cpu ∈ gone, s'.set.filesOn cpu = []) ∧
      ∀ other, s'.set.onCpu other = s.set.onCpu other ∨ s'.set.filesOn other = []
  | [], s, _, h, _, hok => by
    cases hok
    exact ⟨h, .refl s, List.forall_mem_nil _, fun _ => .inl rfl⟩
  | cpu :: rest, s, s', h, htells, hok => by
    obtain ⟨s₁, s₂, hset₁, hwent₁, hleave, hrest⟩ := leaveCpus_eq_ok hok
    have hunturned₁ : s.Unturned s₁ := .of_set hset₁
    have h₁ := h.noted (h.sound.passed (.of_went hset₁ hwent₁ (by simp [Happening.isOpening])))
      hunturned₁ (by rw [hset₁]) hwent₁.trace (by simp [Happening.isData])
    have htells₁ : s₁.Tells D Told := htells.passed (hset₁ ▸ fun _ _ => id)
      (fun _ => .inl (by rw [hset₁])) (hwent₁.trace ▸ List.suffix_append _ _)
    obtain ⟨h₂, htells₂, hunturned₂, hnone₂, honCpu₂⟩ := tended_leaveCpu h₁ htells₁ hleave
    obtain ⟨h', hunturned', hnone', honCpu'⟩ := tended_leaveCpus h₂ htells₂ hrest
    have hstay : ∀ other, s₂.set.filesOn other = [] → s'.set.filesOn other = [] :=
      fun other hnone => (honCpu' other).elim
        (fun hsame => (SelectionSet.filesOn_of_onCpu hsame).trans hnone) id
    refine ⟨h', (hunturned₁.trans hunturned₂).trans hunturned', ?_, fun other => ?_⟩
    · rw [List.forall_mem_cons]
      exact ⟨hstay cpu hnone₂, hnone'⟩
    · rcases honCpu₂ other with hsame | hnone
      · rw [hset₁] at hsame
        exact (honCpu' other).imp (·.trans hsame) id
      · exact .inr (hstay other hnone)

/-! ### Cpus that come -/

/-- All that is on a cpu was announced, if there is anything. -/
theorem announce_eq_ok (hsampling : s.set.counting = false) (hattached : s.set.attached = true)
    (hok : announce host.traced cpu s = (.ok true, s')) :
    s'.set.held = s.set.held ∧ s.Unturned s' ∧
      ((s.set.filesOn cpu = [] ∧ s'.world.trace = s.world.trace) ∨
        s'.world.trace = .delivered (.eventIds (announcement s.set cpu)) :: s.world.trace) := by
  rcases announce_outcome host cpu s with ⟨hskip, heq⟩ | ⟨-, more, s₂, hset₂, hwent₂, heq⟩
  · cases hok.symm.trans heq
    refine ⟨rfl, ⟨rfl, rfl, rfl, rfl⟩, .inl ⟨filesOn_of_announcement (hskip.resolve_left ?_), rfl⟩⟩
    rw [hsampling]
    exact Bool.false_ne_true
  · cases more with
    | false => cases hok.symm.trans heq
    | true =>
      have heq' : announce host.traced cpu s = (.ok true, s₂.awaiting cpu) := heq
      cases hok.symm.trans heq'
      rw [hattached, if_pos rfl] at hwent₂
      refine ⟨?_, ?_, .inr ?_⟩
      · rw [s₂.held_awaiting cpu, hset₂]
        rfl
      · refine .trans ?_ (s₂.unturned_awaiting cpu)
        constructor <;> rw [hset₂] <;> rfl
      · rw [s₂.world_awaiting]
        exact hwent₂.trace

theorem orderly_announce (h : s.world.trace.Orderly D Told) (hsource : s.world.trace.source? = none)
    (htrace : (s.set.filesOn cpu = [] ∧ s'.world.trace = s.world.trace) ∨
      s'.world.trace = .delivered (.eventIds (announcement s.set cpu)) :: s.world.trace) :
    s.world.trace <:+ s'.world.trace ∧
      (∀ b, s'.world.trace.pending b = s.world.trace.pending b) ∧ s'.world.trace.Orderly D Told ∧
      (s.set.filesOn cpu ≠ [] →
        .delivered (.eventIds (announcement s.set cpu)) ∈ s'.world.trace) := by
  rcases htrace with ⟨hnone, htrace⟩ | htrace
  · rw [htrace]
    exact ⟨List.suffix_rfl, fun _ => rfl, h, fun hne => absurd hnone hne⟩
  · rw [htrace]
    exact ⟨List.suffix_cons _ _, fun _ => rfl, h.announced hsource _, fun _ => List.mem_cons_self⟩

/-- What is opened on a cpu that is still to come and closed again is closed in
time. -/
theorem orderly_attempts (h : s.Tended D Told base come) (hcome : cpu ∈ come) {as : List Attempt}
    (hrun : Attempt.Run reopenedAttr s.set s.world.count as) (hcpus : ∀ a ∈ as, a.cpu = cpu) :
    (Attempt.trace as ++ s.world.trace).Orderly D Told := by
  have hdata := Attempt.isData_trace as
  refine h.orderly.dataless hdata fun d e hmoment => ?_
  obtain ⟨a, ha, f, hopened, hf⟩ := hrun.opening?_of_closed hmoment s.world.trace
  have hsub : ∀ x ∈ e, x ∈ Attempt.trace as := fun x hx =>
    hmoment.subset (List.mem_cons_of_mem _ hx)
  exact h.emptied (fun x hx => hdata x (hsub x hx))
    (fun x hx d hd => hrun.le_of_opens? (hsub x hx) hd) (fun _ => h.idle_of_come hcome) hopened
    (hf.trans (hcpus a ha))

/-- **Entering a cpu:** what was opened is mapped, and its ids are announced. -/
theorem tended_enterCpu (h : s.Tended D Told base come) (hcome : cpu ∈ come)
    (hsource : s.world.trace.source? = none)
    (hok : enterCpu host.traced cpu s = (.ok true, s')) :
    s'.Tended D Told base come ∧ s.Unturned s' ∧
      ∀ other, other ≠ cpu → s'.set.onCpu other = s.set.onCpu other := by
  have hsound := keeps_sound_enterCpu host cpu s h.sound
  rw [hok] at hsound
  obtain ⟨threads, as, s₁, -, hrun, htargets, hset₁, hwent₁, hannounce⟩ :=
    enterCpu_eq_ok h.sound hok
  have hcpus := Attempt.cpu_eq_of_targets htargets
  have hdata := Attempt.isData_trace as
  -- the descriptors are open and mapped, and not yet announced
  obtain ⟨groups, hgroups⟩ := exists_activated_eq s.set as cpu
  rw [← hset₁] at hgroups
  have hunturned₁ : s.Unturned s₁ := by constructor <;> rw [hgroups]
  have hplaced : s₁.set = (s.set.takeAll as).placeOn cpu := by
    rw [hset₁, activated_takeAll, h.sampling, if_neg Bool.false_ne_true]
  have horderly₁ : s₁.world.trace.Orderly D Told :=
    hwent₁.trace ▸ orderly_attempts h hcome hrun hcpus
  have hsource₁ : s₁.world.trace.source? = none :=
    hwent₁.trace ▸ Trace.source?_append_of_none hdata hsource
  have hsuffix₁ : s.world.trace <:+ s₁.world.trace := hwent₁.trace ▸ List.suffix_append _ _
  have hpending₁ : ∀ b, s₁.world.trace.pending b = s.world.trace.pending b := fun b => by
    rw [hwent₁.trace, Trace.pending_append hdata]
  obtain ⟨hheld, hunturned', htrace⟩ := announce_eq_ok (hunturned₁.counting.trans h.sampling)
    (hunturned₁.attached.trans h.attached) hannounce
  obtain ⟨hsuffix, hpending, horderly, htold⟩ := orderly_announce horderly₁ hsource₁ htrace
  have honCpu : ∀ other, s'.set.onCpu other = s₁.set.onCpu other := SelectionSet.onCpu_of_held hheld
  have hother : ∀ other, other ≠ cpu → s'.set.onCpu other = s.set.onCpu other := fun other hne => by
    rw [honCpu other, hset₁, onCpu_activated_of_ne hrun hcpus hne]
  have hunturned := hunturned₁.trans hunturned'
  refine ⟨h.entered hcome hsound hunturned hother (fun f hf b hb => ?_) (fun hne => ?_)
    (hsuffix₁.trans hsuffix) (fun b => (hpending b).trans (hpending₁ b)) horderly, hunturned, hother⟩
  · rw [SelectionSet.filesOn_of_onCpu (honCpu cpu), hplaced] at hf
    rw [SelectionSet.bufferOwner?_of_onCpu (honCpu cpu), hplaced]
    exact SelectionSet.bufferOwner?_placeOn hf hb
  · rw [SelectionSet.filesOn_of_onCpu (honCpu cpu)] at hne
    rw [announcement_of_onCpu (honCpu cpu)]
    exact htold hne

theorem tended_enterCpus : ∀ {cpus : List Nat} {s s' : Session (Traced ω)},
    s.Tended D Told base come → (∀ cpu ∈ cpus, cpu ∈ come) →
    enterCpus host.traced cpus s = (.ok true, s') →
    s'.Tended D Told base come ∧ s.Unturned s' ∧
      ∀ other, other ∉ cpus → s'.set.onCpu other = s.set.onCpu other
  | [], s, _, h, _, hok => by
    cases hok
    exact ⟨h, .refl s, fun _ _ => rfl⟩
  | cpu :: rest, s, s', h, hcome, hok => by
    obtain ⟨hcpu, hcome⟩ := List.forall_mem_cons.mp hcome
    obtain ⟨s₁, s₂, hset₁, hwent₁, henter, hrest⟩ := enterCpus_eq_ok hok
    have hunturned₁ : s.Unturned s₁ := .of_set hset₁
    have h₁ := h.noted (h.sound.passed (.of_went hset₁ hwent₁ (by simp [Happening.isOpening])))
      hunturned₁ (by rw [hset₁]) hwent₁.trace (by simp [Happening.isData])
    obtain ⟨h₂, hunturned₂, honCpu₂⟩ := tended_enterCpu h₁ hcpu (by rw [hwent₁.trace]; rfl) henter
    obtain ⟨h', hunturned', honCpu'⟩ := tended_enterCpus h₂ hcome hrest
    refine ⟨h', (hunturned₁.trans hunturned₂).trans hunturned', fun other hother => ?_⟩
    rw [honCpu' other fun hmem => hother (List.mem_cons_of_mem _ hmem),
      honCpu₂ other fun heq => hother (heq ▸ List.mem_cons_self), hset₁]

/-- **A turn of the cpus:** those that have gone are drained, and those that have
come are announced. -/
theorem tended_followCpus (h : s.Tended D Told base []) (htells : s.Tells D Told)
    (hknows : ∀ cpu, s.Knows cpu) (hok : followCpus host.traced s = (.ok true, s')) :
    s'.Tended D Told base [] ∧ ∀ cpu, s'.Knows cpu := by
  obtain ⟨online, s₁, s₂, s₃, -, hset₁, hwent₁, hleave, henter, rfl⟩ := followCpus_eq_ok hok
  have hunturned₁ : s.Unturned s₁ := .of_set hset₁
  have h₁ := h.noted (h.sound.passed (.of_went hset₁ hwent₁ (List.forall_mem_nil _))) hunturned₁
    (by rw [hset₁]) hwent₁.trace (List.forall_mem_nil _)
  have htells₁ : s₁.Tells D Told := htells.passed (hset₁ ▸ fun _ _ => id)
    (fun _ => .inl (by rw [hset₁])) (hwent₁.trace ▸ List.suffix_append _ _)
  have hcome : ∀ cpu ∈ s.set.come online, s₁.set.filesOn cpu = [] := fun cpu hmem => by
    rw [hset₁, (hknows cpu).filesOn_of_come hmem]
  obtain ⟨h₂, hunturned₂, hgone, honCpu₂⟩ := tended_leaveCpus (h₁.coming hcome) htells₁ hleave
  obtain ⟨h₃, hunturned₃, honCpu₃⟩ := tended_enterCpus h₂ (fun _ hmem => hmem) henter
  have hunturned := (hunturned₁.trans hunturned₂).trans hunturned₃
  have h' := h₃.come_nil
  refine ⟨⟨h'.sound.passed ⟨rfl, rfl, rfl, [], List.forall_mem_nil _, rfl⟩, h'.attached,
    h'.sampling, h'.routed, h'.owned, h'.sized, h'.announced, h'.orderly⟩,
    fun cpu hfollows hfiles => ?_⟩
  have hfollows₃ : s₃.set.follows cpu = true := hfollows
  have hfiles₃ : s₃.set.filesOn cpu ≠ [] := hfiles
  rw [hunturned.follows] at hfollows₃
  by_cases hmem : cpu ∈ s.set.come online
  · exact (List.mem_filter.mp hmem).1
  · rw [SelectionSet.filesOn_of_onCpu (honCpu₃ cpu hmem)] at hfiles₃
    rcases honCpu₂ cpu with hsame | hnone
    · have hfiles₁ : s.set.filesOn cpu ≠ [] := by
        rw [SelectionSet.filesOn_of_onCpu hsame, hset₁] at hfiles₃
        exact hfiles₃
      exact Decidable.byContradiction fun hoff =>
        hfiles₃ (hgone cpu ((hknows cpu).mem_gone hfollows₃ hfiles₁ hoff))
    · exact absurd hnone hfiles₃

end Recording
end Profiler
