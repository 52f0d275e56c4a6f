/-
# No reading is lost and none is counted twice

Where events are only counted, a reading moves from a descriptor to its
selection when the descriptor's cpu goes. What a step does to one selection is
one of two things: readings are kept for the descriptors on cpus that have gone
(`Selection.Left`), or descriptors are added that are newer than all before
(`Selection.Entered`). So along a run each descriptor that a selection has ever
had is either still open or has exactly one reading that is kept
(`Session.Tally`), and a report has one entry for each of them.

Key definitions: `Selection.Left`, `Selection.Entered`, `Session.Holds`,
`Session.Saw`, `Host.Counts`, `Session.Tally`, `Session.LastReading`.
Key theorems: `Recording.leaveCpus_counting`, `Recording.enterCpus_counting`,
`Host.Counts.tally`, `Host.Counts.report`.
-/
import Mathlib.Data.List.Forall2
import Profiler.Proofs.Recording.Prepared

namespace Profiler

/-! ### What a step does to a selection -/

namespace Selection

variable {x y z : Selection} {τ τ' : Trace}

/-- The descriptors on these cpus are gone, and the readings of their counters
are kept. -/
def Left (cpus : List Nat) (τ : Trace) (x x' : Selection) : Prop :=
  ∃ gone : List (EventFile × CounterValue),
    x' = { x with
      files := x.files.filter fun f => !cpus.contains f.cpu
      kept := x.kept ++ gone.map fun p => p.1.reading p.2 } ∧
    (gone.map Prod.fst).Perm (x.files.filter fun f => cpus.contains f.cpu) ∧
    ∀ p ∈ gone, .counted p.1.descriptor p.2 ∈ τ

/-- Descriptors have been added, with numbers from one on. -/
def Entered (n : Nat) (x x' : Selection) : Prop :=
  ∃ new, x' = x.add new ∧ ∀ f ∈ new, n ≤ f.descriptor

theorem Left.refl (x : Selection) : x.Left [] [] x := by
  refine ⟨[], ?_, ?_, List.forall_mem_nil _⟩
  · simp
  · simp

theorem Left.cons {cpu : Nat} {cpus : List Nat} (h : x.Left [cpu] τ y) (h' : y.Left cpus τ' z) :
    x.Left (cpu :: cpus) (τ' ++ τ) z := by
  obtain ⟨gone, rfl, hperm, hcounted⟩ := h
  obtain ⟨gone', rfl, hperm', hcounted'⟩ := h'
  refine ⟨gone ++ gone', ?_, ?_, ?_⟩
  · rw [List.filter_filter, List.map_append, List.append_assoc]
    congr 1
    refine List.filter_congr fun f _ => ?_
    simp [Bool.and_comm]
  · rw [List.map_append]
    refine (hperm.append hperm').trans ?_
    have hsplit := List.filter_append_perm (fun f : EventFile => [cpu].contains f.cpu)
      (x.files.filter fun f => (cpu :: cpus).contains f.cpu)
    rw [List.filter_filter, List.filter_filter] at hsplit
    rw [List.filter_filter]
    refine List.Perm.trans (List.Perm.of_eq ?_) hsplit
    congr 1
    · refine List.filter_congr fun f _ => ?_
      by_cases hcpu : f.cpu = cpu <;> simp [hcpu]
    · refine List.filter_congr fun f _ => ?_
      by_cases hcpu : f.cpu = cpu <;> simp [hcpu]
  · rw [List.forall_mem_append]
    exact ⟨fun p hp => List.mem_append_right _ (hcounted p hp),
      fun p hp => List.mem_append_left _ (hcounted' p hp)⟩

theorem Left.mono {cpus : List Nat} (h : x.Left cpus τ y) (hτ : ∀ a ∈ τ, a ∈ τ') :
    x.Left cpus τ' y := by
  obtain ⟨gone, heq, hperm, hcounted⟩ := h
  exact ⟨gone, heq, hperm, fun p hp => hτ _ (hcounted p hp)⟩

theorem Entered.refl (n : Nat) (x : Selection) : x.Entered n x :=
  ⟨[], x.add_nil.symm, List.forall_mem_nil _⟩

theorem Entered.trans {n m : Nat} (h : x.Entered n y) (h' : y.Entered m z) (hle : n ≤ m) :
    x.Entered n z := by
  obtain ⟨new, rfl, hnew⟩ := h
  obtain ⟨new', rfl, hnew'⟩ := h'
  refine ⟨new ++ new', x.add_add new new', ?_⟩
  rw [List.forall_mem_append]
  exact ⟨hnew, fun f hf => Nat.le_trans hle (hnew' f hf)⟩

end Selection

/-! ### Selections one by one -/

section Forall₂

variable {α β γ : Type} {R : α → β → Prop} {S : β → γ → Prop} {T : α → γ → Prop}

theorem forall₂_comp (hT : ∀ a b c, R a b → S b c → T a c) : ∀ {as : List α} {bs : List β}
    {cs : List γ}, List.Forall₂ R as bs → List.Forall₂ S bs cs → List.Forall₂ T as cs
  | _, _, _, .nil, .nil => .nil
  | _, _, _, .cons h hrest, .cons h' hrest' => .cons (hT _ _ _ h h') (forall₂_comp hT hrest hrest')

theorem forall₂_getElem? {as : List α} {bs : List β} (h : List.Forall₂ R as bs) {k : Nat} {b : β}
    (hb : bs[k]? = some b) : ∃ a, as[k]? = some a ∧ R a b := by
  induction h generalizing k with
  | nil => cases hb
  | @cons a _ _ _ hab _ ih =>
    cases k with
    | zero =>
      cases hb
      exact ⟨a, rfl, hab⟩
    | succ k => exact ih hb

end Forall₂

namespace SelectionSet

variable {s : SelectionSet}

/-- Attempts only add descriptors to selections, with new numbers. -/
theorem forall₂_takeAll {change : Attr → Attr} {as : List Attempt} {n : Nat}
    (h : Attempt.Run change s n as) :
    List.Forall₂ (Selection.Entered n) s.selections (s.takeAll as).selections := by
  rw [selections, selections, groups_takeAll h]
  refine List.rel_flatten (List.forall₂_of_length_eq_of_get List.length_mapIdx.symm
    fun g hg hg' => List.forall₂_of_length_eq_of_get ?_ fun k hk hk' => ?_)
  · rw [List.get_eq_getElem, List.get_eq_getElem]
    simp [mapMembers]
  · refine ⟨Attempt.kept g k as, ?_, fun f hf => ?_⟩
    · simp [mapMembers]
    · have hmem := List.mem_map_of_mem (f := EventFile.descriptor)
        (Attempt.mem_allKept_of_mem_kept hf)
      exact (List.mem_range'_1.mp (h.sublist_descriptors.subset hmem)).1

end SelectionSet

theorem Trace.mem_counts {readings : List (EventFile × CounterValue)}
    {p : EventFile × CounterValue} (hp : p ∈ readings) :
    .counted p.1.descriptor p.2 ∈ counts readings :=
  List.mem_reverse.mpr (List.mem_map_of_mem (f := fun p => Happening.counted p.1.descriptor p.2) hp)

/-- Where every counter of a cpu was read and its descriptors are forgotten,
each selection keeps the readings of its own. -/
theorem SelectionSet.forall₂_left {s : SelectionSet} (hdistinct : s.Distinct) {cpu : Nat}
    {values : List CounterValue} (hlength : values.length = (s.filesOn cpu).length) :
    List.Forall₂ (Selection.Left [cpu] (Trace.counts ((s.filesOn cpu).zip values))) s.selections
      ((s.keepAll ((s.filesOn cpu).zip values)).dropFilesOn cpu).selections := by
  rw [keepAll_eq, dropFilesOn, selections_mapSelections, selections_mapSelections, List.map_map,
    List.forall₂_map_right_iff]
  refine List.forall₂_same.mpr fun x hx => ?_
  have hmem : ∀ f ∈ x.files, f ∈ s.files := fun f hf => List.mem_flatMap.mpr ⟨x, hx, hf⟩
  refine ⟨((s.filesOn cpu).zip values).filter fun p =>
    x.files.any (·.descriptor == p.1.descriptor), ?_, ?_, fun p hp => ?_⟩
  · show Selection.mk _ _ _ _ = Selection.mk _ _ _ _
    congr 1
    refine List.filter_congr fun f _ => ?_
    by_cases hcpu : f.cpu = cpu <;> simp [hcpu]
  · have hfirst : (((s.filesOn cpu).zip values).filter fun p =>
        x.files.any (·.descriptor == p.1.descriptor)).map Prod.fst =
        (s.filesOn cpu).filter fun f => x.files.any (·.descriptor == f.descriptor) := by
      have hzip : ((s.filesOn cpu).zip values).map Prod.fst = s.filesOn cpu :=
        List.map_fst_zip (Nat.le_of_eq hlength.symm)
      conv_rhs => rw [← hzip, List.filter_map]
      rfl
    have hnodup : s.files.Nodup := List.Nodup.of_map _ hdistinct
    have hon : (s.filesOn cpu).Nodup := hnodup.filter _
    have hown : x.files.Nodup := (List.nodup_flatMap.mp hnodup).1 x hx
    rw [hfirst]
    refine (List.perm_ext_iff_of_nodup (hon.filter _) (hown.filter _)).mpr fun f => ?_
    rw [List.mem_filter, mem_filesOn, List.any_eq_true, List.mem_filter]
    constructor
    · rintro ⟨⟨hf, hcpu⟩, g, hg, hd⟩
      obtain rfl : g = f := hdistinct.eq (hmem g hg) hf (beq_iff_eq.mp hd)
      exact ⟨hg, by simp [hcpu]⟩
    · rintro ⟨hf, hcpu⟩
      exact ⟨⟨hmem f hf, by simpa using hcpu⟩, f, hf, beq_self_eq_true _⟩
  · exact Trace.mem_counts (List.mem_of_mem_filter hp)

/-! ### Cpus that come and go while events are counted -/

namespace Recording

variable {ω : Type} {host : Host ω}

/-- **Cpus that have gone** leave their readings to the selections. -/
theorem leaveCpus_counting : ∀ {cpus : List Nat} {s s' : Session (Traced ω)}, s.Sound →
    s.set.counting = true → leaveCpus host.traced cpus s = (.ok true, s') →
    s'.Sound ∧ s'.set.counting = true ∧ s'.world.count = s.world.count ∧
      ∃ τ, s'.world.trace = τ ++ s.world.trace ∧
        List.Forall₂ (Selection.Left cpus τ) s.set.selections s'.set.selections
  | [], s, _, hsound, hcounting, h => by
    cases h
    exact ⟨hsound, hcounting, rfl, [], rfl,
      List.forall₂_same.mpr fun x _ => Selection.Left.refl x⟩
  | cpu :: rest, s, s', hsound, hcounting, h => by
    obtain ⟨s₁, s₂, hset₁, hwent₁, hleave, hrest⟩ := leaveCpus_eq_ok h
    have hsound₁ : s₁.Sound :=
      hsound.passed (.of_went hset₁ hwent₁ (by simp [Happening.isOpening]))
    have hsound₂ := keeps_sound_leaveCpu host cpu s₁ hsound₁
    rw [hleave] at hsound₂
    obtain ⟨values, r, s₂', hleave', hcases⟩ :=
      leaveCpu_counting host cpu (s := s₁) (by rw [hset₁]; exact hcounting)
    cases hleave.symm.trans hleave'
    obtain ⟨-, hlength, hset₂, hwent₂⟩ | ⟨⟨e, he⟩, -⟩ := hcases
    · have hcounting₂ : s₂.set.counting = true := by
        rw [hset₂, SelectionSet.keepAll_eq]
        show s₁.set.counting = true
        rw [hset₁]
        exact hcounting
      obtain ⟨hsound', hcounting', hcount', τ, htrace', hleft'⟩ :=
        leaveCpus_counting hsound₂ hcounting₂ hrest
      let readings := (s₁.set.filesOn cpu).zip values
      have hleft : List.Forall₂ (Selection.Left [cpu] (Trace.counts readings)) s.set.selections
          s₂.set.selections := by
        rw [hset₂, ← hset₁]
        exact SelectionSet.forall₂_left hsound₁.distinct hlength
      have hwent := hwent₁.trans hwent₂
      have htrace : s'.world.trace = (τ ++ (Trace.closes (s₁.set.filesOn cpu) ++
          Trace.counts readings ++ [.noted (.cpuOffline cpu)])) ++ s.world.trace := by
        rw [htrace', hwent.trace, ← List.append_assoc]
      refine ⟨hsound', hcounting', hcount'.trans hwent.count, _, htrace,
        forall₂_comp (fun x y z hx hy => (hx.cons hy).mono fun a ha => ?_) hleft hleft'⟩
      rcases List.mem_append.mp ha with ha | ha
      · exact List.mem_append_left _ ha
      · exact List.mem_append_right _ (List.mem_append_left _ (List.mem_append_right _ ha))
    · cases he

/-- **Cpus that have come** add descriptors to the selections. -/
theorem enterCpus_counting : ∀ {cpus : List Nat} {s s' : Session (Traced ω)}, s.Sound →
    s.set.counting = true → enterCpus host.traced cpus s = (.ok true, s') →
    s'.Sound ∧ s'.set.counting = true ∧ s.world.count ≤ s'.world.count ∧
      (∃ τ, s'.world.trace = τ ++ s.world.trace) ∧
      List.Forall₂ (Selection.Entered s.world.count) s.set.selections s'.set.selections
  | [], s, _, hsound, hcounting, h => by
    cases h
    exact ⟨hsound, hcounting, Nat.le_refl _, ⟨[], rfl⟩,
      List.forall₂_same.mpr fun x _ => Selection.Entered.refl _ x⟩
  | cpu :: rest, s, s', hsound, hcounting, h => by
    obtain ⟨s₁, s₂, hset₁, hwent₁, henter, hrest⟩ := enterCpus_eq_ok h
    have hsound₁ : s₁.Sound :=
      hsound.passed (.of_went hset₁ hwent₁ (by simp [Happening.isOpening]))
    have hsound₂ := keeps_sound_enterCpu host cpu s₁ hsound₁
    rw [henter] at hsound₂
    obtain ⟨threads, as, s₃, -, hrun, -, hset₃, hwent₃, hannounce⟩ := enterCpu_eq_ok hsound₁ henter
    obtain ⟨groups, htake⟩ := s₁.set.exists_takeAll_eq as
    have hactivated : activated cpu (s₁.set.takeAll as) = s₁.set.takeAll as := by
      rw [activated_takeAll]
      exact if_pos (hset₁ ▸ hcounting)
    have hcounting₃ : s₃.set.counting = true := by
      rw [hset₃, hactivated, htake]
      exact hset₁ ▸ hcounting
    obtain ⟨-, heq⟩ | ⟨⟨hsampling, -⟩, -⟩ := announce_outcome host cpu s₃
    · cases hannounce.symm.trans heq
      obtain ⟨hsound', hcounting', hcount', ⟨τ, htrace'⟩, hentered'⟩ :=
        enterCpus_counting hsound₂ hcounting₃ hrest
      have hentered : List.Forall₂ (Selection.Entered s.world.count) s.set.selections
          s₃.set.selections := by
        have htaken := SelectionSet.forall₂_takeAll hrun
        rwa [← hactivated, ← hset₃, hset₁, show s₁.world.count = s.world.count from hwent₁.count]
          at htaken
      have hwent := hwent₁.trans hwent₃
      have hle : s.world.count ≤ s₃.world.count := by
        rw [hwent.count]
        exact Nat.le_add_right _ _
      have htrace : s'.world.trace =
          (τ ++ (Attempt.trace as ++ [.noted (.cpuOnline cpu)])) ++ s.world.trace := by
        rw [htrace', List.append_assoc, ← hwent.trace]
      exact ⟨hsound', hcounting', Nat.le_trans hle hcount', ⟨_, htrace⟩,
        forall₂_comp (fun x y z hx hy => hx.trans hy hle) hentered hentered'⟩
    · rw [hcounting₃] at hsampling
      cases hsampling

/-- **A turn while events are counted:** readings are kept for the cpus that
have gone, and then descriptors are added. -/
theorem followCpus_counting {s s' : Session (Traced ω)} (hsound : s.Sound)
    (hcounting : s.set.counting = true) (h : followCpus host.traced s = (.ok true, s')) :
    s'.Sound ∧ s'.set.counting = true ∧ s.world.count ≤ s'.world.count ∧
      ∃ cpus τ, s'.world.trace = τ ++ s.world.trace ∧ List.Forall₂ (fun x x' =>
        ∃ y, Selection.Left cpus τ x y ∧ y.Entered s.world.count x')
          s.set.selections s'.set.selections := by
  obtain ⟨online, s₁, s₂, s₃, -, hset₁, hwent₁, hleave, henter, rfl⟩ := followCpus_eq_ok h
  have hsound₁ : s₁.Sound := hsound.passed (.of_went hset₁ hwent₁ (List.forall_mem_nil _))
  obtain ⟨hsound₂, hcounting₂, hcount₂, τ, htrace₂, hleft⟩ :=
    leaveCpus_counting hsound₁ (hset₁ ▸ hcounting) hleave
  obtain ⟨hsound₃, hcounting₃, hcount₃, ⟨τ', htrace₃⟩, hentered⟩ :=
    enterCpus_counting hsound₂ hcounting₂ henter
  have hcount : s₂.world.count = s.world.count := hcount₂.trans hwent₁.count
  refine ⟨hsound₃.passed ⟨rfl, rfl, rfl, [], List.forall_mem_nil _, rfl⟩, hcounting₃,
    hcount ▸ hcount₃, s.set.gone online, τ' ++ τ, ?_, ?_⟩
  · show s₃.world.trace = _
    rw [htrace₃, htrace₂, hwent₁.trace, List.nil_append, List.append_assoc]
  · rw [hset₁] at hleft
    rw [hcount] at hentered
    exact forall₂_comp (fun x y z hx hy => ⟨y, hx.mono fun a ha => List.mem_append_right _ ha, hy⟩)
      hleft hentered

end Recording

/-! ### Runs -/

namespace Session

variable {ω : Type}

def Holds (s : Session (Traced ω)) (k : Nat) (f : EventFile) : Prop :=
  ∃ x, s.set.selections[k]? = some x ∧ f ∈ x.files

/-- It has happened from one session to the other. -/
def Saw (s s' : Session (Traced ω)) (x : Happening) : Prop :=
  ∃ τ, s'.world.trace = τ ++ s.world.trace ∧ x ∈ τ

/-- The reading was taken by the step in which a selection lost its
descriptor. -/
def ReadAtLast (visited : List (Session (Traced ω))) (k : Nat) (p : EventFile × CounterValue) :
    Prop :=
  ∃ u u', [u', u] <:+: visited ∧ u.Holds k p.1 ∧ ¬ u'.Holds k p.1 ∧
    u.Saw u' (.counted p.1.descriptor p.2)

/-- The readings that a selection has kept and its open descriptors, together,
are all the descriptors that it has ever had, once each. -/
structure Tally (visited : List (Session (Traced ω))) (count k : Nat) (x : Selection)
    (gone : List (EventFile × CounterValue)) : Prop where
  kept : x.kept = gone.map fun p => p.1.reading p.2
  held : ∀ f, f ∈ gone.map Prod.fst ++ x.files ↔ ∃ u ∈ visited, u.Holds k f
  distinct : ((gone.map Prod.fst ++ x.files).map EventFile.descriptor).Nodup
  below : ∀ f ∈ gone.map Prod.fst ++ x.files, f.descriptor < count
  dropped : ∀ p ∈ gone, ReadAtLast visited k p

end Session

/-- Whether a call only enables, disables or reads descriptors. -/
def Recording.Call.observes : Recording.Call → Bool
  | enableEvents | disableEvents | readCounters => true
  | _ => false

/-- The sessions that a recording goes through, the last first, while events
are only counted: the cpus are followed, which succeeds each time, and anything
else may happen that opens and closes no descriptors. -/
inductive Host.Counts {ω : Type} (host : Host ω) : List (Session (Traced ω)) → Prop where
  | ready {cpus : List Nat} {s : Session (Traced ω)} (h : host.Ready cpus s)
      (hcounting : s.set.counting = true) : Counts host [s]
  | followed {s s' : Session (Traced ω)} {past : List (Session (Traced ω))}
      (h : Counts host (s :: past))
      (hok : Recording.followCpus host.traced s = (.ok true, s')) : Counts host (s' :: s :: past)
  | call {s : Session (Traced ω)} {past : List (Session (Traced ω))} (h : Counts host (s :: past))
      (c : Recording.Call) (hc : c.observes = true) :
      Counts host ((c.run host.traced s).2 :: s :: past)
  | outside {s : Session (Traced ω)} {past : List (Session (Traced ω))}
      (h : Counts host (s :: past)) (world : ω) (loop : EventLoop RecordingTask) :
      Counts host ({ s with loop, world := { s.world with world } } :: s :: past)

namespace Session

variable {ω : Type} {visited : List (Session (Traced ω))} {s s' : Session (Traced ω)}
  {count count' k : Nat} {x x' : Selection} {gone : List (EventFile × CounterValue)}

theorem ReadAtLast.cons {p : EventFile × CounterValue} (h : ReadAtLast visited k p)
    (s : Session (Traced ω)) : ReadAtLast (s :: visited) k p := by
  obtain ⟨u, u', hnext, hrest⟩ := h
  exact ⟨u, u', hnext.trans (List.suffix_cons s visited).isInfix, hrest⟩

theorem Tally.same (h : Tally (s :: visited) count k x gone) (hset : s'.set = s.set) :
    Tally (s' :: s :: visited) count k x gone := by
  refine ⟨h.kept, fun f => (h.held f).trans ?_, h.distinct, h.below, fun p hp =>
    (h.dropped p hp).cons s'⟩
  have hsame : s'.Holds k f ↔ s.Holds k f := by rw [Holds, Holds, hset]
  simp only [List.mem_cons, exists_eq_or_imp, hsame, or_self_left]

theorem holds_iff (hx : s.set.selections[k]? = some x) (f : EventFile) :
    s.Holds k f ↔ f ∈ x.files := by
  rw [Holds, hx]
  exact ⟨fun ⟨_, heq, hf⟩ => by cases heq; exact hf, fun hf => ⟨x, rfl, hf⟩⟩

theorem Sound.nodup_descriptors (hsound : s.Sound) (hx : s.set.selections[k]? = some x) :
    (x.files.map EventFile.descriptor).Nodup := by
  have hdistinct := hsound.distinct
  rw [SelectionSet.files, List.map_flatMap] at hdistinct
  exact (List.nodup_flatMap.mp hdistinct).1 x (List.mem_of_getElem? hx)

/-- The descriptors that were there are those that have gone and those that
stay. -/
theorem perm_turn {cpus : List Nat} {files new : List EventFile}
    {now : List (EventFile × CounterValue)}
    (hnow : (now.map Prod.fst).Perm (files.filter fun f => cpus.contains f.cpu)) :
    ((gone ++ now).map Prod.fst ++ ((files.filter fun f => !cpus.contains f.cpu) ++ new)).Perm
      (gone.map Prod.fst ++ files ++ new) := by
  have hsplit : (now.map Prod.fst ++ files.filter fun f => !cpus.contains f.cpu).Perm files :=
    (hnow.append_right _).trans (List.filter_append_perm _ files)
  rw [List.map_append, List.append_assoc, ← List.append_assoc (now.map Prod.fst),
    List.append_assoc (gone.map Prod.fst)]
  exact (hsplit.append_right new).append_left _

/-- **A turn of the cpus:** what was dropped has a reading now, and what came is
new. -/
theorem Tally.turn (h : Tally (s :: visited) s.world.count k x gone) {cpus : List Nat} {τ : Trace}
    {y : Selection} (hx : s.set.selections[k]? = some x) (hx' : s'.set.selections[k]? = some x')
    (hleft : x.Left cpus τ y) (hentered : y.Entered s.world.count x')
    (htrace : s'.world.trace = τ ++ s.world.trace) (hcount : s.world.count ≤ s'.world.count)
    (hsound : s'.Sound) : ∃ gone', Tally (s' :: s :: visited) s'.world.count k x' gone' := by
  obtain ⟨now, rfl, hperm, hcounted⟩ := hleft
  obtain ⟨new, rfl, hnew⟩ := hentered
  let stay := x.files.filter fun f => !cpus.contains f.cpu
  have hholds : ∀ f, s.Holds k f ↔ f ∈ x.files := holds_iff hx
  have hholds' : ∀ f, s'.Holds k f ↔ f ∈ stay ++ new := holds_iff hx'
  have hall : ((gone ++ now).map Prod.fst ++ (stay ++ new)).Perm
      (gone.map Prod.fst ++ x.files ++ new) := perm_turn hperm
  have hbelow : ∀ f ∈ new, f.descriptor < s'.world.count := fun f hf =>
    hsound.below f (List.mem_flatMap.mpr
      ⟨_, List.mem_of_getElem? hx', List.mem_append_right stay hf⟩)
  have hfresh : (new.map EventFile.descriptor).Nodup := by
    have hfiles : ((stay ++ new).map EventFile.descriptor).Nodup := hsound.nodup_descriptors hx'
    rw [List.map_append] at hfiles
    exact (List.nodup_append.mp hfiles).2.1
  refine ⟨gone ++ now, ?_, fun f => ?_, ?_, fun f hf => ?_, fun p hp => ?_⟩
  · show x.kept ++ _ = _
    rw [h.kept, List.map_append]
  · refine (hall.mem_iff.trans List.mem_append).trans ⟨?_, ?_⟩
    · rintro (hold | hcame)
      · obtain ⟨u, hu, hheld⟩ := (h.held f).mp hold
        exact ⟨u, List.mem_cons_of_mem _ hu, hheld⟩
      · exact ⟨s', List.mem_cons_self, (hholds' f).mpr (List.mem_append_right _ hcame)⟩
    · rintro ⟨u, hu, hheld⟩
      rcases List.mem_cons.mp hu with rfl | hu
      · rcases List.mem_append.mp ((hholds' f).mp hheld) with hstay | hcame
        · exact .inl (List.mem_append_right _ (List.mem_of_mem_filter hstay))
        · exact .inr hcame
      · exact .inl ((h.held f).mpr ⟨u, hu, hheld⟩)
  · refine (hall.map _).nodup_iff.mpr ?_
    rw [List.map_append]
    refine List.nodup_append.mpr ⟨h.distinct, hfresh, fun d hd d' hd' => ?_⟩
    obtain ⟨f, hf, rfl⟩ := List.mem_map.mp hd
    obtain ⟨f', hf', rfl⟩ := List.mem_map.mp hd'
    exact Nat.ne_of_lt (Nat.lt_of_lt_of_le (h.below f hf) (hnew f' hf'))
  · rcases List.mem_append.mp (hall.mem_iff.mp hf) with hf | hf
    · exact Nat.lt_of_lt_of_le (h.below f hf) hcount
    · exact hbelow f hf
  · rcases List.mem_append.mp hp with hp | hp
    · exact (h.dropped p hp).cons s'
    · obtain ⟨hfile, hon⟩ := List.mem_filter.mp (hperm.mem_iff.mp (List.mem_map_of_mem hp))
      refine ⟨s, s', List.infix_append' [] [s', s] visited, (hholds p.1).mpr hfile, fun hheld => ?_,
        τ, htrace, hcounted p hp⟩
      rcases List.mem_append.mp ((hholds' p.1).mp hheld) with hstay | hcame
      · have hoff := (List.mem_filter.mp hstay).2
        rw [hon] at hoff
        cases hoff
      · exact Nat.not_lt_of_le (hnew p.1 hcame) (h.below p.1 (List.mem_append_right _ hfile))

end Session

namespace Recording

open Effect (Leaves Keeps)

variable {ω : Type} {host : Host ω}

/-- What only enables, disables or reads descriptors changes nothing that is
known of them, and opens none. -/
theorem leaves_observes (host : Host ω) {c : Call} (hc : c.observes = true) :
    Leaves (fun s : Session (Traced ω) => (s.set, s.world.count)) (c.run host.traced) := by
  have hquiet := host.quiet_traced.of fun v => (v.1, v.2.2.1)
  have hread : ∀ d, Leaves (fun s : Session (Traced ω) => (s.set, s.world.count))
      (outside (host.traced.readCounter d)) := fun d s => by
    rcases readCounter_outcome host d s with ⟨_, s', heq, hset, hwent⟩ | ⟨_, s', heq, hset, hwent⟩
    · rw [heq]
      exact Prod.ext hset hwent.count
    · rw [heq]
      exact Prod.ext hset hwent.count
  cases c with
  | enableEvents => exact leaves_getSet.bind fun _ => leaves_forFiles hquiet.enable _
  | disableEvents => exact leaves_getSet.bind fun _ => leaves_forFiles hquiet.disable _
  | readCounters =>
    refine Leaves.bind ?_ fun _ => Effect.leaves_pure ()
    exact Effect.leaves_iff.mpr fun v => keeps_readCounters fun d =>
      Effect.leaves_iff.mp (hread d) v
  | _ => cases hc

end Recording

/-- **Each descriptor that a selection has ever had is open or has one reading
that is kept.** -/
theorem Host.Counts.tally {ω : Type} {host : Host ω} {s : Session (Traced ω)}
    {past : List (Session (Traced ω))} (h : host.Counts (s :: past)) :
    s.Sound ∧ s.set.counting = true ∧ ∀ k x, s.set.selections[k]? = some x →
      ∃ gone, Session.Tally (s :: past) s.world.count k x gone := by
  generalize hvisited : s :: past = visited at h
  induction h generalizing s past with
  | @ready cpus s₀ hready hcounting =>
    cases hvisited
    have hfresh := hready.prepared.1
    refine ⟨hfresh.sound, hcounting, fun k x hx => ⟨[], ?_, fun f => ?_, ?_, fun f hf => ?_,
      List.forall_mem_nil _⟩⟩
    · exact hfresh.kept x (List.mem_of_getElem? hx)
    · simp only [List.map_nil, List.nil_append, List.mem_singleton, exists_eq_left,
        Session.holds_iff hx f]
    · exact hfresh.sound.nodup_descriptors hx
    · exact hfresh.sound.below f (List.mem_flatMap.mpr ⟨x, List.mem_of_getElem? hx, hf⟩)
  | @followed s₀ s' past' h hok ih =>
    cases hvisited
    obtain ⟨hsound, hcounting, htally⟩ := ih rfl
    obtain ⟨hsound', hcounting', hcount, cpus, τ, htrace, hselections⟩ :=
      Recording.followCpus_counting hsound hcounting hok
    refine ⟨hsound', hcounting', fun k x' hx' => ?_⟩
    obtain ⟨x, hx, y, hleft, hentered⟩ := forall₂_getElem? hselections hx'
    obtain ⟨gone, hgone⟩ := htally k x hx
    exact hgone.turn hx hx' hleft hentered htrace hcount hsound'
  | @call s₀ past' h c hc ih =>
    cases hvisited
    obtain ⟨hsound, hcounting, htally⟩ := ih rfl
    obtain ⟨hset, hcount⟩ := Prod.mk.inj (Recording.leaves_observes host hc s₀)
    refine ⟨c.keeps_sound host s₀ hsound, by rw [hset]; exact hcounting, fun k x hx => ?_⟩
    rw [hset] at hx
    obtain ⟨gone, hgone⟩ := htally k x hx
    exact ⟨gone, hcount ▸ hgone.same hset⟩
  | @outside s₀ past' h world loop ih =>
    cases hvisited
    obtain ⟨hsound, hcounting, htally⟩ := ih rfl
    refine ⟨hsound.passed ⟨rfl, rfl, rfl, [], List.forall_mem_nil _, rfl⟩, hcounting,
      fun k x hx => ?_⟩
    obtain ⟨gone, hgone⟩ := htally k x hx
    exact ⟨gone, hgone.same rfl⟩

/-! ### Reports -/

namespace Recording

variable {ω : Type} {host : Host ω}

theorem readFiles_eq_ok : ∀ {files : List EventFile} {s s' : Session (Traced ω)}
    {infos : List CounterInfo}, readFiles host.traced files s = (.ok infos, s') →
    ∃ values, values.length = files.length ∧
      infos = (files.zip values).map (fun p => p.1.reading p.2) ∧
      s.Went s' 0 (Trace.counts (files.zip values))
  | [], s, _, _, h => by
    cases h
    exact ⟨[], rfl, rfl, Session.Went.refl s⟩
  | file :: rest, s, s', _, h => by
    rw [readFiles] at h
    obtain ⟨value, s₁, hread, h⟩ := Effect.bind_eq_ok h
    obtain ⟨infos, s₂, hrest, h⟩ := Effect.bind_eq_ok h
    cases h
    obtain ⟨values, hlength, rfl, hwent⟩ := readFiles_eq_ok hrest
    rcases readCounter_outcome host file.descriptor s with
      ⟨value', s₁', heq, -, hwent₁⟩ | ⟨e, s₁', heq, -⟩
    · cases hread.symm.trans heq
      refine ⟨value :: values, by rw [List.length_cons, hlength, List.length_cons], rfl, ?_⟩
      rw [List.zip_cons_cons, Trace.counts_cons]
      exact hwent₁.trans hwent
    · cases hread.symm.trans heq

/-- The report of a selection: what it has kept, and the counters of its
descriptors as they were read now. -/
def Reported (τ : Trace) (x : Nat × Selection) (report : CounterReport) : Prop :=
  ∃ values, values.length = x.2.files.length ∧ report = {
      group := x.1
      event := x.2.event.eventType.name
      modifier := x.2.event.modifier
      counters := x.2.kept ++ (x.2.files.zip values).map fun p => p.1.reading p.2 } ∧
    ∀ p ∈ x.2.files.zip values, .counted p.1.descriptor p.2 ∈ τ

theorem Reported.mono {τ τ' : Trace} (hτ : ∀ a ∈ τ, a ∈ τ') {x : Nat × Selection}
    {report : CounterReport} (h : Reported τ x report) : Reported τ' x report := by
  obtain ⟨values, hlength, heq, hcounted⟩ := h
  exact ⟨values, hlength, heq, fun p hp => hτ _ (hcounted p hp)⟩

theorem readSelections_eq_ok : ∀ {xs : List (Nat × Selection)} {s s' : Session (Traced ω)}
    {reports : List CounterReport}, readSelections host.traced xs s = (.ok reports, s') →
    ∃ τ, s'.world.trace = τ ++ s.world.trace ∧ List.Forall₂ (Reported τ) xs reports
  | [], s, _, _, h => by
    cases h
    exact ⟨[], rfl, .nil⟩
  | (group, x) :: rest, s, s', _, h => by
    rw [readSelections] at h
    obtain ⟨infos, s₁, hread, h⟩ := Effect.bind_eq_ok h
    obtain ⟨reports, s₂, hrest, h⟩ := Effect.bind_eq_ok h
    cases h
    obtain ⟨values, hlength, rfl, hwent⟩ := readFiles_eq_ok hread
    obtain ⟨τ, htrace, hreported⟩ := readSelections_eq_ok hrest
    refine ⟨τ ++ Trace.counts (x.files.zip values), ?_, .cons ?_ ?_⟩
    · rw [htrace, hwent.trace, List.append_assoc]
    · exact ⟨values, hlength, rfl, fun p hp => List.mem_append_right _ (Trace.mem_counts hp)⟩
    · exact hreported.imp fun _ _ => Reported.mono fun a ha => List.mem_append_left _ ha

/-- Reports come in the order of the selections. -/
theorem readCounters_eq_ok {s s' : Session (Traced ω)} {reports : List CounterReport}
    (h : readCounters host.traced s = (.ok reports, s')) :
    ∃ τ, s'.world.trace = τ ++ s.world.trace ∧
      List.Forall₂ (fun x report => ∃ group, Reported τ (group, x) report) s.set.selections
        reports := by
  rw [readCounters, getSet_bind] at h
  obtain ⟨τ, htrace, hreported⟩ := readSelections_eq_ok h
  have hselections : (s.set.groups.zipIdx.flatMap fun p => p.1.map fun x => (p.2, x)).map
      Prod.snd = s.set.selections := by
    rw [List.map_flatMap, SelectionSet.selections]
    simp only [List.map_map, Function.comp_def, List.map_id']
    rw [List.flatMap_def, List.zipIdx_map_fst]
  refine ⟨τ, htrace, ?_⟩
  rw [← hselections, List.forall₂_map_left_iff]
  exact hreported.imp fun x _ h => ⟨x.1, h⟩

end Recording

/-- A part of a total is the sum of that part, as words add. -/
theorem CounterReport.toNat_total {part : CounterValue → UInt64}
    (hadd : ∀ a b, part (a.add b) = part a + part b) (hzero : part {} = 0) (r : CounterReport) :
    (part r.total).toNat =
      r.counters.foldl (fun n c => n + (part c.counter).toNat) 0 % UInt64.size := by
  have hfold : ∀ (l : List CounterInfo) (v : CounterValue) (n : Nat),
      (part v).toNat = n % UInt64.size →
      (part (l.foldl (fun sum c => sum.add c.counter) v)).toNat =
        l.foldl (fun n c => n + (part c.counter).toNat) n % UInt64.size := by
    intro l
    induction l with
    | nil => exact fun _ _ h => h
    | cons c rest ih =>
      intro v n hv
      refine ih _ _ ?_
      rw [hadd, UInt64.toNat_add, hv]
      exact Nat.mod_add_mod _ _ _
  exact hfold r.counters {} 0 (by rw [hzero]; rfl)

/-! ### What a report is about -/

/-- A reading of a descriptor that a selection has had: its current one or, if
the selection has lost it, the one that was taken then. -/
structure Session.LastReading {ω : Type} (s s' : Session (Traced ω))
    (past : List (Session (Traced ω))) (k : Nat) (p : EventFile × CounterValue) : Prop where
  current : s.Holds k p.1 → s.Saw s' (.counted p.1.descriptor p.2)
  last : ¬ s.Holds k p.1 → Session.ReadAtLast (s :: past) k p

/-- **A report has one entry for each descriptor that its selection has ever
had,** with its last reading, whatever cpus have come and gone, and its total is
the sum of these readings. -/
theorem Host.Counts.report {ω : Type} {host : Host ω} {s s' : Session (Traced ω)}
    {past : List (Session (Traced ω))} {reports : List CounterReport}
    (h : host.Counts (s :: past))
    (hread : Recording.readCounters host.traced s = (.ok reports, s')) :
    reports.length = s.set.selections.length ∧
    ∀ (k : Nat) (report : CounterReport), reports[k]? = some report →
      ∃ (x : Selection) (entries : List (EventFile × CounterValue)),
      s.set.selections[k]? = some x ∧ report.event = x.event.eventType.name ∧
      report.modifier = x.event.modifier ∧
      report.counters = entries.map (fun p => p.1.reading p.2) ∧
      (entries.map fun p => p.1.descriptor).Nodup ∧
      (∀ f, f ∈ entries.map Prod.fst ↔ ∃ u ∈ s :: past, u.Holds k f) ∧
      (∀ p ∈ entries, s.LastReading s' past k p) ∧
      ∀ part ∈ [CounterValue.value, CounterValue.timeEnabled, CounterValue.timeRunning],
        (part report.total).toNat =
          entries.foldl (fun n p => n + (part p.2).toNat) 0 % UInt64.size := by
  obtain ⟨τ, htrace, hreports⟩ := Recording.readCounters_eq_ok hread
  refine ⟨hreports.length_eq.symm, fun k report hk => ?_⟩
  obtain ⟨x, hx, group, values, hlength, rfl, hcounted⟩ := forall₂_getElem? hreports hk
  obtain ⟨-, -, htally⟩ := h.tally
  obtain ⟨gone, hgone⟩ := htally k x hx
  have hfirst : (gone ++ x.files.zip values).map Prod.fst = gone.map Prod.fst ++ x.files := by
    rw [List.map_append, List.map_fst_zip (Nat.le_of_eq hlength.symm)]
  have hcounters : x.kept ++ (x.files.zip values).map (fun p => p.1.reading p.2) =
      (gone ++ x.files.zip values).map fun p => p.1.reading p.2 := by
    rw [hgone.kept, List.map_append]
  have hdistinct := hgone.distinct
  rw [← hfirst, List.map_map] at hdistinct
  refine ⟨x, gone ++ x.files.zip values, hx, rfl, rfl, hcounters, hdistinct,
    fun f => hfirst ▸ hgone.held f, fun p hp => ⟨fun hheld => ?_, fun hlost => ?_⟩,
    fun part hpart => ?_⟩
  · rcases List.mem_append.mp hp with hp | hp
    · have hopen := (Session.holds_iff hx p.1).mp hheld
      have hnodup := hgone.distinct
      rw [List.map_append] at hnodup
      exact absurd rfl ((List.nodup_append.mp hnodup).2.2 p.1.descriptor
        (List.mem_map_of_mem (List.mem_map_of_mem hp)) p.1.descriptor (List.mem_map_of_mem hopen))
    · exact ⟨τ, htrace, hcounted p hp⟩
  · rcases List.mem_append.mp hp with hp | hp
    · exact hgone.dropped p hp
    · exact absurd ((Session.holds_iff hx p.1).mpr (List.of_mem_zip hp).1) hlost
  · have hsum : ∀ part : CounterValue → UInt64,
        (gone ++ x.files.zip values).foldl (fun n p => n + (part p.2).toNat) 0 =
          (x.kept ++ (x.files.zip values).map fun p => p.1.reading p.2).foldl
            (fun n c => n + (part c.counter).toNat) 0 := fun part => by
      rw [hcounters, List.foldl_map]
      rfl
    rw [hsum]
    simp only [List.mem_cons, List.not_mem_nil, or_false] at hpart
    rcases hpart with rfl | rfl | rfl <;>
      exact CounterReport.toNat_total (fun _ _ => rfl) rfl _

/-- The second cpu goes and comes back: the reading of descriptor 1, which it
has lost, stands before those of 0 and 2, which are open. -/
theorem Host.Counts.report_back_online :
    let host := MemoryKernel.host
    let chosen := MemoryKernel.chosen true ["cpu-cycles"] {}
    let opened := (Recording.openEvents host.traced [] chosen).2
    let watched := ((Recording.Call.watchCpus [] 1000).run host.traced opened).2
    let parting := MemoryKernel.ruled { online := [0] } watched
    let gone := (Recording.followCpus host.traced parting).2
    let returning := MemoryKernel.ruled { online := [0, 1] } gone
    let back := (Recording.followCpus host.traced returning).2
    let visited := [back, returning, gone, parting, watched]
    host.Counts visited ∧
      ∃ reports s', Recording.readCounters host.traced back = (.ok reports, s') ∧
      reports.map (fun r => r.counters.map fun c => c.counter.value) = [[20, 10, 30]] ∧
      ∀ report, reports[0]? = some report → ∃ entries : List (EventFile × CounterValue),
        report.counters = entries.map (fun p => p.1.reading p.2) ∧
        (entries.map fun p => p.1.descriptor).Nodup ∧
        ∀ f, f ∈ entries.map Prod.fst ↔ ∃ u ∈ visited, u.Holds 0 f := by
  intro host chosen opened watched parting gone returning back visited
  have hunopened : chosen.Unopened := Session.unopened_of_nil (by decide +kernel)
    (by decide +kernel) (by decide +kernel)
  have honline : (host.onlineCpus chosen.world.world).1 = .ok [0, 1] := by decide +kernel
  have hopened : (Recording.openEvents host.traced [] chosen).1 = .ok () := by decide +kernel
  have hcounting : watched.set.counting = true := by decide +kernel
  have hgone : (Recording.followCpus host.traced parting).1 = .ok true := by decide +kernel
  have hback : (Recording.followCpus host.traced returning).1 = .ok true := by decide +kernel
  have hvalues : (Recording.readCounters host.traced back).1.map (fun reports =>
      reports.map fun r => r.counters.map fun c => c.counter.value) = .ok [[20, 10, 30]] := by
    decide +kernel
  have hready : host.Ready [0, 1] watched :=
    .call (MemoryKernel.ready_chosen hunopened honline hopened) _ rfl
  clear_value watched
  have hfirst : host.Counts [parting, watched] := .outside (.ready hready hcounting) _ _
  have hsecond : host.Counts [gone, parting, watched] := .followed hfirst (Prod.ext hgone rfl)
  clear_value gone
  have hvisited : host.Counts visited :=
    .followed (.outside hsecond _ _) (Prod.ext hback rfl)
  obtain ⟨reports, hread⟩ :
      ∃ reports, (Recording.readCounters host.traced back).1 = .ok reports := by
    revert hvalues
    cases (Recording.readCounters host.traced back).1 with
    | ok reports => exact fun _ => ⟨reports, rfl⟩
    | error e => exact fun h => nomatch h
  rw [hread] at hvalues
  refine ⟨hvisited, reports, _, Prod.ext hread rfl, Except.ok.inj hvalues, fun report hreport => ?_⟩
  obtain ⟨-, hall⟩ := hvisited.report (Prod.ext hread rfl)
  obtain ⟨x, entries, -, -, -, hcounters, hdistinct, hheld, -⟩ := hall 0 report hreport
  exact ⟨entries, hcounters, hdistinct, hheld⟩

end Profiler
