/-
# Groups that are opened

A group is tried on a thread and cpu. Its members are opened one after the
other, with numbers in a row, and the first leads the others; if one is
refused, those before it are closed and nothing is kept (`Attempt`). What a set
keeps of a run of attempts, and how its descriptors were opened, can be read
off the run.

Key definitions: `EventFile.members`, `Attempt`, `Attempt.taken`,
`Attempt.happenings`, `Attempt.Run`, `Attempt.kept`, `SelectionSet.takeAll`.
Key theorems: `SelectionSet.groups_takeAll`, `SelectionSet.files_takeAll`,
`Attempt.Run.opening?`, `Attempt.Run.sublist_descriptors`.
-/
import Profiler.Proofs.Recording.Traced

namespace Profiler

/-! ### Members of a group -/

/-- Descriptors for members of a group, with numbers from one on. The first of
all leads the others. -/
def EventFile.members (tid : Pid) (cpu : Nat) :
    Descriptor → (leader? : Option Descriptor) → (ids : List UInt64) → List EventFile
  | _, _, [] => []
  | d, leader?, id :: ids =>
    { descriptor := d, id, tid, cpu, leader? } :: members tid cpu (d + 1) (leader?.or (some d)) ids

/-- What happened when descriptors were opened, one for each of the attrs. -/
def Trace.opens (files : List EventFile) (attrs : List Attr) : Trace :=
  (files.zipWith (fun f attr => .opened f.descriptor f.id attr f.tid f.cpu f.leader?) attrs).reverse

/-- What happens when descriptors are closed in turn. -/
def Trace.closes (files : List EventFile) : Trace :=
  (files.map fun f => .closed f.descriptor).reverse

theorem Trace.opens_cons (f : EventFile) (files : List EventFile) (attr : Attr)
    (attrs : List Attr) : opens (f :: files) (attr :: attrs) =
      opens files attrs ++ [.opened f.descriptor f.id attr f.tid f.cpu f.leader?] := by
  rw [opens, List.zipWith_cons_cons, List.reverse_cons]
  rfl

theorem Trace.closes_cons (f : EventFile) (files : List EventFile) :
    closes (f :: files) = closes files ++ [.closed f.descriptor] := by
  rw [closes, List.map_cons, List.reverse_cons]
  rfl

/-- What is so of everything that opens a descriptor is so of what happens when
descriptors are opened in turn. -/
theorem Trace.forall_mem_opens {p : Happening → Prop}
    (hp : ∀ d id attr tid cpu leader?, p (.opened d id attr tid cpu leader?))
    (files : List EventFile) (attrs : List Attr) : ∀ x ∈ opens files attrs, p x := by
  intro x hx
  rw [opens, List.mem_reverse, ← List.map_uncurry_zip_eq_zipWith] at hx
  obtain ⟨q, -, rfl⟩ := List.mem_map.mp hx
  exact hp _ _ _ _ _ _

theorem Trace.forall_mem_closes {p : Happening → Prop} (hp : ∀ d, p (.closed d))
    (files : List EventFile) : ∀ x ∈ closes files, p x := by
  intro x hx
  rw [closes, List.mem_reverse] at hx
  obtain ⟨f, -, rfl⟩ := List.mem_map.mp hx
  exact hp f.descriptor

namespace EventFile

variable {tid : Pid} {cpu : Nat} {d : Descriptor} {leader? : Option Descriptor} {ids : List UInt64}

theorem length_members : (members tid cpu d leader? ids).length = ids.length := by
  induction ids generalizing d leader? with
  | nil => rfl
  | cons id ids ih => rw [members, List.length_cons, ih, List.length_cons]

theorem descriptors_members :
    (members tid cpu d leader? ids).map descriptor = List.range' d ids.length := by
  induction ids generalizing d leader? with
  | nil => rfl
  | cons id ids ih => rw [members, List.map_cons, ih, List.length_cons, List.range'_succ]

theorem of_mem_members {f : EventFile} (h : f ∈ members tid cpu d leader? ids) :
    f.tid = tid ∧ f.cpu = cpu ∧ f.unmapped = f := by
  induction ids generalizing d leader? with
  | nil => exact absurd h List.not_mem_nil
  | cons id ids ih =>
    rcases List.mem_cons.mp h with rfl | h
    · exact ⟨rfl, rfl, rfl⟩
    · exact ih h

theorem leader?_of_mem_members {leader : Descriptor} {f : EventFile}
    (h : f ∈ members tid cpu d (some leader) ids) : f.leader? = some leader := by
  induction ids generalizing d with
  | nil => exact absurd h List.not_mem_nil
  | cons id ids ih =>
    rcases List.mem_cons.mp h with rfl | h
    · rfl
    · exact ih h

end EventFile

/-! ### Attempts -/

/-- A group was tried on a thread and cpu. -/
structure Attempt where
  group : Nat
  tid : Pid
  cpu : Nat
  /-- The attrs that the members were to be opened with. -/
  attrs : List Attr
  /-- The number of the first descriptor. -/
  first : Descriptor
  /-- The ids of the members that were opened. -/
  ids : List UInt64
  /-- What was noted when one was refused. -/
  notes : List Notice := []

namespace Attempt

def target (a : Attempt) : Nat × Pid × Nat := (a.group, a.tid, a.cpu)

theorem cpu_eq_of_targets {as : List Attempt} {ps : List (Nat × Pid)} {cpu : Nat}
    (h : as.map target = ps.map fun p => (p.1, p.2, cpu)) : ∀ a ∈ as, a.cpu = cpu := by
  intro a ha
  have htarget : a.target ∈ as.map target := List.mem_map_of_mem ha
  rw [h] at htarget
  obtain ⟨p, -, heq⟩ := List.mem_map.mp htarget
  exact (Prod.mk.inj (Prod.mk.inj heq).2).2.symm

def files (a : Attempt) : List EventFile := EventFile.members a.tid a.cpu a.first none a.ids

def taken (a : Attempt) : Bool := a.ids.length == a.attrs.length

/-- What happened, the last first: if a member was refused, the others were
closed. -/
def happenings (a : Attempt) : Trace :=
  if a.taken then Trace.opens a.files a.attrs
  else a.notes.map .noted ++ Trace.closes a.files ++
    .refused (a.attrs.getD a.ids.length {}) a.tid a.cpu (a.files.head?.map EventFile.descriptor) ::
      Trace.opens a.files a.attrs

def count : List Attempt → Nat
  | [] => 0
  | a :: as => a.ids.length + count as

/-- What happened in one attempt after the other, the last first. -/
def trace : List Attempt → Trace
  | [] => []
  | a :: as => trace as ++ a.happenings

theorem count_append (as bs : List Attempt) : count (as ++ bs) = count as + count bs := by
  induction as with
  | nil => exact (Nat.zero_add _).symm
  | cons a as ih => rw [List.cons_append, count, ih, count, Nat.add_assoc]

theorem trace_append (as bs : List Attempt) : trace (as ++ bs) = trace bs ++ trace as := by
  induction as with
  | nil => exact (List.append_nil _).symm
  | cons a as ih => rw [List.cons_append, trace, ih, trace, List.append_assoc]

/-- What is so of everything that opens, refuses, closes or notes is so of what
happens in attempts. -/
theorem forall_mem_trace {p : Happening → Prop}
    (hopened : ∀ d id attr tid cpu leader?, p (.opened d id attr tid cpu leader?))
    (hrefused : ∀ attr tid cpu leader?, p (.refused attr tid cpu leader?))
    (hclosed : ∀ d, p (.closed d)) (hnoted : ∀ n, p (.noted n)) (as : List Attempt) :
    ∀ x ∈ trace as, p x := by
  induction as with
  | nil => exact List.forall_mem_nil _
  | cons a as ih =>
    have hopens : ∀ x ∈ Trace.opens a.files a.attrs, p x :=
      Trace.forall_mem_opens hopened a.files a.attrs
    rw [trace, List.forall_mem_append]
    refine ⟨ih, ?_⟩
    unfold happenings
    split
    · exact hopens
    · rw [List.forall_mem_append, List.forall_mem_append, List.forall_mem_cons]
      exact ⟨⟨List.forall_mem_map.mpr fun n _ => hnoted n,
        Trace.forall_mem_closes hclosed a.files⟩, hrefused _ _ _ _, hopens⟩

theorem length_files (a : Attempt) : a.files.length = a.ids.length := EventFile.length_members

theorem descriptors_files (a : Attempt) :
    a.files.map EventFile.descriptor = List.range' a.first a.ids.length :=
  EventFile.descriptors_members

theorem of_mem_files {a : Attempt} {f : EventFile} (h : f ∈ a.files) :
    f.tid = a.tid ∧ f.cpu = a.cpu ∧ f.unmapped = f := EventFile.of_mem_members h

end Attempt

namespace SelectionSet

def attrsOf (s : SelectionSet) (group : Nat) : List Attr :=
  (s.groups.getD group []).map Selection.attr

/-- What an attempt has opened is kept if nothing was refused. -/
def take (s : SelectionSet) (a : Attempt) : SelectionSet :=
  if a.taken then s.addFiles a.group a.files else s

def takeAll (s : SelectionSet) (as : List Attempt) : SelectionSet := as.foldl take s

end SelectionSet

namespace Attempt

/-- The members have the attrs of the set but for a change, and numbers from
one on. -/
structure Made (change : Attr → Attr) (set : SelectionSet) (n : Nat) (a : Attempt) : Prop where
  attrs : a.attrs = (set.attrsOf a.group).map change
  first : a.first = n
  length_le : a.ids.length ≤ a.attrs.length

/-- Attempts one after the other. -/
def Run (change : Attr → Attr) (set : SelectionSet) : Nat → List Attempt → Prop
  | _, [] => True
  | n, a :: as => a.Made change set n ∧ Run change set (n + a.ids.length) as

variable {change : Attr → Attr} {set : SelectionSet} {n : Nat} {a : Attempt} {as bs : List Attempt}

theorem Made.length_attrs (h : a.Made change set n) :
    a.attrs.length = (set.groups.getD a.group []).length := by
  rw [h.attrs, SelectionSet.attrsOf, List.length_map, List.length_map]

theorem Made.length_files (h : a.Made change set n) (htaken : a.taken = true) :
    a.files.length = (set.groups.getD a.group []).length := by
  rw [Attempt.length_files, ← h.length_attrs]
  exact beq_iff_eq.mp htaken

theorem run_append : Run change set n (as ++ bs) ↔
    Run change set n as ∧ Run change set (n + count as) bs := by
  induction as generalizing n with
  | nil => exact ⟨fun h => ⟨trivial, h⟩, And.right⟩
  | cons a as ih => rw [List.cons_append, Run, ih, Run, count, Nat.add_assoc, and_assoc]

theorem Run.of_mem (h : Run change set n as) (ha : a ∈ as) :
    a.attrs = (set.attrsOf a.group).map change ∧ a.ids.length ≤ a.attrs.length := by
  induction as generalizing n with
  | nil => exact absurd ha List.not_mem_nil
  | cons b as ih =>
    rcases List.mem_cons.mp ha with rfl | ha
    · exact ⟨h.1.attrs, h.1.length_le⟩
    · exact ih h.2 ha

theorem Run.of_attrsOf {set' : SelectionSet} (h : Run change set n as)
    (hattrs : set'.attrsOf = set.attrsOf) : Run change set' n as := by
  induction as generalizing n with
  | nil => trivial
  | cons a as ih => exact ⟨⟨by rw [hattrs]; exact h.1.attrs, h.1.first, h.1.length_le⟩, ih h.2⟩

end Attempt

/-! ### What a set keeps -/

def Selection.add (x : Selection) (new : List EventFile) : Selection :=
  { x with files := x.files ++ new }

theorem Selection.add_nil (x : Selection) : x.add [] = x := by
  rw [add, List.append_nil]

theorem Selection.add_add (x : Selection) (new new' : List EventFile) :
    (x.add new).add new' = x.add (new ++ new') := by
  rw [add, add, add, List.append_assoc]

/-- The descriptors of one member of a group that attempts have opened for the
set to keep. -/
def Attempt.kept (group member : Nat) : List Attempt → List EventFile
  | [] => []
  | a :: as =>
    (if a.taken && a.group == group then a.files[member]?.toList else []) ++ kept group member as

def Attempt.allKept : List Attempt → List EventFile
  | [] => []
  | a :: as => (if a.taken then a.files else []) ++ allKept as

namespace SelectionSet

variable {s : SelectionSet} {group : Nat} {files : List EventFile}

/-- Change every selection, given its group and its place there. -/
def mapMembers (f : (group member : Nat) → Selection → Selection) (groups : List (List Selection)) :
    List (List Selection) := groups.mapIdx fun g members => members.mapIdx (f g)

theorem mapMembers_id {f : Nat → Nat → Selection → Selection} (hf : ∀ g k x, f g k x = x)
    (groups : List (List Selection)) : mapMembers f groups = groups := by
  have hid : ∀ g members, List.mapIdx (f g) members = members := fun g members =>
    List.mapIdx_eq_iff.mpr fun k => by cases members[k]? <;> simp [hf]
  exact List.mapIdx_eq_iff.mpr fun g => by cases groups[g]? <;> simp [hid]

theorem mapMembers_mapMembers (f f' : Nat → Nat → Selection → Selection)
    (groups : List (List Selection)) : mapMembers f' (mapMembers f groups) =
      mapMembers (fun g k x => f' g k (f g k x)) groups := by
  rw [mapMembers, mapMembers, List.mapIdx_mapIdx]
  exact List.mapIdx_eq_mapIdx_iff.mpr fun g _ => List.mapIdx_mapIdx

theorem zipWith_files {members : List Selection} (h : files.length = members.length) :
    members.zipWith (fun x file => { x with files := x.files ++ [file] }) files =
      members.mapIdx fun k x => x.add files[k]?.toList := by
  refine List.ext_getElem? fun k => ?_
  rw [List.getElem?_zipWith', List.getElem?_mapIdx]
  cases hx : members[k]? with
  | none => rfl
  | some x =>
    have hk : k < files.length := h ▸ (List.getElem?_eq_some_iff.mp hx).1
    rw [List.getElem?_eq_getElem hk]
    rfl

theorem groups_addFiles (h : files.length = (s.groups.getD group []).length) :
    (s.addFiles group files).groups = mapMembers (fun g k x =>
      x.add (if group = g then files[k]?.toList else [])) s.groups := by
  refine List.ext_getElem? fun g => ?_
  rw [addFiles, List.getElem?_modify, mapMembers, List.getElem?_mapIdx]
  cases hg : s.groups[g]? with
  | none => rfl
  | some members =>
    by_cases heq : group = g
    · rw [heq, List.getD_eq_getElem?_getD, hg] at h
      simpa [heq] using zipWith_files h
    · have hsame : (members.mapIdx fun _ x => x.add []) = members :=
        List.mapIdx_eq_iff.mpr fun k => by cases members[k]? <;> simp [Selection.add_nil]
      simp [heq, hsame]

theorem groups_take {a : Attempt} {change : Attr → Attr} {n : Nat} (h : a.Made change s n) :
    (s.take a).groups = mapMembers (fun g k x => x.add (Attempt.kept g k [a])) s.groups := by
  unfold take
  cases htaken : a.taken with
  | false => simp [mapMembers_id, Attempt.kept, htaken, Selection.add_nil]
  | true => simpa [Attempt.kept, htaken] using groups_addFiles (h.length_files htaken)

theorem attrsOf_mapMembers {s' : SelectionSet} {new : Nat → Nat → List EventFile}
    (h : s'.groups = mapMembers (fun g k x => x.add (new g k)) s.groups) :
    s'.attrsOf = s.attrsOf := by
  funext g
  rw [attrsOf, attrsOf, List.getD_eq_getElem?_getD, List.getD_eq_getElem?_getD, h, mapMembers,
    List.getElem?_mapIdx]
  cases s.groups[g]? with
  | none => rfl
  | some members =>
    refine List.ext_getElem? fun k => ?_
    simp only [Option.map_some, Option.getD_some, List.getElem?_map, List.getElem?_mapIdx,
      Option.map_map]
    rfl

/-- **What a set keeps of attempts:** each member has the descriptors that were
opened for it where all of its group were. -/
theorem groups_takeAll {change : Attr → Attr} {as : List Attempt} {n : Nat}
    (h : Attempt.Run change s n as) :
    (s.takeAll as).groups = mapMembers (fun g k x => x.add (Attempt.kept g k as)) s.groups := by
  induction as generalizing s n with
  | nil => exact (mapMembers_id (fun _ _ x => x.add_nil) s.groups).symm
  | cons a as ih =>
    have htake := groups_take h.1
    have hrest : Attempt.Run change (s.take a) (n + a.ids.length) as :=
      h.2.of_attrsOf (attrsOf_mapMembers htake)
    show ((s.take a).takeAll as).groups = _
    rw [ih hrest, htake, mapMembers_mapMembers]
    simp only [Selection.add_add, Attempt.kept, List.append_nil]

theorem exists_takeAll_eq (s : SelectionSet) (as : List Attempt) :
    ∃ groups, s.takeAll as = { s with groups } := by
  induction as generalizing s with
  | nil => exact ⟨s.groups, rfl⟩
  | cons a as ih =>
    obtain ⟨groups, htake⟩ : ∃ groups, s.take a = { s with groups } := by
      unfold take
      split
      · exact ⟨_, rfl⟩
      · exact ⟨_, rfl⟩
    obtain ⟨groups', hrest⟩ := ih (s.take a)
    exact ⟨groups', by rw [takeAll, List.foldl_cons, ← takeAll, hrest, htake]⟩

theorem takeAll_append (s : SelectionSet) (as bs : List Attempt) :
    s.takeAll (as ++ bs) = (s.takeAll as).takeAll bs := List.foldl_append

theorem attrsOf_takeAll {change : Attr → Attr} {as : List Attempt} {n : Nat}
    (h : Attempt.Run change s n as) : (s.takeAll as).attrsOf = s.attrsOf :=
  attrsOf_mapMembers (groups_takeAll h)

theorem perm_files_zipWith {members : List Selection} (h : files.length = members.length) :
    ((members.zipWith (fun x file => { x with files := x.files ++ [file] }) files).flatMap
      Selection.files).Perm (members.flatMap Selection.files ++ files) := by
  induction members generalizing files with
  | nil => rw [List.length_eq_zero_iff.mp h]; rfl
  | cons x members ih =>
    obtain ⟨file, files, rfl⟩ := List.exists_cons_of_length_eq_add_one h
    rw [List.zipWith_cons_cons, List.flatMap_cons, List.flatMap_cons, List.append_assoc,
      List.append_assoc]
    refine List.Perm.append_left x.files ?_
    exact ((ih (Nat.succ_inj.mp h)).cons file).trans List.perm_middle.symm

theorem perm_files_modify : ∀ {groups : List (List Selection)} {group : Nat},
    files.length = (groups.getD group []).length →
    ((groups.modify group fun members => members.zipWith
      (fun x file => { x with files := x.files ++ [file] }) files).flatten.flatMap
        Selection.files).Perm (groups.flatten.flatMap Selection.files ++ files)
  | [], group, h => by
    rw [List.length_eq_zero_iff.mp h, List.modify_nil]
    rfl
  | members :: groups, 0, h => by
    rw [List.modify_zero_cons, List.flatten_cons, List.flatten_cons, List.flatMap_append,
      List.flatMap_append]
    refine ((perm_files_zipWith h).append_right _).trans ?_
    rw [List.append_assoc, List.append_assoc]
    exact List.perm_append_comm.append_left _
  | members :: groups, group + 1, h => by
    rw [List.modify_succ_cons, List.flatten_cons, List.flatten_cons, List.flatMap_append,
      List.flatMap_append, List.append_assoc]
    have hrest : files.length = (groups.getD group []).length := h
    exact (perm_files_modify hrest).append_left _

/-- The descriptors of a set that keeps what attempts have opened. -/
theorem files_takeAll {change : Attr → Attr} {as : List Attempt} {n : Nat}
    (h : Attempt.Run change s n as) :
    (s.takeAll as).files.Perm (s.files ++ Attempt.allKept as) := by
  induction as generalizing s n with
  | nil => rw [Attempt.allKept, List.append_nil]; rfl
  | cons a as ih =>
    have htake : (s.take a).files.Perm (s.files ++ if a.taken then a.files else []) := by
      unfold take
      cases htaken : a.taken with
      | false => simp
      | true => exact perm_files_modify (h.1.length_files htaken)
    have hrest : Attempt.Run change (s.take a) (n + a.ids.length) as :=
      h.2.of_attrsOf (attrsOf_mapMembers (groups_take h.1))
    rw [Attempt.allKept, ← List.append_assoc]
    exact (ih hrest).trans (htake.append_right _)

end SelectionSet

/-! ### Numbers -/

namespace Trace

variable {tid : Pid} {cpu d : Nat} {leader? : Option Descriptor} {ids : List UInt64}
  {attrs : List Attr}

theorem opening?_opens_of_ne {n : Nat} (hd : d < n ∨ n + ids.length ≤ d) (past : Trace) :
    opening? d (opens (EventFile.members tid cpu n leader? ids) attrs ++ past) =
      opening? d past := by
  induction ids generalizing n leader? attrs past with
  | nil => rfl
  | cons id ids ih =>
    cases attrs with
    | nil => rfl
    | cons attr attrs =>
      have hne : n ≠ d := by rw [List.length_cons] at hd; omega
      have hrest : d < n + 1 ∨ n + 1 + ids.length ≤ d := by rw [List.length_cons] at hd; omega
      rw [EventFile.members, opens_cons, List.append_assoc, ih hrest, List.singleton_append,
        opening?, if_neg hne]

theorem opening?_opens_of_mem {n : Nat} (hlength : ids.length ≤ attrs.length) {f : EventFile}
    (hf : f ∈ EventFile.members tid cpu n leader? ids) (past : Trace) :
    opening? f.descriptor (opens (EventFile.members tid cpu n leader? ids) attrs ++ past) =
      some f := by
  induction ids generalizing n leader? attrs past with
  | nil => exact absurd hf List.not_mem_nil
  | cons id ids ih =>
    obtain ⟨attr, attrs, rfl⟩ := List.exists_cons_of_length_pos
      (Nat.lt_of_lt_of_le (Nat.succ_pos _) hlength)
    rw [EventFile.members, opens_cons, List.append_assoc]
    rcases List.mem_cons.mp hf with rfl | hf
    · rw [opening?_opens_of_ne (.inl (Nat.lt_succ_self _)), List.singleton_append, opening?,
        if_pos rfl]
    · exact ih (Nat.succ_le_succ_iff.mp hlength) hf _

end Trace

namespace Attempt

variable {change : Attr → Attr} {set : SelectionSet} {n : Nat} {a : Attempt} {as : List Attempt}

/-- What happened in an attempt besides opening descriptors does not matter to
how they were opened. -/
theorem opening?_happenings (d : Descriptor) (past : Trace) :
    Trace.opening? d (a.happenings ++ past) =
      Trace.opening? d (Trace.opens a.files a.attrs ++ past) := by
  unfold happenings
  split
  · rfl
  · rw [List.append_assoc, List.cons_append]
    refine Trace.opening?_append (fun x hx => ?_) d _
    rcases List.mem_append.mp hx with hx | hx
    · obtain ⟨n, -, rfl⟩ := List.mem_map.mp hx
      rfl
    · obtain ⟨f, -, rfl⟩ := List.mem_map.mp (List.mem_reverse.mp hx)
      rfl

/-- **Descriptors that are kept were opened as they are,** and attempts do not
change how others were opened. -/
theorem Run.opening? (h : Run change set n as) (past : Trace) :
    (∀ f ∈ allKept as, Trace.opening? f.descriptor (trace as ++ past) = some f) ∧
      ∀ d, d < n → Trace.opening? d (trace as ++ past) = Trace.opening? d past := by
  induction as generalizing n past with
  | nil => exact ⟨List.forall_mem_nil _, fun _ _ => rfl⟩
  | cons a as ih =>
    obtain ⟨hrest, hbefore⟩ := ih h.2 (a.happenings ++ past)
    have hfirst := h.1.first
    rw [trace, List.append_assoc]
    refine ⟨fun f hf => ?_, fun d hd => ?_⟩
    · rcases List.mem_append.mp hf with hf | hf
      · cases htaken : a.taken with
        | false => rw [htaken] at hf; exact absurd hf List.not_mem_nil
        | true =>
          rw [htaken, if_pos rfl] at hf
          have hmem : f.descriptor ∈ List.range' a.first a.ids.length :=
            a.descriptors_files ▸ List.mem_map_of_mem hf
          have hlt := (List.mem_range'_1.mp hmem).2
          rw [hbefore _ (hfirst ▸ hlt), opening?_happenings]
          exact Trace.opening?_opens_of_mem h.1.length_le hf past
      · exact hrest f hf
    · rw [hbefore d (Nat.lt_add_right _ hd), opening?_happenings]
      exact Trace.opening?_opens_of_ne (.inl (hfirst ▸ hd)) past

theorem Run.sublist_descriptors (h : Run change set n as) :
    ((allKept as).map EventFile.descriptor).Sublist (List.range' n (count as)) := by
  induction as generalizing n with
  | nil => exact List.Sublist.refl _
  | cons a as ih =>
    rw [allKept, List.map_append, count, ← List.range'_append_1]
    refine List.Sublist.append ?_ (ih h.2)
    split
    · have hfiles : a.files.map EventFile.descriptor = List.range' n a.ids.length := by
        rw [a.descriptors_files, h.1.first]
      exact hfiles ▸ List.Sublist.refl _
    · exact List.nil_sublist _

theorem mem_allKept {f : EventFile} (h : f ∈ allKept as) :
    ∃ a ∈ as, a.taken = true ∧ f ∈ a.files := by
  induction as with
  | nil => exact absurd h List.not_mem_nil
  | cons a as ih =>
    rcases List.mem_append.mp h with h | h
    · cases htaken : a.taken with
      | false => rw [htaken] at h; exact absurd h List.not_mem_nil
      | true => exact ⟨a, List.mem_cons_self, htaken, by rwa [htaken] at h⟩
    · obtain ⟨b, hb, hrest⟩ := ih h
      exact ⟨b, List.mem_cons_of_mem _ hb, hrest⟩

theorem unmapped_of_mem_allKept {f : EventFile} (h : f ∈ allKept as) : f.unmapped = f := by
  obtain ⟨a, -, -, hf⟩ := mem_allKept h
  exact (of_mem_files hf).2.2

/-- The descriptors of a member are for the threads and cpus of the attempts
at its group that were taken. -/
theorem mem_kept {group member : Nat} {f : EventFile} (h : f ∈ kept group member as) :
    ∃ a ∈ as, a.taken = true ∧ a.group = group ∧ a.files[member]? = some f := by
  induction as with
  | nil => exact absurd h List.not_mem_nil
  | cons a as ih =>
    rw [kept] at h
    rcases List.mem_append.mp h with h | h
    · split at h
      · next hboth =>
        obtain ⟨htaken, hgroup⟩ := Bool.and_eq_true_iff.mp hboth
        exact ⟨a, List.mem_cons_self, htaken, beq_iff_eq.mp hgroup, Option.mem_toList.mp h⟩
      · exact absurd h List.not_mem_nil
    · obtain ⟨b, hb, hrest⟩ := ih h
      exact ⟨b, List.mem_cons_of_mem _ hb, hrest⟩

theorem mem_allKept_of_mem_kept {group member : Nat} {f : EventFile}
    (h : f ∈ kept group member as) : f ∈ allKept as := by
  induction as with
  | nil => exact h
  | cons a as ih =>
    rw [kept] at h
    rw [allKept]
    rcases List.mem_append.mp h with h | h
    · split at h
      · next hboth =>
        rw [if_pos (Bool.and_eq_true_iff.mp hboth).1]
        exact List.mem_append_left _ (List.mem_of_getElem? (Option.mem_toList.mp h))
      · exact absurd h List.not_mem_nil
    · exact List.mem_append_right _ (ih h)

/-- Where no thread and cpu is tried twice, a member has one descriptor for
those where its group was taken, and none for the others. -/
theorem filter_kept (hdistinct : (as.map target).Nodup) (ha : a ∈ as) (member : Nat) :
    (kept a.group member as).filter (fun f => f.tid == a.tid && f.cpu == a.cpu) =
      if a.taken then a.files[member]?.toList else [] := by
  have hother : ∀ bs : List Attempt, a.target ∉ bs.map target →
      (kept a.group member bs).filter (fun f => f.tid == a.tid && f.cpu == a.cpu) = [] := by
    intro bs hbs
    refine List.filter_eq_nil_iff.mpr fun f hf hsame => hbs ?_
    obtain ⟨b, hb, -, hgroup, hfile⟩ := mem_kept hf
    obtain ⟨htid, hcpu, -⟩ := of_mem_files (List.mem_of_getElem? hfile)
    obtain ⟨htid', hcpu'⟩ := Bool.and_eq_true_iff.mp hsame
    have htarget : b.target = a.target := by
      rw [target, target, hgroup, ← htid, ← hcpu, beq_iff_eq.mp htid', beq_iff_eq.mp hcpu']
    exact htarget ▸ List.mem_map_of_mem hb
  induction as with
  | nil => exact absurd ha List.not_mem_nil
  | cons b as ih =>
    obtain ⟨hb, hrest⟩ := List.nodup_cons.mp hdistinct
    rw [kept, List.filter_append]
    rcases List.mem_cons.mp ha with rfl | ha
    · rw [hother as hb, List.append_nil, beq_self_eq_true, Bool.and_true]
      refine List.filter_eq_self.mpr fun f hf => ?_
      split at hf
      · obtain ⟨htid, hcpu, -⟩ := of_mem_files (List.mem_of_getElem? (Option.mem_toList.mp hf))
        rw [htid, hcpu, beq_self_eq_true, beq_self_eq_true, Bool.and_self]
      · exact absurd hf List.not_mem_nil
    · have hne : a.target ∉ [b].map target := by
        rintro hmem
        rw [List.map_cons, List.map_nil, List.mem_singleton] at hmem
        exact hb (hmem ▸ List.mem_map_of_mem ha)
      have hfirst := hother [b] hne
      rw [kept, kept, List.append_nil] at hfirst
      rw [hfirst, List.nil_append, ih hrest ha]

end Attempt

end Profiler
