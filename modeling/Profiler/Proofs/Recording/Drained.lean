/-
# Records on their way

A record is put into a buffer, waits there, and is handed on when the buffer is
drained. A trace is orderly (`Trace.Orderly`) if the records of each buffer have
been handed on once and in order up to those that it still holds, whatever else
was handed on was an announcement, and no descriptor was closed before the
buffers of its cpu were empty. Each thing that a recording does keeps that;
draining a buffer hands on all that it holds (`Recording.drainCpu_eq_ok`).

Key definitions: `Trace.hands`, `SelectionSet.Decodes`, `Trace.Emptied`,
`Trace.Orderly`.
Key theorems: `Trace.Orderly.dataless`, `Trace.Orderly.handed`,
`Recording.drainCpu_eq_ok`, `Attempt.Run.opening?_of_closed`.
-/
import Profiler.Proofs.File.Frames
import Profiler.Proofs.Recording.Prepared

namespace Profiler

/-! ### What does not touch records -/

namespace Trace

variable {τ past : Trace} {b : Descriptor}

/-- What happens when records are handed on in turn. -/
def hands (records : List Record) : Trace := (records.map .delivered).reverse

theorem hands_cons (r : Record) (records : List Record) :
    hands (r :: records) = hands records ++ [.delivered r] := by
  rw [hands, List.map_cons, List.reverse_cons]
  rfl

section Dataless

variable (hτ : ∀ x ∈ τ, x.isData = false)

include hτ

theorem appendedTo_append (b : Descriptor) (past : Trace) :
    appendedTo b (τ ++ past) = appendedTo b past := by
  induction τ with
  | nil => rfl
  | cons x τ ih =>
    obtain ⟨hx, hτ⟩ := List.forall_mem_cons.mp hτ
    rw [← ih hτ]
    cases x with
    | appended => cases hx
    | _ => rfl

theorem pending_append (b : Descriptor) (past : Trace) :
    pending b (τ ++ past) = pending b past := by
  induction τ with
  | nil => rfl
  | cons x τ ih =>
    obtain ⟨hx, hτ⟩ := List.forall_mem_cons.mp hτ
    rw [← ih hτ]
    cases x with
    | appended => cases hx
    | drained => cases hx
    | _ => rfl

theorem readFrom_append (b : Descriptor) (past : Trace) :
    readFrom b (τ ++ past) = readFrom b past := by
  induction τ with
  | nil => rfl
  | cons x τ ih =>
    obtain ⟨hx, hτ⟩ := List.forall_mem_cons.mp hτ
    rw [← ih hτ]
    cases x with
    | delivered => cases hx
    | _ => rfl

theorem source?_append (hne : τ ≠ []) (past : Trace) : source? (τ ++ past) = none := by
  obtain ⟨x, τ, rfl⟩ := List.exists_cons_of_ne_nil hne
  have hx := hτ x List.mem_cons_self
  cases x with
  | drained => cases hx
  | delivered => cases hx
  | _ => rfl

theorem source?_append_of_none {past : Trace} (h : source? past = none) :
    source? (τ ++ past) = none := by
  by_cases hne : τ = []
  · rwa [hne]
  · exact source?_append hτ hne past

end Dataless

/-! ### What a buffer gives -/

theorem source?_append_delivered (h : ∀ x ∈ τ, ∃ r, x = .delivered r) (past : Trace) :
    source? (τ ++ past) = source? past := by
  induction τ with
  | nil => rfl
  | cons x τ ih =>
    obtain ⟨⟨r, rfl⟩, hτ⟩ := List.forall_mem_cons.mp h
    exact ih hτ

theorem appendedTo_hands (records : List Record) (b : Descriptor) (past : Trace) :
    appendedTo b (hands records ++ past) = appendedTo b past := by
  induction records generalizing past with
  | nil => rfl
  | cons r rest ih =>
    rw [hands_cons, List.append_assoc, ih]
    rfl

theorem pending_hands (records : List Record) (b : Descriptor) (past : Trace) :
    pending b (hands records ++ past) = pending b past := by
  induction records generalizing past with
  | nil => rfl
  | cons r rest ih =>
    rw [hands_cons, List.append_assoc, ih]
    rfl

theorem readFrom_hands (records : List Record) (b : Descriptor) (past : Trace) :
    readFrom b (hands records ++ past) =
      if source? past = some b then readFrom b past ++ records else readFrom b past := by
  induction records generalizing past with
  | nil =>
    rw [List.append_nil, ite_self]
    rfl
  | cons r rest ih =>
    have hnext : source? (.delivered r :: past) = source? past := rfl
    rw [hands_cons, List.append_assoc, ih, List.singleton_append, hnext, readFrom]
    split
    · rw [List.append_assoc, List.singleton_append]
    · rfl

theorem mem_hands {records : List Record} {x : Happening} (h : x ∈ hands records) :
    ∃ r, x = .delivered r := by
  obtain ⟨r, -, rfl⟩ := List.mem_map.mp (List.mem_reverse.mp h)
  exact ⟨r, rfl⟩

/-! ### Moments of a trace -/

/-- What happened in the later part of a trace, or in the earlier one. -/
theorem cons_suffix_append {x : Happening} {earlier : Trace} :
    x :: earlier <:+ τ ++ past ↔
      x :: earlier <:+ past ∨ ∃ e, earlier = e ++ past ∧ x :: e <:+ τ := by
  constructor
  · rintro ⟨later, heq⟩
    rcases List.append_eq_append_iff.mp heq with ⟨mid, rfl, hmid⟩ | ⟨mid, rfl, rfl⟩
    · cases mid with
      | nil => exact .inl ⟨[], hmid⟩
      | cons y mid =>
        obtain ⟨rfl, rfl⟩ := List.cons.inj hmid
        exact .inr ⟨mid, rfl, List.suffix_append _ _⟩
    · exact .inl (List.suffix_append _ _)
  · rintro (h | ⟨e, rfl, later, rfl⟩)
    · exact h.trans (List.suffix_append τ past)
    · exact ⟨later, by rw [List.append_assoc, List.cons_append]⟩

/-- When a descriptor is closed, all that was put into the buffers of its cpu
has been handed on. -/
def Emptied (D : Bytes → Record → Prop) (d : Descriptor) (earlier : Trace) : Prop :=
  ∀ f b g, earlier.opening? d = some f → earlier.opening? b = some g → g.cpu = f.cpu →
    List.Forall₂ D (earlier.appendedTo b) (earlier.readFrom b)

/-- The records of each buffer have been handed on once and in order, as they
decode, up to those that the buffer holds; besides them announcements were; and
no descriptor was closed too early. When a record of a buffer was handed on, it
had been told of that buffer. -/
structure Orderly (D : Bytes → Record → Prop) (Told : Descriptor → Trace → Prop) (τ : Trace) :
    Prop where
  accounted : ∀ b, ∃ done, τ.appendedTo b = done ++ τ.pending b ∧ List.Forall₂ D done (τ.readFrom b)
  sourced : ∀ (r : Record) (earlier : Trace), .delivered r :: earlier <:+ τ →
    earlier.source? = none → ∃ ids, r = .eventIds ids
  told : ∀ (r : Record) (earlier : Trace) (b : Descriptor), .delivered r :: earlier <:+ τ →
    earlier.source? = some b → Told b earlier
  emptied : ∀ (d : Descriptor) (earlier : Trace), .closed d :: earlier <:+ τ → earlier.Emptied D d

namespace Orderly

variable {D D' : Bytes → Record → Prop} {Told Told' : Descriptor → Trace → Prop}

theorem mono (h : τ.Orderly D Told) (hD : ∀ bs r, D bs r → D' bs r)
    (hTold : ∀ b earlier, Told b earlier → Told' b earlier) : τ.Orderly D' Told' := by
  refine ⟨fun b => ?_, h.sourced,
    fun r earlier b hmoment hsource => hTold b earlier (h.told r earlier b hmoment hsource),
    fun d earlier hmoment f b g hf hg hcpu => ?_⟩
  · obtain ⟨done, heq, hdone⟩ := h.accounted b
    exact ⟨done, heq, hdone.imp fun _ _ => hD _ _⟩
  · exact (h.emptied d earlier hmoment f b g hf hg hcpu).imp fun _ _ => hD _ _

/-- Where a buffer holds nothing, all that was put into it has been handed on. -/
theorem all_read (h : τ.Orderly D Told) (hnone : τ.pending b = []) :
    List.Forall₂ D (τ.appendedTo b) (τ.readFrom b) := by
  obtain ⟨done, heq, hdone⟩ := h.accounted b
  rw [heq, hnone, List.append_nil]
  exact hdone

/-- No record has been put anywhere yet. -/
theorem of_dataless (hτ : ∀ x ∈ τ, x.isData = false) : τ.Orderly D Told := by
  have hempty : ∀ earlier : Trace, earlier <:+ τ → ∀ b,
      earlier.appendedTo b = [] ∧ earlier.pending b = [] ∧ earlier.readFrom b = [] := by
    intro earlier hearlier b
    have hnone : ∀ x ∈ earlier, x.isData = false := fun x hx => hτ x (hearlier.subset hx)
    rw [← List.append_nil earlier, appendedTo_append hnone, pending_append hnone,
      readFrom_append hnone]
    exact ⟨rfl, rfl, rfl⟩
  have hnever : ∀ r earlier, ¬ .delivered r :: earlier <:+ τ := fun r earlier hmoment => by
    cases hτ _ (hmoment.subset List.mem_cons_self)
  refine ⟨fun b => ?_, fun r earlier hmoment => (hnever r earlier hmoment).elim,
    fun r earlier b hmoment => (hnever r earlier hmoment).elim,
    fun d earlier hmoment f b g _ _ _ => ?_⟩
  · obtain ⟨happended, hpending, hread⟩ := hempty τ List.suffix_rfl b
    rw [happended, hpending, hread]
    exact ⟨[], rfl, .nil⟩
  · obtain ⟨happended, -, hread⟩ := hempty earlier ((List.suffix_cons _ _).trans hmoment) b
    rw [happended, hread]
    exact .nil

/-- What does not touch records keeps the order if it closes descriptors in
time. -/
theorem dataless (h : past.Orderly D Told) (hτ : ∀ x ∈ τ, x.isData = false)
    (hclosed : ∀ d e, .closed d :: e <:+ τ → Emptied D d (e ++ past)) :
    Orderly D Told (τ ++ past) := by
  have hbefore : ∀ r earlier, .delivered r :: earlier <:+ τ ++ past →
      .delivered r :: earlier <:+ past := fun r earlier hmoment => by
    rcases cons_suffix_append.mp hmoment with hpast | ⟨e, -, hlater⟩
    · exact hpast
    · cases hτ _ (hlater.subset List.mem_cons_self)
  refine ⟨fun b => ?_, fun r earlier hmoment => h.sourced r earlier (hbefore r earlier hmoment),
    fun r earlier b hmoment => h.told r earlier b (hbefore r earlier hmoment),
    fun d earlier hmoment => ?_⟩
  · rw [appendedTo_append hτ, pending_append hτ, readFrom_append hτ]
    exact h.accounted b
  · rcases cons_suffix_append.mp hmoment with hpast | ⟨e, rfl, hlater⟩
    · exact h.emptied d earlier hpast
    · exact hclosed d e hlater

/-- One more record is in a buffer. -/
theorem appended (h : past.Orderly D Told) (b : Descriptor) (bs : Bytes) :
    Orderly D Told (.appended b bs :: past) := by
  have hbefore : ∀ x earlier, x :: earlier <:+ .appended b bs :: past → x = .appended b bs ∨
      x :: earlier <:+ past := fun x earlier hmoment =>
    (List.suffix_cons_iff.mp hmoment).imp (fun heq => (List.cons.inj heq).1) id
  refine ⟨fun c => ?_, fun r earlier hmoment => ?_, fun r earlier c hmoment => ?_,
    fun d earlier hmoment => ?_⟩
  · obtain ⟨done, heq, hdone⟩ := h.accounted c
    refine ⟨done, ?_, hdone⟩
    rw [appendedTo, pending, heq]
    split
    · rw [List.append_assoc]
    · rfl
  · exact h.sourced r earlier ((hbefore _ earlier hmoment).resolve_left nofun)
  · exact h.told r earlier c ((hbefore _ earlier hmoment).resolve_left nofun)
  · exact h.emptied d earlier ((hbefore _ earlier hmoment).resolve_left nofun)

/-- Ids have been announced while no buffer is being drained. -/
theorem announced (h : past.Orderly D Told) (hsource : past.source? = none)
    (ids : List (UInt64 × UInt64)) : Orderly D Told (.delivered (.eventIds ids) :: past) := by
  refine ⟨fun b => ?_, fun r earlier hmoment => ?_, fun r earlier b hmoment hb => ?_,
    fun d earlier hmoment => ?_⟩
  · have hread : readFrom b (.delivered (.eventIds ids) :: past) = readFrom b past := by
      rw [readFrom, hsource]
      exact if_neg nofun
    rw [hread]
    exact h.accounted b
  · rcases List.suffix_cons_iff.mp hmoment with heq | hpast
    · obtain ⟨hr, rfl⟩ := List.cons.inj heq
      exact fun _ => ⟨ids, Happening.delivered.inj hr⟩
    · exact h.sourced r earlier hpast
  · rcases List.suffix_cons_iff.mp hmoment with heq | hpast
    · obtain ⟨-, rfl⟩ := List.cons.inj heq
      cases hsource.symm.trans hb
    · exact h.told r earlier b hpast hb
  · rcases List.suffix_cons_iff.mp hmoment with heq | hpast
    · cases heq
    · exact h.emptied d earlier hpast

/-- **A buffer is drained,** and all that it holds is handed on. -/
theorem handed (h : past.Orderly D Told) {b : Descriptor} {records : List Record}
    (hrecords : List.Forall₂ D (past.pending b) records)
    (htold : ∀ earlier, past <:+ earlier → Told b earlier) :
    Orderly D Told (hands records ++ .drained b :: past) := by
  have hbefore : ∀ (x : Happening) (earlier : Trace),
      x :: earlier <:+ hands records ++ .drained b :: past →
      x = .drained b ∨ x :: earlier <:+ past ∨
        (∃ r, x = .delivered r) ∧ past <:+ earlier ∧ earlier.source? = some b := by
    intro x earlier hmoment
    rcases cons_suffix_append.mp hmoment with hpast | ⟨e, rfl, hlater⟩
    · rcases List.suffix_cons_iff.mp hpast with heq | hpast
      · exact .inl (List.cons.inj heq).1
      · exact .inr (.inl hpast)
    · refine .inr (.inr ⟨mem_hands (hlater.subset List.mem_cons_self), ?_, ?_⟩)
      · exact (List.suffix_cons _ _).trans (List.suffix_append _ _)
      · exact source?_append_delivered (fun y hy =>
          mem_hands (hlater.subset (List.mem_cons_of_mem _ hy))) _
  refine ⟨fun c => ?_, fun r earlier hmoment hsource => ?_, fun r earlier c hmoment hc => ?_,
    fun d earlier hmoment => ?_⟩
  · obtain ⟨done, heq, hdone⟩ := h.accounted c
    have hsource : source? (.drained b :: past) = some b := rfl
    have hread : readFrom c (.drained b :: past) = readFrom c past := rfl
    have happended : appendedTo c (.drained b :: past) = appendedTo c past := rfl
    rw [appendedTo_hands, pending_hands, readFrom_hands, hsource, hread, happended, pending, heq]
    by_cases hc : b = c
    · subst hc
      rw [if_pos rfl, if_pos rfl]
      exact ⟨done ++ past.pending b, by rw [List.append_nil], List.rel_append hdone hrecords⟩
    · rw [if_neg hc, if_neg fun h => hc (Option.some.inj h)]
      exact ⟨done, rfl, hdone⟩
  · rcases hbefore _ earlier hmoment with hx | hpast | ⟨-, -, hb⟩
    · cases hx
    · exact h.sourced r earlier hpast hsource
    · cases hsource.symm.trans hb
  · rcases hbefore _ earlier hmoment with hx | hpast | ⟨-, hpast, hb⟩
    · cases hx
    · exact h.told r earlier c hpast hc
    · cases hc.symm.trans hb
      exact htold earlier hpast
  · rcases hbefore _ earlier hmoment with hx | hpast | ⟨⟨r, hx⟩, -⟩
    · cases hx
    · exact h.emptied d earlier hpast
    · cases hx

end Orderly

end Trace

/-! ### What a drain hands on -/

/-- A record decodes with the attr that the set has for it. -/
def SelectionSet.Decodes (s : SelectionSet) (bs : Bytes) (r : Record) : Prop :=
  ∃ attr, s.attrFor? bs = some attr ∧ Record.decode attr bs = .ok r

namespace Recording

variable {ω : Type} {host : Host ω} {cpu : Nat}

theorem deliverCut_eq_ok : ∀ {raws : List RawRecord} {s s' : Session (Traced ω)},
    s.set.attached = true → deliverCut host.traced raws s = (.ok true, s') →
    ∃ records, List.Forall₂ (fun raw r => s.set.Decodes raw.bytes r) raws records ∧
      s'.set = s.set ∧ s.Went s' 0 (Trace.hands records)
  | [], s, _, _, h => by
    cases h
    exact ⟨[], .nil, rfl, Session.Went.refl s⟩
  | raw :: rest, s, s', hattached, h => by
    rw [deliverCut, getSet_bind] at h
    cases hattr : s.set.attrFor? raw.bytes with
    | none =>
      rw [hattr] at h
      cases h
    | some attr =>
      rw [hattr] at h
      obtain ⟨record, s₁, hdecode, h⟩ := Effect.bind_eq_ok h
      obtain ⟨more, s₂, hdeliver, h⟩ := Effect.bind_eq_ok h
      have hrecord : Record.decode attr raw.bytes = .ok record ∧ s₁ = s := by
        cases hresult : Record.decode attr raw.bytes with
        | ok r =>
          rw [hresult] at hdecode
          cases hdecode
          exact ⟨rfl, rfl⟩
        | error e =>
          rw [hresult] at hdecode
          cases hdecode
      obtain ⟨hrecord, rfl⟩ := hrecord
      obtain ⟨more', s₂', hdeliver', hset₂, hwent₂⟩ := deliver_outcome host record s₁
      cases hdeliver.symm.trans hdeliver'
      rw [if_pos hattached] at hwent₂
      cases more with
      | false => cases h
      | true =>
        obtain ⟨records, hrecords, hset, hwent⟩ := deliverCut_eq_ok (hset₂ ▸ hattached) h
        rw [hset₂] at hrecords hset
        refine ⟨record :: records, .cons ⟨attr, hattr, hrecord⟩ hrecords, hset, ?_⟩
        rw [Trace.hands_cons]
        exact hwent₂.trans hwent

theorem exists_raws {waiting : List Bytes}
    (h : ∀ bs ∈ waiting, ∃ raw : RawRecord, raw.Sized ∧ raw.bytes = bs) :
    ∃ raws : List RawRecord, (∀ raw ∈ raws, raw.Sized) ∧ raws.map RawRecord.bytes = waiting := by
  induction waiting with
  | nil => exact ⟨[], List.forall_mem_nil _, rfl⟩
  | cons bs waiting ih =>
    obtain ⟨⟨raw, hraw, rfl⟩, hrest⟩ := List.forall_mem_cons.mp h
    obtain ⟨raws, hraws, rfl⟩ := ih hrest
    exact ⟨raw :: raws, List.forall_mem_cons.mpr ⟨hraw, hraws⟩, rfl⟩

/-- Every record of the data was handed on. -/
theorem deliverRecords_eq_ok {data : Bytes} {s s' : Session (Traced ω)}
    (h : deliverRecords host.traced data s = (.ok true, s')) :
    deliverCut host.traced (ringRecords data).values s = (.ok true, s') := by
  rw [deliverRecords] at h
  obtain ⟨more, s₁, hcut, h⟩ := Effect.bind_eq_ok h
  cases more with
  | false => cases h
  | true =>
    rw [if_pos rfl] at h
    cases hfault : (ringRecords data).fault? with
    | none =>
      rw [ringRecords] at hfault
      simp only [hfault] at h
      cases h
      exact hcut
    | some fault =>
      rw [ringRecords] at hfault
      simp only [hfault] at h
      cases h

/-- **Draining the buffer of a cpu** hands on all that it holds, if each record
there has the length that its header gives. -/
theorem drainCpu_eq_ok {s s' : Session (Traced ω)} (hattached : s.set.attached = true)
    (hsized : ∀ b, ∀ bs ∈ s.world.trace.pending b, ∃ raw : RawRecord, raw.Sized ∧ raw.bytes = bs)
    (h : drainCpu host.traced cpu s = (.ok true, s')) :
    s'.set = s.set ∧ ((s.set.bufferOwner? cpu = none ∧ s' = s) ∨
      ∃ b records, s.set.bufferOwner? cpu = some b ∧
        List.Forall₂ s.set.Decodes (s.world.trace.pending b) records ∧
        s.Went s' 0 (Trace.hands records ++ [.drained b])) := by
  rw [drainCpu, getSet_bind] at h
  cases howner : s.set.bufferOwner? cpu with
  | none =>
    rw [howner] at h
    cases h
    exact ⟨rfl, .inl ⟨rfl, rfl⟩⟩
  | some b =>
    rw [howner] at h
    obtain ⟨data, s₁, hdrain, h⟩ := Effect.bind_eq_ok h
    rcases drain_outcome host b s with ⟨s₁', hdrain', hset₁, hwent₁⟩ | ⟨e, s₁', hdrain', -⟩
    · cases hdrain.symm.trans hdrain'
      -- the data is cut into what was put into the buffer
      obtain ⟨raws, hraws, hbytes⟩ := exists_raws (hsized b)
      have hcut : ringRecords (s.world.trace.pending b).flatten = ⟨raws, none⟩ := by
        rw [← hbytes, ← List.flatMap_def]
        exact cutRecords_flatMap raws 0 hraws
      have hcutAll := deliverRecords_eq_ok h
      rw [hcut] at hcutAll
      obtain ⟨records, hrecords, hset, hwent⟩ := deliverCut_eq_ok (hset₁ ▸ hattached) hcutAll
      rw [hset₁] at hrecords hset
      refine ⟨hset, .inr ⟨b, records, rfl, ?_, hwent₁.trans hwent⟩⟩
      rw [← hbytes, List.forall₂_map_left_iff]
      exact hrecords
    · cases hdrain.symm.trans hdrain'

end Recording

/-! ### Descriptors that attempts have opened -/

namespace Trace

theorem opens?_opens {files : List EventFile} {attrs : List Attr} {x : Happening}
    (hx : x ∈ opens files attrs) : ∃ f ∈ files, x.opens? = some f.descriptor := by
  rw [opens, List.mem_reverse, ← List.map_uncurry_zip_eq_zipWith] at hx
  obtain ⟨p, hp, rfl⟩ := List.mem_map.mp hx
  exact ⟨p.1, (List.of_mem_zip hp).1, rfl⟩

theorem mem_closes {files : List EventFile} {x : Happening} (hx : x ∈ closes files) :
    ∃ f ∈ files, x = .closed f.descriptor := by
  obtain ⟨f, hf, rfl⟩ := List.mem_map.mp (List.mem_reverse.mp hx)
  exact ⟨f, hf, rfl⟩

end Trace

namespace Attempt

variable {change : Attr → Attr} {set : SelectionSet} {n : Nat} {as : List Attempt}

theorem Run.le_of_opens? (h : Run change set n as) {x : Happening} (hx : x ∈ trace as)
    {d : Descriptor} (hd : x.opens? = some d) : n ≤ d := by
  induction as generalizing n with
  | nil => exact absurd hx List.not_mem_nil
  | cons a as ih =>
    have hopens : x ∈ Trace.opens a.files a.attrs → n ≤ d := fun hmem => by
      obtain ⟨f, hf, hopened⟩ := Trace.opens?_opens hmem
      have hrange : f.descriptor ∈ List.range' a.first a.ids.length :=
        a.descriptors_files ▸ List.mem_map_of_mem hf
      obtain rfl : f.descriptor = d := Option.some.inj (hopened.symm.trans hd)
      exact h.1.first ▸ (List.mem_range'_1.mp hrange).1
    rcases List.mem_append.mp hx with hx | hx
    · exact Nat.le_trans (Nat.le_add_right _ _) (ih h.2 hx)
    · unfold happenings at hx
      split at hx
      · exact hopens hx
      · rcases List.mem_append.mp hx with hx | hx
        · rcases List.mem_append.mp hx with hx | hx
          · obtain ⟨notice, -, rfl⟩ := List.mem_map.mp hx
            cases hd
          · obtain ⟨f, -, rfl⟩ := Trace.mem_closes hx
            cases hd
        · rcases List.mem_cons.mp hx with rfl | hx
          · cases hd
          · exact hopens hx

/-- What attempts close again they had opened, on the cpu of an attempt. -/
theorem Run.opening?_of_closed (h : Run change set n as) {d : Descriptor} {earlier : Trace}
    (hclosed : .closed d :: earlier <:+ trace as) (past : Trace) :
    ∃ a ∈ as, ∃ f, Trace.opening? d (earlier ++ past) = some f ∧ f.cpu = a.cpu := by
  induction as generalizing n earlier past with
  | nil => exact absurd (hclosed.subset List.mem_cons_self) List.not_mem_nil
  | cons a as ih =>
    rcases Trace.cons_suffix_append.mp hclosed with hfirst | ⟨e, rfl, hlater⟩
    · refine ⟨a, List.mem_cons_self, ?_⟩
      have hopens : ∀ x ∈ Trace.opens a.files a.attrs, x ≠ .closed d := fun x hx heq => by
        obtain ⟨f, -, hopened⟩ := Trace.opens?_opens hx
        rw [heq] at hopened
        cases hopened
      unfold happenings at hfirst
      split at hfirst
      · exact absurd rfl (hopens _ (hfirst.subset List.mem_cons_self))
      · rw [List.append_assoc] at hfirst
        rcases Trace.cons_suffix_append.mp hfirst with hsecond | ⟨e, -, hnoted⟩
        · rcases Trace.cons_suffix_append.mp hsecond with hopened | ⟨e, rfl, hcloses⟩
          · rcases List.mem_cons.mp (hopened.subset List.mem_cons_self) with heq | hmem
            · cases heq
            · exact absurd rfl (hopens _ hmem)
          · obtain ⟨f, hf, heq⟩ := Trace.mem_closes (hcloses.subset List.mem_cons_self)
            obtain rfl : d = f.descriptor := Happening.closed.inj heq
            have hrest : ∀ x ∈ e ++ [.refused (a.attrs.getD a.ids.length {}) a.tid a.cpu
                (a.files.head?.map EventFile.descriptor)], Happening.isOpening x = false := by
              rw [List.forall_mem_append, List.forall_mem_singleton]
              refine ⟨fun x hx => ?_, rfl⟩
              obtain ⟨g, -, rfl⟩ :=
                Trace.mem_closes (hcloses.subset (List.mem_cons_of_mem _ hx))
              rfl
            refine ⟨f, ?_, (of_mem_files hf).2.1⟩
            rw [List.append_cons, List.append_assoc, Trace.opening?_append hrest]
            exact Trace.opening?_opens_of_mem h.1.length_le hf past
        · obtain ⟨notice, -, heq⟩ :=
            List.mem_map.mp (hnoted.subset List.mem_cons_self)
          cases heq
    · obtain ⟨b, hb, hrest⟩ := ih h.2 hlater (a.happenings ++ past)
      rw [List.append_assoc]
      exact ⟨b, List.mem_cons_of_mem _ hb, hrest⟩

end Attempt

end Profiler
