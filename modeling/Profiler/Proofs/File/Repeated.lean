/-
# Reading a file again

While a file is read it learns ids, and it keeps them: the next reading starts
from what the earlier ones have learned, whatever the order in which they went
and wherever they stopped or failed. So a record may be decoded by an attr that
its id was announced for only behind it.

As long as that gives the same record, nothing else changes. What an id belongs
to is then either what it belonged to when the file was opened, or what some
record of the file has announced it for last (`RecordFile.Recalls`), every
reading decodes the same records (`RecordFile.Recalls.decoded`), and so it
leaves the file like that (`RecordFile.Recalls.visit`). A file is read alike
after any requests exactly if each of its records is decoded alike by the attrs
of its id that are announced by the record or behind it, when none was announced
before (`RecordFile.readsAlike_after_iff`).

Key definitions: `RecordFile.records`, `lastAnnounced`, `RecordFile.Steady`,
`RecordFile.ReadsAlike`, `RecordFile.Recalls`.
Key theorems: `RecordFile.decode_of_stored`, `RecordFile.Recalls.decoded`,
`RecordFile.Recalls.visit`, `RecordFile.readsAlike_after_iff`.
-/
import Profiler.Proofs.File.Faults
import Profiler.Proofs.File.Sorted

namespace Profiler

/-! ### What is announced last -/

/-- The index of the attr that records announce an id for last, to a file of `n`
attrs. -/
def lastAnnounced (n : Nat) (rs : List Record) (id : UInt64) : Option Nat :=
  ((rs.flatMap (Record.announced n)).reverse.find? fun e => e.1 = id).map Prod.snd

section Announced

variable {n : Nat} {rs : List Record} {id : UInt64}

theorem lastAnnounced_append (n : Nat) (rs later : List Record) (id : UInt64) :
    lastAnnounced n (rs ++ later) id =
      (lastAnnounced n later id).or (lastAnnounced n rs id) := by
  rw [lastAnnounced, List.flatMap_append, List.reverse_append, List.find?_append, Option.map_or]
  rfl

theorem exists_of_lastAnnounced {i : Nat} (h : lastAnnounced n rs id = some i) :
    ∃ r ∈ rs, lastAnnounced n [r] id = some i := by
  induction rs with
  | nil => cases h
  | cons r rest ih =>
    rw [← List.singleton_append, lastAnnounced_append, Option.or_eq_some_iff] at h
    rcases h with h | ⟨-, h⟩
    · obtain ⟨later, hlater, hi⟩ := ih h
      exact ⟨later, List.mem_cons_of_mem r hlater, hi⟩
    · exact ⟨r, List.mem_cons_self, h⟩

theorem lastAnnounced_eq_none_iff :
    lastAnnounced n rs id = none ↔ ∀ r ∈ rs, lastAnnounced n [r] id = none := by
  induction rs with
  | nil => exact iff_of_true rfl (List.forall_mem_nil _)
  | cons r rest ih =>
    rw [← List.singleton_append, lastAnnounced_append, Option.or_eq_none_iff, ih,
      List.singleton_append, List.forall_mem_cons, and_comm]

end Announced

namespace RecordFile

variable {f g : RecordFile} {σ : Type}

/-! ### What a file decodes -/

/-- The id in a frame, if the file looks for ids. -/
def idOf (f : RecordFile) (frame : Frame) : Option UInt64 :=
  f.idPositions?.bind fun positions => peekEventId positions frame.bytes

/-- The attr of an index, or the first. -/
def attrAt (f : RecordFile) (index? : Option Nat) : Attr :=
  ((index?.bind fun i => f.attrs[i]?).map AttrWithIds.attr).getD f.firstAttr

/-- The records of a file in the order in which they stand there. -/
def records (f : RecordFile) : List Record := f.decoded.values.map Prod.snd

/-- The records with the frames that they were decoded from. -/
def stored (f : RecordFile) : List (Frame × Record) := f.frames.values.zip f.records

theorem attrFor_eq (f : RecordFile) (bs : Bytes) : f.attrFor bs =
    f.attrAt ((f.idPositions?.bind fun positions => peekEventId positions bs).bind
      f.idToAttr.get?) := by
  unfold attrFor attrAt
  cases f.idPositions? with
  | none => rfl
  | some positions =>
    simp only [Option.bind_eq_bind, Option.bind_some]
    cases ((peekEventId positions bs).bind f.idToAttr.get?).bind fun i => f.attrs[i]? <;> rfl

theorem attrFor_of_peekEventId_eq_none {bs : Bytes}
    (h : ∀ positions, peekEventId positions bs = none) : f.attrFor bs = f.firstAttr := by
  rw [attrFor_eq]
  cases f.idPositions? with
  | none => rfl
  | some positions =>
    rw [Option.bind_some, h]
    rfl

/-- The attr of a frame is the one that its id belongs to, or the first. -/
theorem attrOf_eq (f : RecordFile) (frame : Frame) :
    f.attrOf frame = f.attrAt ((f.idOf frame).bind f.idToAttr.get?) := by
  rw [idOf, ← attrFor_eq]
  cases frame with
  | whole bs => rfl
  | joined bs =>
    rw [attrOf, Frame.bytes]
    cases hheader : RecordHeader.decode bs with
    | error e =>
      exact (attrFor_of_peekEventId_eq_none fun positions => by rw [peekEventId, hheader]).symm
    | ok h =>
      dsimp only
      split
      · rfl
      · next huser =>
        refine (attrFor_of_peekEventId_eq_none fun positions => ?_).symm
        simp only [peekEventId, hheader, if_pos (UInt32.not_lt.mp huser)]

/-- A frame that decodes does so by what was learned up to there. -/
theorem decode_of_zip_eq {fault? : Option Corruption} {frames : List Frame} {frame : Frame}
    {r : Record} {before behind : List (Frame × Record)}
    (h : frames.zip ((decodedFrom fault? f frames).values.map Prod.snd) =
      before ++ (frame, r) :: behind) :
    frame.decode (((before.map Prod.snd).foldl learnIds f).attrOf frame) = .ok r := by
  induction before generalizing f frames with
  | nil =>
    cases frames with
    | nil => cases h
    | cons first rest =>
      rw [decodedFrom] at h
      cases hdecode : first.decode (f.attrOf first) with
      | error e =>
        rw [hdecode] at h
        cases h
      | ok r' =>
        rw [hdecode] at h
        cases h
        exact hdecode
  | cons p before ih =>
    cases frames with
    | nil => cases h
    | cons first rest =>
      rw [decodedFrom] at h
      cases hdecode : first.decode (f.attrOf first) with
      | error e =>
        rw [hdecode] at h
        cases h
      | ok r' =>
        rw [hdecode] at h
        obtain ⟨rfl, htail⟩ := List.cons.inj h
        exact ih htail

/-- **A record is decoded by what was learned from those before it.** -/
theorem decode_of_stored {frame : Frame} {r : Record} {before behind : List (Frame × Record)}
    (h : f.stored = before ++ (frame, r) :: behind) :
    frame.decode (((before.map Prod.snd).foldl learnIds f).attrOf frame) = .ok r :=
  decode_of_zip_eq h

theorem length_decodedFrom_le (fault? : Option Corruption) (f : RecordFile) (frames : List Frame) :
    (decodedFrom fault? f frames).values.length ≤ frames.length := by
  induction frames generalizing f with
  | nil => exact Nat.le_refl 0
  | cons frame rest ih =>
    rw [decodedFrom]
    cases frame.decode (f.attrOf frame) with
    | error e => exact Nat.zero_le _
    | ok r => exact Nat.succ_le_succ (ih (f.learnIds r))

theorem map_snd_stored (f : RecordFile) : f.stored.map Prod.snd = f.records := by
  refine List.map_snd_zip ?_
  rw [records, List.length_map]
  exact length_decodedFrom_le _ f _

/-! ### What a file has learned -/

theorem foldl_learnIds_eq (f : RecordFile) (rs : List Record) :
    rs.foldl learnIds f = { f with idToAttr := (rs.foldl learnIds f).idToAttr } := by
  induction rs generalizing f with
  | nil => rfl
  | cons r rest ih =>
    rw [List.foldl_cons, ih (f.learnIds r)]
    cases r <;> rfl

/-- The last announcement of an id counts, and without one what was known. -/
theorem get?_foldl_learnIds (f : RecordFile) (rs : List Record) (id : UInt64) :
    (rs.foldl learnIds f).idToAttr.get? id =
      (lastAnnounced f.attrs.length rs id).or (f.idToAttr.get? id) := by
  induction rs generalizing f with
  | nil => rfl
  | cons r rest ih =>
    rw [List.foldl_cons, ih, learnIds_attrs, learnIds_idToAttr, OrderedMap.get?_foldl_insert,
      ← List.singleton_append, lastAnnounced_append, Option.or_assoc]
    rw [lastAnnounced, lastAnnounced, List.flatMap_singleton]

/-- The file `g` is `f` with other ids: what an id belongs to is what it belongs
to in `f`, or what some record of `f` has announced it for. -/
structure Recalls (f g : RecordFile) : Prop where
  same : g = { f with idToAttr := g.idToAttr }
  owner : ∀ id, g.idToAttr.get? id = f.idToAttr.get? id ∨
    ∃ later ∈ f.records, ∃ i, lastAnnounced f.attrs.length [later] id = some i ∧
      g.idToAttr.get? id = some i

theorem Recalls.refl (f : RecordFile) : f.Recalls f := ⟨rfl, fun _ => Or.inl rfl⟩

/-- What records of the file announce may be learned. -/
theorem Recalls.foldl_learnIds (h : f.Recalls g) {rs : List Record}
    (hrs : ∀ r ∈ rs, r ∈ f.records) : f.Recalls (rs.foldl learnIds g) := by
  have hattrs : g.attrs.length = f.attrs.length := by rw [h.same]
  refine ⟨?_, fun id => ?_⟩
  · rw [foldl_learnIds_eq, h.same]
  · rw [get?_foldl_learnIds, hattrs]
    cases hlast : lastAnnounced f.attrs.length rs id with
    | none => exact h.owner id
    | some i =>
      obtain ⟨r, hr, hi⟩ := exists_of_lastAnnounced hlast
      exact Or.inr ⟨r, hrs r hr, i, hi, rfl⟩

theorem Recalls.attrOf_foldl (h : f.Recalls g) (rs : List Record) (frame : Frame) :
    (rs.foldl learnIds g).attrOf frame = f.attrAt ((f.idOf frame).bind fun id =>
      (lastAnnounced f.attrs.length rs id).or (g.idToAttr.get? id)) := by
  have hsame : rs.foldl learnIds g = { f with idToAttr := (rs.foldl learnIds g).idToAttr } := by
    rw [foldl_learnIds_eq, h.same]
  have hattrs : g.attrs.length = f.attrs.length := by rw [h.same]
  have htable : (rs.foldl learnIds g).idToAttr.get? =
      fun id => (lastAnnounced f.attrs.length rs id).or (g.idToAttr.get? id) := by
    funext id
    rw [get?_foldl_learnIds, hattrs]
  rw [attrOf_eq, htable, hsame]
  rfl

/-! ### Every reading decodes the same -/

/-- Whether it makes no difference to a record that an id is announced by it or
behind it, when no announcement of the id stands before it. -/
def Steady (f : RecordFile) : Prop :=
  ∀ before frame r behind, f.stored = before ++ (frame, r) :: behind →
    ∀ id, f.idOf frame = some id →
      lastAnnounced f.attrs.length (before.map Prod.snd) id = none →
        ∀ later ∈ r :: behind.map Prod.snd, ∀ i,
          lastAnnounced f.attrs.length [later] id = some i →
            frame.decode (f.attrAt (some i)) = .ok r

/-- A frame decodes alike whatever was learned by earlier readings. -/
theorem Recalls.decode_eq (hsteady : f.Steady) (h : f.Recalls g) {fault? : Option Corruption}
    {before : List (Frame × Record)} {frame : Frame} {rest : List Frame}
    (hstored : f.stored = before ++ (frame :: rest).zip
      ((decodedFrom fault? ((before.map Prod.snd).foldl learnIds f) (frame :: rest)).values.map
        Prod.snd)) :
    frame.decode (((before.map Prod.snd).foldl learnIds g).attrOf frame) =
      frame.decode (((before.map Prod.snd).foldl learnIds f).attrOf frame) := by
  have hrecords := map_snd_stored f
  rw [hstored, decodedFrom, List.map_append] at hrecords
  rw [decodedFrom] at hstored
  revert hstored hrecords
  rw [h.attrOf_foldl, (Recalls.refl f).attrOf_foldl]
  cases hid : f.idOf frame with
  | none => exact fun _ _ => rfl
  | some id =>
    simp only [Option.bind_some]
    cases hlast : lastAnnounced f.attrs.length (before.map Prod.snd) id with
    | some i => exact fun _ _ => rfl
    | none =>
      rw [Option.none_or, Option.none_or]
      rcases h.owner id with howner | ⟨later, hlater, i, hi, howner⟩
      · rw [howner]
        exact fun _ _ => rfl
      · rw [howner]
        have hnot : later ∉ before.map Prod.snd := by
          intro hmem
          rw [lastAnnounced_eq_none_iff.mp hlast later hmem] at hi
          cases hi
        cases hdecode : frame.decode (f.attrAt (f.idToAttr.get? id)) with
        | error e =>
          -- Nothing is decoded any more, so the announcement has been read.
          intro hstored hrecords
          rw [← hrecords] at hlater
          simp only [List.map_nil, List.zip_nil_right, List.append_nil] at hlater
          exact absurd hlater hnot
        | ok r =>
          intro hstored hrecords
          refine hsteady before frame r _ hstored id hid hlast later ?_ i hi
          rw [← hrecords, List.mem_append] at hlater
          exact hlater.resolve_left hnot

theorem Recalls.decodedFrom (hsteady : f.Steady) (h : f.Recalls g) (fault? : Option Corruption)
    (before : List (Frame × Record)) (frames : List Frame)
    (hstored : f.stored = before ++ frames.zip
      ((decodedFrom fault? ((before.map Prod.snd).foldl learnIds f) frames).values.map
        Prod.snd)) :
    let d := decodedFrom fault? ((before.map Prod.snd).foldl learnIds f) frames
    let d' := decodedFrom fault? ((before.map Prod.snd).foldl learnIds g) frames
    d'.values.map Prod.snd = d.values.map Prod.snd ∧ d'.fault? = d.fault? := by
  induction frames generalizing before with
  | nil => exact ⟨rfl, rfl⟩
  | cons frame rest ih =>
    have hdecode := h.decode_eq hsteady hstored
    dsimp only
    rw [RecordFile.decodedFrom] at hstored ⊢
    rw [RecordFile.decodedFrom, hdecode]
    cases hr : frame.decode (((before.map Prod.snd).foldl learnIds f).attrOf frame) with
    | error e => exact ⟨rfl, rfl⟩
    | ok r =>
      rw [hr] at hstored
      have hlearned : ∀ f' : RecordFile, ((before.map Prod.snd).foldl learnIds f').learnIds r =
          ((before ++ [(frame, r)]).map Prod.snd).foldl learnIds f' := fun f' => by
        rw [List.map_append, List.foldl_append]
        rfl
      simp only [hlearned] at hstored ⊢
      have hrest := ih (before ++ [(frame, r)]) (by
        rw [hstored, List.append_assoc]
        rfl)
      exact ⟨congrArg (r :: ·) hrest.1, hrest.2⟩

/-- **Every reading of a steady file decodes the same records.** -/
theorem Recalls.decoded (hsteady : f.Steady) (h : f.Recalls g) :
    g.records = f.records ∧ g.decoded.fault? = f.decoded.fault? := by
  have hframes : g.frames = f.frames := by rw [h.same, frames, frames]
  have hall := h.decodedFrom hsteady f.frames.fault? [] f.frames.values rfl
  rw [records, RecordFile.decoded, hframes]
  exact hall

/-! ### What a visit gives and leaves behind -/

variable {take : σ → Record → σ × Bool} {fault? : Option Corruption} {frames : List Frame}

/-- A visitor that may decline is handed the records in their order, and what
is behind the one that it declines is not even decoded. -/
theorem visitInOrder_offer (take : σ → Record → σ × Bool) (fault? : Option Corruption)
    (f : RecordFile) (s : σ) (frames : List Frame) :
    let d := RecordFile.decodedFrom fault? f frames
    let handed := offer take s (d.values.map Prod.snd)
    let v := visitInOrder take fault? f s frames
    v.state = handed.1 ∧ v.outcome = if handed.2 then d.outcome else .ok () := by
  induction frames generalizing f s with
  | nil => cases fault? <;> exact ⟨rfl, rfl⟩
  | cons frame rest ih =>
    dsimp only
    rw [visitInOrder, RecordFile.decodedFrom, decodeFrame_eq]
    cases frame.decode (f.attrOf frame) with
    | error e => exact ⟨rfl, rfl⟩
    | ok r =>
      simp only [UpTo.cons, List.map_cons, offer]
      rcases take s r with ⟨s', goesOn⟩
      cases goesOn with
      | true => exact ih (f.learnIds r) s'
      | false => exact ⟨rfl, rfl⟩

/-- A visit learns from the records that it decodes, which the file begins
with. -/
theorem visitInOrder_learned (f : RecordFile) (s : σ) :
    ∃ rs, rs <+: (RecordFile.decodedFrom fault? f frames).values.map Prod.snd ∧
      (visitInOrder take fault? f s frames).file = rs.foldl learnIds f := by
  induction frames generalizing f s with
  | nil => exact ⟨[], List.nil_prefix, rfl⟩
  | cons frame rest ih =>
    rw [visitInOrder, RecordFile.decodedFrom, decodeFrame_eq]
    cases frame.decode (f.attrOf frame) with
    | error e => exact ⟨[], List.nil_prefix, rfl⟩
    | ok r =>
      simp only [UpTo.cons, List.map_cons]
      split
      · next s' _ =>
        obtain ⟨rs, hrs, hfile⟩ := ih (f.learnIds r) s'
        exact ⟨r :: rs, List.cons_prefix_cons.mpr ⟨rfl, hrs⟩, hfile⟩
      · exact ⟨[r], List.cons_prefix_cons.mpr ⟨rfl, List.nil_prefix⟩, rfl⟩

theorem visitSorted_learned (f : RecordFile) (q : Reorder) (s : σ) :
    ∃ rs, rs <+: (RecordFile.decodedFrom fault? f frames).values.map Prod.snd ∧
      (visitSorted take fault? f q s frames).file = rs.foldl learnIds f := by
  induction frames generalizing f q s with
  | nil =>
    cases fault? <;> exact ⟨[], List.nil_prefix, rfl⟩
  | cons frame rest ih =>
    rw [visitSorted, RecordFile.decodedFrom, decodeFrame_eq]
    cases frame.decode (f.attrOf frame) with
    | error e => exact ⟨[], List.nil_prefix, rfl⟩
    | ok r =>
      simp only [UpTo.cons, List.map_cons]
      split
      · next s' _ =>
        obtain ⟨rs, hrs, hfile⟩ := ih (f.learnIds r) _ s'
        exact ⟨r :: rs, List.cons_prefix_cons.mpr ⟨rfl, hrs⟩, hfile⟩
      · exact ⟨[r], List.cons_prefix_cons.mpr ⟨rfl, List.nil_prefix⟩, rfl⟩

theorem visit_learned (f : RecordFile) (sorted : Bool) (take : σ → Record → σ × Bool) (s : σ) :
    ∃ rs, rs <+: f.records ∧ (f.visit sorted take s).file = rs.foldl learnIds f := by
  unfold visit
  cases sorted with
  | true => exact visitSorted_learned f _ s
  | false => exact visitInOrder_learned f s

/-- **A visit of a steady file learns no more than that.** -/
theorem Recalls.visit (hsteady : f.Steady) (h : f.Recalls g) (sorted : Bool)
    (take : σ → Record → σ × Bool) (s : σ) : f.Recalls (g.visit sorted take s).file := by
  obtain ⟨rs, hrs, hfile⟩ := g.visit_learned sorted take s
  rw [hfile]
  rw [(h.decoded hsteady).1] at hrs
  exact h.foldl_learnIds fun r hr => hrs.subset hr

theorem Recalls.after (hsteady : f.Steady) (h : f.Recalls g) (requests : List Request) :
    f.Recalls (g.after requests) := by
  induction requests generalizing g with
  | nil => exact h
  | cons q rest ih =>
    refine ih (g := q.next g) ?_
    cases q with
    | visit sorted take start => exact h.visit hsteady sorted take start
    | _ => exact h

/-! ### Reading alike -/

/-- Whether two files hand the same records to every visitor, in file order, and
end in the same way. -/
structure ReadsAlike (f g : RecordFile) : Prop where
  state_eq : ∀ {σ : Type} (take : σ → Record → σ × Bool) (s : σ),
    (g.visit false take s).state = (f.visit false take s).state
  outcome_eq : ∀ {σ : Type} (take : σ → Record → σ × Bool) (s : σ),
    (g.visit false take s).outcome = (f.visit false take s).outcome

/-- What a visitor is handed depends on the records and on how they end. -/
theorem readsAlike_of_records_eq (hrecords : g.records = f.records)
    (hfault : g.decoded.fault? = f.decoded.fault?) : f.ReadsAlike g := by
  have hoffer : ∀ (f : RecordFile) {σ : Type} (take : σ → Record → σ × Bool) (s : σ),
      (f.visit false take s).state = (offer take s f.records).1 ∧
      (f.visit false take s).outcome =
        if (offer take s f.records).2 then f.decoded.outcome else .ok () :=
    fun f _ take s => visitInOrder_offer take _ f s _
  have houtcome : g.decoded.outcome = f.decoded.outcome := by
    rw [UpTo.outcome, UpTo.outcome, hfault]
  refine ⟨fun take s => ?_, fun take s => ?_⟩
  · rw [(hoffer f take s).1, (hoffer g take s).1, hrecords]
  · rw [(hoffer f take s).2, (hoffer g take s).2, hrecords, houtcome]

theorem ReadsAlike.records_eq (h : f.ReadsAlike g) : g.records = f.records := by
  have hall : ∀ f : RecordFile,
      (f.visit false (takingAll fun rs r => rs ++ [r]) []).state = f.records := by
    intro f
    refine (congrArg Visited.state (visitInOrder_eq _ _ f [] f.frames.values)).trans ?_
    rw [List.foldl_append_eq_append, ← List.flatMap_def, List.flatMap_singleton']
    rfl
  rw [← hall f, ← hall g]
  exact h.state_eq _ _

/-- The visitor that wants a number of records behind the first. -/
def takingMore : Nat → Record → Nat × Bool
  | 0, _ => (0, false)
  | n + 1, _ => (n, true)

theorem visitInOrder_takingMore (f : RecordFile) (n : Nat) :
    (visitInOrder takingMore fault? f n frames).file =
      (((RecordFile.decodedFrom fault? f frames).values.map Prod.snd).take (n + 1)).foldl
        learnIds f := by
  induction frames generalizing f n with
  | nil => rfl
  | cons frame rest ih =>
    rw [visitInOrder, RecordFile.decodedFrom, decodeFrame_eq]
    cases frame.decode (f.attrOf frame) with
    | error e => rfl
    | ok r =>
      simp only [UpTo.cons, List.map_cons, List.take_succ_cons, List.foldl_cons]
      cases n with
      | zero => rfl
      | succ n => exact ih (f.learnIds r) n

/-- Whatever a record announces for an id can be what the file knows of it: it
is read up to that record. -/
theorem exists_after_of_lastAnnounced {later : Record} {id : UInt64} {i : Nat}
    (hlater : later ∈ f.records) (hi : lastAnnounced f.attrs.length [later] id = some i) :
    ∃ requests : List Request, f.Recalls (f.after requests) ∧
      (f.after requests).idToAttr.get? id = some i := by
  obtain ⟨rs, rest, hrecords⟩ := List.append_of_mem hlater
  have hafter : f.after [.visit false takingMore rs.length] =
      (rs ++ [later]).foldl learnIds f := by
    have hread : f.after [.visit false takingMore rs.length] =
        (f.records.take (rs.length + 1)).foldl learnIds f :=
      visitInOrder_takingMore f rs.length
    rw [hread, hrecords, List.take_length_add_append]
    rfl
  refine ⟨[.visit false takingMore rs.length], ?_, ?_⟩
  · rw [hafter]
    refine (Recalls.refl f).foldl_learnIds fun r hr => ?_
    rw [hrecords, List.append_cons]
    exact List.mem_append_left _ hr
  · rw [hafter, get?_foldl_learnIds, lastAnnounced_append, hi]
    rfl

/-- **When reading is repeatable.** After any readings of a file, in either order,
stopped, failed or complete, and any other requests, a reading in file order
gives what the first one gave, exactly if the file is steady. -/
theorem readsAlike_after_iff (f : RecordFile) :
    (∀ requests : List Request, f.ReadsAlike (f.after requests)) ↔ f.Steady := by
  constructor
  · intro hall before frame r behind hstored id hid hlast later hlater i hi
    have hmem : later ∈ f.records := by
      rw [← map_snd_stored, hstored, List.map_append]
      exact List.mem_append_right _ hlater
    obtain ⟨requests, hrecalls, howner⟩ := exists_after_of_lastAnnounced hmem hi
    have hstored' : (f.after requests).stored = before ++ (frame, r) :: behind := by
      have hframes : (f.after requests).frames = f.frames := by
        rw [hrecalls.same, frames, frames]
      rw [stored, hframes, (hall requests).records_eq]
      exact hstored
    have hdecode := decode_of_stored hstored'
    rw [hrecalls.attrOf_foldl, hid, Option.bind_some, hlast, Option.none_or, howner] at hdecode
    exact hdecode
  · intro hsteady requests
    obtain ⟨hrecords, hfault⟩ := ((Recalls.refl f).after hsteady requests).decoded hsteady
    exact readsAlike_of_records_eq hrecords hfault

/-- The header of a file with two attrs and 48 bytes of data. -/
def headerOfUnsteadyFile : FileHeader := { attrs := ⟨104, 272⟩, data := ⟨376, 48⟩ }

/-- A sample of the first attr, and behind it a record that announces its id for
the second attr: it is decoded when the file is read first, and corrupt when it
is read again. -/
theorem not_readsAlike_announced_behind :
    let a : Attr := { sampleType := SampleMask.of [.identifier] }
    let b : Attr := { sampleType := SampleMask.of [.identifier, .ip] }
    let data := (Record.sample { Sample.ofAttr a with identifier := 9 }).encode ++
      (Record.eventIds [(1, 9)]).encode
    let file := headerOfUnsteadyFile.encode ++
      (FileAttr.encode ⟨a, {}⟩ ++ FileAttr.encode ⟨b, {}⟩ ++ data)
    let count : Request := .visit false (fun n _ => (n + 1, true)) 0
    ∃ f, ofBytes "perf.data" file = .ok f ∧ count.outcome f = .ok () ∧
      count.outcome (f.after [count]) = .error (.corrupt (.shortRead 8 8 8)) ∧
      ¬f.ReadsAlike (f.after [count]) := by
  intro a b data file count
  have hlen : file.length = 424 := by decide +kernel
  have hvalid : headerOfUnsteadyFile.Valid file.length := by
    rw [hlen]
    exact ⟨by decide, by decide, by decide, by decide, by decide⟩
  have hentries : readEntries headerOfUnsteadyFile file = .ok [⟨a, {}⟩, ⟨b, {}⟩] :=
    readEntries_eq_ok hvalid.fixed_fit.2.1 rfl (by decide +kernel)
  have hnoIds : ∀ x ∈ headerOfUnsteadyFile.fixedSections, x.2.overlaps {} = false := by decide
  have hreadable : ∀ a : Attr, FileAttr.Readable headerOfUnsteadyFile file ⟨a, {}⟩ :=
    fun _ => ⟨rfl, hnoIds, rfl⟩
  have hattrs : readAttrs headerOfUnsteadyFile file = .ok [⟨a, []⟩, ⟨b, []⟩] :=
    readAttrs_eq_ok_iff.mpr ⟨_, hentries, List.cons_ne_nil _ _, by simp [hreadable], by decide,
      by decide +kernel⟩
  let f : RecordFile :=
    ⟨"perf.data", file, headerOfUnsteadyFile, [⟨a, []⟩, ⟨b, []⟩], ⟨[]⟩, ⟨[]⟩, some ⟨8, 8⟩⟩
  have hopened : ofBytes "perf.data" file = .ok f := by
    refine ofBytes_eq_ok_iff.mpr ⟨rfl, rfl, by rw [hlen]; decide,
      headerOfUnsteadyFile.parse_encode _, hvalid, hattrs, ?_, ?_, rfl⟩
    · exact ⟨⟨8, 8⟩, by decide, rfl⟩
    · decide +kernel
  have hfirst : count.outcome f = .ok () := by decide +kernel
  have hagain : count.outcome (f.after [count]) = .error (.corrupt (.shortRead 8 8 8)) := by
    decide +kernel
  refine ⟨f, hopened, hfirst, hagain, fun halike => ?_⟩
  have hsame : count.outcome (f.after [count]) = count.outcome f :=
    congrArg Request.ending (halike.outcome_eq _ _)
  rw [hfirst, hagain] at hsame
  cases hsame

end RecordFile
end Profiler
