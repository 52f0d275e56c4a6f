/-
# Sorted reading rearranges the records

Both orders of reading decode the frames of a file one after another, with the
ids that the records before have announced, so both go by one list of records
and attrs (`RecordFile.decoded`). In file order the visitor is handed that
list. In the order of time it is handed what the reordering buffer gives out
(`Reorder.deliveries`): every record once, and of two that were in the buffer
together the one with the lesser key first.

Key definitions: `RecordFile.attrOf`, `RecordFile.decoded`, `Delivery`,
`Reorder.deliveries`.
Key theorems: `RecordFile.visitInOrder_eq`, `RecordFile.visitSorted_ending`,
`RecordFile.visitSorted_state`, `Reorder.map_entry_deliveries`,
`Reorder.pairwise_deliveries`, `RecordFile.visit_sorted_perm`.
-/
import Profiler.File.Opened
import Profiler.Proofs.Record.Reorder

namespace Profiler

/-! ### One list of records -/

/-- Decode the bytes of a frame with an attr. -/
def Frame.decode (a : Attr) : Frame → Except Corruption Record
  | whole bs => Record.decode a bs
  | joined bs => Record.decodeReassembled a bs

/-- How reading up to a fault ends. -/
def UpTo.outcome {α : Type} (u : UpTo α) : Except Corruption Unit :=
  match u.fault? with
  | some e => .error e
  | none => .ok ()

namespace RecordFile

/-- The attr that decodes a frame, by the ids that are known. -/
def attrOf (f : RecordFile) : Frame → Attr
  | .whole bs => f.attrFor bs
  | .joined bs =>
    match RecordHeader.decode bs with
    | .ok h => if h.type < firstUserDefinedType then f.attrFor bs else f.firstAttr
    | .error _ => f.firstAttr

theorem decodeFrame_eq (f : RecordFile) (frame : Frame) :
    f.decodeFrame frame = frame.decode (f.attrOf frame) := by
  cases frame with
  | whole bs => rfl
  | joined bs =>
    rw [decodeFrame, Frame.decode, attrOf]
    cases hheader : RecordHeader.decode bs with
    | ok h => rfl
    | error e =>
      rw [Record.decodeReassembled, hheader]
      rfl

/-- The records of frames up to the first that is corrupt, each with the attr
that decodes it; `fault?` is the fault behind the last frame. -/
def decodedFrom (fault? : Option Corruption) (f : RecordFile) :
    List Frame → UpTo (Attr × Record)
  | [] => ⟨[], fault?⟩
  | frame :: rest =>
    match frame.decode (f.attrOf frame) with
    | .error e => ⟨[], some e⟩
    | .ok r => (decodedFrom fault? (f.learnIds r) rest).cons (f.attrOf frame, r)

/-- The records of a file in the order in which they stand there, each with the
attr that decodes it. -/
def decoded (f : RecordFile) : UpTo (Attr × Record) :=
  decodedFrom f.frames.fault? f f.frames.values

variable {σ : Type} (take : σ → Record → σ) (fault? : Option Corruption)

/-- A visitor that declines nothing. -/
def takingAll (s : σ) (r : Record) : σ × Bool := (take s r, true)

theorem offer_takingAll (s : σ) (rs : List Record) :
    offer (takingAll take) s rs = (rs.foldl take s, true) := by
  induction rs generalizing s with
  | nil => rfl
  | cons r rs ih =>
    rw [offer, takingAll]
    exact ih (take s r)

/-- **In file order the visitor is handed the records as they are decoded.** -/
theorem visitInOrder_eq (f : RecordFile) (s : σ) (frames : List Frame) :
    let d := decodedFrom fault? f frames
    let rs := d.values.map Prod.snd
    visitInOrder (takingAll take) fault? f s frames =
      ⟨rs.foldl learnIds f, rs.foldl take s, d.outcome⟩ := by
  induction frames generalizing f s with
  | nil => cases fault? <;> rfl
  | cons frame rest ih =>
    rw [visitInOrder, decodedFrom, decodeFrame_eq]
    cases hdecode : frame.decode (f.attrOf frame) with
    | error e => rfl
    | ok r => exact ih (f.learnIds r) (take s r)

end RecordFile

/-! ### What the buffer gives out -/

/-- A record that a buffer gives out, with its key, and how many records had
been put in by then. -/
structure Delivery where
  entry : HeldRecord
  read : Nat
  deriving DecidableEq, Repr

namespace Reorder

def readyCount (q : Reorder) : Nat := q.popReady.1.length

/-- The records that go now, and the buffer without them. -/
theorem popReady_eq (q : Reorder) :
    q.popReady = ((q.held.take q.readyCount).map HeldRecord.record,
      { q with held := q.held.drop q.readyCount }) := by
  rw [readyCount]
  induction hn : q.held.length generalizing q with
  | zero =>
    have hpop : q.pop = none := by
      rw [pop, List.length_eq_zero_iff.mp hn]
      split <;> rfl
    rw [popReady]
    split
    · rfl
    · next r q' hsome =>
      rw [hpop] at hsome
      cases hsome
  | succ n ih =>
    rw [popReady]
    split
    · rfl
    · next r q' hsome =>
      obtain ⟨-, e, rest, hheld, -, rfl, rfl⟩ := pop_eq_some_iff.mp hsome
      rw [hheld, List.length_cons, Nat.succ_inj] at hn
      have hrest := ih { q with held := rest } hn
      rw [hheld]
      simp only [List.length_cons, List.take_succ_cons, List.drop_succ_cons, List.map_cons]
      rw [hrest]
      simp

/-- What a buffer gives out while records are put in, each followed by taking
out what may go, and at the end all of it. -/
def deliveries (q : Reorder) : List Record → List Delivery
  | [] => q.held.map (⟨·, q.arrivals⟩)
  | r :: rest =>
    let q := q.push r
    (q.held.take q.readyCount).map (⟨·, q.arrivals⟩) ++ deliveries q.popReady.2 rest

/-- Records that are put in, with their keys, the first after `n` others. -/
def entriesFrom (n : Nat) (rs : List Record) : List HeldRecord :=
  rs.mapIdx fun i r => ⟨⟨r.timestamp, r.isSample, n + i⟩, r⟩

theorem entriesFrom_cons (n : Nat) (r : Record) (rs : List Record) :
    entriesFrom n (r :: rs) = ⟨⟨r.timestamp, r.isSample, n⟩, r⟩ :: entriesFrom (n + 1) rs := by
  rw [entriesFrom, List.mapIdx_cons, entriesFrom]
  simp only [Nat.add_zero, Nat.add_assoc, Nat.add_comm 1]

theorem entriesFrom_zero (rs : List Record) : entriesFrom 0 rs = entries rs := by
  simp only [entriesFrom, entries, Nat.zero_add]

theorem le_arrival_of_mem_entriesFrom {n : Nat} {rs : List Record} {e : HeldRecord}
    (h : e ∈ entriesFrom n rs) : n ≤ e.key.arrival := by
  obtain ⟨i, -, rfl⟩ := List.mem_mapIdx.mp h
  exact Nat.le_add_right n i

theorem map_entry_map (es : List HeldRecord) (n : Nat) :
    (es.map fun e => (⟨e, n⟩ : Delivery)).map Delivery.entry = es := by
  rw [List.map_map]
  exact List.map_id es

/-- **Every record is given out once.** -/
theorem map_entry_deliveries (q : Reorder) (rs : List Record) :
    ((q.deliveries rs).map Delivery.entry).Perm (q.held ++ entriesFrom q.arrivals rs) := by
  induction rs generalizing q with
  | nil =>
    rw [deliveries, map_entry_map]
    exact (List.append_nil q.held).symm ▸ .rfl
  | cons r rest ih =>
    have hrest := ih (q.push r).popReady.2
    rw [popReady_eq] at hrest
    rw [deliveries, List.map_append, map_entry_map, popReady_eq, entriesFrom_cons]
    refine (hrest.append_left _).trans ?_
    rw [← List.append_assoc, List.take_append_drop]
    exact ((insert_perm _ q.held).append_right _).trans List.perm_middle.symm

theorem pairwise_arrival_deliveries {q : Reorder} (rs : List Record) (hheld : q.held = []) :
    (q.deliveries rs).Pairwise fun a b => a.entry.key.arrival ≠ b.entry.key.arrival := by
  have hperm := map_entry_deliveries q rs
  rw [hheld, List.nil_append] at hperm
  have hentries : (entriesFrom q.arrivals rs).Pairwise fun a b =>
      a.key.arrival ≠ b.key.arrival := by
    rw [entriesFrom, List.mapIdx_eq_zipIdx_map, List.pairwise_map]
    refine List.pairwise_iff_getElem.mpr fun i j hi hj hij => ?_
    simp only [List.getElem_zipIdx]
    omega
  have hall : ((q.deliveries rs).map Delivery.entry).Pairwise fun a b =>
      a.key.arrival ≠ b.key.arrival := hperm.symm.pairwise hentries fun hne => hne.symm
  rwa [List.pairwise_map] at hall

/-- What is held has come before, and stands in the order of the keys. -/
structure Ordered (q : Reorder) : Prop where
  came : ∀ e ∈ q.held, e.key.arrival < q.arrivals
  sorted : q.held.Pairwise fun a b => a.key.rank ≤ b.key.rank

theorem Ordered.push {q : Reorder} (h : q.Ordered) (r : Record) : (q.push r).Ordered := by
  refine ⟨fun e he => ?_, pairwise_insert h.sorted⟩
  rcases List.mem_cons.mp ((insert_perm _ q.held).mem_iff.mp he) with rfl | he
  · exact Nat.lt_succ_self q.arrivals
  · exact Nat.lt_succ_of_lt (h.came e he)

theorem Ordered.popReady {q : Reorder} (h : q.Ordered) : q.popReady.2.Ordered := by
  rw [popReady_eq]
  exact ⟨fun e he => h.came e (List.mem_of_mem_drop he), h.sorted.drop⟩

/-- **Of two records that are held together the one with the lesser key goes
first.** -/
theorem pairwise_deliveries {q : Reorder} (h : q.Ordered) (rs : List Record) :
    (q.deliveries rs).Pairwise fun a b =>
      b.entry.key.arrival < a.read → a.entry.key.rank ≤ b.entry.key.rank := by
  induction rs generalizing q with
  | nil =>
    rw [deliveries, List.pairwise_map]
    exact h.sorted.imp fun {a b} hle (_ : b.key.arrival < q.arrivals) => hle
  | cons r rest ih =>
    have hpush := h.push r
    rw [deliveries, List.pairwise_append, List.pairwise_map]
    refine ⟨?_, ih hpush.popReady, fun a ha b hb hread => ?_⟩
    · exact hpush.sorted.take.imp fun {a b} hle (_ : b.key.arrival < (q.push r).arrivals) => hle
    obtain ⟨e, he, rfl⟩ := List.mem_map.mp ha
    -- what is given out later is held now, or has not been put in yet
    have hb := (map_entry_deliveries _ rest).mem_iff.mp (List.mem_map_of_mem hb)
    rw [popReady_eq, List.mem_append] at hb
    rcases hb with hb | hb
    · have hsplit := hpush.sorted
      rw [← List.take_append_drop (q.push r).readyCount (q.push r).held] at hsplit
      exact (List.pairwise_append.mp hsplit).2.2 e he b.entry hb
    · exact absurd hread (Nat.not_lt.mpr (le_arrival_of_mem_entriesFrom hb))

end Reorder

namespace RecordFile

variable {σ : Type} (take : σ → Record → σ)

/-! ### Reading in the order of time -/

/-- Whatever is handed on, the same frames are decoded by the same ids. -/
theorem visitSorted_ending (fault? : Option Corruption) (f : RecordFile) (q : Reorder) (s : σ)
    (frames : List Frame) :
    let d := decodedFrom fault? f frames
    let v := visitSorted (takingAll take) fault? f q s frames
    v.file = (d.values.map Prod.snd).foldl learnIds f ∧ v.outcome = d.outcome := by
  induction frames generalizing f q s with
  | nil => cases fault? <;> exact ⟨rfl, rfl⟩
  | cons frame rest ih =>
    dsimp only
    rw [visitSorted, decodedFrom, decodeFrame_eq]
    cases hdecode : frame.decode (f.attrOf frame) with
    | error e => exact ⟨rfl, rfl⟩
    | ok r =>
      dsimp only
      rw [offer_takingAll]
      exact ih (f.learnIds r) _ _

/-- **In the order of time the visitor is handed what the buffer gives out.** -/
theorem visitSorted_state {fault? : Option Corruption} {f : RecordFile} {frames : List Frame}
    (hok : (decodedFrom fault? f frames).fault? = none) (q : Reorder) (s : σ) :
    (visitSorted (takingAll take) fault? f q s frames).state =
      ((q.deliveries ((decodedFrom fault? f frames).values.map Prod.snd)).map
        fun d => d.entry.record).foldl take s := by
  induction frames generalizing f q s with
  | nil =>
    obtain rfl : fault? = none := hok
    rw [visitSorted, offer_takingAll]
    simp [decodedFrom, Reorder.deliveries, Reorder.popAll, Function.comp_def]
  | cons frame rest ih =>
    rw [decodedFrom] at hok ⊢
    rw [visitSorted, decodeFrame_eq]
    cases hdecode : frame.decode (f.attrOf frame) with
    | error e =>
      rw [hdecode] at hok
      cases hok
    | ok r =>
      rw [hdecode] at hok
      dsimp only
      rw [offer_takingAll]
      dsimp only
      rw [ih hok, UpTo.cons, List.map_cons, Reorder.deliveries, List.map_append, List.foldl_append,
        List.map_map, Reorder.popReady_eq]
      rfl

/-- **Reading in the order of time rearranges the records.** It succeeds where
reading in file order does. At every frame it knows the same ids, so it decodes
the same records with the same attrs, and it hands on every one of them once;
and of two that had both been read when the first of them was handed on, the
first has the lesser key: the earlier time, samples last, and then the earlier
place in the file. -/
theorem visit_sorted_perm (f : RecordFile) (s : σ) :
    let frames := f.frames.values
    let buffer := Reorder.standard f.hasTimestamp
    let inOrder := f.visit false (takingAll take) s
    let sorted := f.visit true (takingAll take) s
    let rs := f.decoded.values.map Prod.snd
    let ds := buffer.deliveries rs
    (sorted.outcome = .ok () ↔ inOrder.outcome = .ok ()) ∧
      (∀ n, (visitSorted (takingAll take) none f buffer s (frames.take n)).file =
        (visitInOrder (takingAll take) none f s (frames.take n)).file) ∧
      (inOrder.outcome = .ok () →
        inOrder.state = rs.foldl take s ∧
        sorted.state = (ds.map fun d => d.entry.record).foldl take s ∧
        (ds.map Delivery.entry).Perm (Reorder.entries rs) ∧
        ds.Pairwise fun a b =>
          b.entry.key.arrival < a.read → a.entry.key.rank < b.entry.key.rank) := by
  intro frames buffer inOrder sorted rs ds
  have hinOrder : inOrder = ⟨rs.foldl learnIds f, rs.foldl take s, f.decoded.outcome⟩ :=
    visitInOrder_eq take _ f s frames
  have hsorted := (visitSorted_ending take f.frames.fault? f buffer s frames).2
  refine ⟨?_, fun n => ?_, fun hok => ?_⟩
  · have hending : sorted.outcome = f.decoded.outcome := hsorted
    rw [hending, hinOrder]
  · rw [(visitSorted_ending take none f buffer s _).1, visitInOrder_eq take none f s _]
  · have hfault : f.decoded.fault? = none := by
      rw [hinOrder, UpTo.outcome] at hok
      cases h : f.decoded.fault? with
      | none => rfl
      | some e =>
        rw [h] at hok
        cases hok
    have hordered : buffer.Ordered := ⟨by rintro e ⟨⟩, .nil⟩
    have hperm := Reorder.map_entry_deliveries buffer rs
    rw [show buffer.held = [] from rfl, List.nil_append,
      show buffer.arrivals = 0 from rfl, Reorder.entriesFrom_zero] at hperm
    refine ⟨by rw [hinOrder], visitSorted_state take hfault buffer s, hperm, ?_⟩
    have hplaces := Reorder.pairwise_arrival_deliveries (q := buffer) rs rfl
    refine (Reorder.pairwise_deliveries hordered rs).imp₂ (fun a b hle hne hread => ?_) hplaces
    refine lt_of_le_of_ne (hle hread) fun heq => hne ?_
    exact congrArg (fun k => (ofLex (ofLex k).2).2) heq

/-- Three records of which the last one is the earliest, and of those of one
time the one that is no sample goes first. -/
theorem visit_sorted_perm_late :
    let a : Attr := Attr.set { sampleType := SampleMask.of [.time] } .sampleIdAll true
    let sampleAt (time : UInt64) : Record := .sample { Sample.ofAttr a with time }
    let lostAt (time : UInt64) : Record :=
      .lost { lost := 1, sampleId := { SampleId.ofAttr a with time } }
    let data := (sampleAt 5).encode ++ (lostAt 5).encode ++ (sampleAt 3).encode
    let f : RecordFile := {
      path := "", bytes := data, header := { data := { size := UInt64.ofNat data.length } }
      attrs := [⟨a, []⟩], features := ⟨[]⟩, idToAttr := ⟨[]⟩, idPositions? := none }
    let collect := fun (rs : List Record) r => rs ++ [r]
    (f.visit false (takingAll collect) []).outcome = .ok () ∧
      (f.visit false (takingAll collect) []).state = [sampleAt 5, lostAt 5, sampleAt 3] ∧
      (f.visit true (takingAll collect) []).outcome = .ok () ∧
      (f.visit true (takingAll collect) []).state = [sampleAt 3, lostAt 5, sampleAt 5] := by
  intro a sampleAt lostAt data f collect
  have hok : (f.visit false (takingAll collect) []).outcome = .ok () := by decide +kernel
  have hrs : f.decoded.values.map Prod.snd = [sampleAt 5, lostAt 5, sampleAt 3] := by
    decide +kernel
  have hds : ((Reorder.standard f.hasTimestamp).deliveries
      [sampleAt 5, lostAt 5, sampleAt 3]).map (fun d => d.entry.record) =
      [sampleAt 3, lostAt 5, sampleAt 5] := by decide +kernel
  obtain ⟨hending, -, hdone⟩ := visit_sorted_perm collect f []
  obtain ⟨hinOrder, hsorted, -, -⟩ := hdone hok
  rw [hrs] at hinOrder hsorted
  rw [hds] at hsorted
  exact ⟨hok, hinOrder, hending.mpr hok, hsorted⟩

end RecordFile
end Profiler
