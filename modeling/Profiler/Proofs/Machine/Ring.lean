/-
# A ring buffer loses and repeats nothing

The kernel publishes bytes and a reader takes them. What is published and not
yet read lies at the positions from the tail to the head (`Ring.unread`). As
long as the kernel keeps to the room that the reader has handed back, a
publication adds its bytes behind the unread ones and disturbs none of them
(`Ring.unread_publish`), also where the place in the data area or the position
itself starts again from zero. So a read gives what was unread when it took
the head, even if the kernel goes on while the bytes are copied
(`Ring.readDuring_eq`), and all reads together give what was published
(`RingTraffic.reads_all_published`).

Key definitions: `Ring.unread`, `Ring.WellSized`, `Ring.HasRoom`,
`Ring.stretches`, `Ring.readDuring`, `RingTraffic`, `RingTraffic.Step`,
`RingTraffic.Sound`.
Key theorems: `Ring.unread_publish`, `Ring.unread_advance`, `Ring.readDuring_eq`,
`RingTraffic.Sound.step`, `RingTraffic.reads_all_published`.
-/
import Mathlib.Logic.Relation
import Profiler.Machine.Kernel
import Profiler.Proofs.Effect

namespace Profiler

/-! ### Where a write leaves its bytes -/

theorem distance_of_place {position j size : Nat} (hj : j < size) :
    ((position + j) % size + size - position % size) % size = j := by
  have hposition : position % size < size := Nat.mod_lt _ (by omega)
  rw [Nat.add_mod, Nat.mod_eq_of_lt hj]
  by_cases hend : position % size + j < size
  · have hway : position % size + j + size - position % size = j + size := by omega
    rw [Nat.mod_eq_of_lt hend, hway, Nat.add_mod_right, Nat.mod_eq_of_lt hj]
  · have hwrapped : (position % size + j) % size = position % size + j - size := by
      rw [Nat.mod_eq_sub_mod (by omega), Nat.mod_eq_of_lt (by omega)]
    have hway : position % size + j - size + size - position % size = j := by omega
    rw [hwrapped, hway, Nat.mod_eq_of_lt hj]

namespace RingWrite

variable {w : RingWrite} {size j : Nat}

theorem at?_of_lt (hsize : w.bytes.size ≤ size) (hj : j < w.bytes.size) :
    w.at? size ((w.position + j) % size) = some w.bytes[j] := by
  unfold at?
  have hlast : (w.bytes.size - 1 - j) / size = 0 := Nat.div_eq_of_lt (by omega)
  simp [distance_of_place (show j < size by omega), hj, hlast]

theorem at?_of_le (hj : w.bytes.size ≤ j) (hsize : j < size) :
    w.at? size ((w.position + j) % size) = none := by
  unfold at?
  rw [distance_of_place hsize]
  exact if_neg (by omega)

end RingWrite

namespace Ring

variable {r : Ring} {bs : Bytes} {n : Nat}

/-! ### What is unread -/

/-- The bytes from the tail to the head. -/
def unread (r : Ring) : Bytes :=
  (List.range r.available).map fun i => r.byteAt ((r.tail.toNat + i) % r.size)

/-- The size is a power of two, and a word holds it. -/
def WellSized (r : Ring) : Prop := isPowerOfTwo r.size ∧ r.size < UInt64.size

instance (r : Ring) : Decidable r.WellSized := inferInstanceAs (Decidable (_ ∧ _))

/-- The kernel may write so many bytes more. -/
def HasRoom (r : Ring) (n : Nat) : Prop := r.available + n ≤ r.size

instance (r : Ring) (n : Nat) : Decidable (r.HasRoom n) := inferInstanceAs (Decidable (_ ≤ _))

theorem length_unread (r : Ring) : r.unread.length = r.available := by simp [unread]

theorem unread_of_empty (h : r.head = r.tail) : r.unread = [] := by
  have hnone : r.available = 0 := by simp [available, h]
  simp [unread, hnone]

/-- Positions start again from zero where places do. -/
theorem WellSized.dvd (h : r.WellSized) : r.size ∣ UInt64.size := by
  obtain ⟨hpower, hword⟩ := h
  have hsize : r.size = 2 ^ r.size.log2 := by
    have heq : 1 <<< r.size.log2 = r.size := by simpa [isPowerOfTwo] using hpower
    rw [Nat.one_shiftLeft] at heq
    exact heq.symm
  have hlog : r.size.log2 < 64 := by
    refine Nat.lt_of_not_le fun hle => ?_
    have hge : 2 ^ 64 ≤ 2 ^ r.size.log2 := Nat.pow_le_pow_right (by decide) hle
    rw [← hsize] at hge
    exact absurd hword (Nat.not_lt.mpr hge)
  rw [hsize]
  exact Nat.pow_dvd_pow 2 (Nat.le_of_lt hlog)

/-- The head is at the place behind the unread bytes. -/
theorem WellSized.head_place (h : r.WellSized) :
    r.head.toNat % r.size = (r.tail.toNat + r.available) % r.size := by
  have hhead : r.head = r.tail + (r.head - r.tail) := by grind
  calc r.head.toNat % r.size
      = (r.tail + (r.head - r.tail)).toNat % r.size := by rw [← hhead]
    _ = (r.tail.toNat + r.available) % UInt64.size % r.size := by rw [UInt64.toNat_add]; rfl
    _ = (r.tail.toNat + r.available) % r.size := Nat.mod_mod_of_dvd _ h.dvd

/-- Two stretches of the data area: from the place of the tail on, at most to
the end, and the rest from the beginning. -/
def stretches (r : Ring) : Bytes :=
  let start := r.tail.toNat % r.size
  let first := min r.available (r.size - start)
  (List.range first).map (fun i => r.byteAt (start + i)) ++
    (List.range (r.available - first)).map r.byteAt

/-- Unread bytes lie in the two stretches. -/
theorem unread_eq_stretches (hroom : r.HasRoom 0) : r.unread = r.stretches := by
  let start := r.tail.toNat % r.size
  let first := min r.available (r.size - start)
  show r.unread = (List.range first).map (fun i => r.byteAt (start + i)) ++
    (List.range (r.available - first)).map r.byteAt
  unfold HasRoom at hroom
  have hfirst : first ≤ r.available := Nat.min_le_left _ _
  rcases Nat.eq_zero_or_pos r.size with hsize | hsize
  · have hnone : r.available = 0 := by omega
    have hfirst0 : first = 0 := by omega
    simp [unread, hnone, hfirst0]
  have hstart : start < r.size := Nat.mod_lt _ hsize
  have hplace : ∀ i, (r.tail.toNat + i) % r.size = (start + i) % r.size := fun i => by simp [start]
  have hsplit : r.available = first + (r.available - first) := by omega
  unfold unread
  rw [hsplit, List.range_add, List.map_append, List.map_map, ← hsplit]
  congr 1
  · refine List.map_congr_left fun i hi => ?_
    have hi : i < first := List.mem_range.mp hi
    rw [hplace, Nat.mod_eq_of_lt (by omega)]
  · refine List.map_congr_left fun i hi => ?_
    have hi : i < r.available - first := List.mem_range.mp hi
    have hwrapped : start + (first + i) = r.size + i := by omega
    rw [Function.comp_apply, hplace, hwrapped, Nat.add_mod_left, Nat.mod_eq_of_lt (by omega)]

/-! ### Publishing -/

@[simp] theorem publish_size (r : Ring) (bs : Bytes) (excess : UInt64) :
    (r.publish bs excess).size = r.size := rfl

@[simp] theorem publish_tail (r : Ring) (bs : Bytes) (excess : UInt64) :
    (r.publish bs excess).tail = r.tail := rfl

theorem WellSized.publish (h : r.WellSized) (bs : Bytes) (excess : UInt64) :
    (r.publish bs excess).WellSized := h

theorem byteAt_publish (r : Ring) (bs : Bytes) (excess : UInt64) (place : Nat) :
    (r.publish bs excess).byteAt place =
      ((RingWrite.at? ⟨r.head.toNat, bs.toArray⟩ r.size place).or
        (r.writes.findSome? (·.at? r.size place))).getD 0 := by
  unfold byteAt publish
  rw [List.findSome?_cons]
  cases RingWrite.at? ⟨r.head.toNat, bs.toArray⟩ r.size place <;> rfl

theorem available_publish (h : r.WellSized) (hroom : r.HasRoom bs.length) :
    (r.publish bs 0).available = r.available + bs.length := by
  unfold HasRoom at hroom
  have hlt : r.available + bs.length < UInt64.size := Nat.lt_of_le_of_lt hroom h.2
  have hmoved : r.head + UInt64.ofNat bs.length + 0 - r.tail =
      r.head - r.tail + UInt64.ofNat bs.length := by grind
  unfold available publish
  rw [hmoved, UInt64.toNat_add, UInt64.toNat_ofNat_of_lt' (by omega)]
  exact Nat.mod_eq_of_lt hlt

/-- A publication that there is room for leaves the unread bytes alone. -/
theorem byteAt_publish_unread (h : r.WellSized) (hroom : r.HasRoom bs.length) {i : Nat}
    (hi : i < r.available) : (r.publish bs 0).byteAt ((r.tail.toNat + i) % r.size) =
      r.byteAt ((r.tail.toNat + i) % r.size) := by
  unfold HasRoom at hroom
  -- seen from the head, the unread bytes are the last ones of the area
  have hplace : (r.tail.toNat + i) % r.size =
      (r.head.toNat + (r.size - r.available + i)) % r.size := by
    have hround : r.tail.toNat + r.available + (r.size - r.available + i) =
        r.tail.toNat + i + r.size := by omega
    rw [Nat.add_mod r.head.toNat, h.head_place, ← Nat.add_mod, hround, Nat.add_mod_right]
  have hmissed : RingWrite.at? ⟨r.head.toNat, bs.toArray⟩ r.size
      ((r.tail.toNat + i) % r.size) = none := by
    rw [hplace]
    refine RingWrite.at?_of_le (w := ⟨r.head.toNat, bs.toArray⟩) ?_ (by omega)
    simp only [List.size_toArray]
    omega
  rw [byteAt_publish, hmissed, Option.none_or]
  rfl

theorem byteAt_publish_new (h : r.WellSized) (hroom : r.HasRoom bs.length) {j : Nat}
    (hj : j < bs.length) :
    (r.publish bs 0).byteAt ((r.tail.toNat + (r.available + j)) % r.size) = bs[j] := by
  unfold HasRoom at hroom
  have hplace : (r.tail.toNat + (r.available + j)) % r.size = (r.head.toNat + j) % r.size := by
    rw [← Nat.add_assoc, Nat.add_mod, ← h.head_place, ← Nat.add_mod]
  have hreached : RingWrite.at? ⟨r.head.toNat, bs.toArray⟩ r.size
      ((r.head.toNat + j) % r.size) = some bs[j] := by
    have hfits : bs.toArray.size ≤ r.size := by simp only [List.size_toArray]; omega
    rw [RingWrite.at?_of_lt (w := ⟨r.head.toNat, bs.toArray⟩) hfits (by simpa using hj)]
    simp
  rw [hplace, byteAt_publish, hreached]
  rfl

/-- **A publication is added behind the unread bytes.** -/
theorem unread_publish (h : r.WellSized) (hroom : r.HasRoom bs.length) :
    (r.publish bs 0).unread = r.unread ++ bs := by
  unfold unread
  rw [available_publish h hroom, publish_size, publish_tail, List.range_add, List.map_append,
    List.map_map]
  congr 1
  · exact List.map_congr_left fun i hi => byteAt_publish_unread h hroom (List.mem_range.mp hi)
  · refine List.ext_getElem (by simp) fun j hj hj' => ?_
    rw [List.getElem_map, List.getElem_range, Function.comp_apply]
    exact byteAt_publish_new h hroom hj'

/-- The kernel publishes pieces one after another. -/
def publishAll (r : Ring) (pieces : List Bytes) : Ring :=
  pieces.foldl (fun r bs => r.publish bs 0) r

theorem publishAll_size (r : Ring) (pieces : List Bytes) : (r.publishAll pieces).size = r.size := by
  induction pieces generalizing r with
  | nil => rfl
  | cons bs pieces ih => exact ih (r.publish bs 0)

theorem publishAll_tail (r : Ring) (pieces : List Bytes) : (r.publishAll pieces).tail = r.tail := by
  induction pieces generalizing r with
  | nil => rfl
  | cons bs pieces ih => exact ih (r.publish bs 0)

theorem WellSized.publishAll (h : r.WellSized) (pieces : List Bytes) :
    (r.publishAll pieces).WellSized := by
  unfold WellSized at h ⊢
  rwa [publishAll_size]

/-- **Pieces that there is room for are added behind the unread bytes.** -/
theorem unread_publishAll {pieces : List Bytes} (h : r.WellSized)
    (hroom : r.HasRoom pieces.flatten.length) :
    (r.publishAll pieces).unread = r.unread ++ pieces.flatten := by
  induction pieces generalizing r with
  | nil => simp [publishAll]
  | cons bs pieces ih =>
    unfold HasRoom at hroom
    rw [List.flatten_cons, List.length_append] at hroom
    have hroom₁ : r.HasRoom bs.length := by unfold HasRoom; omega
    have hroom₂ : (r.publish bs 0).HasRoom pieces.flatten.length := by
      unfold HasRoom
      rw [available_publish h hroom₁, publish_size]
      omega
    have hrest := ih (h.publish bs 0) hroom₂
    rw [unread_publish h hroom₁, List.append_assoc, ← List.flatten_cons] at hrest
    exact hrest

/-! ### Reading -/

theorem read_eq (r : Ring) : r.read =
    if r.size < r.available then .error (.ringOverrun r.available r.size)
    else .ok (r.unread, { r with tail := r.head }) := rfl

/-- Handing back the first unread bytes leaves the others unread. -/
theorem unread_advance (h : r.WellSized) (hn : n ≤ r.available) :
    ({ r with tail := r.tail + UInt64.ofNat n } : Ring).unread = r.unread.drop n := by
  have hword : r.available < UInt64.size := (r.head - r.tail).toNat_lt
  have hnword : (UInt64.ofNat n).toNat = n := UInt64.toNat_ofNat_of_lt' (by omega)
  have havailable : ({ r with tail := r.tail + UInt64.ofNat n } : Ring).available =
      r.available - n := by
    have hless : r.head - (r.tail + UInt64.ofNat n) = r.head - r.tail - UInt64.ofNat n := by grind
    have hle : UInt64.ofNat n ≤ r.head - r.tail := by
      rw [UInt64.le_iff_toNat_le, hnword]
      exact hn
    unfold available
    rw [hless, UInt64.toNat_sub_of_le _ _ hle, hnword]
  have hplace : ∀ i, ((r.tail + UInt64.ofNat n).toNat + i) % r.size =
      (r.tail.toNat + (n + i)) % r.size := by
    intro i
    rw [UInt64.toNat_add, hnword, Nat.add_mod, Nat.mod_mod_of_dvd _ h.dvd, ← Nat.add_mod,
      Nat.add_assoc]
  refine List.ext_getElem (by simp [length_unread, havailable]) fun i hi hi' => ?_
  rw [List.getElem_drop]
  simp only [unread, List.getElem_map, List.getElem_range]
  exact congrArg r.byteAt (hplace i)

/-- Read while the kernel goes on. The head is taken before the first of the
pieces, byte `i` is copied after the first `moment i` of them, and the space is
handed back after the last. -/
def readDuring (r : Ring) (pieces : List Bytes) (moment : Nat → Nat) :
    Except Corruption (Bytes × Ring) :=
  if r.size < r.available then .error (.ringOverrun r.available r.size)
  else
    .ok ((List.range r.available).map fun i =>
        (r.publishAll (pieces.take (moment i))).byteAt ((r.tail.toNat + i) % r.size),
      { r.publishAll pieces with tail := r.head })

theorem readDuring_nil (r : Ring) (moment : Nat → Nat) : r.readDuring [] moment = r.read := by
  simp [readDuring, read, publishAll]

theorem flatten_take_length_le (pieces : List Bytes) (k : Nat) :
    (pieces.take k).flatten.length ≤ pieces.flatten.length := by
  have hsplit : pieces.flatten = (pieces.take k).flatten ++ (pieces.drop k).flatten := by
    rw [← List.flatten_append, List.take_append_drop]
  rw [hsplit, List.length_append]
  exact Nat.le_add_right _ _

/-- **What a read gives is what was unread when it took the head,** whatever
the kernel publishes meanwhile. -/
theorem readDuring_eq {pieces : List Bytes} (h : r.WellSized)
    (hroom : r.HasRoom pieces.flatten.length) (moment : Nat → Nat) :
    r.readDuring pieces moment = .ok (r.unread, { r.publishAll pieces with tail := r.head }) := by
  have hfits : ¬ r.size < r.available := by unfold HasRoom at hroom; omega
  unfold readDuring
  rw [if_neg hfits]
  congr 2
  refine List.map_congr_left fun i hi => ?_
  have hi : i < r.available := List.mem_range.mp hi
  -- byte `i` of what is unread by then is byte `i` of what was unread before
  have hthen : r.HasRoom (pieces.take (moment i)).flatten.length := by
    have hle := flatten_take_length_le pieces (moment i)
    unfold HasRoom at hroom ⊢
    omega
  have hunread := unread_publishAll h hthen
  have hlen : i < (r.publishAll (pieces.take (moment i))).unread.length := by
    rw [hunread, List.length_append, length_unread]
    omega
  have hbyte := List.getElem_of_eq hunread hlen
  rw [List.getElem_append_left (by rwa [length_unread])] at hbyte
  simpa [unread, publishAll_size, publishAll_tail] using hbyte

/-- After a read, what was published meanwhile is unread. -/
theorem unread_of_read {pieces : List Bytes} (h : r.WellSized)
    (hroom : r.HasRoom pieces.flatten.length) :
    ({ r.publishAll pieces with tail := r.head } : Ring).unread = pieces.flatten := by
  have hunread := unread_publishAll h hroom
  have htail : r.head = (r.publishAll pieces).tail + UInt64.ofNat r.available := by
    rw [publishAll_tail, available, UInt64.ofNat_toNat]
    grind
  have hle : r.available ≤ (r.publishAll pieces).available := by
    rw [← length_unread, ← length_unread, hunread, List.length_append]
    omega
  rw [htail, unread_advance (h.publishAll pieces) hle, hunread, List.drop_left' r.length_unread]

end Ring

/-! ### A kernel and a reader -/

/-- A buffer with what the kernel and a reader have done to it since some
moment. -/
structure RingTraffic where
  ring : Ring
  /-- What the kernel has published. -/
  published : Bytes := []
  /-- What it had published when the last read took the head. -/
  seen : Bytes := []
  /-- What the reads gave. -/
  received : Bytes := []

namespace RingTraffic

/-- The kernel publishes what there is room for, or a buffer is read, also
while the kernel goes on. -/
inductive Step (t : RingTraffic) : RingTraffic → Prop where
  | publish (bs : Bytes) (hroom : t.ring.HasRoom bs.length) :
      Step t { t with ring := t.ring.publish bs 0, published := t.published ++ bs }
  | read (bs : Bytes) (r : Ring) (h : t.ring.read = .ok (bs, r)) :
      Step t { t with ring := r, seen := t.published, received := t.received ++ bs }
  | readDuring (pieces : List Bytes) (moment : Nat → Nat) (bs : Bytes) (r : Ring)
      (hroom : t.ring.HasRoom pieces.flatten.length)
      (h : t.ring.readDuring pieces moment = .ok (bs, r)) :
      Step t { ring := r, published := t.published ++ pieces.flatten, seen := t.published,
               received := t.received ++ bs }

/-- What has been published was received or is unread. -/
structure Sound (t : RingTraffic) : Prop where
  wellSized : t.ring.WellSized
  hasRoom : t.ring.HasRoom 0
  received_eq : t.received = t.seen
  published_eq : t.published = t.received ++ t.ring.unread

variable {t t' : RingTraffic}

theorem sound_of_empty {r : Ring} (h : r.WellSized) (hempty : r.head = r.tail) :
    Sound { ring := r } := by
  have hnone : r.available = 0 := by simp [Ring.available, hempty]
  refine ⟨h, ?_, rfl, ?_⟩
  · show r.available + 0 ≤ r.size
    omega
  · rw [Ring.unread_of_empty hempty]
    rfl

theorem Sound.publish (h : t.Sound) {bs : Bytes} (hroom : t.ring.HasRoom bs.length) :
    Sound { t with ring := t.ring.publish bs 0, published := t.published ++ bs } := by
  refine ⟨h.wellSized.publish bs 0, ?_, h.received_eq, ?_⟩
  · show (t.ring.publish bs 0).available + 0 ≤ t.ring.size
    rw [Ring.available_publish h.wellSized hroom]
    exact hroom
  · show t.published ++ bs = t.received ++ (t.ring.publish bs 0).unread
    rw [Ring.unread_publish h.wellSized hroom, h.published_eq, List.append_assoc]

/-- A read gives all that was published when it took the head, and what the
kernel published meanwhile is unread. -/
theorem Sound.readDuring (h : t.Sound) {pieces : List Bytes} {moment : Nat → Nat} {bs : Bytes}
    {r : Ring} (hroom : t.ring.HasRoom pieces.flatten.length)
    (hread : t.ring.readDuring pieces moment = .ok (bs, r)) :
    Sound { ring := r, published := t.published ++ pieces.flatten, seen := t.published,
            received := t.received ++ bs } := by
  rw [Ring.readDuring_eq h.wellSized hroom] at hread
  cases hread
  have hunread := Ring.unread_of_read h.wellSized hroom
  refine ⟨?_, ?_, h.published_eq.symm, ?_⟩
  · exact h.wellSized.publishAll pieces
  · show Ring.available _ + 0 ≤ (t.ring.publishAll pieces).size
    rw [← Ring.length_unread, hunread, Ring.publishAll_size]
    unfold Ring.HasRoom at hroom
    omega
  · show t.published ++ pieces.flatten = t.received ++ t.ring.unread ++ _
    rw [hunread, ← h.published_eq]

/-- **Every step keeps the traffic sound.** -/
theorem Sound.step (h : t.Sound) (hstep : t.Step t') : t'.Sound := by
  cases hstep with
  | publish bs hroom => exact h.publish hroom
  | read bs r hread =>
    rw [← Ring.readDuring_nil t.ring fun _ => 0] at hread
    have hroom : t.ring.HasRoom ([] : List Bytes).flatten.length := h.hasRoom
    have hsound := h.readDuring hroom hread
    rwa [List.flatten_nil, List.append_nil] at hsound
  | readDuring pieces moment bs r hroom hread => exact h.readDuring hroom hread

theorem Sound.run (h : t.Sound) (hrun : Relation.ReflTransGen Step t t') : t'.Sound := by
  induction hrun with
  | refl => exact h
  | tail _ hstep ih => exact ih.step hstep

theorem Sound.read_eq (h : t.Sound) {pieces : List Bytes}
    (hroom : t.ring.HasRoom pieces.flatten.length) (moment : Nat → Nat) :
    ∃ bs r, t.ring.readDuring pieces moment = .ok (bs, r) ∧ bs = t.ring.stretches ∧
      t.received ++ bs = t.published ∧ r.tail = t.ring.head :=
  ⟨_, _, Ring.readDuring_eq h.wellSized hroom moment, Ring.unread_eq_stretches h.hasRoom,
    h.published_eq.symm, rfl⟩

/-- **Reads give what was published, in order and once.** From an empty buffer
on, whatever its data area holds and wherever its positions begin, the reads
have given what was published when the last of them took the head. A read that
comes now gives the rest, which it finds in two stretches of the area, and moves
the tail to the head, also if the kernel goes on meanwhile. A kernel that claims
more than the data area holds is refused, and nothing of the machine changes. -/
theorem reads_all_published :
    (∀ (r : Ring) (t : RingTraffic), r.WellSized → r.head = r.tail →
      Relation.ReflTransGen Step { ring := r } t →
        t.received = t.seen ∧
        (∃ bs r', t.ring.read = .ok (bs, r') ∧ bs = t.ring.stretches ∧
          t.received ++ bs = t.published ∧ r'.tail = t.ring.head) ∧
        ∀ pieces moment, t.ring.HasRoom pieces.flatten.length →
          ∃ bs r', t.ring.readDuring pieces moment = .ok (bs, r') ∧ bs = t.ring.stretches ∧
            t.received ++ bs = t.published ∧ r'.tail = t.ring.head) ∧
      ∀ (m : Machine) (d : Descriptor) (r : Ring), m.ringOf? d = some r →
        r.size < r.available →
          Machine.drain d m = (.error (.corrupt (.ringOverrun r.available r.size)), m) := by
  refine ⟨fun r t hsize hempty hrun => ?_, fun m d r hring hover => ?_⟩
  · have hsound := (sound_of_empty hsize hempty).run hrun
    refine ⟨hsound.received_eq, ?_, fun pieces moment hroom => hsound.read_eq hroom moment⟩
    have hroom : t.ring.HasRoom ([] : List Bytes).flatten.length := hsound.hasRoom
    have hread := hsound.read_eq hroom fun _ => 0
    rwa [Ring.readDuring_nil] at hread
  · have hread : r.read = .error (.ringOverrun r.available r.size) := by
      rw [Ring.read_eq, if_pos hover]
    have hget : (get : Effect Machine Machine) m = (.ok m, m) := rfl
    have hrefused : Effect.ofExcept (r.read.mapError Error.corrupt) m =
        (.error (.corrupt (.ringOverrun r.available r.size)), m) := by rw [hread]; rfl
    unfold Machine.drain
    rw [Effect.bind_of_ok hget]
    simp only [hring]
    exact Effect.bind_of_error hrefused

/-- Places and positions start again from zero within these five bytes, two of
which are published while the first three are copied. To another buffer the
kernel adds one byte and claims sixteen more. -/
theorem reads_all_published_around :
    let empty : Ring := { size := 8, head := 0xfffffffffffffffd, tail := 0xfffffffffffffffd }
    let written := empty.publish [1, 2, 3] 0
    let machine : Machine :=
      { events := ⟨[(4, { attr := default, cpu := 0, ring? := some (empty.publish [1] 16) })]⟩ }
    empty.WellSized ∧ written.HasRoom 2 ∧
      (∃ bs r, written.readDuring [[4, 5]] (fun i => i) = .ok (bs, r) ∧ bs = [1, 2, 3] ∧
        r.tail = 0) ∧
      Machine.drain 4 machine = (.error (.corrupt (.ringOverrun 17 8)), machine) := by
  intro empty written machine
  have hsize : empty.WellSized := by decide
  have hroom : written.HasRoom 2 := by decide +kernel
  have hhead : written.head = 0 := by decide +kernel
  have hover : (empty.publish [1] 16).available = 17 := by decide +kernel
  have hrun : Relation.ReflTransGen Step { ring := empty }
      { ring := written, published := [1, 2, 3] } :=
    .single (.publish [1, 2, 3] (by decide +kernel))
  obtain ⟨-, -, hreads⟩ := reads_all_published.1 empty _ hsize rfl hrun
  obtain ⟨bs, r, hread, -, hbytes, htail⟩ := hreads [[4, 5]] (fun i => i) hroom
  refine ⟨hsize, hroom, ⟨bs, r, hread, hbytes, htail.trans hhead⟩, ?_⟩
  rw [← hover]
  exact reads_all_published.2 machine 4 (empty.publish [1] 16) rfl (by decide +kernel)

end RingTraffic
end Profiler
