/-
# Which bytes a parse step reads

A `Format` says which bytes stand for which values. A step follows a format
when it reads the bytes of a value wherever they are and whatever follows
them, never reads anything else, and asks for no byte outside its buffer
(`Parse.Follows`). Everything the record layer promises comes from that one
relation: what is written is read back, what is read is of the format, and
bytes that a step has read can be neither cut nor extended
(`Parse.Follows.prefix_free`).

The formats of a structure are put together field by field. A field is a
projection of the whole value, so that the format speaks of that value alone
and not of what the step had read so far (`Parse.Follows.field`).

Key definitions: `Format`, `Format.written`, `Format.andThen`,
`Format.selected`, `Format.text`, `Parse.Reads`, `Parse.Follows`,
`Parse.StaysInside`.
Key theorems: `Parse.Follows.bind`, `Parse.Follows.field`,
`Parse.Follows.prefix_free`, `Parse.follows_paddedText`.
-/
import Profiler.Bytes.Cursor
import Profiler.Proofs.Bytes
import Profiler.Proofs.Utf8

namespace Profiler

/-- Which bytes stand for which values. -/
abbrev Format (α : Type) := Bytes → α → Prop

namespace Format

variable {α β : Type}

/-- No bytes. -/
def nothing : Format α := fun bs _ => bs = []

/-- The bytes of a valid value are the ones that `encode` writes. -/
def written (encode : α → Bytes) (Valid : α → Prop) : Format α :=
  fun bs v => Valid v ∧ bs = encode v

/-- A part of the value, then the rest of it. -/
def andThen (F : Format α) (part : β → α) (G : Format β) : Format β :=
  fun bs w => ∃ front back, bs = front ++ back ∧ F front (part w) ∧ G back w

/-- A field that is there only when it is selected. -/
def selected (present : Bool) (F : Format α) (absent : α) : Format α :=
  fun bs v => if present then F bs v else bs = [] ∧ v = absent

/-- A text without NUL, a NUL, and any bytes up to the alignment. -/
def text (alignment : Nat) : Format String := fun bs s =>
  ∃ raw padding, bs = raw ++ 0 :: padding ∧ (0 : UInt8) ∉ raw ∧
    bs.length = alignUp (raw.length + 1) alignment ∧ s = Utf8.decode raw

theorem nothing_eq_written : (nothing : Format α) = written (fun _ => []) fun _ => True := by
  funext bs v
  simp [nothing, written]

theorem written_andThen (encode : α → Bytes) (Valid : α → Prop) (part : β → α) (G : Format β)
    (bs : Bytes) (w : β) : (written encode Valid).andThen part G bs w ↔
      Valid (part w) ∧ ∃ back, bs = encode (part w) ++ back ∧ G back w := by
  constructor
  · rintro ⟨front, back, rfl, ⟨hv, rfl⟩, hw⟩
    exact ⟨hv, back, rfl, hw⟩
  · rintro ⟨hv, back, rfl, hw⟩
    exact ⟨_, back, rfl, ⟨hv, rfl⟩, hw⟩

theorem written_andThen_written (encode : α → Bytes) (Valid : α → Prop) (part : β → α)
    (encode' : β → Bytes) (Valid' : β → Prop) :
    (written encode Valid).andThen part (written encode' Valid') =
      written (fun w => encode (part w) ++ encode' w) fun w => Valid (part w) ∧ Valid' w := by
  funext bs w
  rw [written_andThen]
  refine propext ⟨?_, ?_⟩
  · rintro ⟨hv, _, rfl, hw, rfl⟩
    exact ⟨⟨hv, hw⟩, rfl⟩
  · rintro ⟨⟨hv, hw⟩, rfl⟩
    exact ⟨hv, _, rfl, hw, rfl⟩

theorem selected_written (present : Bool) (encode : α → Bytes) (Valid : α → Prop) (absent : α) :
    selected present (written encode Valid) absent =
      written (fun v => Bytes.whenSelected present (encode v))
        fun v => if present then Valid v else v = absent := by
  funext bs v
  cases present <;> simp [selected, written, Bytes.whenSelected, and_comm]

end Format

/-- Where the cause is that bytes were asked for, a buffer of this size does
not hold them. -/
def Corruption.Refused (size : Nat) : Corruption → Prop
  | .shortRead length position bufferSize => bufferSize = size ∧ size < position + length
  | .longArray count position => size < position + count * 8
  | .unterminated position => position ≤ size
  | _ => True

namespace Parse

open Format

variable {α β : Type} {p : Parse α} {f : α → Parse β} {F : Format α} {G : α → Format β}

/-- The step reads these bytes as this value, wherever they are and whatever
follows them. -/
def Reads (p : Parse α) (bs : Bytes) (v : α) : Prop :=
  ∀ position rest, p ⟨position, bs ++ rest⟩ = .ok (v, ⟨position + bs.length, rest⟩)

/-- The step reads the bytes of a format and no others, and asks for no byte
outside the buffer. -/
structure Follows (p : Parse α) (F : Format α) : Prop where
  reads : ∀ {bs v}, F bs v → Reads p bs v
  consumed : ∀ {c v c'}, p c = .ok (v, c') →
    ∃ bs, F bs v ∧ c.rest = bs ++ c'.rest ∧ c'.position = c.position + bs.length
  refused : ∀ {c e}, p c = .error e → e.Refused c.bufferSize

/-- Reading from the start of a buffer ends inside it, or with the refusal of a
read that would leave it. -/
def StaysInside (p : Parse α) (bs : Bytes) : Prop :=
  match p (Cursor.start bs) with
  | .ok (_, c) => c.position ≤ bs.length ∧ c.rest = bs.drop c.position
  | .error e => e.Refused bs.length

/-! ### Steps one after another -/

theorem bind_eq_ok {c c' : Cursor} {w : β} :
    (p >>= f) c = .ok (w, c') ↔ ∃ v c₁, p c = .ok (v, c₁) ∧ f v c₁ = .ok (w, c') := by
  have hrun : (p >>= f) c = (p c).bind fun r => f r.1 r.2 := rfl
  rw [hrun]
  cases p c with
  | error e => simp [Except.bind]
  | ok r =>
    obtain ⟨v, c₁⟩ := r
    constructor
    · exact fun h => ⟨v, c₁, rfl, h⟩
    · rintro ⟨_, _, h, hf⟩
      cases h
      exact hf

theorem map_eq_ok {g : α → β} {c c' : Cursor} {w : β} :
    (g <$> p) c = .ok (w, c') ↔ ∃ v, p c = .ok (v, c') ∧ w = g v := by
  have hrun : (g <$> p) c = (p c).map fun r => (g r.1, r.2) := rfl
  rw [hrun]
  cases p c with
  | error e => simp [Except.map]
  | ok r =>
    obtain ⟨v, c₁⟩ := r
    simp only [Except.map, Except.ok.injEq, Prod.mk.injEq]
    exact ⟨fun ⟨hv, hc⟩ => ⟨v, ⟨rfl, hc⟩, hv.symm⟩, fun ⟨_, ⟨hv, hc⟩, hw⟩ => ⟨hv ▸ hw.symm, hc⟩⟩

theorem bind_eq_error {c : Cursor} {e : Corruption} :
    (p >>= f) c = .error e ↔ p c = .error e ∨ ∃ v c₁, p c = .ok (v, c₁) ∧ f v c₁ = .error e := by
  have hrun : (p >>= f) c = (p c).bind fun r => f r.1 r.2 := rfl
  rw [hrun]
  cases p c with
  | error e' => simp [Except.bind]
  | ok r =>
    obtain ⟨v, c₁⟩ := r
    constructor
    · exact fun h => .inr ⟨v, c₁, rfl, h⟩
    · rintro (h | ⟨_, _, h, hf⟩)
      · cases h
      · cases h
        exact hf

theorem map_eq_error {g : α → β} {c : Cursor} {e : Corruption} :
    (g <$> p) c = .error e ↔ p c = .error e := by
  have hrun : (g <$> p) c = (p c).map fun r => (g r.1, r.2) := rfl
  rw [hrun]
  cases p c with
  | error e' => simp [Except.map]
  | ok r => simp [Except.map]

theorem Reads.bind {front back : Bytes} {v : α} {w : β} (hp : Reads p front v)
    (hf : Reads (f v) back w) : Reads (p >>= f) (front ++ back) w := by
  intro position rest
  refine bind_eq_ok.mpr ⟨v, _, by rw [List.append_assoc]; exact hp position (back ++ rest), ?_⟩
  rw [List.length_append, ← Nat.add_assoc]
  exact hf _ rest

theorem Reads.map {g : α → β} {bs : Bytes} {v : α} (hp : Reads p bs v) :
    Reads (g <$> p) bs (g v) :=
  fun position rest => map_eq_ok.mpr ⟨v, hp position rest, rfl⟩

theorem Reads.built (v : α) : Reads (pure v : Parse α) [] v := fun _ _ => rfl

theorem Reads.bind_built {bs : Bytes} {v : α} {w : β} (hp : Reads p bs v) (hf : f v = pure w) :
    Reads (p >>= f) bs w := by
  have h := hp.bind (hf ▸ Reads.built w)
  rwa [List.append_nil] at h

namespace Follows

theorem congr (hp : Follows p F) {F' : Format α} (h : ∀ bs v, F bs v ↔ F' bs v) : Follows p F' :=
  have : F = F' := funext fun bs => funext fun v => propext (h bs v)
  this ▸ hp

theorem bufferSize_eq (hp : Follows p F) {c c' : Cursor} {v : α} (h : p c = .ok (v, c')) :
    c'.bufferSize = c.bufferSize := by
  obtain ⟨bs, -, hrest, hposition⟩ := hp.consumed h
  rw [Cursor.bufferSize, Cursor.bufferSize, hrest, hposition, List.length_append]
  omega

/-- A step whose continuation lets the value of the first part be told from
the whole. -/
theorem bind (part : β → α) (hp : Follows p F) (hf : ∀ v, Follows (f v) (G v))
    (hpart : ∀ {v bs w}, F bs v → ∀ {back}, G v back w → part w = v) :
    Follows (p >>= f) fun bs w => F.andThen part (G (part w)) bs w := by
  constructor
  · rintro _ w ⟨front, back, rfl, hfront, hback⟩
    exact (hp.reads hfront).bind ((hf _).reads hback)
  · intro c w c' h
    obtain ⟨v, c₁, hpc, hfc⟩ := bind_eq_ok.mp h
    obtain ⟨front, hfront, hrest, hposition⟩ := hp.consumed hpc
    obtain ⟨back, hback, hrest', hposition'⟩ := (hf v).consumed hfc
    have hw : part w = v := hpart hfront hback
    refine ⟨front ++ back, ⟨front, back, rfl, by rwa [hw], by rwa [hw]⟩, ?_, ?_⟩
    · rw [hrest, hrest', List.append_assoc]
    · rw [hposition', hposition, List.length_append, Nat.add_assoc]
  · intro c e h
    rcases bind_eq_error.mp h with h | ⟨v, c₁, hpc, hfc⟩
    · exact hp.refused h
    · exact hp.bufferSize_eq hpc ▸ (hf v).refused hfc

/-- A step that reads one field of a structure: `rebuild v` puts the field into
a structure whose other fields come later. -/
theorem field {rebuild : α → β → β} {G : Format β} (part : β → α)
    (hpart : ∀ v w, part (rebuild v w) = v) (hp : Follows p F)
    (hf : ∀ v, Follows (f v) fun bs w => G bs w ∧ w = rebuild v w) :
    Follows (p >>= f) fun bs w => F.andThen part G bs w ∧ w = rebuild (part w) w := by
  have h := bind part hp hf fun {v _ w} _ {_} ⟨_, hw⟩ => by rw [hw, hpart]
  refine h.congr fun bs w => ⟨?_, ?_⟩
  · rintro ⟨front, back, hbs, hF, hG, hw⟩
    exact ⟨⟨front, back, hbs, hF, hG⟩, hw⟩
  · rintro ⟨⟨front, back, hbs, hF, hG⟩, hw⟩
    exact ⟨front, back, hbs, hF, hG, hw⟩

theorem built (v : α) : Follows (pure v : Parse α) fun bs w => nothing bs w ∧ w = v := by
  constructor
  · rintro _ _ ⟨rfl, rfl⟩ position rest
    rfl
  · intro c w c' h
    cases h
    exact ⟨[], ⟨rfl, rfl⟩, rfl, rfl⟩
  · intro c e h
    cases h

theorem map (hp : Follows p F) (g : α → β) : Follows (g <$> p) fun bs w => ∃ v, F bs v ∧ w = g v := by
  constructor
  · rintro bs _ ⟨v, hv, rfl⟩
    exact (hp.reads hv).map
  · intro c w c' h
    obtain ⟨v, hpc, rfl⟩ := map_eq_ok.mp h
    obtain ⟨bs, hv, hrest⟩ := hp.consumed hpc
    exact ⟨bs, ⟨v, hv, rfl⟩, hrest⟩
  · intro c e h
    exact hp.refused (map_eq_error.mp h)

theorem map_written {encode : α → Bytes} {Valid : α → Prop} (hp : Follows p (written encode Valid))
    (g : α → β) (back : β → α) (Valid' : β → Prop) (hg : ∀ v, Valid v → Valid' (g v) ∧ back (g v) = v)
    (hback : ∀ w, Valid' w → Valid (back w) ∧ g (back w) = w) :
    Follows (g <$> p) (written (encode ∘ back) Valid') := by
  refine (hp.map g).congr fun bs w => ⟨?_, ?_⟩
  · rintro ⟨v, ⟨hv, rfl⟩, rfl⟩
    exact ⟨(hg v hv).1, by rw [Function.comp_apply, (hg v hv).2]⟩
  · rintro ⟨hw, rfl⟩
    exact ⟨back w, ⟨(hback w hw).1, rfl⟩, (hback w hw).2.symm⟩

theorem whenSelected (hp : Follows p F) (present : Bool) (absent : α) :
    Follows (whenSelected present p absent) (F.selected present absent) := by
  cases present with
  | true => exact hp.congr fun bs v => by simp [selected]
  | false => exact (built absent).congr fun bs v => by simp [selected, nothing]

/-! ### What a format gives -/

/-- Bytes that were read cannot be extended, and hence not cut. -/
theorem prefix_free (hp : Follows p F) {bs more : Bytes} {v w : α} (h : F bs v)
    (h' : F (bs ++ more) w) : more = [] := by
  have hshort := hp.reads h 0 more
  have hlong := hp.reads h' 0 []
  rw [List.append_nil, hshort] at hlong
  injection hlong with hlong
  injection hlong with _ hcursor
  exact congrArg Cursor.rest hcursor

/-- A buffer that a step uses up is the bytes of the value. -/
theorem run_eq_ok_iff (hp : Follows p F) {bs : Bytes} {v : α} :
    (∃ c, p (Cursor.start bs) = .ok (v, c) ∧ c.rest = []) ↔ F bs v := by
  constructor
  · rintro ⟨c, h, hrest⟩
    obtain ⟨front, hfront, hsplit, -⟩ := hp.consumed h
    rw [hrest, List.append_nil] at hsplit
    have : bs = front := hsplit
    rwa [this]
  · intro h
    have := hp.reads h 0 []
    rw [List.append_nil] at this
    exact ⟨_, this, rfl⟩

/-- A step that follows a format does not leave any buffer. -/
theorem staysInside (hp : Follows p F) (bs : Bytes) : p.StaysInside bs := by
  unfold StaysInside
  cases h : p (Cursor.start bs) with
  | error e => simpa [Cursor.bufferSize, Cursor.start] using hp.refused h
  | ok r =>
    obtain ⟨v, c⟩ := r
    obtain ⟨front, -, hrest, hposition⟩ := hp.consumed h
    have hrest : bs = front ++ c.rest := hrest
    have hposition : c.position = front.length := hposition.trans (Nat.zero_add _)
    simp only [hposition]
    refine ⟨?_, ?_⟩
    · rw [hrest, List.length_append]
      exact Nat.le_add_right _ _
    · have hdrop : (front ++ c.rest).drop front.length = c.rest := List.drop_left' rfl
      rw [hrest, hdrop]

end Follows

theorem follows_failAt {cause : Cursor → Corruption} (h : ∀ c, (cause c).Refused c.bufferSize) :
    Follows (failAt cause : Parse α) fun _ _ => False := by
  constructor
  · exact fun hf => hf.elim
  · intro c v c' hok
    cases hok
  · intro c e herror
    cases herror
    exact h c

/-! ### Fields -/

theorem follows_take (n : Nat) : Follows (take n) (written id fun bs => bs.length = n) := by
  constructor
  · rintro _ bs ⟨hlen, rfl⟩ position rest
    simp [take, Bytes.splitAt?_append rest hlen, hlen]
  · intro c v c' h
    unfold take at h
    split at h
    · next front rest hsplit =>
      cases h
      obtain ⟨hrest, hlen⟩ := Bytes.splitAt?_eq_some_iff.mp hsplit
      exact ⟨v, ⟨hlen, rfl⟩, hrest, by rw [hlen]⟩
    · cases h
  · intro c e h
    unfold take at h
    split at h
    · cases h
    · next hsplit =>
      cases h
      exact ⟨rfl, Nat.add_lt_add_left (Bytes.splitAt?_eq_none_iff.mp hsplit) _⟩

theorem follows_word {width : Nat} {word : Bytes → α} {bytes : α → Bytes}
    (hword : ∀ v, word (bytes v) = v) (hlen : ∀ v, (bytes v).length = width)
    (hbytes : ∀ bs : Bytes, bs.length = width → bytes (word bs) = bs) :
    Follows (do return word (← take width)) (written bytes fun _ => True) := by
  have h := (follows_take width).map_written word bytes (fun _ => True)
    (fun bs hbs => ⟨trivial, hbytes bs hbs⟩) fun v _ => ⟨hlen v, hword v⟩
  exact h

theorem follows_u16 : Follows u16 (written Bytes.u16 fun _ => True) :=
  follows_word Bytes.ofNat_toNat_u16 Bytes.length_u16 fun _ => Bytes.u16_ofNat_toNat

theorem follows_u32 : Follows u32 (written Bytes.u32 fun _ => True) :=
  follows_word Bytes.ofNat_toNat_u32 Bytes.length_u32 fun _ => Bytes.u32_ofNat_toNat

theorem follows_u64 : Follows u64 (written Bytes.u64 fun _ => True) :=
  follows_word Bytes.ofNat_toNat_u64 Bytes.length_u64 fun _ => Bytes.u64_ofNat_toNat

theorem follows_skip (n : Nat) : Follows (skip n) fun bs _ => bs.length = n := by
  have h : Follows (skip n) _ := (follows_take n).map fun _ => ()
  refine h.congr fun bs _ => ⟨?_, fun hlen => ⟨bs, ⟨hlen, rfl⟩, rfl⟩⟩
  rintro ⟨_, ⟨hlen, rfl⟩, -⟩
  exact hlen

theorem follows_u64s (count : Nat) :
    Follows (u64s count) (written Bytes.u64s fun vs => vs.length = count) := by
  constructor
  · rintro _ vs ⟨rfl, rfl⟩ position rest
    have hlen : (Bytes.u64s vs).length = vs.length * 8 := by rw [Bytes.length_u64s, Nat.mul_comm]
    have hwords : Bytes.words vs.length (Bytes.u64s vs) = vs := by
      simpa using Bytes.words_u64s vs []
    simp only [u64s, Bytes.splitAt?_append rest hlen, hwords, hlen]
  · intro c v c' h
    unfold u64s at h
    split at h
    · next front rest hsplit =>
      cases h
      obtain ⟨hrest, hlen⟩ := Bytes.splitAt?_eq_some_iff.mp hsplit
      exact ⟨front, ⟨Bytes.length_words count front, (Bytes.u64s_words count front hlen).symm⟩,
        hrest, by rw [hlen]⟩
    · cases h
  · intro c e h
    unfold u64s at h
    split at h
    · cases h
    · next hsplit =>
      cases h
      exact Nat.add_lt_add_left (Bytes.splitAt?_eq_none_iff.mp hsplit) _

theorem reads_u32 (v : UInt32) : Reads u32 (Bytes.u32 v) v := follows_u32.reads ⟨trivial, rfl⟩

theorem reads_u64 (v : UInt64) : Reads u64 (Bytes.u64 v) v := follows_u64.reads ⟨trivial, rfl⟩

theorem reads_take {bs : Bytes} {n : Nat} (h : bs.length = n) : Reads (take n) bs bs :=
  (follows_take n).reads ⟨h, rfl⟩

theorem reads_u64s {vs : List UInt64} {n : Nat} (h : vs.length = n) :
    Reads (u64s n) (Bytes.u64s vs) vs := (follows_u64s n).reads ⟨h, rfl⟩

theorem follows_times {encode : α → Bytes} {Valid : α → Prop} (hp : Follows p (written encode Valid)) :
    ∀ n, Follows (times p n)
      (written (fun vs => vs.flatMap encode) fun vs => vs.length = n ∧ ∀ v ∈ vs, Valid v)
  | 0 => (Follows.built []).congr fun bs vs => by
    constructor
    · rintro ⟨rfl, rfl⟩
      simp [written]
    · rintro ⟨⟨hlen, -⟩, rfl⟩
      obtain rfl := List.length_eq_zero_iff.mp hlen
      exact ⟨rfl, rfl⟩
  | n + 1 => by
    constructor
    · rintro _ vs ⟨⟨hlen, hv⟩, rfl⟩
      obtain ⟨v, vs, rfl⟩ := List.exists_cons_of_length_eq_add_one hlen
      have hvs : ∀ u ∈ vs, Valid u := fun u hu => hv u (List.mem_cons_of_mem v hu)
      exact (hp.reads ⟨hv v List.mem_cons_self, rfl⟩).bind
        (((follows_times hp n).reads ⟨⟨by simpa using hlen, hvs⟩, rfl⟩).map)
    · intro c vs c' h
      obtain ⟨v, c₁, hpc, htail⟩ := bind_eq_ok.mp h
      obtain ⟨tail, hpc', rfl⟩ := map_eq_ok.mp htail
      obtain ⟨_, ⟨hv, rfl⟩, hrest, hposition⟩ := hp.consumed hpc
      obtain ⟨_, ⟨⟨hlen, hvs⟩, rfl⟩, hrest', hposition'⟩ := (follows_times hp n).consumed hpc'
      refine ⟨_, ⟨⟨by simp [hlen], ?_⟩, rfl⟩, ?_, ?_⟩
      · exact List.forall_mem_cons.mpr ⟨hv, hvs⟩
      · simp only [hrest, hrest', List.flatMap_cons, List.append_assoc]
      · simp only [hposition', hposition, List.flatMap_cons, List.length_append, Nat.add_assoc]
    · intro c e h
      rcases bind_eq_error.mp h with h | ⟨v, c₁, hpc, htail⟩
      · exact hp.refused h
      · exact hp.bufferSize_eq hpc ▸ (follows_times hp n).refused (map_eq_error.mp htail)

theorem follows_paddedText {alignment : Nat} (h : 0 < alignment) :
    Follows (paddedText alignment) (Format.text alignment) := by
  constructor
  · rintro _ _ ⟨raw, padding, rfl, hraw, hlen, rfl⟩ position rest
    have hnul : Bytes.untilNul? ((raw ++ 0 :: padding) ++ rest) = some (raw, padding ++ rest) :=
      Bytes.untilNul?_eq_some_iff.mpr ⟨by simp, hraw⟩
    have hskip := (follows_skip _).reads (v := ()) hlen position rest
    simp only [paddedText, hnul, hskip]
    rfl
  · intro c s c' hc
    unfold paddedText at hc
    split at hc
    · cases hc
    · next raw tail hnul =>
      obtain ⟨hrest, hraw⟩ := Bytes.untilNul?_eq_some_iff.mp hnul
      generalize hskip : skip (alignUp (raw.length + 1) alignment) c = result at hc
      cases result with
      | error e => cases hc
      | ok r =>
        obtain ⟨⟨⟩, c₁⟩ := r
        cases hc
        obtain ⟨bs, hlen, hsplit, hposition⟩ := (follows_skip _).consumed hskip
        have hle : raw.length + 1 ≤ bs.length := hlen ▸ le_alignUp _ _ h
        -- the NUL is among the bytes passed over, so these begin with the text and the NUL
        have hbs : bs = raw ++ 0 :: bs.drop (raw.length + 1) := by
          have hfront : bs.take (raw.length + 1) = (raw ++ [0]).take (raw.length + 1) := by
            have := congrArg (List.take (raw.length + 1)) (hsplit.symm.trans hrest)
            rw [List.take_append_of_le_length hle] at this
            rw [this]
            simp [List.take_append]
          have hsplit' := List.take_append_drop (raw.length + 1) bs
          rw [hfront, List.take_of_length_le (by simp)] at hsplit'
          simpa using hsplit'.symm
        exact ⟨bs, ⟨raw, _, hbs, hraw, hlen, rfl⟩, hsplit, hposition⟩
  · intro c e h
    unfold paddedText at h
    split at h
    · cases h
      exact Nat.le_add_right _ _
    · next raw tail hnul =>
      generalize hskip : skip (alignUp (raw.length + 1) alignment) c = result at h
      cases result with
      | error e' =>
        cases h
        exact (follows_skip _).refused hskip
      | ok r => cases h

end Parse

/-! ### Padded texts -/

namespace Format

theorem text_paddedText {s : String} (hs : '\x00' ∉ s.toList) {alignment : Nat}
    (h : 0 < alignment) : text alignment (Bytes.paddedText s alignment) s := by
  have hle : s.utf8ByteSize + 1 ≤ Bytes.paddedTextLength s alignment := le_alignUp _ _ h
  have hlen := Utf8.length_encode s
  refine ⟨Utf8.encode s, List.replicate (Bytes.paddedTextLength s alignment -
    (s.utf8ByteSize + 1)) 0, ?_, mt Utf8.zero_mem_encode_iff.mp hs, ?_,
    (Utf8.decode_encode s).symm⟩
  · rw [Bytes.paddedText, Bytes.fixed_eq_append (by omega), hlen, ← List.replicate_succ]
    congr 2
    omega
  · rw [Bytes.paddedText, Bytes.length_fixed, Bytes.paddedTextLength, hlen]

theorem nul_not_mem_of_text {alignment : Nat} {bs : Bytes} {s : String}
    (h : text alignment bs s) : '\x00' ∉ s.toList := by
  obtain ⟨raw, padding, -, hraw, -, rfl⟩ := h
  exact Utf8.nul_not_mem_decode hraw

end Format

end Profiler
