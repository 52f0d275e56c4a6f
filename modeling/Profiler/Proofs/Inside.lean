/-
# Failures for want of bytes

Whatever bytes claim of themselves, a decoder that runs out of them has run out
of a buffer that it was given, or of a field inside it: it never asked for a
byte of anything else. Decoders are put together from steps and from each
other, and so is this property of them. Not every step follows a format that
bytes can be told by (`Parse.Follows`): a list until the buffer is used up, or a
field that is a buffer of its own, only stays inside (`Parse.Inside`).

Key definitions: `Corruption.RefusedUpTo`, `FailsInside`, `Parse.Inside`.
Key theorems: `FailsInside.bind`, `Parse.Inside.bind`, `Parse.Inside.times`,
`Parse.Inside.nested`, `Parse.Inside.value`, `Record.failsInside_decode`.
-/
import Profiler.Proofs.Record.Delimited

namespace Profiler

variable {α β : Type} {size n : Nat}

/-- Where the cause is that bytes were asked for, a buffer of at most this size
does not hold them. -/
def Corruption.RefusedUpTo (size : Nat) (e : Corruption) : Prop := ∃ n ≤ size, e.Refused n

theorem Corruption.Refused.upTo {e : Corruption} (h : e.Refused n) (hle : n ≤ size) :
    e.RefusedUpTo size := ⟨n, hle, h⟩

theorem Corruption.RefusedUpTo.mono {e : Corruption} (h : e.RefusedUpTo n) (hle : n ≤ size) :
    e.RefusedUpTo size := by
  obtain ⟨m, hm, hrefused⟩ := h
  exact ⟨m, Nat.le_trans hm hle, hrefused⟩

/-- Where decoding fails for want of bytes, it is at the end of a buffer of at
most this size. -/
def FailsInside (size : Nat) (x : Except Corruption α) : Prop :=
  ∀ e, x = .error e → e.RefusedUpTo size

namespace FailsInside

variable {x : Except Corruption α} {g : α → Except Corruption β}

theorem ok (a : α) : FailsInside size (.ok a) := by
  intro e h
  cases h

theorem error {e : Corruption} (h : e.RefusedUpTo size) :
    FailsInside size (.error e : Except Corruption α) := by
  rintro _ ⟨⟩
  exact h

theorem fault {e : Corruption} (h : e.Refused 0) :
    FailsInside size (.error e : Except Corruption α) := error (h.upTo (Nat.zero_le size))

theorem mono (h : FailsInside n x) (hle : n ≤ size) : FailsInside size x :=
  fun e he => (h e he).mono hle

theorem bind (hx : FailsInside size x) (hg : ∀ v, x = .ok v → FailsInside size (g v)) :
    FailsInside size (x >>= g) := by
  intro e h
  cases x with
  | error e' =>
    cases h
    exact hx e rfl
  | ok v => exact hg v rfl e h

theorem map (hx : FailsInside size x) (f : α → β) : FailsInside size (f <$> x) := by
  intro e h
  cases x with
  | error e' =>
    cases h
    exact hx e rfl
  | ok v => cases h

theorem guarded {c : Prop} [Decidable c] {e : Corruption} {g : PUnit → Except Corruption β}
    {y : Except Corruption β} (he : e.Refused 0) (hy : ¬ c → FailsInside size y) :
    FailsInside size (if c then (throw e >>= g) else y) := by
  split
  · exact fault he
  · next hc => exact hy hc

theorem mapM {g : α → Except Corruption β} {l : List α} (h : ∀ a ∈ l, FailsInside size (g a)) :
    FailsInside size (l.mapM g) := by
  induction l with
  | nil => exact ok []
  | cons a rest ih =>
    obtain ⟨ha, hrest⟩ := List.forall_mem_cons.mp h
    rw [List.mapM_cons]
    exact ha.bind fun v _ => (ih hrest).bind fun vs _ => ok _

theorem foldlM {g : β → α → Except Corruption β} {l : List α}
    (h : ∀ a ∈ l, ∀ b, FailsInside size (g b a)) (b : β) : FailsInside size (l.foldlM g b) := by
  induction l generalizing b with
  | nil => exact ok b
  | cons a rest ih =>
    obtain ⟨ha, hrest⟩ := List.forall_mem_cons.mp h
    rw [List.foldlM_cons]
    exact (ha b).bind fun b' _ => ih hrest b'

end FailsInside

namespace Parse

open Format

variable {p : Parse α} {f : α → Parse β} {F : Format α}

/-- From wherever in a buffer it is run, the step reads on from there and ends
inside; and if it fails for want of bytes, it is at the end of the buffer or of
a field in it. -/
structure Inside (p : Parse α) : Prop where
  consumed : ∀ {c v c'}, p c = .ok (v, c') →
    ∃ bs, c.rest = bs ++ c'.rest ∧ c'.position = c.position + bs.length
  refused : ∀ {c}, FailsInside c.bufferSize (p c)

theorem Follows.inside (h : Follows p F) : Inside p := by
  constructor
  · intro c v c' hok
    obtain ⟨bs, -, hrest⟩ := h.consumed hok
    exact ⟨bs, hrest⟩
  · intro c e herror
    exact (h.refused herror).upTo (Nat.le_refl _)

namespace Inside

theorem bufferSize_eq (h : Inside p) {c c' : Cursor} {v : α} (hok : p c = .ok (v, c')) :
    c'.bufferSize = c.bufferSize := by
  obtain ⟨bs, hrest, hposition⟩ := h.consumed hok
  rw [Cursor.bufferSize, Cursor.bufferSize, hrest, hposition, List.length_append]
  omega

theorem built (v : α) : Inside (pure v : Parse α) := (Follows.built v).inside

theorem bind (hp : Inside p) (hf : ∀ v, Inside (f v)) : Inside (p >>= f) := by
  constructor
  · intro c w c' hok
    obtain ⟨v, c₁, hpc, hfc⟩ := bind_eq_ok.mp hok
    obtain ⟨front, hfront, hposition⟩ := hp.consumed hpc
    obtain ⟨back, hback, hposition'⟩ := (hf v).consumed hfc
    refine ⟨front ++ back, ?_, ?_⟩
    · rw [hfront, hback, List.append_assoc]
    · rw [hposition', hposition, List.length_append, Nat.add_assoc]
  · intro c e herror
    rcases bind_eq_error.mp herror with h | ⟨v, c₁, hpc, hfc⟩
    · exact hp.refused e h
    · rw [← hp.bufferSize_eq hpc]
      exact (hf v).refused e hfc

theorem map (hp : Inside p) (g : α → β) : Inside (g <$> p) := by
  constructor
  · intro c w c' hok
    obtain ⟨v, hpc, -⟩ := map_eq_ok.mp hok
    exact hp.consumed hpc
  · intro c e herror
    exact hp.refused e (map_eq_error.mp herror)

theorem times (hp : Inside p) : ∀ n, Inside (Parse.times p n)
  | 0 => built []
  | n + 1 => hp.bind fun v => (times hp n).map (v :: ·)

theorem failAt {cause : Cursor → Corruption} (h : ∀ c, (cause c).RefusedUpTo c.bufferSize) :
    Inside (Parse.failAt cause : Parse α) := by
  constructor
  · intro c v c' hok
    cases hok
  · intro c
    exact FailsInside.error (h c)

theorem atEnd : Inside Parse.atEnd := by
  constructor
  · rintro c _ _ ⟨⟩
    exact ⟨[], rfl, rfl⟩
  · intro c
    exact FailsInside.ok _

theorem takeRest : Inside Parse.takeRest := by
  constructor
  · rintro c _ _ ⟨⟩
    exact ⟨c.rest, (List.append_nil _).symm, rfl⟩
  · intro c
    exact FailsInside.ok _

/-- A field that is decoded as a buffer of its own, and whose faults are those
of the step. -/
theorem nested {decode : Bytes → Except Corruption β} {q : Bytes → Parse β}
    (hdecode : ∀ bs, FailsInside bs.length (decode bs))
    (hok : ∀ bs v, decode bs = .ok v → q bs = pure v)
    (herror : ∀ bs e, decode bs = .error e → q bs = Parse.failAt fun _ => e) (n : Nat) :
    Inside (take n >>= q) := by
  have htake := (follows_take n).inside
  constructor
  · intro c w c' h
    obtain ⟨field, c₁, hfield, hrest⟩ := bind_eq_ok.mp h
    cases hresult : decode field with
    | error e =>
      rw [herror field e hresult] at hrest
      cases hrest
    | ok v =>
      rw [hok field v hresult] at hrest
      cases hrest
      exact htake.consumed hfield
  · intro c e h
    rcases bind_eq_error.mp h with hfield | ⟨field, c₁, hfield, hrest⟩
    · exact htake.refused e hfield
    · cases hresult : decode field with
      | ok v =>
        rw [hok field v hresult] at hrest
        cases hrest
      | error e' =>
        rw [herror field e' hresult] at hrest
        cases hrest
        obtain ⟨bs, ⟨-, hbs⟩, hsplit, -⟩ := (follows_take n).consumed hfield
        have hbs : bs = field := hbs
        have hle : field.length ≤ c.bufferSize := by
          rw [Cursor.bufferSize, hsplit, List.length_append, hbs]
          omega
        exact (hdecode field _ hresult).mono hle

theorem value (hp : Inside p) (bs : Bytes) : FailsInside bs.length (p.value bs) := by
  have hsize : (Cursor.start bs).bufferSize = bs.length := Nat.zero_add _
  rw [← hsize]
  exact hp.refused.map Prod.fst

end Inside
end Parse

/-! ### Records -/

theorem RecordHeader.failsInside_decode (bs : Bytes) :
    FailsInside bs.length (RecordHeader.decode bs) := RecordHeader.follows_parse.inside.value bs

namespace Record

theorem failsInside_decodeBody (a : Attr) (h : RecordHeader) (body : Bytes) :
    FailsInside body.length (decodeBody a h body) := by
  have hstays := parseBody_staysInside a h body
  unfold Parse.StaysInside at hstays
  refine FailsInside.bind ?_ fun r _ => ?_
  · intro e herror
    have hrun : parseBody a h (Cursor.start body) = .error e := herror
    rw [hrun] at hstays
    exact hstays.upTo (Nat.le_refl _)
  · dsimp only
    split
    · exact FailsInside.ok _
    · exact FailsInside.fault trivial

theorem failsInside_decodeReassembled (a : Attr) (bs : Bytes) :
    FailsInside bs.length (decodeReassembled a bs) := by
  refine (RecordHeader.failsInside_decode bs).bind fun h _ => ?_
  exact (failsInside_decodeBody a h _).mono (by simp)

/-- **Decoding a record never asks for bytes beyond it,** whatever its fields
claim. -/
theorem failsInside_decode (a : Attr) (bs : Bytes) : FailsInside bs.length (decode a bs) := by
  refine (RecordHeader.failsInside_decode bs).bind fun h _ => ?_
  refine FailsInside.guarded trivial fun _ => ?_
  exact (failsInside_decodeBody a h _).mono (by simp)

end Record
end Profiler
