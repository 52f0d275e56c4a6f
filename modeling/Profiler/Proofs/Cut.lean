/-
# Buffers that were cut short

A step is local when the bytes that it passes over decide what it reads: more
bytes behind them change nothing (`Parse.Local`). A local step that reads some
bytes therefore fails on every shorter beginning of them (`Parse.Local.fails`).

A list that is stored without its length is read until the buffer is used up.
The beginning of such a list is then read where it ends between two entries,
and refused where it ends inside one: `Listing` collects what that takes of a
single entry.

Key definitions: `Parse.Local`, `Listing`.
Key theorems: `Parse.Follows.isLocal`, `Parse.Local.bind`, `Parse.Local.fails`,
`Listing.gives`, `Listing.between_or_fails`, `Listing.decode_eq_ok_iff`.
-/
import Mathlib.Data.List.Infix
import Profiler.Proofs.Format

namespace Profiler

variable {α β : Type}

namespace Parse

open Format

variable {p : Parse α} {f : α → Parse β} {F : Format α} {bs front : Bytes} {v w : α}

/-- What is read is decided by the bytes that were passed over. -/
def Local (p : Parse α) : Prop := ∀ ⦃c c' : Cursor⦄ ⦃v : α⦄, p c = .ok (v, c') →
  ∀ more, p ⟨c.position, c.rest ++ more⟩ = .ok (v, ⟨c'.position, c'.rest ++ more⟩)

theorem Follows.isLocal (hp : Follows p F) : Local p := by
  intro c c' v h more
  obtain ⟨bs, hF, hrest, hposition⟩ := hp.consumed h
  rw [hrest, hposition, List.append_assoc]
  exact hp.reads hF c.position (c'.rest ++ more)

namespace Local

theorem built (v : α) : Local (pure v : Parse α) := (Follows.built v).isLocal

theorem bind (hp : Local p) (hf : ∀ v, Local (f v)) : Local (p >>= f) := by
  intro c c' w h more
  obtain ⟨v, c₁, hpc, hfc⟩ := bind_eq_ok.mp h
  exact bind_eq_ok.mpr ⟨v, _, hp hpc more, hf v hfc more⟩

theorem times (hp : Local p) : ∀ n, Local (Parse.times p n)
  | 0 => built []
  | n + 1 => hp.bind fun _ => (times hp n).bind fun _ => built _

theorem failAt (cause : Cursor → Corruption) : Local (Parse.failAt cause : Parse α) := by
  intro c c' v h
  cases h

/-- A field of a given length that is decoded on its own. -/
theorem nested (decode : Bytes → Except Corruption α) {q : Bytes → Parse α}
    (hok : ∀ bs v, decode bs = .ok v → q bs = pure v)
    (herror : ∀ bs e, decode bs = .error e → q bs = Parse.failAt fun _ => e) (size : Nat) :
    Local (Parse.take size >>= q) := by
  refine (follows_take size).isLocal.bind fun bs => ?_
  cases h : decode bs with
  | ok v => exact hok bs v h ▸ built v
  | error e => exact herror bs e h ▸ failAt _

/-- **Bytes that a step reads cannot be cut.** -/
theorem fails (hp : Local p) (hreads : Reads p bs v) (hfront : front <+: bs) (hne : front ≠ bs)
    (position : Nat) : ∃ e, p ⟨position, front⟩ = .error e := by
  cases hcut : p ⟨position, front⟩ with
  | error e => exact ⟨e, rfl⟩
  | ok r =>
    obtain ⟨w, c⟩ := r
    obtain ⟨more, rfl⟩ := hfront
    -- read to the end with the bytes that were cut off, nothing is left; so nothing was cut off
    have hwhole : p ⟨position, front ++ more⟩ = _ := hp hcut more
    have hall : p ⟨position, front ++ more⟩ = _ := List.append_nil (front ++ more) ▸
      hreads position []
    rw [hwhole] at hall
    simp only [Except.ok.injEq, Prod.mk.injEq, Cursor.mk.injEq, List.append_eq_nil_iff] at hall
    exact absurd (by rw [hall.2.2.2, List.append_nil]) hne

end Local

theorem Reads.value (hp : Reads p bs v) : p.value bs = .ok v := by
  have hrun : p.run (Cursor.start bs) = _ := List.append_nil bs ▸ hp 0 []
  rw [Parse.value, hrun]
  rfl

theorem Local.value_fails (hp : Local p) (hreads : Reads p bs v) (hfront : front <+: bs)
    (hne : front ≠ bs) : ∃ e, p.value front = .error e := by
  obtain ⟨e, he⟩ := hp.fails hreads hfront hne 0
  have hrun : p.run (Cursor.start front) = _ := he
  rw [Parse.value, hrun]
  exact ⟨e, rfl⟩

theorem Reads.times {encode : α → Bytes} {vs : List α} (h : ∀ v ∈ vs, Reads p (encode v) v) :
    Reads (Parse.times p vs.length) (vs.flatMap encode) vs := by
  induction vs with
  | nil => exact Reads.built []
  | cons v vs ih =>
    obtain ⟨hv, hvs⟩ := List.forall_mem_cons.mp h
    exact hv.bind ((ih hvs).map)

end Parse

/-! ### Lists that end with the buffer -/

/-- How a buffer is read as a list of entries until it is used up, where
`Gives bs vs` says that the bytes are read as these entries and `Fails bs`
that they are refused. -/
structure Listing (encode : α → Bytes) (Valid : α → Prop) (Gives : Bytes → List α → Prop)
    (Fails : Bytes → Prop) : Prop where
  nil : Gives [] []
  cons : ∀ {v rest vs}, Valid v → Gives rest vs → Gives (encode v ++ rest) (v :: vs)
  fails_cons : ∀ {v rest}, Valid v → Fails rest → Fails (encode v ++ rest)
  fails_cut : ∀ {v front}, Valid v → front <+: encode v → front ≠ [] → front ≠ encode v →
    Fails front

namespace Listing

variable {encode : α → Bytes} {Valid : α → Prop} {Gives : Bytes → List α → Prop}
  {Fails : Bytes → Prop} {front : Bytes} {vs : List α}

theorem gives (h : Listing encode Valid Gives Fails) (hvs : ∀ v ∈ vs, Valid v) :
    Gives (vs.flatMap encode) vs := by
  induction vs with
  | nil => exact h.nil
  | cons v vs ih =>
    obtain ⟨hv, hvs⟩ := List.forall_mem_cons.mp hvs
    exact h.cons hv (ih hvs)

/-- **A cut is between two entries, or is refused.** -/
theorem between_or_fails (h : Listing encode Valid Gives Fails) (hvs : ∀ v ∈ vs, Valid v)
    (hfront : front <+: vs.flatMap encode) :
    (∃ ws, ws <+: vs ∧ front = ws.flatMap encode) ∨ Fails front := by
  induction vs generalizing front with
  | nil => exact .inl ⟨[], List.prefix_rfl, List.prefix_nil.mp hfront⟩
  | cons v vs ih =>
    obtain ⟨hv, hvs⟩ := List.forall_mem_cons.mp hvs
    rw [List.flatMap_cons] at hfront
    rcases List.prefix_or_prefix_of_prefix hfront (List.prefix_append _ _) with hcut | hwhole
    · by_cases hnil : front = []
      · exact .inl ⟨[], List.nil_prefix, hnil⟩
      by_cases hall : front = encode v
      · exact .inl ⟨[v], List.cons_prefix_cons.mpr ⟨rfl, List.nil_prefix⟩, by simp [hall]⟩
      · exact .inr (h.fails_cut hv hcut hnil hall)
    · obtain ⟨back, rfl⟩ := hwhole
      have hback : back <+: vs.flatMap encode := (List.prefix_append_right_inj _).mp hfront
      rcases ih hvs hback with ⟨ws, hws, rfl⟩ | hfails
      · exact .inl ⟨v :: ws, List.cons_prefix_cons.mpr ⟨rfl, hws⟩, rfl⟩
      · exact .inr (h.fails_cons hv hfails)

/-- **The beginning of a list is decoded exactly where it ends between two
entries, and gives the entries before.** -/
theorem decode_eq_ok_iff (h : Listing encode Valid Gives Fails) (hvs : ∀ v ∈ vs, Valid v)
    {ε : Type} {decode : Bytes → Except ε β} (entries : β → List α)
    (hentries : ∀ {w w'}, entries w = entries w' → w = w')
    (hgives : ∀ {ws}, ws <+: vs → Gives (ws.flatMap encode) ws →
      ∃ w, entries w = ws ∧ decode (ws.flatMap encode) = .ok w)
    (hfails : ∀ {bs}, Fails bs → ∃ e, decode bs = .error e)
    (hfront : front <+: vs.flatMap encode) {w : β} :
    decode front = .ok w ↔ entries w <+: vs ∧ front = (entries w).flatMap encode := by
  have hread : ∀ {ws}, ws <+: vs → ∃ w, entries w = ws ∧ decode (ws.flatMap encode) = .ok w :=
    fun hws => hgives hws (h.gives fun v hv => hvs v (hws.subset hv))
  constructor
  · intro hok
    rcases h.between_or_fails hvs hfront with ⟨ws, hws, rfl⟩ | hfail
    · obtain ⟨w', rfl, hw'⟩ := hread hws
      obtain rfl : w' = w := Except.ok.inj (hw'.symm.trans hok)
      exact ⟨hws, rfl⟩
    · obtain ⟨e, he⟩ := hfails hfail
      rw [he] at hok
      cases hok
  · rintro ⟨hws, rfl⟩
    obtain ⟨w', hentries', hw'⟩ := hread hws
    rw [hw', hentries hentries']

end Listing

end Profiler
