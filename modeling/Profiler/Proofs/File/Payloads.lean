/-
# Decoders of a file stay inside their bytes

The header, the entries of the attr table and the payloads of all features are
decoded without a byte beyond them being asked for, whatever counts and lengths
they claim. Only few of them follow a format that tells bytes apart, so this is
shown of their steps directly (`Parse.Inside`); the two payloads that are lists
of unknown length go through what is left of them piece by piece.

Key definition: `Parse.Takes`.
Key theorems: `Attr.decode_ok`, `FileAttr.failsInside_decode`,
`FileHeader.inside_parse`, `EventDesc.inside_parse`, `FileEntry.inside_parseAll`,
`BuildIdList.failsInside_decodeFrom`, `MetaInfo.failsInside_decodeInto`.
-/
import Profiler.File.Payload
import Profiler.Proofs.File.Tables
import Profiler.Proofs.Inside

namespace Profiler

open Parse

variable {α β : Type}

/-! ### Fields of fixed size -/

/-- The step reads so many bytes wherever they are there. -/
def Parse.Takes (p : Parse α) (n : Nat) : Prop :=
  ∀ c, n ≤ c.rest.length → ∃ v c', p c = .ok (v, c') ∧ c.rest.length = n + c'.rest.length

namespace Parse.Takes

variable {p : Parse α} {f : α → Parse β} {m n : Nat}

theorem built (v : α) : Takes (pure v : Parse α) 0 := fun c _ => ⟨v, c, rfl, (Nat.zero_add _).symm⟩

theorem bind (hp : Takes p m) (hf : ∀ v, Takes (f v) n) : Takes (p >>= f) (m + n) := by
  intro c hc
  obtain ⟨v, c₁, hpc, hrest⟩ := hp c (by omega)
  obtain ⟨w, c', hfc, hrest'⟩ := hf v c₁ (by omega)
  exact ⟨w, c', bind_eq_ok.mpr ⟨v, c₁, hpc, hfc⟩, by omega⟩

theorem take (n : Nat) : Takes (Parse.take n) n := by
  intro c hc
  have hlen : (c.rest.take n).length = n := by
    rw [List.length_take]
    omega
  have hreads := (follows_take n).reads (v := c.rest.take n) ⟨hlen, rfl⟩ c.position (c.rest.drop n)
  have hcursor : (⟨c.position, id (c.rest.take n) ++ c.rest.drop n⟩ : Cursor) = c := by
    rw [id, List.take_append_drop]
  rw [hcursor] at hreads
  refine ⟨_, _, hreads, ?_⟩
  rw [List.length_drop]
  omega

end Parse.Takes

namespace Attr

/-- **An attr of eight bytes or more is decoded,** whatever they are. -/
theorem decode_ok {bs : Bytes} (h : 8 ≤ bs.length) : ∃ a, decode bs = .ok a := by
  have h16 : Takes u16 2 := (Takes.take 2).bind fun _ => .built _
  have h32 : Takes u32 4 := (Takes.take 4).bind fun _ => .built _
  have h64 : Takes u64 8 := (Takes.take 8).bind fun _ => .built _
  have hparse : Takes parse 120 := by
    unfold parse
    exact h32.bind fun _ => h32.bind fun _ => h64.bind fun _ => h64.bind fun _ => h64.bind fun _ =>
      h64.bind fun _ => h64.bind fun _ => h32.bind fun _ => h32.bind fun _ => h64.bind fun _ =>
      h64.bind fun _ => h64.bind fun _ => h64.bind fun _ => h32.bind fun _ => h32.bind fun _ =>
      h64.bind fun _ => h32.bind fun _ => h16.bind fun _ => h16.bind fun _ => h32.bind fun _ =>
      h32.bind fun _ => .built _
  have hfixed : (Cursor.start (bs.fixed byteSize)).rest.length = 120 := by
    simp [Cursor.start, byteSize]
  obtain ⟨a, c, hrun, -⟩ := hparse _ (Nat.le_of_eq hfixed.symm)
  refine ⟨a, ?_⟩
  have hrun : parse.run (Cursor.start (bs.fixed byteSize)) = .ok (a, c) := hrun
  unfold decode
  rw [if_neg (Nat.not_lt.mpr h), Parse.value, hrun]
  rfl

theorem failsInside_decode (bs : Bytes) : FailsInside bs.length (decode bs) := by
  by_cases h : bs.length < 8
  · rw [decode, if_pos h]
    exact .fault trivial
  · obtain ⟨a, ha⟩ := decode_ok (Nat.not_lt.mp h)
    rw [ha]
    exact .ok a

end Attr

namespace FileAttr

theorem failsInside_decode (bs : Bytes) : FailsInside bs.length (decode bs) := by
  unfold decode
  refine .guarded trivial fun _ => ?_
  refine ((Attr.failsInside_decode _).mono (by simp)).bind fun a _ => ?_
  refine ((Section.follows_parse.inside.value _).mono (by simp)).bind fun ids _ => ?_
  exact .ok _

end FileAttr

theorem FileHeader.inside_parse : Inside parse := by
  unfold parse
  refine (follows_take 8).inside.bind fun magic => ?_
  have hsection := Section.follows_parse.inside
  have h64 := follows_u64.inside
  have hrest : Inside (do
      return {
        headerSize := ← u64
        attrSize := ← u64
        attrs := ← Section.parse
        data := ← Section.parse
        eventTypes := ← Section.parse
        features := BitVec.ofNat 256 (← Parse.take 32).toNat : FileHeader }) := by
    exact h64.bind fun _ => h64.bind fun _ => hsection.bind fun _ => hsection.bind fun _ =>
      hsection.bind fun _ => (follows_take 32).inside.bind fun _ => .built _
  dsimp only
  split
  · refine Inside.bind (Inside.failAt fun c => ?_) fun _ => hrest
    exact ⟨0, Nat.zero_le _, trivial⟩
  · exact hrest

/-! ### Payloads -/

theorem LengthText.inside_parse : Inside parse :=
  follows_u32.inside.bind fun _ => (follows_take _).inside.bind fun _ => .built _

theorem CommandLineFeature.inside_parse : Inside parse :=
  follows_u32.inside.bind fun _ => LengthText.inside_parse.times _

theorem CpuCounts.inside_parse : Inside parse :=
  follows_u32.inside.bind fun _ => follows_u32.inside.bind fun _ => .built _

namespace EventDesc

theorem inside_parseAttr (size : Nat) : Inside (parseAttr size) :=
  Inside.nested Attr.failsInside_decode (fun _ _ h => by simp only [h])
    (fun _ _ h => by simp only [h]) size

theorem inside_parse : Inside parse := by
  have hentry : ∀ size, Inside (parseEntry size) := fun size =>
    (inside_parseAttr size).bind fun _ => follows_u32.inside.bind fun _ =>
      LengthText.inside_parse.bind fun _ => (follows_u64s _).inside.bind fun _ => .built _
  exact follows_u32.inside.bind fun _ => follows_u32.inside.bind fun _ => (hentry _).times _

end EventDesc

theorem FileSymbol.inside_parse : Inside parse :=
  follows_u64.inside.bind fun _ => follows_u32.inside.bind fun _ =>
    (follows_paddedText (by decide)).inside.bind fun _ => .built _

namespace FileEntry

theorem inside_parseType : Inside parseType := by
  refine follows_u32.inside.bind fun code => ?_
  split
  · exact .built _
  · exact .failAt fun _ => ⟨0, Nat.zero_le _, trivial⟩

theorem inside_parseOffset (f : FileEntry) : Inside (parseOffset f) := by
  unfold parseOffset
  split
  · exact follows_u32.inside.bind fun _ => (follows_u64s _).inside.bind fun _ => .built _
  · exact follows_u64.inside.bind fun _ => .built _
  · exact follows_u64.inside.bind fun _ => .built _
  · exact .built _

theorem inside_parseBody : Inside parseBody :=
  (follows_paddedText (by decide)).inside.bind fun _ => inside_parseType.bind fun _ =>
    follows_u64.inside.bind fun _ => follows_u32.inside.bind fun _ =>
      (FileSymbol.inside_parse.times _).bind fun _ => inside_parseOffset _

theorem failsInside_decodeBody (bs : Bytes) : FailsInside bs.length (decodeBody bs) := by
  have hsize : (Cursor.start bs).bufferSize = bs.length := Nat.zero_add _
  rw [← hsize]
  refine inside_parseBody.refused.bind fun r _ => ?_
  dsimp only
  split
  · exact .ok _
  · exact .fault trivial

theorem inside_parse : Inside parse :=
  follows_u32.inside.bind fun _ =>
    Inside.nested failsInside_decodeBody (fun _ _ h => by simp only [h])
      (fun _ _ h => by simp only [h]) _

theorem inside_parseAll : ∀ steps, Inside (parseAll steps)
  | 0 => .built []
  | steps + 1 => by
    refine Inside.atEnd.bind fun done => ?_
    split
    · exact .built []
    · exact inside_parse.bind fun f => (inside_parseAll steps).bind fun fs => .built _

end FileEntry

namespace BuildIdList

/-- Each record is cut off at the length in its header, which has been compared
with what is left. -/
theorem failsInside_decodeFrom (position : Nat) (bs : Bytes) :
    FailsInside bs.length (decodeFrom position bs) := by
  fun_induction decodeFrom position bs with
  | case1 position => exact .ok []
  | case2 position bs hne e hheader => exact .error (RecordHeader.failsInside_decode bs e hheader)
  | case3 position bs hne h hheader hsize => exact .fault trivial
  | case4 position bs hne h hheader hsize e hrecord =>
    have herror := Record.failsInside_decode _ _ e hrecord
    exact .error (herror.mono (by simp))
  | case5 position bs hne h hheader hsize r hrecord ih => exact (ih.mono (by simp)).map _
  | case6 position bs hne h hheader hsize r hother hrecord => exact .fault trivial

end BuildIdList

namespace MetaInfo

theorem length_le_of_untilNul? {bs front rest : Bytes}
    (h : bs.untilNul? = some (front, rest)) : rest.length ≤ bs.length := by
  obtain ⟨rfl, -⟩ := Bytes.untilNul?_eq_some_iff.mp h
  rw [List.length_append, List.length_cons]
  omega

theorem failsInside_decodeInto (m : MetaInfo) (bs : Bytes) :
    FailsInside bs.length (decodeInto m bs) := by
  fun_induction decodeInto m bs with
  | case1 m => exact .ok m
  | case2 m bs hne hkey => exact .fault trivial
  | case3 m bs hne key rest hkey hvalue => exact .fault trivial
  | case4 m bs hne key rest hkey value tail hvalue ih =>
    have hrest := length_le_of_untilNul? hkey
    have htail := length_le_of_untilNul? hvalue
    exact ih.mono (by omega)

end MetaInfo
end Profiler
