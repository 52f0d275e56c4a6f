/-
# Records end where their bytes do

The fields of a record say how many bytes there are, so bytes that are a
record are no longer one when the end is cut off or something follows, whatever
the header is made to say of the length. Pieces and records that are not
understood are as long as they are. Whatever the bytes claim, decoding them
asks for none outside the buffer.

Key definition: `SizePatched`.
Key theorem: `Record.decode_delimited`.
-/
import Profiler.Proofs.Record.RoundTrip

namespace Profiler

/-! ### Headers -/

namespace RecordHeader

theorem encode_injective {h h' : RecordHeader} (heq : h.encode = h'.encode) : h = h' := by
  have hh : decode h.encode = .ok h := decode_eq_ok_iff.mpr ⟨[], (List.append_nil _).symm⟩
  have hh' : decode h.encode = .ok h' :=
    decode_eq_ok_iff.mpr ⟨[], by rw [heq, List.append_nil]⟩
  rw [hh] at hh'
  injection hh'

theorem take_encode (h : RecordHeader) (body : Bytes) :
    (h.encode ++ body).take 6 = Bytes.u32 h.type ++ Bytes.u16 h.misc := by
  rw [encode, List.append_assoc]
  exact List.take_left' (by simp)

end RecordHeader

/-- The same bytes but for the length field of the header. -/
structure SizePatched (bs patched : Bytes) : Prop where
  length_eq : patched.length = bs.length
  head_eq : patched.take 6 = bs.take 6
  body_eq : patched.drop recordHeaderSize = bs.drop recordHeaderSize

theorem sizePatched_setU16 {bs : Bytes} (h : recordHeaderSize ≤ bs.length) (size : UInt16) :
    SizePatched bs (bs.setU16 6 size) := by
  have h : 8 ≤ bs.length := h
  have hsix : (bs.take 6).length = 6 := by
    rw [List.length_take]
    omega
  have hlen : (bs.take 6 ++ Bytes.u16 size).length = 8 := by
    rw [List.length_append, hsix, Bytes.length_u16]
  refine ⟨?_, ?_, ?_⟩
  · simp only [Bytes.setU16, List.length_append, List.length_take, Bytes.length_u16,
      List.length_drop]
    omega
  · rw [Bytes.setU16, List.append_assoc, List.take_left' hsix]
  · exact List.drop_left' hlen

namespace Record

variable {a : Attr} {r : Record} {k : RecordKind}

/-- The fields of one record neither begin nor continue those of another. -/
theorem Layout.body_unique {misc : UInt16} {body body' : Bytes} {r' : Record}
    (h : Layout a misc body r) (h' : Layout a misc body' r') (htype : r'.type = r.type)
    (hkind : r.kind? = some k) (hsplit : k ≠ .split) (hbegins : body' <+: body ∨ body <+: body') :
    body' = body := by
  have hk : RecordKind.ofCode? r.type = some k := h.ofCode?_type.trans hkind
  have hkind' : r'.kind? = some k := by rw [← h'.ofCode?_type, htype, hk]
  have hfollows := follows_parseBody a (h := ⟨r.type, misc, 0⟩) hk hsplit
  rcases hbegins with ⟨more, rfl⟩ | ⟨more, rfl⟩
  · rw [hfollows.prefix_free ⟨h', hkind'⟩ ⟨h, hkind⟩, List.append_nil]
  · rw [hfollows.prefix_free ⟨h, hkind⟩ ⟨h', hkind'⟩, List.append_nil]

/-- No fields make the decoder leave them. -/
theorem parseBody_staysInside (a : Attr) (h : RecordHeader) (body : Bytes) :
    (parseBody a h).StaysInside body := by
  by_cases hopen : RecordKind.ofCode? h.type = some .split ∨ RecordKind.ofCode? h.type = none
  · -- the rest of the buffer is taken, whatever it is
    have htaken : ∃ r, parseBody a h (Cursor.start body) = .ok (r, ⟨0 + body.length, []⟩) := by
      unfold parseBody
      rcases hopen with hk | hk <;> rw [hk] <;> exact ⟨_, rfl⟩
    obtain ⟨r, hr⟩ := htaken
    rw [Parse.StaysInside, hr]
    simp
  · rw [not_or] at hopen
    obtain ⟨k, hk⟩ := Option.ne_none_iff_exists'.mp hopen.2
    exact (follows_parseBody a hk fun he => hopen.1 (by rw [hk, he])).staysInside body

/-- Of two records, one does not begin the other. -/
theorem eq_of_decodeReassembled {x z : Bytes} {r' : Record} (h : decodeReassembled a x = .ok r)
    (h' : decodeReassembled a z = .ok r') (hkind : r.kind? = some k) (hsplit : k ≠ .split)
    (hbegins : z <+: x ∨ x <+: z) : z = x := by
  obtain ⟨header, body, rfl, hr, htype⟩ := decodeReassembled_eq_ok_iff.mp h
  obtain ⟨header', body', rfl, hr', htype'⟩ := decodeReassembled_eq_ok_iff.mp h'
  have hlen : header'.encode.length = header.encode.length := by simp
  have hboth : header'.encode = header.encode ∧ (body' <+: body ∨ body <+: body') := by
    rcases hbegins with ⟨more, heq⟩ | ⟨more, heq⟩
    · rw [List.append_assoc] at heq
      obtain ⟨hheader, hbody⟩ := List.append_inj heq hlen
      exact ⟨hheader, .inl ⟨more, hbody⟩⟩
    · rw [List.append_assoc] at heq
      obtain ⟨hheader, hbody⟩ := List.append_inj heq hlen.symm
      exact ⟨hheader.symm, .inr ⟨more, hbody⟩⟩
  obtain ⟨hheader, hbody⟩ := hboth
  obtain rfl := RecordHeader.encode_injective hheader
  rw [hr.body_unique hr' (htype'.trans htype.symm) hkind hsplit hbody]

/-- The length field does not matter to a record that is put together from
pieces. -/
theorem decodeReassembled_of_sizePatched {z patched : Bytes} (hpatch : SizePatched z patched)
    (h : decode a patched = .ok r) : decodeReassembled a z = .ok r := by
  obtain ⟨header, body, rfl, -, hr, htype⟩ := decode_eq_ok_iff.mp h
  obtain ⟨hlen, hhead, hbody⟩ := hpatch
  rw [List.length_append, header.length_encode] at hlen
  rw [header.take_encode] at hhead
  rw [List.drop_left' header.length_encode] at hbody
  have hsize : ((z.drop 6).take 2).length = 2 := by
    simp only [List.length_take, List.length_drop, recordHeaderSize] at *
    omega
  -- the header that the bytes have without the patch
  have hz : z = ({ header with
      size := UInt16.ofNat (Bytes.toNat ((z.drop 6).take 2)) } : RecordHeader).encode ++ body := by
    have hdrop : (z.drop 6).drop 2 = z.drop recordHeaderSize := List.drop_drop
    rw [RecordHeader.encode, Bytes.u16_ofNat_toNat hsize, hhead, hbody, List.append_assoc, ← hdrop,
      List.take_append_drop, List.take_append_drop]
  exact decodeReassembled_eq_ok_iff.mpr ⟨_, body, hz, hr, htype⟩

/-- **Records are self-delimiting.** Of bytes that are a record of a kind that
has a layout, neither a part nor a continuation is a record, also when the
length field is made to agree; and no bytes whatever make the decoder leave
them. -/
theorem decode_delimited (a : Attr) :
    (∀ x r k, decodeReassembled a x = .ok r → r.kind? = some k → k ≠ .split →
      ∀ z, z ≠ x → (z <+: x ∨ x <+: z) →
        (∃ e, decodeReassembled a z = .error e) ∧
          ∀ patched, SizePatched z patched → ∃ e, decode a patched = .error e) ∧
      ∀ x, RecordHeader.parse.StaysInside x ∧
        ∀ h, (parseBody a h).StaysInside (x.drop recordHeaderSize) := by
  refine ⟨fun x r k h hkind hsplit z hne hbegins => ?_, fun x => ⟨?_, fun h => ?_⟩⟩
  · have hrejected : ∀ r', decodeReassembled a z ≠ .ok r' := fun r' h' =>
      hne (eq_of_decodeReassembled h h' hkind hsplit hbegins)
    refine ⟨?_, fun patched hpatch => ?_⟩
    · cases hz : decodeReassembled a z with
      | error e => exact ⟨e, rfl⟩
      | ok r' => exact (hrejected r' hz).elim
    · cases hp : decode a patched with
      | error e => exact ⟨e, rfl⟩
      | ok r' => exact (hrejected r' (decodeReassembled_of_sizePatched hpatch hp)).elim
  · exact RecordHeader.follows_parse.staysInside x
  · exact parseBody_staysInside a h _

/-- A lost record without its last byte, its length field made to agree. -/
theorem decode_delimited_lost :
    let x : Bytes := [2, 0, 0, 0, 1, 0, 24, 0] ++ Bytes.u64s [9, 4]
    decodeReassembled {} x = .ok (lost { misc := 1, id := 9, lost := 4 }) ∧
      (∃ e, decodeReassembled {} x.dropLast = .error e) ∧
        ∃ e, decode {} (Bytes.setU16 x.dropLast 6 23) = .error e := by
  intro x
  have hx : decodeReassembled {} x = .ok (lost { misc := 1, id := 9, lost := 4 }) := by decide
  obtain ⟨hcut, hpatched⟩ := (decode_delimited {}).1 x _ .lost hx rfl (by decide) x.dropLast
    (by decide) (.inl (List.dropLast_prefix x))
  have hlen : recordHeaderSize ≤ x.dropLast.length := by decide
  exact ⟨hx, hcut, hpatched _ (sizePatched_setU16 hlen 23)⟩

end Record
end Profiler
