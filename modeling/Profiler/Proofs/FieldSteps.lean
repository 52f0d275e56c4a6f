/-
# Fields written and read one after another

The reader's steps undo the writer's: each of them takes the bytes that its
counterpart has put down, gives the value back, and stands where the writer
stood. On bytes that nobody wrote a step either reads what is there and moves
past it, or fails and stays (`ReadStep.Moves`). How much it reads is known
before it reads (`ReadStep.size?`), so it fails exactly when there is less left
than that, and the cursor cannot get past the end of the buffer, whatever
length, count or alignment the steps ask for.

Key definitions: `WriteStep.reader`, `WriteStep.field`, `WriteStep.Readable`,
`WriteStep.readBack`, `ReadStep.size?`, `ReadStep.Spells`, `ReadStep.Moves`,
`Cursor.IsIn`.
Key theorems: `WriteStep.reads`, `WriteStep.readBack_cons`,
`WriteStep.getLast?_places`, `ReadStep.movesFrom_parse`, `ReadStep.Moves.isIn`,
`ReadStep.Moves.of_overflow`, `ReadStep.run_moves`, `ReadStep.run_faithful`.
-/
import Profiler.Proofs.Format

namespace Profiler

/-! ### What is written -/

/-- The step that reads what this one writes. Two bytes that are overwritten are
no field of their own, and nothing is read for them. -/
def WriteStep.reader : WriteStep → ReadStep
  | .u16 _ => .u16
  | .u32 _ => .u32
  | .u64 _ => .u64
  | .u64s vs => .u64s vs.length
  | .bytes bs => .bytes bs.length
  | .fixed _ length => .bytes length
  | .text _ alignment => .text alignment
  | .setU16 _ _ => .skip 0

/-- The value that is written, as a field to be read. -/
def WriteStep.field : WriteStep → Field
  | .u16 v => .u16 v
  | .u32 v => .u32 v
  | .u64 v => .u64 v
  | .u64s vs => .u64s vs
  | .bytes bs => .bytes bs
  | .fixed bs length => .bytes (bs ++ List.replicate (length - bs.length) 0)
  | .text s _ => .text s
  | .setU16 _ _ => .skipped

/-- The step appends a field that holds all of its value: a fixed field is not
shorter than its bytes, and a text has no NUL of its own and is padded. -/
def WriteStep.Readable : WriteStep → Prop
  | .fixed bs length => bs.length ≤ length
  | .text s alignment => '\x00' ∉ s.toList ∧ 0 < alignment
  | .setU16 _ _ => False
  | _ => True

/-- The buffers after each step, from one that is already there. -/
def WriteStep.runFrom (buffer : Bytes) : List WriteStep → List Bytes
  | [] => []
  | s :: steps => s.apply buffer :: runFrom (s.apply buffer) steps

/-- The buffer after all steps. -/
def WriteStep.buffer (steps : List WriteStep) : Bytes := (WriteStep.run steps).getLast?.getD []

/-! ### What is read -/

/-- How many bytes a step reads of those that are left: a text is as long as its
field. There is no such number for a text without its NUL. -/
def ReadStep.size? (left : Bytes) : ReadStep → Option Nat
  | .u16 => some 2
  | .u32 => some 4
  | .u64 => some 8
  | .bytes n => some n
  | .skip n => some n
  | .u64s count => some (count * 8)
  | .text alignment => left.untilNul?.map fun (raw, _) => alignUp (raw.length + 1) alignment

/-- The bytes `front`, the first of those that are `left`, stand for the value. -/
def ReadStep.Spells (left front : Bytes) : ReadStep → Field → Prop
  | .u16, .u16 v => front = Bytes.u16 v
  | .u32, .u32 v => front = Bytes.u32 v
  | .u64, .u64 v => front = Bytes.u64 v
  | .bytes _, .bytes bs => front = bs
  | .skip _, .skipped => True
  | .u64s _, .u64s vs => front = Bytes.u64s vs
  | .text _, .text s =>
    ∃ raw more, left = raw ++ 0 :: more ∧ (0 : UInt8) ∉ raw ∧ s = Utf8.decode raw
  | _, _ => False

/-- What a step says when it cannot read its field. -/
def ReadStep.refusal (c : Cursor) : ReadStep → Corruption
  | .u64s count => .longArray count c.position
  | s =>
    match s.size? c.rest with
    | some n => .shortRead n c.position c.bufferSize
    | none => .unterminated c.position

/-- A step at a cursor gives this and leaves the cursor there. -/
inductive ReadStep.Moves (s : ReadStep) (c : Cursor) : Except Corruption Field → Cursor → Prop
  /-- It fails for want of bytes and stays. -/
  | failed (h : ∀ n, s.size? c.rest = some n → c.rest.length < n) : Moves s c (.error (s.refusal c)) c
  /-- It reads the bytes in front and moves past them. -/
  | read {v front rest} (hrest : c.rest = front ++ rest) (hsize : s.size? c.rest = some front.length)
      (hv : s.Spells c.rest front v) : Moves s c (.ok v) ⟨c.position + front.length, rest⟩

/-- The cursor is a place in the buffer. -/
structure Cursor.IsIn (c : Cursor) (buffer : Bytes) : Prop where
  le : c.position ≤ buffer.length
  rest : c.rest = buffer.drop c.position

/-- Where the cursor stands before the steps and after each of them. -/
def ReadStep.places (steps : List ReadStep) (c : Cursor) : List Cursor :=
  c :: (ReadStep.run steps c).map Prod.snd

/-! ### Writing, then reading -/

namespace WriteStep

theorem run_eq_runFrom (steps : List WriteStep) : run steps = runFrom [] steps := by
  have hfold : ∀ (steps : List WriteStep) (buffer : Bytes) (acc : List Bytes),
      (steps.foldl (fun (acc : Bytes × List Bytes) s =>
        (s.apply acc.1, s.apply acc.1 :: acc.2)) (buffer, acc)).2.reverse =
        acc.reverse ++ runFrom buffer steps := by
    intro steps
    induction steps with
    | nil => simp [runFrom]
    | cons s steps ih =>
      intro buffer acc
      rw [List.foldl_cons, ih, runFrom, List.reverse_cons, List.append_assoc]
      rfl
  exact hfold steps [] []

theorem Readable.apply_eq {s : WriteStep} (h : s.Readable) (buffer : Bytes) :
    s.apply buffer = buffer ++ s.apply [] := by
  cases s <;> first | rfl | exact h.elim

/-- The buffer grows by what each step writes. -/
theorem getLast?_runFrom : ∀ {steps : List WriteStep}, (∀ s ∈ steps, s.Readable) →
    ∀ buffer : Bytes, (runFrom buffer steps).getLast?.getD buffer =
      buffer ++ steps.flatMap fun s => s.apply []
  | [], _, buffer => by simp [runFrom]
  | s :: steps, h, buffer => by
    obtain ⟨hs, hsteps⟩ := List.forall_mem_cons.mp h
    rw [runFrom, List.getLast?_cons, Option.getD_some, getLast?_runFrom hsteps, hs.apply_eq,
      List.flatMap_cons, List.append_assoc]

theorem buffer_eq_flatMap {steps : List WriteStep} (h : ∀ s ∈ steps, s.Readable) :
    buffer steps = steps.flatMap fun s => s.apply [] := by
  rw [buffer, run_eq_runFrom, getLast?_runFrom h [], List.nil_append]

/-- A field is read back, wherever it is and whatever follows it. -/
theorem reads {s : WriteStep} (h : s.Readable) : Parse.Reads s.reader.parse (s.apply []) s.field := by
  cases s with
  | u16 v => exact (Parse.follows_u16.reads ⟨trivial, rfl⟩).map
  | u32 v => exact (Parse.reads_u32 v).map
  | u64 v => exact (Parse.reads_u64 v).map
  | u64s vs => exact (Parse.reads_u64s rfl).map
  | bytes bs => exact (Parse.reads_take rfl).map
  | fixed bs length =>
    have hfixed : bs.fixed length = bs ++ List.replicate (length - bs.length) 0 :=
      Bytes.fixed_eq_append h
    have hread : Parse.Reads (Parse.take length) (bs.fixed length) (bs.fixed length) :=
      Parse.reads_take (Bytes.length_fixed bs length)
    rw [field, ← hfixed]
    exact hread.map
  | text s alignment =>
    obtain ⟨hs, halignment⟩ := h
    exact ((Parse.follows_paddedText halignment).reads (Format.text_paddedText hs halignment)).map
  | setU16 position v => exact h.elim

end WriteStep

/-- Reading the fields of the steps, behind what is written already. -/
def WriteStep.readBack (written rest : Bytes) (steps : List WriteStep) :
    List (Except Corruption Field × Cursor) :=
  ReadStep.run (steps.map reader) ⟨written.length, steps.flatMap (fun s => s.apply []) ++ rest⟩

namespace WriteStep

/-- Reading a field takes the reader from where the writer stood to where the
writer went. -/
theorem readBack_cons {s : WriteStep} (hs : s.Readable) (steps : List WriteStep)
    (written rest : Bytes) : readBack written rest (s :: steps) =
      (.ok s.field, ⟨(s.apply written).length, steps.flatMap (fun s => s.apply []) ++ rest⟩) ::
        readBack (s.apply written) rest steps := by
  have hlength : (s.apply written).length = written.length + (s.apply []).length := by
    rw [hs.apply_eq written, List.length_append]
  have hread := reads hs written.length (steps.flatMap (fun s => s.apply []) ++ rest)
  unfold readBack
  rw [List.map_cons, List.flatMap_cons, List.append_assoc, ReadStep.run, hread, hlength]

theorem values_readBack : ∀ {steps : List WriteStep}, (∀ s ∈ steps, s.Readable) →
    ∀ written rest : Bytes,
      (readBack written rest steps).map Prod.fst = steps.map fun s => .ok s.field
  | [], _, _, _ => rfl
  | s :: steps, h, written, rest => by
    obtain ⟨hs, hsteps⟩ := List.forall_mem_cons.mp h
    rw [readBack_cons hs, List.map_cons, List.map_cons, values_readBack hsteps]

theorem positions_readBack : ∀ {steps : List WriteStep}, (∀ s ∈ steps, s.Readable) →
    ∀ written rest : Bytes,
      (readBack written rest steps).map (fun r => r.2.position) =
        (runFrom written steps).map List.length
  | [], _, _, _ => rfl
  | s :: steps, h, written, rest => by
    obtain ⟨hs, hsteps⟩ := List.forall_mem_cons.mp h
    rw [readBack_cons hs, List.map_cons, runFrom, List.map_cons, positions_readBack hsteps]

theorem readBack_eq {steps : List WriteStep} (h : ∀ s ∈ steps, s.Readable) :
    readBack [] [] steps = ReadStep.run (steps.map reader) (Cursor.start (buffer steps)) := by
  rw [readBack, List.append_nil, buffer_eq_flatMap h]
  rfl

end WriteStep

/-! ### Reading any bytes -/

namespace Parse

theorem take_cases (n : Nat) (c : Cursor) :
    (c.rest.length < n ∧ take n c = .error (.shortRead n c.position c.bufferSize)) ∨
      ∃ front rest, c.rest = front ++ rest ∧ front.length = n ∧
        take n c = .ok (front, ⟨c.position + front.length, rest⟩) := by
  unfold take
  split
  · next front rest hsplit =>
    obtain ⟨hrest, hlen⟩ := Bytes.splitAt?_eq_some_iff.mp hsplit
    exact .inr ⟨front, rest, hrest, hlen, by rw [hlen]⟩
  · next hsplit => exact .inl ⟨Bytes.splitAt?_eq_none_iff.mp hsplit, rfl⟩

theorem paddedText_eq {raw more : Bytes} {c : Cursor} {alignment : Nat}
    (h : c.rest.untilNul? = some (raw, more)) : paddedText alignment c =
      ((fun _ => Utf8.decode raw) <$> take (alignUp (raw.length + 1) alignment)) c := by
  have hmap : ((fun _ => Utf8.decode raw) <$> take (alignUp (raw.length + 1) alignment)) c =
      (take (alignUp (raw.length + 1) alignment) c).map fun r => (Utf8.decode raw, r.2) := rfl
  have hskip : skip (alignUp (raw.length + 1) alignment) c =
      (take (alignUp (raw.length + 1) alignment) c).map fun r => ((), r.2) := rfl
  rw [hmap, paddedText, h]
  simp only [hskip]
  cases take (alignUp (raw.length + 1) alignment) c <;> rfl

end Parse

namespace ReadStep

variable {s : ReadStep} {c c' : Cursor} {outcome : Except Corruption Field} {buffer : Bytes}

/-- What a step returns at a cursor is a move of it. A failure returns no
cursor, and the one there stays. -/
def MovesFrom (s : ReadStep) (c : Cursor) : Except Corruption (Field × Cursor) → Prop
  | .ok (v, c') => s.Moves c (.ok v) c'
  | .error e => s.Moves c (.error e) c

/-- A step that makes its value of a known number of bytes. -/
theorem movesFrom_of_take (n : Nat) (value : Bytes → Field)
    (hparse : s.parse c = (value <$> Parse.take n) c) (hsize : s.size? c.rest = some n)
    (hrefusal : s.refusal c = .shortRead n c.position c.bufferSize)
    (hvalue : ∀ front : Bytes, front.length = n → s.Spells c.rest front (value front)) :
    s.MovesFrom c (s.parse c) := by
  have hmap : (value <$> Parse.take n) c = (Parse.take n c).map fun r => (value r.1, r.2) := rfl
  rw [hparse, hmap]
  rcases Parse.take_cases n c with ⟨hlt, htake⟩ | ⟨front, rest, hrest, hlen, htake⟩
  · rw [htake, ← hrefusal]
    refine .failed fun m hm => ?_
    rw [hsize] at hm
    cases hm
    exact hlt
  · rw [htake]
    exact .read hrest (by rw [hsize, hlen]) (hvalue front hlen)

theorem movesFrom_word {α : Type} (width : Nat) {word : Bytes → α} (field : α → Field)
    (hparse : s.parse = field <$> (do return word (← Parse.take width)))
    (hsize : s.size? c.rest = some width)
    (hrefusal : s.refusal c = .shortRead width c.position c.bufferSize)
    (hvalue : ∀ front : Bytes, front.length = width → s.Spells c.rest front (field (word front))) :
    s.MovesFrom c (s.parse c) := by
  have hmap : s.parse = (fun bs => field (word bs)) <$> Parse.take width := by
    rw [hparse, bind_pure_comp, Functor.map_map]
  exact movesFrom_of_take width _ (congrFun hmap c) hsize hrefusal hvalue

theorem movesFrom_u64s (count : Nat) (c : Cursor) :
    (ReadStep.u64s count).MovesFrom c ((ReadStep.u64s count).parse c) := by
  have hmap : (ReadStep.u64s count).parse c = (Parse.u64s count c).map fun r => (.u64s r.1, r.2) := rfl
  rw [hmap]
  unfold Parse.u64s
  split
  · next front rest hsplit =>
    obtain ⟨hrest, hlen⟩ := Bytes.splitAt?_eq_some_iff.mp hsplit
    rw [← hlen]
    exact .read hrest (by rw [size?, hlen]) (Bytes.u64s_words count front hlen).symm
  · next hsplit =>
    refine .failed fun n hn => ?_
    cases hn
    exact Bytes.splitAt?_eq_none_iff.mp hsplit

theorem movesFrom_text (alignment : Nat) (c : Cursor) :
    (ReadStep.text alignment).MovesFrom c ((ReadStep.text alignment).parse c) := by
  cases hnul : c.rest.untilNul? with
  | none =>
    have hsize : (ReadStep.text alignment).size? c.rest = none := by rw [size?, hnul, Option.map_none]
    have hparse : (ReadStep.text alignment).parse c = .error ((ReadStep.text alignment).refusal c) := by
      rw [refusal, hsize]
      refine Parse.map_eq_error.mpr ?_
      rw [Parse.paddedText, hnul]
      simp
    rw [hparse]
    refine .failed fun n hn => ?_
    rw [hsize] at hn
    cases hn
  | some found =>
    obtain ⟨raw, more⟩ := found
    obtain ⟨hleft, hraw⟩ := Bytes.untilNul?_eq_some_iff.mp hnul
    have hsize : (ReadStep.text alignment).size? c.rest =
        some (alignUp (raw.length + 1) alignment) := by rw [size?, hnul, Option.map_some]
    -- the text is known before its field is passed over, whose bytes say no more
    refine movesFrom_of_take _ (fun _ => .text (Utf8.decode raw)) ?_ hsize ?_ fun front _ => ?_
    · have hmap := Functor.map_map (fun _ => Utf8.decode raw) Field.text
        (Parse.take (alignUp (raw.length + 1) alignment))
      rw [← hmap, parse]
      exact congrArg (Except.map fun r => (Field.text r.1, r.2)) (Parse.paddedText_eq hnul)
    · simp only [refusal, hsize]
    · exact ⟨raw, more, hleft, hraw, rfl⟩

theorem movesFrom_parse (s : ReadStep) (c : Cursor) : s.MovesFrom c (s.parse c) := by
  cases s with
  | u16 => exact movesFrom_word 2 Field.u16 rfl rfl rfl fun _ h => (Bytes.u16_ofNat_toNat h).symm
  | u32 => exact movesFrom_word 4 Field.u32 rfl rfl rfl fun _ h => (Bytes.u32_ofNat_toNat h).symm
  | u64 => exact movesFrom_word 8 Field.u64 rfl rfl rfl fun _ h => (Bytes.u64_ofNat_toNat h).symm
  | bytes n => exact movesFrom_of_take n .bytes rfl rfl rfl fun front _ => rfl
  | skip n => exact movesFrom_word n (fun _ => .skipped) rfl rfl rfl fun _ _ => trivial
  | u64s count => exact movesFrom_u64s count c
  | text alignment => exact movesFrom_text alignment c

/-! ### Runs -/

theorem Moves.isIn (h : s.Moves c outcome c') (hc : c.IsIn buffer) : c'.IsIn buffer := by
  cases h with
  | failed _ => exact hc
  | @read v front rest hrest _ _ =>
    have hdrop : buffer.drop c.position = front ++ rest := hc.rest.symm.trans hrest
    have hlen : buffer.length - c.position = front.length + rest.length := by
      rw [← List.length_drop, hdrop, List.length_append]
    have hle := hc.le
    refine ⟨?_, ?_⟩
    · show c.position + front.length ≤ buffer.length
      omega
    · show rest = buffer.drop (c.position + front.length)
      rw [← List.drop_drop, hdrop, List.drop_left]

/-- No words whose bytes a 64-bit number cannot count are read. -/
theorem Moves.of_overflow {count : Nat} (h : (ReadStep.u64s count).Moves c outcome c')
    (hc : c.IsIn buffer) (hbuffer : buffer.length < UInt64.size) (hcount : UInt64.size ≤ count * 8) :
    outcome = .error (.longArray count c.position) ∧ c' = c := by
  cases h with
  | failed _ => exact ⟨rfl, rfl⟩
  | @read v front rest hrest hsize _ =>
    have hfront : count * 8 = front.length := Option.some.inj hsize
    have hlen : front.length + rest.length = buffer.length - c.position := by
      rw [← List.length_append, ← hrest, hc.rest, List.length_drop]
    omega

/-- The first step moves, and the others go on from where it has left the
cursor. -/
theorem run_cons (s : ReadStep) (steps : List ReadStep) (c : Cursor) : ∃ outcome c',
    s.Moves c outcome c' ∧ run (s :: steps) c = (outcome, c') :: run steps c' := by
  have hmoves := movesFrom_parse s c
  rw [run]
  split
  · next v c' hparse =>
    rw [hparse] at hmoves
    exact ⟨.ok v, c', hmoves, rfl⟩
  · next e hparse =>
    rw [hparse] at hmoves
    exact ⟨.error e, c, hmoves, rfl⟩

/-- Every step of a run moves from where the one before it has left the
cursor. -/
theorem run_moves : ∀ (steps : List ReadStep) (c : Cursor) {i : Nat} {s : ReadStep},
    steps[i]? = some s → ∃ before outcome after, (places steps c)[i]? = some before ∧
      (run steps c)[i]? = some (outcome, after) ∧ s.Moves before outcome after
  | [], _, _, _, h => by simp at h
  | first :: steps, c, i, s, h => by
    obtain ⟨outcome, c', hmoves, hrun⟩ := run_cons first steps c
    rw [places, hrun]
    cases i with
    | zero =>
      cases h
      exact ⟨c, outcome, c', rfl, rfl, hmoves⟩
    | succ i =>
      obtain ⟨before, outcome', after, hbefore, hafter, hmoves'⟩ := run_moves steps c' (i := i) h
      exact ⟨before, outcome', after, hbefore, hafter, hmoves'⟩

theorem isIn_places : ∀ (steps : List ReadStep) {c : Cursor}, c.IsIn buffer →
    ∀ place ∈ places steps c, place.IsIn buffer
  | [], c, hc, place, hplace => by
    obtain rfl := List.mem_singleton.mp hplace
    exact hc
  | s :: steps, c, hc, place, hplace => by
    obtain ⟨outcome, c', hmoves, hrun⟩ := run_cons s steps c
    rw [places, hrun, List.map_cons] at hplace
    rcases List.mem_cons.mp hplace with rfl | hplace
    · exact hc
    · exact isIn_places steps (hmoves.isIn hc) place hplace

end ReadStep

theorem Cursor.isIn_start (buffer : Bytes) : (Cursor.start buffer).IsIn buffer :=
  ⟨Nat.zero_le _, rfl⟩

/-- The reader ends where the buffer does. -/
theorem WriteStep.getLast?_places {steps : List WriteStep} (h : ∀ s ∈ steps, s.Readable) :
    (ReadStep.places (steps.map reader) (Cursor.start (buffer steps))).getLast? =
      some ⟨(buffer steps).length, []⟩ := by
  have hpositions : (ReadStep.places (steps.map reader) (Cursor.start (buffer steps))).map
      Cursor.position = ([] :: WriteStep.run steps).map List.length := by
    have h' := positions_readBack h [] []
    rw [readBack_eq h, ← run_eq_runFrom] at h'
    rw [ReadStep.places, List.map_cons, List.map_map, List.map_cons]
    exact congrArg _ h'
  have hlast := congrArg List.getLast? hpositions
  rw [List.getLast?_map, List.getLast?_map, List.getLast?_cons, Option.map_some] at hlast
  obtain ⟨place, hplace, hposition⟩ := Option.map_eq_some_iff.mp hlast
  have hin := ReadStep.isIn_places _ (Cursor.isIn_start (buffer steps)) place
    (List.mem_of_getLast? hplace)
  have hposition : place.position = (buffer steps).length := hposition
  rw [hplace, ← hposition, Option.some.injEq]
  have hrest : place.rest = [] := by rw [hin.rest, hposition, List.drop_length]
  rw [← hrest]

/-- Fields that are written are read back in order, each from the place where it
was written to the place where the writer went, and the last one ends with the
buffer. On any buffer, whatever the steps ask for, every step reads the field in
front of it and moves past it, or fails and does not move; the cursor stays in
the buffer; and a count of words that overflows 64 bits reads nothing. -/
theorem ReadStep.run_faithful :
    (∀ steps : List WriteStep, (∀ s ∈ steps, s.Readable) →
      (run (steps.map WriteStep.reader) (Cursor.start (WriteStep.buffer steps))).map Prod.fst =
          steps.map (fun s => .ok s.field) ∧
        (run (steps.map WriteStep.reader) (Cursor.start (WriteStep.buffer steps))).map
          (fun r => r.2.position) = (WriteStep.run steps).map List.length ∧
        (places (steps.map WriteStep.reader) (Cursor.start (WriteStep.buffer steps))).getLast? =
          some ⟨(WriteStep.buffer steps).length, []⟩) ∧
    ∀ (buffer : Bytes) (steps : List ReadStep) (i : Nat) (s : ReadStep), steps[i]? = some s →
      ∃ c outcome c', (places steps (Cursor.start buffer))[i]? = some c ∧
        (run steps (Cursor.start buffer))[i]? = some (outcome, c') ∧
        s.Moves c outcome c' ∧ c.IsIn buffer ∧ c'.IsIn buffer ∧
        ∀ count, s = .u64s count → buffer.length < UInt64.size → UInt64.size ≤ count * 8 →
          outcome = .error (.longArray count c.position) ∧ c' = c := by
  refine ⟨fun steps h => ⟨?_, ?_, WriteStep.getLast?_places h⟩, fun buffer steps i s hs => ?_⟩
  · rw [← WriteStep.readBack_eq h]
    exact WriteStep.values_readBack h [] []
  · rw [← WriteStep.readBack_eq h, WriteStep.run_eq_runFrom]
    exact WriteStep.positions_readBack h [] []
  · obtain ⟨c, outcome, c', hc, hrun, hmoves⟩ := run_moves steps (Cursor.start buffer) hs
    have hin : c.IsIn buffer :=
      isIn_places steps (Cursor.isIn_start buffer) c (List.mem_of_getElem? hc)
    refine ⟨c, outcome, c', hc, hrun, hmoves, hin, hmoves.isIn hin, ?_⟩
    rintro count rfl hbuffer hcount
    exact hmoves.of_overflow hin hbuffer hcount

theorem ReadStep.run_faithful_path_and_word :
    (run [.text 8, .u32] (Cursor.start (WriteStep.buffer [.text "/bin/ls" 8, .u32 5]))).map Prod.fst =
        [.ok (.text "/bin/ls"), .ok (.u32 5)] ∧
      ∃ c, (run [.u32, .u64s (2 ^ 61)] (Cursor.start [7, 0, 0, 0, 3, 0]))[1]? =
        some (.error (.longArray (2 ^ 61) c.position), c) := by
  refine ⟨(run_faithful.1 [.text "/bin/ls" 8, .u32 5] ?_).1, ?_⟩
  · simp [WriteStep.Readable]
  · obtain ⟨c, outcome, c', -, hrun, -, -, -, hoverflow⟩ :=
      run_faithful.2 [7, 0, 0, 0, 3, 0] [.u32, .u64s (2 ^ 61)] 1 (.u64s (2 ^ 61)) rfl
    obtain ⟨rfl, rfl⟩ := hoverflow (2 ^ 61) rfl (by decide) (by decide)
    exact ⟨c', hrun⟩

end Profiler
