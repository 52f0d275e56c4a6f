/-
# Reading and writing fields in order

A `Cursor` is a position in a buffer and the bytes from there on. A `Parse`
step reads a field and moves the cursor past it, or fails and leaves it where
it was; no step looks outside the buffer, whatever counts the data claims.
`ReadStep` and `WriteStep` are the two sides as data: a list of fields to
read, and the fields to write for it.

Key definitions: `Cursor`, `Parse`, `Parse.take`, `Parse.u64s`,
`Parse.paddedText`, `Bytes.paddedText`, `ReadStep`, `WriteStep`.
-/
import Profiler.Error
import Profiler.Text.Utf8

namespace Profiler

/-- A place in a buffer. -/
structure Cursor where
  position : Nat
  rest : Bytes
  deriving DecidableEq, Repr

/-- The start of a buffer. -/
def Cursor.start (bs : Bytes) : Cursor := ⟨0, bs⟩

/-- The size of the whole buffer, which only error texts ask for. -/
def Cursor.bufferSize (c : Cursor) : Nat := c.position + c.rest.length

abbrev Parse := StateT Cursor (Except Corruption)

namespace Parse

def value (p : Parse α) (bs : Bytes) : Except Corruption α :=
  (p.run (Cursor.start bs)).map Prod.fst

def failAt (cause : Cursor → Corruption) : Parse α := fun c => .error (cause c)

def take (n : Nat) : Parse Bytes := fun c =>
  match c.rest.splitAt? n with
  | some (front, rest) => .ok (front, ⟨c.position + n, rest⟩)
  | none => .error (.shortRead n c.position c.bufferSize)

def skip (n : Nat) : Parse Unit := do let _ ← take n

/-- Every byte that is left. -/
def takeRest : Parse Bytes := fun c => .ok (c.rest, ⟨c.position + c.rest.length, []⟩)

def u16 : Parse UInt16 := do return UInt16.ofNat (← take 2).toNat

def u32 : Parse UInt32 := do return UInt32.ofNat (← take 4).toNat

def u64 : Parse UInt64 := do return UInt64.ofNat (← take 8).toNat

def u64s (count : Nat) : Parse (List UInt64) := fun c =>
  match c.rest.splitAt? (count * 8) with
  | some (front, rest) => .ok (front.words count, ⟨c.position + count * 8, rest⟩)
  | none => .error (.longArray count c.position)

/-- A text ended by a NUL in a field padded to `alignment`. -/
def paddedText (alignment : Nat) : Parse String := fun c =>
  match c.rest.untilNul? with
  | none => .error (.unterminated c.position)
  | some (text, _) => do
    let (_, c) ← skip (alignUp (text.length + 1) alignment) c
    return (Utf8.decode text, c)

/-- A field that is there only when it is selected, and `none` stands for it
otherwise. -/
def whenSelected (selected : Bool) (p : Parse α) (absent : α) : Parse α :=
  if selected then p else pure absent

/-- The same step a number of times. -/
def times (p : Parse α) : Nat → Parse (List α)
  | 0 => pure []
  | n + 1 => do
    let a ← p
    let as ← times p n
    return a :: as

def atEnd : Parse Bool := fun c => .ok (c.rest.isEmpty, c)

end Parse

/-- The length of a text with its NUL, rounded up. -/
def Bytes.paddedTextLength (s : String) (alignment : Nat) : Nat :=
  alignUp (s.utf8ByteSize + 1) alignment

/-- A text, a NUL, and zeros up to the alignment. -/
def Bytes.paddedText (s : String) (alignment : Nat) : Bytes :=
  (Utf8.encode s).fixed (paddedTextLength s alignment)

/-- The bytes of a field that is written only when it is selected. -/
def Bytes.whenSelected (selected : Bool) (bs : Bytes) : Bytes := if selected then bs else []

/-- A field to read. -/
inductive ReadStep where
  | u16
  | u32
  | u64
  | bytes (length : Nat)
  | skip (length : Nat)
  | u64s (count : Nat)
  /-- A text with its NUL and zeros up to an alignment, which is not 0. -/
  | text (alignment : Nat)
  deriving DecidableEq, Repr

/-- The value of a field. -/
inductive Field where
  | u16 (v : UInt16)
  | u32 (v : UInt32)
  | u64 (v : UInt64)
  | bytes (bs : Bytes)
  | skipped
  | u64s (vs : List UInt64)
  | text (s : String)
  deriving DecidableEq, Repr

/-- Read one field. -/
def ReadStep.parse : ReadStep → Parse Field
  | .u16 => Field.u16 <$> Parse.u16
  | .u32 => Field.u32 <$> Parse.u32
  | .u64 => Field.u64 <$> Parse.u64
  | .bytes n => Field.bytes <$> Parse.take n
  | .skip n => (fun _ => Field.skipped) <$> Parse.skip n
  | .u64s n => Field.u64s <$> Parse.u64s n
  | .text alignment => Field.text <$> Parse.paddedText alignment

/-- Read fields one after another. A failed step does not move the cursor and
the next one starts from the same place. -/
def ReadStep.run : List ReadStep → Cursor → List (Except Corruption Field × Cursor)
  | [], _ => []
  | s :: rest, c =>
    match s.parse c with
    | .ok (v, c') => (.ok v, c') :: run rest c'
    | .error e => (.error e, c) :: run rest c

/-- A field to write, or two bytes to overwrite. -/
inductive WriteStep where
  | u16 (v : UInt16)
  | u32 (v : UInt32)
  | u64 (v : UInt64)
  | u64s (vs : List UInt64)
  | bytes (bs : Bytes)
  | fixed (bs : Bytes) (length : Nat)
  | text (s : String) (alignment : Nat)
  | setU16 (position : Nat) (v : UInt16)
  deriving DecidableEq, Repr

/-- The buffer after one step. -/
def WriteStep.apply (buffer : Bytes) : WriteStep → Bytes
  | .u16 v => buffer ++ Bytes.u16 v
  | .u32 v => buffer ++ Bytes.u32 v
  | .u64 v => buffer ++ Bytes.u64 v
  | .u64s vs => buffer ++ Bytes.u64s vs
  | .bytes bs => buffer ++ bs
  | .fixed bs length => buffer ++ bs.fixed length
  | .text s alignment => buffer ++ Bytes.paddedText s alignment
  | .setU16 position v => buffer.setU16 position v

/-- The buffers after each step, from an empty one. -/
def WriteStep.run (steps : List WriteStep) : List Bytes :=
  (steps.foldl (fun (acc : Bytes × List Bytes) s =>
    let buffer := s.apply acc.1
    (buffer, buffer :: acc.2)) ([], [])).2.reverse

end Profiler
