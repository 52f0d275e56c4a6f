/-
# UTF-8

Text is a `String`; bytes become text by the table of RFC 3629. Decoding is
one pass with a state: the text so far and, inside a character, how many
bytes are owed and which range the next one must be in. Where the bytes break
the table, the longest run that began a character becomes one U+FFFD.

Key definitions: `Utf8.encode`, `Utf8.decode`, `Utf8.decode?`.
-/
import Profiler.Bytes

namespace Profiler
namespace Utf8

def encode (s : String) : Bytes := s.toList.flatMap String.utf8EncodeChar

/-- A character whose first bytes have been read. -/
structure Pending where
  /-- Bytes that must still follow. -/
  owed : Nat
  /-- The least and the greatest value of the next byte. -/
  least : Nat
  most : Nat
  /-- The bits read so far. -/
  value : Nat
  deriving DecidableEq, Repr

/-- What a byte means between characters. -/
inductive Lead where
  | char (c : Char)
  | pending (p : Pending)
  | invalid
  deriving DecidableEq, Repr

/-- The first byte of a character fixes how many bytes follow and, by ruling
out long forms, surrogates and values above U+10FFFF, the range of the second. -/
def lead (b : Nat) : Lead :=
  if b < 0x80 then .char (Char.ofNat b)
  else if b < 0xC2 then .invalid
  else if b < 0xE0 then .pending ⟨1, 0x80, 0xBF, b % 0x20⟩
  else if b < 0xF0 then
    .pending ⟨2, if b = 0xE0 then 0xA0 else 0x80, if b = 0xED then 0x9F else 0xBF, b % 0x10⟩
  else if b < 0xF5 then
    .pending ⟨3, if b = 0xF0 then 0x90 else 0x80, if b = 0xF4 then 0x8F else 0xBF, b % 0x08⟩
  else .invalid

/-- The character that stands for bytes that are no text. -/
def replacement : Char := Char.ofNat 0xFFFD

/-- A decoder between two bytes. -/
structure Decoder where
  text : String := ""
  pending : Option Pending := none
  /-- Whether nothing has been replaced. -/
  clean : Bool := true
  deriving Repr

namespace Decoder

/-- Take a byte between characters. -/
def begin (d : Decoder) (b : Nat) : Decoder :=
  match lead b with
  | .char c => { d with text := d.text.push c, pending := none }
  | .pending p => { d with pending := some p }
  | .invalid => { text := d.text.push replacement, pending := none, clean := false }

/-- Take one byte. A byte that cannot continue a character ends it and is
taken as a first byte. -/
def push (d : Decoder) (b : UInt8) : Decoder :=
  match d.pending with
  | none => d.begin b.toNat
  | some p =>
    if p.least ≤ b.toNat ∧ b.toNat ≤ p.most then
      let value := p.value * 64 + b.toNat % 64
      if p.owed = 1 then { d with text := d.text.push (Char.ofNat value), pending := none }
      else { d with pending := some ⟨p.owed - 1, 0x80, 0xBF, value⟩ }
    else { d with text := d.text.push replacement, clean := false }.begin b.toNat

/-- End of input: a character left open is replaced. -/
def finish (d : Decoder) : Decoder :=
  match d.pending with
  | none => d
  | some _ => { text := d.text.push replacement, pending := none, clean := false }

end Decoder

/-- The state after all bytes. -/
def scan (bs : Bytes) : Decoder := (bs.foldl Decoder.push {}).finish

def decode (bs : Bytes) : String := (scan bs).text

def decode? (bs : Bytes) : Option String :=
  let d := scan bs
  if d.clean then some d.text else none

end Utf8
end Profiler
