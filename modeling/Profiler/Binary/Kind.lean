/-
# Which format a program file has

The first bytes of a file tell its format. Two beginnings are shared by
several formats: a stub for DOS, behind which the size of words is in the
header that the stub points to, and the beginning of object files of a class
of their own, which is named further on.

Key definitions: `Binary.Kind`, `Binary.Kind.ofBytes`.
-/
import Profiler.Binary.Layout
import Profiler.Error

namespace Profiler
namespace Binary

/-- The formats of program files; words have 64 bits or not. -/
inductive Kind where
  | elf (wide : Bool)
  | machO (wide : Bool)
  /-- A program in the PE format. -/
  | program (wide : Bool)
  /-- An object file in the COFF format, or its variant for many sections. -/
  | coff (big : Bool)
  | xcoff (wide : Bool)
  /-- A format that is known and not read. -/
  | other
  deriving DecidableEq, Repr

namespace Kind

def leastSize : Nat := 16

/-- The first bytes of each format. -/
def magics : List (Bytes × Kind) :=
  [([0x21, 0x3c, 0x61, 0x72, 0x63, 0x68, 0x3e, 0x0a], .other),
    ([0x21, 0x3c, 0x74, 0x68, 0x69, 0x6e, 0x3e, 0x0a], .other),
    ([0x64, 0x79, 0x6c, 0x64, 0x5f, 0x76, 0x31, 0x20], .other),
    ([0xca, 0xfe, 0xba, 0xbe], .other), ([0xca, 0xfe, 0xba, 0xbf], .other),
    ([0x00, 0x00, 0xff, 0xff, 0x00, 0x00], .other),
    ([0x7f, 0x45, 0x4c, 0x46, 0x01], .elf false), ([0x7f, 0x45, 0x4c, 0x46, 0x02], .elf true),
    ([0xfe, 0xed, 0xfa, 0xce], .machO false), ([0xce, 0xfa, 0xed, 0xfe], .machO false),
    ([0xfe, 0xed, 0xfa, 0xcf], .machO true), ([0xcf, 0xfa, 0xed, 0xfe], .machO true),
    ([0xc4, 0x01], .coff false), ([0x64, 0xaa], .coff false), ([0x41, 0xa6], .coff false),
    ([0x4c, 0x01], .coff false), ([0x64, 0x86], .coff false),
    ([0x01, 0xdf], .xcoff false), ([0x01, 0xf7], .xcoff true)]

/-- How a stub for DOS begins. -/
def stubMagic : Bytes := [0x4d, 0x5a]

/-- How an object file of a class of its own begins. -/
def classMagic : Bytes := [0x00, 0x00, 0xff, 0xff, 0x02, 0x00]

/-- The class of object files for many sections. -/
def bigClass : Bytes :=
  [0xc7, 0xa1, 0xba, 0xd1, 0xee, 0xba, 0xa9, 0x4b, 0xaf, 0x20, 0xfa, 0xf6, 0x6a, 0xa4, 0xdc, 0xb8]

def stubSize : Nat := 64

/-- Where the header behind a stub for DOS begins. -/
def programOffset? (bs : Bytes) : Option Nat :=
  (bs.slice? 0 stubSize).map fun stub => Layout.numberAt {} stub 60 4

/-- How the header behind the stub begins. -/
def programMagic : Bytes := [0x50, 0x45, 0x00, 0x00]

/-- The kind of a file that begins with a stub for DOS. -/
def ofProgram? (bs : Bytes) : Option Kind := do
  let header ← bs.slice? (← programOffset? bs) 120
  if header.take 4 ≠ programMagic then none
  match Layout.numberAt {} header 24 2 with
  | 0x10b => some (.program false)
  | 0x20b => some (.program true)
  | _ => none

/-- The kind of an object file of a class of its own. -/
def ofClass? (bs : Bytes) : Option Kind := do
  let header ← bs.slice? 0 32
  if (header.drop 12).take 16 = bigClass then some (.coff true) else none

/-- The kind of a file. -/
def ofBytes (bs : Bytes) : Except BinaryFault Kind :=
  if bs.length < leastSize then .error .noMagic
  else if stubMagic.isPrefixOf bs then (ofProgram? bs).elim (.error .unknownProgram) .ok
  else if classMagic.isPrefixOf bs then (ofClass? bs).elim (.error .unknownClass) .ok
  else match magics.find? fun (magic, _) => magic.isPrefixOf bs with
    | some (_, kind) => .ok kind
    | none => .error .unknownMagic

end Kind
end Binary
end Profiler
