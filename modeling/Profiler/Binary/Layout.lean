/-
# How program files lay out numbers, tables and names

Program files of every format hold numbers of fixed widths in one order of
bytes, tables whose entries are all of one size, and names that end in a NUL
among other names. A part of a file is read from the bytes at its place, and
is missing if the file ends before.

Key definitions: `Bytes.slice?`, `Layout`, `Layout.numbers`, `Layout.table?`,
`nameAt?`, `entriesWithRest`.
-/
import Profiler.Text.Utf8

namespace Profiler

/-- Some bytes from an offset, if there are so many. -/
def Bytes.slice? (bs : Bytes) (offset size : Nat) : Option Bytes :=
  (bs.splitAt? offset).bind fun (_, rest) => (rest.splitAt? size).map Prod.fst

/-- The bytes before the first NUL, or all if there is none. -/
def Bytes.beforeNul (bs : Bytes) : Bytes := bs.takeWhile (· != 0)

namespace Binary

/-- The size of an entry that has fields of the given widths. -/
def entrySize (widths : List Nat) : Nat := widths.foldl (· + ·) 0

/-- The width of words and the order of the bytes of a number. -/
structure Layout where
  wide : Bool := false
  bigEndian : Bool := false
  deriving DecidableEq, Repr, Inhabited

namespace Layout

def word (f : Layout) : Nat := if f.wide then 8 else 4

def number (f : Layout) (bs : Bytes) : Nat :=
  if f.bigEndian then Bytes.toNat bs.reverse else Bytes.toNat bs

/-- The numbers in fields of the given widths that follow each other. -/
def numbers (f : Layout) : (widths : List Nat) → Bytes → List Nat
  | [], _ => []
  | w :: ws, bs => f.number (bs.take w) :: numbers f ws (bs.drop w)

/-- The number in the field of some width at an offset. -/
def numberAt (f : Layout) (bs : Bytes) (offset width : Nat) : Nat :=
  f.number ((bs.drop offset).take width)

end Layout

/-- The entries of a table of `count` entries of one size at an offset. -/
def table? (bs : Bytes) (offset size count : Nat) : Option (List Bytes) :=
  (bs.slice? offset (count * size)).map (Bytes.chunks size)

/-- The name that begins at an offset of some strings, up to its NUL. -/
def nameAt? (strings : Bytes) (offset : Nat) : Option String := do
  let (name, _) ← Bytes.untilNul? (← strings.splitAt? offset).2
  Utf8.decode? name

/-- The name in a field of fixed length, or, after a NUL, the name among the
strings that its last four bytes say. -/
def fieldName? (f : Layout) (strings? : Option Bytes) (field : Bytes) : Option String :=
  if field.head? = some 0 then do nameAt? (← strings?) (f.numberAt field 4 4)
  else Utf8.decode? field.beforeNul

/-- The entries of a symbol table whose entries tell in their last byte how
many more belong to them, each with all the entries after it. -/
def entriesWithRest : List Bytes → List (Bytes × List Bytes)
  | [] => []
  | entry :: rest => (entry, rest) :: entriesWithRest (rest.drop (entry.getLastD 0).toNat)
termination_by entries => entries.length
decreasing_by simp only [List.length_drop, List.length_cons]; omega

end Binary
end Profiler
