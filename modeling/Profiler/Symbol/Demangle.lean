/-
# Names as they are in the program

Compilers write the path of an item into the name of its symbol in one of two
schemes. A name in neither is shown as it is. What a linker has added at the
end is kept if it begins with a `.`, and what optimizers add is dropped.

Key definitions: `Demangle.dropOptimizerMark`, `demangle`.
-/
import Profiler.Symbol.Demangle.Grammar

namespace Profiler
namespace Demangle

/-- The first place where `part` stands in a text, as what is before and after. -/
def splitAtFirst? (part : List Char) (cs : List Char) : Option (List Char × List Char) :=
  if part.isPrefixOf cs then some ([], cs.drop part.length)
  else match cs with
    | [] => none
    | c :: rest => (splitAtFirst? part rest).map fun p => (c :: p.1, p.2)

/-- A name without the mark that an optimizer gives what it has moved. -/
def dropOptimizerMark (cs : List Char) : List Char :=
  match splitAtFirst? ".llvm.".toList cs with
  | some (name, mark) =>
    if mark.all fun c => c.isDigit || ('A' ≤ c && c ≤ 'F') || c == '@' then name else cs
  | none => cs

def isAscii (cs : List Char) : Bool := cs.all fun c => c.toNat < 0x80

/-- What follows the first of the given beginnings that a name has. -/
def dropBeginning? (beginnings : List String) (cs : List Char) : Option (List Char) :=
  (beginnings.find? fun b => b.toList.isPrefixOf cs).map fun b => cs.drop b.length

/-- The path in the older scheme and what follows it. -/
def readSegments? (cs : List Char) : Option (String × List Char) := do
  let inner ← dropBeginning? ["_ZN", "ZN", "__ZN"] cs
  if !isAscii inner then none
  let (l, rest) ← segments? inner
  return (showSegments l, rest)

/-- The path in the newer scheme and what follows it: a second path tells in
which unit the item was compiled, and is not shown. -/
def readPath? (cs : List Char) : Option (String × List Char) := do
  let inner ← dropBeginning? ["_R", "R", "__R"] cs
  let first ← inner.head?
  if !first.isUpper || !isAscii inner then none
  let name := inner.toArray
  let after ← skipPath name 0
  let after ← if (name[after]?.map Char.isUpper).getD false then skipPath name after else some after
  return (showPath name, inner.drop after)

def isGraphic (c : Char) : Bool := 0x20 < c.toNat && c.toNat < 0x7f

end Demangle

open Demangle

/-- The path that a symbol's name stands for, or the name. -/
def demangle (name : String) : String :=
  let cs := dropOptimizerMark name.toList
  match (readSegments? cs).orElse fun _ => readPath? cs with
  | none => String.ofList cs
  | some (path, rest) =>
    if rest.isEmpty then path
    else if rest.head? = some '.' ∧ rest.all isGraphic then path ++ String.ofList rest
    else String.ofList cs

end Profiler
