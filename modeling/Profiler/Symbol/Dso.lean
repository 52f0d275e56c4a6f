/-
# The symbols behind mapped addresses

An address in a map is resolved by the file that is mapped there, or by the
kernel's own list of functions. A file is looked for under a root directory
if one is given, and read only once: what it was found to hold is kept, also
that it holds nothing.

Key definitions: `DsoCache`, `DsoCache.path`, `DsoCache.lookup`,
`DsoCache.symbolName`.
-/
import Profiler.Process.MapSet
import Profiler.Symbol.Binary

namespace Profiler

/-- What is known about mapped files. -/
structure DsoCache where
  /-- The directory that file names begin at, in place of the root. -/
  root? : Option String := none
  /-- The files that have been looked for. -/
  binaries : List (String × Option Binary) := []
  kernelSymbols : SymbolTable := []
  deriving Inhabited

namespace DsoCache

def unknownSymbol : String := "unknown"

/-- Where a file is looked for. -/
def path (c : DsoCache) (filename : String) : String :=
  match c.root? with
  | none => filename
  | some root =>
    let relative := String.ofList (filename.toList.dropWhile (· = '/'))
    if root.isEmpty ∨ root.toList.getLast? = some '/' then root ++ relative
    else root ++ "/" ++ relative

/-- What a file holds. Only files with an absolute name are looked for;
`read?` gives the bytes of a file. -/
def lookup (c : DsoCache) (read? : String → Option Bytes) (filename : String) :
    Option Binary × DsoCache :=
  match c.binaries.lookup filename with
  | some binary => (binary, c)
  | none =>
    let binary := if filename.toList.head? = some '/' then
        ((read? (c.path filename)).map Binary.ofBytes).bind Except.toOption
      else none
    (binary, { c with binaries := (filename, binary) :: c.binaries })

/-- The name of the function at an address of a map. -/
def symbolName (c : DsoCache) (read? : String → Option Bytes) (map : MapEntry) (ip : UInt64) :
    String × DsoCache :=
  if map.inKernel then
    let symbol := if MapEntry.isKernelImage map.filename then c.kernelSymbols.find? ip else none
    ((symbol.map Symbol.name).getD unknownSymbol, c)
  else if map.isUnknown then (unknownSymbol, c)
  else
    let (binary, c) := c.lookup read? map.filename
    let symbol := do (← binary).symbolAt? (← (← binary).vaddrOf? (map.fileOffset ip))
    ((symbol.map Symbol.name).getD unknownSymbol, c)

end DsoCache
end Profiler
