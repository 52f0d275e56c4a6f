/-
# Symbols and looking them up

A symbol is a function's name and the addresses it covers. A symbol table is
in ascending order of address with one symbol for each, and the symbol for an
address is the last one that begins at or below it, if that one covers it.

Key definitions: `Symbol`, `Symbol.covers`, `SymbolTable.find?`,
`SymbolTable.ofSymbols`, `SymbolTable.fillLengths`, `SymbolTable.ofKallsyms`.
-/
import Profiler.Text.Blank
import Profiler.Text.Numeral

namespace Profiler

/-- A function and where it lies. -/
structure Symbol where
  addr : UInt64
  len : UInt64
  name : String
  deriving DecidableEq, Repr, Inhabited

/-- Whether an address lies in the symbol, whose length counts as at least one. -/
def Symbol.covers (s : Symbol) (addr : UInt64) : Bool :=
  s.addr ≤ addr && addr - s.addr < max s.len 1

/-- Symbols in ascending order of address. -/
abbrev SymbolTable := List Symbol

namespace SymbolTable

def find? (t : SymbolTable) (addr : UInt64) : Option Symbol :=
  ((t.takeWhile fun s => s.addr ≤ addr).getLast?).filter (·.covers addr)

def lastAddress : UInt64 := 0xffffffffffffffff

/-- Give symbols without a length the gap up to the next symbol, and the last
one all that is left below the greatest address. -/
def fillLengths : SymbolTable → SymbolTable
  | [] => []
  | s :: rest =>
    let stop := match rest with
      | [] => lastAddress
      | next :: _ => next.addr
    let len := if s.len = 0 then (if s.addr ≤ stop then stop - s.addr else 0) else s.len
    { s with len } :: fillLengths rest

/-- Keep the first symbol of each address. -/
def dropSameAddress (t : SymbolTable) : SymbolTable := t.eraseRepsBy fun a b => a.addr == b.addr

/-- Whether `a` comes before `b` or may: by address, and at one address the
longer first. -/
def inOrder (a b : Symbol) : Bool := a.addr < b.addr || (a.addr == b.addr && b.len ≤ a.len)

def ofSymbols (symbols : List Symbol) : SymbolTable :=
  fillLengths (dropSameAddress (symbols.mergeSort inOrder))

/-- The kinds of kernel symbol that are functions. -/
def isTextKind (kind : String) : Bool := kind == "t" || kind == "T" || kind == "w" || kind == "W"

/-- The symbol of a line `address kind name`. An address of zero is what the
kernel shows to those who may not see it. -/
def ofKallsymsLine? (line : String) : Option Symbol :=
  match Text.words line with
  | addr :: kind :: name :: _ =>
    match Numeral.hex64? addr with
    | some addr => if addr ≠ 0 ∧ isTextKind kind then some ⟨addr, 0, name⟩ else none
    | none => none
  | _ => none

/-- The table of the kernel's functions, from the text of `/proc/kallsyms`. -/
def ofKallsyms (text : String) : SymbolTable :=
  let symbols := (Text.lines text).filterMap ofKallsymsLine?
  fillLengths (dropSameAddress (symbols.mergeSort fun a b => a.addr ≤ b.addr))

end SymbolTable
end Profiler
