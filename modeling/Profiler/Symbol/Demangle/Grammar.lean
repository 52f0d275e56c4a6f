/-
# Names as a grammar of paths

The newer scheme writes a path, its type arguments and its constants as a tree
in which a tag letter begins each part. A part that came before can be
referred to by its position. The tree is printed as it is read; where it
breaks off, the fault is printed in its place and a `?` for each part that is
missing from there on. Trees may be nested to a limited depth, and only so
much is printed.

Key definitions: `Demangle.Reader`, `Demangle.Print`, `Demangle.Part`,
`Demangle.printPart`, `Demangle.skipPath`, `Demangle.showPath`.
-/
import Profiler.Symbol.Demangle.Segments
import Profiler.Text.Punycode
import Profiler.Text.Quoted
import Profiler.Text.Utf8

namespace Profiler
namespace Demangle

/-- Why a name cannot be read further. -/
inductive Fault where
  | malformed
  | tooDeep
  deriving DecidableEq, Repr

def Fault.message : Fault → String
  | malformed => "\x7binvalid syntax\x7d"
  | tooDeep => "\x7brecursion limit reached\x7d"

/-- How deep parts may be nested. -/
def maxDepth : Nat := 500

/-- Where reading has come to, and how deep it is. -/
structure Reader where
  position : Nat := 0
  depth : Nat := 0
  deriving DecidableEq, Repr

/-- A step of reading a name. -/
abbrev Read := ReaderT (Array Char) (StateT Reader (Except Fault))

namespace Read

def peek : Read (Option Char) := do return (← read)[(← get).position]?

def skip : Read Unit := modify fun r => { r with position := r.position + 1 }

def malformed : Read α := throw .malformed

def next : Read Char := do
  let some c ← peek | malformed
  skip
  return c

def eat (c : Char) : Read Bool := do
  if (← peek) = some c then
    skip
    return true
  else return false

def descend : Read Unit := do
  modify fun r => { r with depth := r.depth + 1 }
  if maxDepth < (← get).depth then throw .tooDeep

def isNibble (c : Char) : Bool := c.isDigit || ('a' ≤ c && c ≤ 'f')

def rest : Read (List Char) := do return (← read).toList.drop (← get).position

/-- Hexadecimal digits up to a `_`. -/
def nibbles : Read (List Char) := do
  let l ← rest
  let digits := l.takeWhile isNibble
  if l[digits.length]? ≠ some '_' then malformed
  modify fun r => { r with position := r.position + digits.length + 1 }
  return digits

def digit62? (c : Char) : Option Nat :=
  if c.isDigit then some (c.toNat - '0'.toNat)
  else if 'a' ≤ c ∧ c ≤ 'z' then some (10 + (c.toNat - 'a'.toNat))
  else if 'A' ≤ c ∧ c ≤ 'Z' then some (36 + (c.toNat - 'A'.toNat))
  else none

/-- A number in base 62 up to a `_`; without digits it is 0, else one more
than its digits say. -/
def integer62 : Read Nat := do
  let digits := (← rest).takeWhile (· ≠ '_')
  let some values := digits.mapM digit62? | malformed
  modify fun r => { r with position := r.position + digits.length }
  if !(← eat '_') then malformed
  let n := if digits.isEmpty then 0 else values.foldl (fun n d => n * 62 + d) 0 + 1
  if n < UInt64.size then return n else malformed

/-- A number after a tag, one more than it is without the tag; 0 without it. -/
def optional62 (tag : Char) : Read Nat := do
  if !(← eat tag) then return 0
  let n := (← integer62) + 1
  if n < UInt64.size then return n else malformed

/-- What tells apart paths of one name. -/
def disambiguator : Read Nat := optional62 's'

/-- The kind of a name; the ordinary kinds are not told apart. -/
def nameKind : Read (Option Char) := do
  let c ← next
  if 'A' ≤ c ∧ c ≤ 'Z' then return some c
  else if 'a' ≤ c ∧ c ≤ 'z' then return none
  else malformed

/-- A reader at an earlier part, one level deeper. -/
def backref : Read Reader := do
  let start := (← get).position - 1
  let i ← integer62
  if start ≤ i then malformed
  let deeper : Reader := { position := i, depth := (← get).depth + 1 }
  if maxDepth < deeper.depth then throw .tooDeep
  return deeper

end Read

/-- A name: its ASCII characters, and how others are put in. -/
structure Ident where
  ascii : List Char
  insertions : List Char := []
  deriving DecidableEq, Repr

namespace Ident

/-- The length of a name: a decimal number without leading zeros. -/
def length : Read Nat := do
  let digits := (← Read.rest).takeWhile Char.isDigit
  let digits := if digits.head? = some '0' then ['0'] else digits
  let some n := Numeral.unsigned? 10 UInt64.size digits | Read.malformed
  modify fun r => { r with position := r.position + digits.length }
  return n

/-- Read a name: its length, a `_` that may be left out, and its characters.
After a `u` the last `_` of these ends the ASCII ones. -/
def parse : Read Ident := do
  let encoded ← Read.eat 'u'
  let n ← length
  let _ ← Read.eat '_'
  let l ← Read.rest
  if l.length < n then Read.malformed
  modify fun r => { r with position := r.position + n }
  let name := l.take n
  if !encoded then return { ascii := name }
  let insertions := (name.reverse.takeWhile (· ≠ '_')).reverse
  if insertions.isEmpty then Read.malformed
  return { ascii := name.take (n - insertions.length - 1), insertions }

def isEmpty (i : Ident) : Bool := i.ascii.isEmpty && i.insertions.isEmpty

/-- The most characters of a name that is put together. -/
def maxLength : Nat := 128

/-- The name put together, or its two parts if that fails. -/
def text (i : Ident) : String :=
  match Punycode.decode? maxLength i.ascii i.insertions with
  | some cs => String.ofList cs
  | none =>
    if i.insertions.isEmpty then String.ofList i.ascii
    else
      let ascii := if i.ascii.isEmpty then "" else String.ofList i.ascii ++ "-"
      "punycode\x7b" ++ ascii ++ String.ofList i.insertions ++ "\x7d"

end Ident

/-- What has been printed and how many more bytes may be. -/
structure Printed where
  text : String := ""
  room : Nat := 1000000
  deriving Repr

/-- The state of printing: where reading is or why it stopped, what has been
printed unless printing is off, and how many lifetimes are in scope. -/
structure Printer where
  name : Array Char
  reader : Except Fault Reader := .ok {}
  printed? : Option Printed := none
  lifetimes : Nat := 0

/-- Why a step of printing ends early: its part cannot be read, or there is no
more room. -/
inductive Halt where
  | unread
  | full
  deriving DecidableEq, Repr

/-- A step of printing. -/
abbrev Print := ExceptT Halt (StateM Printer)

namespace Print

/-- Print a text if printing is on. -/
def put (s : String) : Print Unit := do
  let p ← get
  match p.printed? with
  | none => return
  | some out =>
    if out.room < s.utf8ByteSize then throw .full
    set { p with printed? := some ⟨out.text ++ s, out.room - s.utf8ByteSize⟩ }

def isPrinting : Print Bool := do return (← get).printed?.isSome

/-- Note and print a fault, and give up the part. -/
def fault (f : Fault) : Print α := do
  put f.message
  modify fun p => { p with reader := .error f }
  throw .unread

/-- Read something, or give up the part. -/
def parse (x : Read α) : Print α := do
  let p ← get
  match p.reader with
  | .error _ =>
    put "?"
    throw .unread
  | .ok r =>
    match (x.run p.name).run r with
    | .ok (a, r) =>
      set { p with reader := .ok r }
      return a
    | .error f => fault f

def eat (c : Char) : Print Bool := do
  let p ← get
  match p.reader with
  | .error _ => return false
  | .ok _ => parse (Read.eat c)

def isReading : Print Bool := do return (← get).reader.toOption.isSome

def ascend : Print Unit :=
  modify fun p => { p with reader := p.reader.map fun r => { r with depth := r.depth - 1 } }

/-- A part that is given up on its own: what is around it goes on. -/
def part (default : α) (x : Print α) : Print α := fun p =>
  match x p with
  | (.error .unread, p) => (.ok default, p)
  | r => r

/-- Read a part without printing it. -/
def silently (x : Print Unit) : Print Unit := do
  let printed? := (← get).printed?
  modify fun p => { p with printed? := none }
  x
  modify fun p => { p with printed? }

/-- Print an earlier part. Where nothing is printed it need not be read. -/
def earlier (default : α) (x : Print α) : Print α := part default do
  let there ← parse Read.backref
  if !(← isPrinting) then return default
  let here := (← get).reader
  modify fun p => { p with reader := .ok there }
  let a ← x
  modify fun p => { p with reader := here }
  return a

/-- Print the parts of a list up to its `E`; the count of parts is given. -/
def listUpTo (x : Print Unit) (separator : String) : (most : Nat) → (count : Nat) → Print Nat
  | 0, count => return count
  | most + 1, count => do
    if !(← isReading) then return count
    if ← eat 'E' then return count
    if 0 < count then put separator
    x
    listUpTo x separator most (count + 1)

def list (x : Print Unit) (separator : String := ", ") : Print Nat := do
  listUpTo x separator ((← get).name.size + 1) 0

/-- Print a lifetime by how many binders lie between it and its own. -/
def lifetime (index : Nat) : Print Unit := part () do
  if !(← isPrinting) then return
  put "'"
  if index = 0 then return (← put "_")
  let bound := (← get).lifetimes
  if bound < index then fault .malformed
  let depth := bound - index
  if depth < 26 then put (String.singleton (Char.ofNat ('a'.toNat + depth)))
  else put s!"_{depth}"

/-- Name the lifetimes that a binder adds. -/
def bindLifetimes (first : Bool) : (count : Nat) → Print Unit
  | 0 => return
  | count + 1 => do
    if !first then put ", "
    modify fun p => { p with lifetimes := p.lifetimes + 1 }
    lifetime 1
    bindLifetimes false count

/-- Print a part that may begin with a binder for lifetimes. -/
def binder (x : Print Unit) : Print Unit := part () do
  let count ← parse (Read.optional62 'G')
  if !(← isPrinting) then x
  else
    if 0 < count then
      put "for<"
      bindLifetimes true count
      put "> "
    x
    modify fun p => { p with lifetimes := p.lifetimes - count }

end Print

/-- The types that are written as one letter. -/
def basicType? : Char → Option String
  | 'b' => some "bool"
  | 'c' => some "char"
  | 'e' => some "str"
  | 'u' => some "()"
  | 'a' => some "i8"
  | 's' => some "i16"
  | 'l' => some "i32"
  | 'x' => some "i64"
  | 'n' => some "i128"
  | 'i' => some "isize"
  | 'h' => some "u8"
  | 't' => some "u16"
  | 'm' => some "u32"
  | 'y' => some "u64"
  | 'o' => some "u128"
  | 'j' => some "usize"
  | 'f' => some "f32"
  | 'd' => some "f64"
  | 'z' => some "!"
  | 'p' => some "_"
  | 'v' => some "..."
  | _ => none

/-- The parts of a name that hold others. -/
inductive Part where
  /-- A path; arguments of one that is a value follow a `::`. -/
  | path (isValue : Bool)
  | type
  /-- A constant; inside another one it needs no braces. -/
  | const (inConst : Bool)
  /-- A path whose arguments, if it has any, are left open for more. -/
  | openPath
  /-- The values that a type is narrowed to. -/
  | pattern
  deriving DecidableEq, Repr

section Parts

open Print

variable (go : Part → Print Bool)

def below (p : Part) : Print Unit := do let _ ← go p

/-- A lifetime, a constant or a type. -/
def printArgument : Print Unit := part () do
  if ← eat 'L' then lifetime (← parse Read.integer62)
  else if ← eat 'K' then below go (.const false)
  else below go .type

/-- The name of a special kind of item, as a closure. -/
def specialName (kind : Char) : String :=
  if kind = 'C' then "closure" else if kind = 'S' then "shim" else String.singleton kind

/-- An item inside another. -/
def printNested (isValue : Bool) : Print Unit := do
  let kind? ← parse Read.nameKind
  below go (.path isValue)
  if !(← isReading) then put "::"
  let number ← parse Read.disambiguator
  let name ← parse Ident.parse
  match kind? with
  | some kind =>
    put ("::\x7b" ++ specialName kind)
    if !name.isEmpty then put (":" ++ name.text)
    put (s!"#{number}" ++ "\x7d")
  | none => if !name.isEmpty then put ("::" ++ name.text)

def printPath (isValue : Bool) : Print Unit := part () do
  parse Read.descend
  match ← parse Read.next with
  | 'C' =>
    let _ ← parse Read.disambiguator
    put (← parse Ident.parse).text
  | 'N' => printNested go isValue
  | 'B' => earlier () (below go (.path isValue))
  | 'I' =>
    below go (.path isValue)
    put (if isValue then "::<" else "<")
    let _ ← list (printArgument go)
    put ">"
  | 'M' =>
    let _ ← parse Read.disambiguator
    silently (below go (.path false))
    put "<"
    below go .type
    put ">"
  | 'X' =>
    let _ ← parse Read.disambiguator
    silently (below go (.path false))
    put "<"
    below go .type
    put " as "
    below go (.path false)
    put ">"
  | 'Y' =>
    put "<"
    below go .type
    put " as "
    below go (.path false)
    put ">"
  | _ => fault .malformed
  ascend

/-- A path whose arguments are left open. -/
def printOpenPath : Print Bool := do
  if ← eat 'B' then earlier false (go .openPath)
  else if ← eat 'I' then
    below go (.path false)
    put "<"
    let _ ← list (printArgument go)
    return true
  else
    below go (.path false)
    return false

/-- Types and constants that are bound inside the arguments of a path. -/
def printBindings (isOpen : Bool) : (most : Nat) → Print Bool
  | 0 => return isOpen
  | most + 1 => do
    if !(← eat 'p') then return isOpen
    put (if isOpen then ", " else "<")
    put (← parse Ident.parse).text
    put " = "
    below go (if ← eat 'K' then .const false else .type)
    printBindings true most

/-- One of the bounds of an unknown type. -/
def printBound : Print Unit := part () do
  let isOpen ← printOpenPath go
  if ← printBindings go isOpen ((← get).name.size + 1) then put ">"

/-- Read the convention that a function is called by. -/
def convention? : Print (Option (List Char)) := do
  if !(← eat 'K') then return none
  if ← eat 'C' then return some ['C']
  let name ← parse Ident.parse
  if name.ascii.isEmpty || !name.insertions.isEmpty then fault .malformed
  return some name.ascii

/-- The type of a function. In the name of a convention `_` stands for `-`. -/
def printFunction : Print Unit := part () do
  let isUnsafe ← eat 'U'
  let name? ← convention?
  if isUnsafe then put "unsafe "
  if let some name := name? then
    put ("extern \"" ++ String.ofList (name.map fun c => if c = '_' then '-' else c) ++ "\" ")
  put "fn("
  let _ ← list (below go .type)
  put ")"
  if !(← eat 'u') then
    put " -> "
    below go .type

def printType : Print Unit := part () do
  let tag ← parse Read.next
  if let some name := basicType? tag then return (← put name)
  parse Read.descend
  match tag with
  | 'R' | 'Q' =>
    put "&"
    if ← eat 'L' then
      let index ← parse Read.integer62
      if index ≠ 0 then
        lifetime index
        put " "
    if tag = 'Q' then put "mut "
    below go .type
  | 'P' =>
    put "*const "
    below go .type
  | 'O' =>
    put "*mut "
    below go .type
  | 'A' =>
    put "["
    below go .type
    put "; "
    below go (.const true)
    put "]"
  | 'S' =>
    put "["
    below go .type
    put "]"
  | 'T' =>
    put "("
    if (← list (below go .type)) = 1 then put ","
    put ")"
  | 'F' => binder (printFunction go)
  | 'D' =>
    put "dyn "
    binder (do let _ ← list (printBound go) " + ")
    if !(← eat 'L') then fault .malformed
    let index ← parse Read.integer62
    if index ≠ 0 then
      put " + "
      lifetime index
  | 'B' => earlier () (below go .type)
  | 'W' =>
    below go .type
    put " is "
    below go .pattern
  | 'w' =>
    put "#[splat] "
    below go .type
  | _ =>
    modify fun p => { p with reader := p.reader.map fun r => { r with position := r.position - 1 } }
    below go (.path false)
  ascend

/-- The value of hexadecimal digits, unless it needs more than 64 bits. -/
def nibblesValue? (digits : List Char) : Option Nat :=
  let digits := digits.dropWhile (· = '0')
  if 16 < digits.length then none else Numeral.digits? 16 digits

def printInteger : Print Unit := part () do
  let digits ← parse Read.nibbles
  match nibblesValue? digits with
  | some n => put (toString n)
  | none => put ("0x" ++ String.ofList digits)

/-- Characters between quotes; the other kind of quote needs no escape. -/
def quoted (quote : Char) (cs : List Char) : String :=
  let escape := fun c =>
    if c = quote then "\\" ++ String.singleton c
    else if c = '"' ∨ c = '\'' then String.singleton c
    else Quoted.escape c
  String.singleton quote ++ String.join (cs.map escape) ++ String.singleton quote

/-- The bytes that pairs of hexadecimal digits write. -/
def nibbleBytes? : List Char → Option Bytes
  | [] => some []
  | [_] => none
  | a :: b :: rest => do
    let n ← Numeral.digits? 16 [a, b]
    return UInt8.ofNat n :: (← nibbleBytes? rest)

def printString : Print Unit := part () do
  match (nibbleBytes? (← parse Read.nibbles)).bind Utf8.decode? with
  | some s => put (quoted '"' s.toList)
  | none => fault .malformed

def printField : Print Unit := part () do
  let _ ← parse Read.disambiguator
  put (← parse Ident.parse).text
  put ": "
  below go (.const true)

/-- A constant that is made by a named constructor. -/
def printConstructed : Print Unit := do
  below go (.path true)
  match ← parse Read.next with
  | 'U' => return
  | 'T' =>
    put "("
    let _ ← list (below go (.const true))
    put ")"
  | 'S' =>
    put " \x7b "
    let _ ← list (printField go)
    put " \x7d"
  | _ => fault .malformed

/-- A part in braces unless it is inside a constant. -/
def braced (inConst : Bool) (x : Print Unit) : Print Unit := do
  if !inConst then put "\x7b"
  x
  if !inConst then put "\x7d"

def printConst (inConst : Bool) : Print Unit := part () do
  let tag ← parse Read.next
  parse Read.descend
  match tag with
  | 'p' => put "_"
  | 'h' | 't' | 'm' | 'y' | 'o' | 'j' => printInteger
  | 'a' | 's' | 'l' | 'x' | 'n' | 'i' =>
    if ← eat 'n' then put "-"
    printInteger
  | 'b' => match nibblesValue? (← parse Read.nibbles) with
    | some 0 => put "false"
    | some 1 => put "true"
    | _ => fault .malformed
  | 'c' => match (nibblesValue? (← parse Read.nibbles)).filter Nat.isValidChar with
    | some n => put (quoted '\'' [Char.ofNat n])
    | none => fault .malformed
  | 'e' => braced inConst do
    put "*"
    printString
  | 'R' =>
    if ← eat 'e' then printString
    else braced inConst do
      put "&"
      below go (.const true)
  | 'Q' => braced inConst do
    put "&mut "
    below go (.const true)
  | 'A' => braced inConst do
    put "["
    let _ ← list (below go (.const true))
    put "]"
  | 'T' => braced inConst do
    put "("
    if (← list (below go (.const true))) = 1 then put ","
    put ")"
  | 'V' => braced inConst (printConstructed go)
  | 'B' => earlier () (below go (.const inConst))
  | _ => fault .malformed
  ascend

/-- A range of values, one of several patterns, or all values but null. -/
def printPattern : Print Unit := part () do
  match ← parse Read.next with
  | 'R' =>
    below go (.const false)
    put "..="
    below go (.const false)
  | 'O' =>
    parse Read.descend
    below go .pattern
    let _ ← listUpTo (below go .pattern) " | " ((← get).name.size + 1) 1
    ascend
  | 'N' => put "!null"
  | _ => fault .malformed

end Parts

/-- Print a part that is nested at most so many levels more. -/
def printPart : (levels : Nat) → Part → Print Bool
  | 0, _ => Print.part false (Print.fault .tooDeep)
  | levels + 1, p => do
    let go := printPart levels
    match p with
    | .path isValue => printPath go isValue
    | .type => printType go
    | .const inConst => printConst go inConst
    | .openPath => return (← printOpenPath go)
    | .pattern => printPattern go
    return false

/-- Levels enough that the limit of depth is met before they are used up. -/
def enoughLevels : Nat := maxDepth + 2

/-- Read over a path from a position; the position after it is given. -/
def skipPath (name : Array Char) (position : Nat) : Option Nat :=
  let p : Printer := { name, reader := .ok { position } }
  match (printPart enoughLevels (.path false) p).2.reader with
  | .ok r => some r.position
  | .error _ => none

/-- The path that a name begins with, as it is shown. -/
def showPath (name : Array Char) : String :=
  let p : Printer := { name, printed? := some {} }
  let (r, p) := printPart enoughLevels (.path true) p
  let text := (p.printed?.map Printed.text).getD ""
  match r with
  | .error .full => text ++ "\x7bsize limit reached\x7d"
  | _ => text

end Demangle
end Profiler
