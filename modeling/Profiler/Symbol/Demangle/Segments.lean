/-
# Names as counted segments

The older scheme writes a path as its segments, each after its length in
decimal, and an `E` at the end. What may not stand in a symbol is escaped
between `$`s, and `..` stands for the separator of a path inside a segment.
The last segment is a hash that tells apart what is compiled twice; it is not
shown.

Key definitions: `Demangle.segments?`, `Demangle.unescape`,
`Demangle.showSegments`.
-/
import Profiler.Text.Numeral

namespace Profiler
namespace Demangle

/-- The segments up to the `E`, and what follows it. -/
def segments? (cs : List Char) : Option (List (List Char) × List Char) :=
  match cs with
  | [] => none
  | 'E' :: rest => some ([], rest)
  | c :: cs =>
    if !c.isDigit then none
    else
      let digits := c :: cs.takeWhile Char.isDigit
      let rest := cs.dropWhile Char.isDigit
      match Numeral.unsigned? 10 UInt64.size digits with
      | none => none
      | some n =>
        if rest.length ≤ n then none
        else (segments? (rest.drop n)).map fun (l, after) => (rest.take n :: l, after)
termination_by cs.length
decreasing_by
  simp only [List.length_cons, List.length_drop]
  have := (List.dropWhile_sublist (l := cs) Char.isDigit).length_le
  omega

def isControl (c : Char) : Bool := c.toNat < 0x20 || (0x7f ≤ c.toNat && c.toNat < 0xa0)

/-- The character whose code point is written in lowercase hexadecimal. -/
def ofCodePoint? (digits : List Char) : Option Char := do
  if !digits.all fun c => c.isDigit || ('a' ≤ c && c ≤ 'f') then none
  let n ← Numeral.unsigned? 16 UInt32.size digits
  if n.isValidChar ∧ !isControl (Char.ofNat n) then some (Char.ofNat n) else none

/-- What the name between two `$`s stands for. -/
def escaped? (name : List Char) : Option (List Char) :=
  match String.ofList name with
  | "SP" => some ['@']
  | "BP" => some ['*']
  | "RF" => some ['&']
  | "LT" => some ['<']
  | "GT" => some ['>']
  | "LP" => some ['(']
  | "RP" => some [')']
  | "C" => some [',']
  | _ => match name with
    | 'u' :: digits => (ofCodePoint? digits).map fun c => [c]
    | _ => none

/-- Resolve the escapes of a segment, as far as they are known. -/
def unescape (cs : List Char) : List Char :=
  match cs with
  | [] => []
  | '.' :: '.' :: rest => ':' :: ':' :: unescape rest
  | '$' :: rest =>
    if rest.contains '$' then
      match escaped? (rest.takeWhile (· ≠ '$')) with
      | some text => text ++ unescape ((rest.dropWhile (· ≠ '$')).drop 1)
      | none => cs
    else cs
  | c :: rest => c :: unescape rest
termination_by cs.length
decreasing_by
  all_goals simp only [List.length_cons, List.length_drop]
  · omega
  · have := (List.dropWhile_sublist (l := rest) (· ≠ '$')).length_le
    omega
  · omega

def showSegment (cs : List Char) : List Char :=
  unescape (match cs with
    | '_' :: '$' :: rest => '$' :: rest
    | cs => cs)

/-- Whether a segment is a hash: an `h` and hexadecimal digits. -/
def isHash : List Char → Bool
  | 'h' :: digits => digits.all fun c => (Numeral.digit? 16 c).isSome
  | _ => false

def showSegments (l : List (List Char)) : String :=
  let l := if (l.getLast?.map isHash).getD false then l.dropLast else l
  "::".intercalate (l.map fun cs => String.ofList (showSegment cs))

end Demangle
end Profiler
