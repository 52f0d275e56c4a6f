/-
# Decimal numerals with a fraction

The grammar of a number on the command line: a sign, digits with at most one
point among them and at least one digit, and an exponent; or one of the words
for infinity and for no number, in any case of letters.

Key definitions: `Reading`, `Reading.ofText?`, `Reading.text`.
-/
import Profiler.Decimal.Binary64

namespace Profiler

/-- What a numeral reads as. -/
inductive Reading where
  | finite (negative : Bool) (magnitude : Binary64)
  | infinite (negative : Bool)
  | notANumber
  deriving DecidableEq, Repr

namespace Reading

def digitsValue (cs : List Char) : Nat :=
  cs.foldl (fun acc c => acc * 10 + (c.toNat - '0'.toNat)) 0

/-- An optional sign, which tells whether the rest is negated. -/
def sign : List Char → Bool × List Char
  | '-' :: rest => (true, rest)
  | '+' :: rest => (false, rest)
  | cs => (false, cs)

/-- The exponent that ends a numeral, zero when nothing is there. -/
def exponent? : List Char → Option Int
  | [] => some 0
  | c :: rest =>
    let (negative, ds) := sign rest
    if (c == 'e' || c == 'E') && !ds.isEmpty && ds.all Char.isDigit then
      some (if negative then -(digitsValue ds : Int) else digitsValue ds)
    else none

/-- Digits with at most one point, and an exponent. -/
def decimal? (cs : List Char) : Option (Nat × Int) :=
  let whole := cs.takeWhile Char.isDigit
  let rest := cs.dropWhile Char.isDigit
  let (places, rest) := match rest with
    | '.' :: rest => (rest.takeWhile Char.isDigit, rest.dropWhile Char.isDigit)
    | _ => ([], rest)
  if whole.isEmpty && places.isEmpty then none
  else (exponent? rest).map fun e => (digitsValue (whole ++ places), e - places.length)

/-- Read a numeral. -/
def ofText? (s : String) : Option Reading :=
  let (negative, cs) := sign s.toList
  let word := String.ofList (cs.map Char.toLower)
  if word == "inf" || word == "infinity" then some (infinite negative)
  else if word == "nan" then some notANumber
  else (decimal? cs).map fun (digits, e) =>
    match Binary64.ofDecimal? digits e with
    | some x => finite negative x
    | none => infinite negative

/-- Show a number with the fewest digits. -/
def text : Reading → String
  | finite negative x => (if negative then "-" else "") ++ x.shortest
  | infinite negative => if negative then "-inf" else "inf"
  | notANumber => "NaN"

end Reading
end Profiler
