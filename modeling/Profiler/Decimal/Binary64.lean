/-
# Numbers of binary64

A finite non-negative number of the format is `mantissa · 2^exponent` with a
mantissa below 2^53 and an exponent between -1074 and 971. A quotient of
natural numbers has a nearest one, found in exact arithmetic; a number is
shown with a fixed count of places or with the fewest digits that read back.

Key definitions: `roundDiv`, `Binary64`, `Binary64.ofRatio?`,
`Binary64.ofDecimal?`, `Binary64.fixed`, `Binary64.shortest`.
-/
namespace Profiler

/-- A quotient rounded to the nearest whole number, a tie to the even one. -/
def roundDiv (num den : Nat) : Nat :=
  let q := num / den
  let r := num % den
  if den < 2 * r ∨ (2 * r = den ∧ q % 2 = 1) then q + 1 else q

/-- The number `mantissa · 2^exponent`. -/
structure Binary64 where
  mantissa : Nat
  exponent : Int
  deriving DecidableEq, Repr, Inhabited

namespace Binary64

/-- Mantissas have 53 binary digits, so they are below this. -/
def mantissaLimit : Nat := 0x20000000000000

def zero : Binary64 := ⟨0, -1074⟩

def num (x : Binary64) : Nat := x.mantissa * Nat.pow 2 x.exponent.toNat

def den (x : Binary64) : Nat := Nat.pow 2 (-x.exponent).toNat

/-- A quotient in units of `2^exponent`, as a quotient of natural numbers. -/
def inUnits (num den : Nat) (exponent : Int) : Nat × Nat :=
  (num * Nat.pow 2 (-exponent).toNat, den * Nat.pow 2 exponent.toNat)

/-- The exponent at which a quotient has 53 binary digits, or the least one. -/
def exponentFor (num den : Nat) : Int :=
  let guess := max ((Nat.log2 num : Int) - Nat.log2 den - 53) (-1074)
  let (n, d) := inUnits num den guess
  if n / d < mantissaLimit then guess else guess + 1

/-- The number nearest to a quotient, a tie going to the even mantissa; none
when that is beyond the greatest number. -/
def ofRatio? (num den : Nat) : Option Binary64 :=
  if num = 0 then some zero
  else
    let exponent := exponentFor num den
    let (n, d) := inUnits num den exponent
    let mantissa := roundDiv n d
    let x : Binary64 :=
      if mantissa = mantissaLimit then ⟨mantissaLimit / 2, exponent + 1⟩ else ⟨mantissa, exponent⟩
    if x.exponent ≤ 971 then some x else none

/-- The number nearest to `digits · 10^exponent`. A value that is certainly
beyond the range on either side is not computed. -/
def ofDecimal? (digits : Nat) (exponent : Int) : Option Binary64 :=
  let size : Int := (Nat.toDigits 10 digits).length + exponent
  if digits = 0 ∨ size < -330 then some zero
  else if 310 < size then none
  else ofRatio? (digits * Nat.pow 10 exponent.toNat) (Nat.pow 10 (-exponent).toNat)

def ofWord (v : UInt64) : Binary64 := (ofRatio? v.toNat 1).getD zero

/-- The nearest number to a hundred times `part` over `total`, rounded after
each of the two operations. -/
def percentage (part total : UInt64) : Binary64 :=
  if total = 0 then zero
  else
    let p := ofWord part
    let t := ofWord total
    let scaled := (ofRatio? (p.num * 100) p.den).getD zero
    (ofRatio? (scaled.num * t.den) (scaled.den * t.num)).getD zero

def lt (x y : Binary64) : Bool := x.num * y.den < y.num * x.den

/-- Digits on the left of a fixed count of places. -/
def pointed (digits places : Nat) : String :=
  let cs := Nat.toDigits 10 digits
  let cs := List.replicate (places + 1 - cs.length) '0' ++ cs
  String.ofList (cs.take (cs.length - places) ++ '.' :: cs.drop (cs.length - places))

/-- With a fixed count of places, a tie going to the even digit. -/
def fixed (x : Binary64) (places : Nat) : String :=
  pointed (roundDiv (x.num * Nat.pow 10 places) x.den) places

/-- The candidates with digits down to `10^unit`, the nearer first and of two
equally near ones the greater. -/
def neighbours (x : Binary64) (unit : Int) : List Nat :=
  let n := x.num * Nat.pow 10 (-unit).toNat
  let d := x.den * Nat.pow 10 unit.toNat
  let below := n / d
  if n % d = 0 then [below]
  else if 2 * (n % d) < d then [below, below + 1] else [below + 1, below]

/-- The first unit, from the greatest on, at which a candidate reads back. -/
def shortestFrom (x : Binary64) : (tries : Nat) → (unit : Int) → Nat × Int
  | 0, unit => ((x.neighbours unit).headD 0, unit)
  | tries + 1, unit =>
    match (x.neighbours unit).find? fun digits => ofDecimal? digits unit == some x with
    | some digits => (digits, unit)
    | none => shortestFrom x tries (unit - 1)

/-- A digit with zeros after it, or a point inside or before the digits. -/
def plain (digits : Nat) (unit : Int) : String :=
  if 0 ≤ unit then toString (digits * Nat.pow 10 unit.toNat) else pointed digits (-unit).toNat

/-- The fewest digits that read back, never with an exponent. Two digits below
the leading one are at most seventeen units down. -/
def shortest (x : Binary64) : String :=
  if x.mantissa = 0 then "0"
  else
    let leading : Int := (Nat.toDigits 10 (x.num / x.den)).length
    let first := if x.num < x.den then
        1 - ((Nat.toDigits 10 (x.den / x.num)).length : Int) else leading
    let (digits, unit) := shortestFrom x 20 first
    plain digits unit

end Binary64
end Profiler
