/-
# Lengths of time

A duration is written as terms such as `1h30m` or `1.5s`, or as a bare number
of seconds. The terms are read by a machine over the characters: blanks may
stand anywhere but inside a unit, and a digit after a unit begins the next
term.

Key definitions: `Duration`, `TimeUnit`, `Duration.ofTerms?`,
`Duration.ofSeconds?`, `Duration.parse`.
-/
import Profiler.Decimal.Reading
import Profiler.Text.Blank

namespace Profiler

/-- A length of time, in nanoseconds. -/
structure Duration where
  nanos : Nat
  deriving DecidableEq, Repr, Inhabited

def nanosPerSecond : Nat := 1000000000

namespace Duration

def seconds (d : Duration) : Nat := d.nanos / nanosPerSecond

def subsecond (d : Duration) : Nat := d.nanos % nanosPerSecond

end Duration

/-- A unit of time; a month is a twelfth of a year of 365.25 days, to the
nearest 0.01 day. -/
inductive TimeUnit where
  | nanosecond
  | microsecond
  | millisecond
  | second
  | minute
  | hour
  | day
  | week
  | month
  | year
  deriving DecidableEq, Repr

namespace TimeUnit

def names : List (TimeUnit × List String) :=
  [(nanosecond, ["nanos", "nsec", "ns"]),
    (microsecond, ["usec", "us", "µs"]),
    (millisecond, ["millis", "msec", "ms"]),
    (second, ["seconds", "second", "secs", "sec", "s"]),
    (minute, ["minutes", "minute", "min", "mins", "m"]),
    (hour, ["hours", "hour", "hr", "hrs", "h"]),
    (day, ["days", "day", "d"]),
    (week, ["weeks", "week", "wk", "wks", "w"]),
    (month, ["months", "month", "M"]),
    (year, ["years", "year", "yr", "yrs", "y"])]

def ofName? (s : String) : Option TimeUnit :=
  (names.find? fun e => e.2.contains s).map Prod.fst

def nanos : TimeUnit → Nat
  | nanosecond => 1
  | microsecond => 1000
  | millisecond => 1000000
  | second => nanosPerSecond
  | minute => 60 * nanosPerSecond
  | hour => 3600 * nanosPerSecond
  | day => 86400 * nanosPerSecond
  | week => 7 * 86400 * nanosPerSecond
  | month => 2630016 * nanosPerSecond
  | year => 31557600 * nanosPerSecond

/-- Units below a second are counted in nanoseconds and the others in seconds,
and neither count may leave 64 bits. -/
def countedNanos : TimeUnit → Nat
  | nanosecond | microsecond | millisecond => 1
  | _ => nanosPerSecond

/-- The nanoseconds of the smallest fraction that a unit has. -/
def fractionNanos : TimeUnit → Nat
  | nanosecond | microsecond | millisecond | second | minute => 1
  | _ => nanosPerSecond

end TimeUnit

namespace Duration

/-- A part of a numeral after its point: its digits' value and the power of
ten it is divided by. -/
structure Fraction where
  value : Nat := 0
  scale : Nat := 1
  deriving DecidableEq, Repr

/-- Where the reader of terms stands. -/
inductive Place where
  /-- Before a term. -/
  | between
  /-- In the digits of a term. -/
  | whole (n : Nat)
  /-- Behind the point of a term. -/
  | fraction (n : Nat) (f : Fraction)
  /-- In the letters of a unit, the last one first. -/
  | unit (n : Nat) (f : Option Fraction) (letters : List Char)
  deriving DecidableEq, Repr

/-- Numbers of terms fit 64 bits. -/
def wordLimit : Nat := UInt64.size

/-- One more term of whole units. -/
def addWhole? (total : Nat) (u : TimeUnit) (n : Nat) : Option Nat :=
  let term := n * u.nanos
  let fits := term / u.countedNanos < wordLimit &&
    (u.countedNanos != 1 || total % nanosPerSecond + term < wordLimit) &&
    (total + term) / nanosPerSecond < wordLimit
  if fits then some (total + term) else none

/-- One more fraction of a unit, which must come out even: in whole seconds if
the unit is an hour or longer, else in whole nanoseconds. A nanosecond has no
fractions. -/
def addFraction? (total : Nat) (u : TimeUnit) (f : Fraction) : Option Nat :=
  let grain := u.fractionNanos
  let scaled := f.value * (u.nanos / grain)
  let term := scaled / f.scale * grain
  let fits := u != .nanosecond && scaled < wordLimit && scaled % f.scale == 0 &&
    total % nanosPerSecond + term < wordLimit && (total + term) / nanosPerSecond < wordLimit
  if fits then some (total + term) else none

/-- The total with the term whose unit has just ended. -/
def endTerm? (total n : Nat) (f : Option Fraction) (letters : List Char) : Option Nat := do
  let u ← TimeUnit.ofName? (String.ofList letters.reverse)
  let total ← addWhole? total u n
  match f with
  | none => return total
  | some f => addFraction? total u f

def isUnitLetter (c : Char) : Bool :=
  ('a' ≤ c && c ≤ 'z') || ('A' ≤ c && c ≤ 'Z') || c == 'µ'

/-- One more digit of a number. -/
def pushDigit? (n : Nat) (c : Char) : Option Nat :=
  let n := n * 10 + (c.toNat - '0'.toNat)
  if n < wordLimit then some n else none

/-- Take one character. -/
def step? (s : Nat × Place) (c : Char) : Option (Nat × Place) :=
  let (total, place) := s
  match place with
  | .between =>
    if c.isDigit then (pushDigit? 0 c).map fun n => (total, .whole n)
    else if isBlank c then some s
    else none
  | .whole n =>
    if c.isDigit then (pushDigit? n c).map fun n => (total, .whole n)
    else if isBlank c then some s
    else if c == '.' then some (total, .fraction n {})
    else if isUnitLetter c then some (total, .unit n none [c])
    else none
  | .fraction n f =>
    if c.isDigit then do
      let scale := f.scale * 10
      let value ← pushDigit? f.value c
      if scale < wordLimit then return (total, .fraction n ⟨value, scale⟩) else none
    else if isBlank c then some s
    else if isUnitLetter c && f.scale != 1 then some (total, .unit n (some f) [c])
    else none
  | .unit n f letters =>
    if isUnitLetter c then some (total, .unit n f (c :: letters))
    else do
      let total ← endTerm? total n f letters
      if isBlank c then return (total, .between)
      else if c.isDigit then return (total, .whole (← pushDigit? 0 c))
      else none

/-- The sum of terms such as `1h 30m`, of which there is at least one. -/
def ofTerms? (s : String) : Option Duration := do
  let (total, place) ← s.toList.foldlM step? (0, .between)
  match place with
  | .between => if s.toList.any (!isBlank ·) then return ⟨total⟩ else none
  | .unit n f letters => return ⟨← endTerm? total n f letters⟩
  | _ => none

/-- A positive number of seconds, to the nearest nanosecond of the nearest
binary64 number. -/
def ofSeconds? (s : String) : Option Duration :=
  match Reading.ofText? s with
  | some (.finite false x) =>
    if x.mantissa = 0 then none
    else some ⟨roundDiv (x.num * nanosPerSecond) x.den⟩
  | _ => none

/-- Why a text is no duration. -/
def refusal (s : String) : String := s!"Invalid duration '{s}'. Examples: 500ms, 10s, 2m, 1.5"

/-- Terms whose sum is not zero, or else a bare number of seconds. -/
def parse? (s : String) : Option Duration :=
  match ofTerms? s with
  | some d => if d.nanos = 0 then ofSeconds? s else some d
  | none => ofSeconds? s

end Duration
end Profiler
