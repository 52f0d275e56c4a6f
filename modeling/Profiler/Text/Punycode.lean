/-
# Punycode

Text whose characters beyond ASCII have been taken out and are put back by a
list of insertions. Each insertion is a number in base 36, least digit first,
that tells how far the place and the character are from those of the
insertion before; which digit is the last one is told by a threshold that
adapts to the sizes seen.

Key definitions: `Punycode.readDelta`, `Punycode.adapt`, `Punycode.decode?`.
-/
namespace Profiler
namespace Punycode

def digit? (c : Char) : Option Nat :=
  if 'a' ≤ c ∧ c ≤ 'z' then some (c.toNat - 'a'.toNat)
  else if '0' ≤ c ∧ c ≤ '9' then some (26 + (c.toNat - '0'.toNat))
  else none

/-- A digit below the threshold at its place is the last one. -/
def threshold (place bias : Nat) : Nat := min (max (place - bias) 1) 26

/-- Read a number whose digits so far weigh `sum`; the next one has `weight`. -/
def readDelta (bias place weight sum : Nat) : List Char → Option (Nat × List Char)
  | [] => none
  | c :: rest =>
    match digit? c with
    | none => none
    | some d =>
      let sum := sum + d * weight
      let t := threshold place bias
      if d < t then some (sum, rest)
      else readDelta bias (place + 36) (weight * (36 - t)) sum rest

/-- What is read is shorter than before. -/
theorem readDelta_length {bias place weight sum : Nat} {cs rest : List Char} {n : Nat}
    (h : readDelta bias place weight sum cs = some (n, rest)) : rest.length < cs.length := by
  induction cs generalizing place weight sum with
  | nil => simp [readDelta] at h
  | cons c cs ih =>
    rw [readDelta] at h
    split at h
    · simp at h
    · simp only at h
      split at h
      · simp only [Option.some.injEq, Prod.mk.injEq] at h
        simp [← h.2]
      · exact Nat.lt_succ_of_lt (ih h)

/-- Divide by 35 until the number is small, and count the places skipped. -/
def shrink (delta places : Nat) : Nat × Nat :=
  if 455 < delta then shrink (delta / 35) (places + 36) else (delta, places)
termination_by delta
decreasing_by omega

/-- The bias after an insertion that made the text `length` characters long. -/
def adapt (delta length : Nat) (first : Bool) : Nat :=
  let delta := delta / (if first then 700 else 2)
  let (delta, places) := shrink (delta + delta / length) 0
  places + 36 * delta / (delta + 38)

/-- The code points below which all are characters. -/
def charLimit : Nat := 0x110000

/-- Carry out insertions: `code` and `place` are where the last one left off. -/
def insertAll (limit bias code place : Nat) (first : Bool) (text cs : List Char) :
    Option (List Char) :=
  match _h : readDelta bias 36 1 0 cs with
  | none => none
  | some (delta, rest) =>
    let length := text.length + 1
    let place := place + delta
    let code := code + place / length
    let place := place % length
    if charLimit ≤ code ∨ (0xd800 ≤ code ∧ code < 0xe000) ∨ limit < length then none
    else
      let text := text.insertIdx place (Char.ofNat code)
      if rest.isEmpty then some text
      else insertAll limit (adapt delta length first) code (place + 1) false text rest
termination_by cs.length
decreasing_by exact readDelta_length _h

/-- The text of at most `limit` characters, from its ASCII characters and its
insertions. There has to be an insertion. -/
def decode? (limit : Nat) (ascii insertions : List Char) : Option (List Char) :=
  if insertions.isEmpty ∨ limit < ascii.length then none
  else insertAll limit 72 0x80 0 true ascii insertions

end Punycode
end Profiler
