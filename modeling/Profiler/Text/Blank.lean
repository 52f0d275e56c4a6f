/-
# White space, words and lines

The characters with the Unicode property White_Space, and the ways a text is
cut: at white space into words, at line ends into lines, at a character into
parts. Everything is cut by `splitWhere`, which keeps empty pieces.

Key definitions: `isBlank`, `splitWhere`, `Text.trim`, `Text.words`,
`Text.lines`, `Text.splitFirst?`, `Text.splitLast?`.
Key theorems: `splitWhere_ne_nil`, `not_mem_of_mem_splitWhere`,
`Text.splitFirst?_append`, `Text.splitLast?_append`.
-/
namespace Profiler

/-- The Unicode property White_Space. -/
def isBlank (c : Char) : Bool :=
  let n := c.toNat
  (0x9 ≤ n && n ≤ 0xD) || n == 0x20 || n == 0x85 || n == 0xA0 || n == 0x1680 ||
    (0x2000 ≤ n && n ≤ 0x200A) || n == 0x2028 || n == 0x2029 || n == 0x202F || n == 0x205F ||
    n == 0x3000

/-- One more character in front of the pieces: a separator begins a new first
piece. -/
def consPiece (isSeparator : Char → Bool) (c : Char) (pieces : List (List Char)) :
    List (List Char) :=
  if isSeparator c then [] :: pieces
  else match pieces with
    | [] => [[c]]
    | piece :: rest => (c :: piece) :: rest

/-- The pieces between separators, one more than there are separators. -/
def splitWhere (isSeparator : Char → Bool) (cs : List Char) : List (List Char) :=
  cs.foldr (consPiece isSeparator) [[]]

theorem splitWhere_ne_nil (p : Char → Bool) (cs : List Char) : splitWhere p cs ≠ [] := by
  unfold splitWhere
  cases cs with
  | nil => simp
  | cons c cs =>
    rw [List.foldr_cons]
    unfold consPiece
    split
    · simp
    · split <;> simp

/-- No separator is left in a piece. -/
theorem not_mem_of_mem_splitWhere {p : Char → Bool} {cs piece : List Char} {c : Char}
    (h : piece ∈ splitWhere p cs) (hc : c ∈ piece) : p c = false := by
  induction cs generalizing piece with
  | nil =>
    rw [splitWhere, List.foldr_nil, List.mem_singleton] at h
    simp [h] at hc
  | cons d cs ih =>
    rw [splitWhere, List.foldr_cons, ← splitWhere] at h
    unfold consPiece at h
    split at h
    · rcases List.mem_cons.mp h with rfl | h
      · simp at hc
      · exact ih h hc
    · next hd =>
      split at h
      · next hnil => exact absurd hnil (splitWhere_ne_nil p cs)
      · next first rest heq =>
        rcases List.mem_cons.mp h with rfl | h
        · rcases List.mem_cons.mp hc with rfl | hc
          · simpa using hd
          · exact ih (by rw [heq]; exact List.mem_cons_self) hc
        · exact ih (by rw [heq]; exact List.mem_cons_of_mem _ h) hc

namespace Text

/-- The characters without white space at the ends. -/
def trimChars (cs : List Char) : List Char :=
  ((cs.dropWhile isBlank).reverse.dropWhile isBlank).reverse

def trim (s : String) : String := String.ofList (trimChars s.toList)

/-- The runs of characters that are not white space. -/
def words (s : String) : List String :=
  ((splitWhere isBlank s.toList).filter fun w => !w.isEmpty).map String.ofList

/-- A line without the carriage return at its end. -/
def dropReturn (cs : List Char) : List Char :=
  if cs.getLast? = some '\r' then cs.dropLast else cs

/-- The lines of the pieces between newlines. What follows the last newline is
a line unless it is empty, and only there a final carriage return belongs to
the line. -/
def linesOfPieces : List (List Char) → List (List Char)
  | [] => []
  | [last] => if last.isEmpty then [] else [last]
  | piece :: rest => dropReturn piece :: linesOfPieces rest

def lines (s : String) : List String :=
  (linesOfPieces (splitWhere (· == '\n') s.toList)).map String.ofList

/-- What stands before and after the first `c`. -/
def splitFirst? (c : Char) (cs : List Char) : Option (List Char × List Char) :=
  match cs.dropWhile (· != c) with
  | [] => none
  | _ :: rest => some (cs.takeWhile (· != c), rest)

/-- What stands before and after the last `c`. -/
def splitLast? (c : Char) (cs : List Char) : Option (List Char × List Char) :=
  (splitFirst? c cs.reverse).map fun (after, before) => (before.reverse, after.reverse)

/-- A text is cut at the first `c`, whatever follows it. -/
theorem splitFirst?_append {c : Char} {front : List Char} (h : c ∉ front) (rest : List Char) :
    splitFirst? c (front ++ c :: rest) = some (front, rest) := by
  have hne : ∀ d ∈ front, (d != c) = true := fun d hd => by
    simpa using fun hdc : d = c => h (hdc ▸ hd)
  rw [splitFirst?, List.dropWhile_append_of_pos hne, List.takeWhile_append_of_pos hne,
    List.dropWhile_cons_of_neg (by simp), List.takeWhile_cons_of_neg (by simp), List.append_nil]

/-- A text is cut at the last `c`, whatever stands before it. -/
theorem splitLast?_append {c : Char} {back : List Char} (h : c ∉ back) (front : List Char) :
    splitLast? c (front ++ c :: back) = some (front, back) := by
  have hreverse : (front ++ c :: back).reverse = back.reverse ++ c :: front.reverse := by simp
  have hback : c ∉ back.reverse := fun hc => h (List.mem_reverse.mp hc)
  simp only [splitLast?, hreverse, splitFirst?_append hback, Option.map_some, List.reverse_reverse]

end Text
end Profiler
