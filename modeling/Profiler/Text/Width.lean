/-
# How wide text is shown

On a display with columns of equal width most characters take one column.
Characters of East Asian writing and most pictures take two, and marks take
none. What stands behind a character can change that: a selector makes a
picture of a plain character or the other way round, joiners make one picture
of several, and in some scripts neighbours are written as one sign. So a text
is measured from its end, and what has been met is kept as far as it bears on
the characters before it.

Key definitions: `Width.Behind`, `Width.measure`, `displayWidth`.
-/
import Profiler.Text.Width.Sets

namespace Profiler
namespace Width

/-- A sign that may be written as one with the characters before it. -/
inductive Ligature where
  | alef
  | lamed (joined : Bool)
  | ya (joined : Bool)
  /-- A vowel sign I with a joined Ya behind it. -/
  | vowelI
  | consonant (joined : Bool)
  /-- A consonant joiner with a consonant behind it. -/
  | joinedConsonant
  | toneLetter
  | orkhonI (joined : Bool)
  | subscriptLetter
  deriving DecidableEq, Repr

/-- What stands behind a character. -/
inductive Follower where
  | other
  | lineFeed
  | skinTone
  /-- One letter of a flag, or several. -/
  | flagLetter
  | flagLetters
  | picture
  /-- A joiner with a picture behind it. -/
  | joiner
  /-- What a picture that is to be joined ends with. -/
  | joinedKeycap
  | joinedFlagLetter
  | joinedFlag
  | joinedFlagAndLetter
  /-- The end of a flag with tags, behind so many letters or digits. -/
  | tagLetters (count : Nat)
  | tagDigits (count : Nat)
  | vowelE
  | vowelAi
  | ligature (l : Ligature)
  deriving DecidableEq, Repr

/-- A character that selects how the one before it is shown. -/
inductive Selector where
  | picture
  | plain
  | wide
  deriving DecidableEq, Repr

/-- What stands behind a character, and a selector before that. -/
structure Behind where
  follower : Follower := .other
  selector? : Option Selector := none
  deriving DecidableEq, Repr

/-- Whether a character is in one of some ranges of code points. -/
def isIn (ranges : List (Nat × Nat)) (c : Char) : Bool :=
  ranges.any fun (first, last) => first ≤ c.toNat && c.toNat ≤ last

def isFlagLetter : Char → Bool := isIn [(0x1f1e6, 0x1f1ff)]

def isSkinTone : Char → Bool := isIn [(0x1f3fb, 0x1f3ff)]

def isTagLetter : Char → Bool := isIn [(0xe0061, 0xe007a)]

def isTagDigit : Char → Bool := isIn [(0xe0030, 0xe0039)]

def isAlef : Char → Bool :=
  isIn [(0x622, 0x623), (0x625, 0x625), (0x627, 0x627), (0x671, 0x673), (0x675, 0x675),
    (0x773, 0x774), (0x870, 0x882)]

def isLam : Char → Bool :=
  isIn [(0x644, 0x644), (0x6b5, 0x6b8), (0x76a, 0x76a), (0x8a6, 0x8a6), (0x8c7, 0x8c7)]

/-- The letters that have a form below the letter before them. -/
def isSubscriptLetter : Char → Bool :=
  isIn [(0x1780, 0x1782), (0x1784, 0x1787), (0x1789, 0x178c), (0x178e, 0x1793), (0x1795, 0x1798),
    (0x179b, 0x179d), (0x17a0, 0x17a0), (0x17a2, 0x17a2), (0x17a7, 0x17a7), (0x17ab, 0x17ac),
    (0x17af, 0x17af)]

def isConsonant : Char → Bool := isIn [(0x2d31, 0x2d65), (0x2d6f, 0x2d6f)]

def isToneLetter : Char → Bool := isIn [(0xa4fc, 0xa4fd)]

def isFirstToneLetter : Char → Bool := isIn [(0xa4f8, 0xa4fb)]

def zeroWidthJoiner : Char := '\u200d'

/-- The marks that no ligature is broken by. -/
def isTransparent : Char → Bool :=
  isIn [(0x34f, 0x34f), (0x17b4, 0x17b5), (0x180b, 0x180d), (0x180f, 0x180f), (0xfe00, 0xfe0f),
    (0xe0100, 0xe01ef)]

/-- Whether a character can be selected as a picture and is one by itself, but
for ideographs in frames, which stay wide. -/
def isPlainSelectable (c : Char) : Bool :=
  pictures.contains c && selectable.contains c && !isIn [(0x1f200, 0x1f2ff)] c

/-- The quotation marks that are wide on demand. -/
def isQuotationMark : Char → Bool := isIn [(0x2018, 0x2019), (0x201c, 0x201d)]

def selector? : Char → Option Selector
  | '\ufe0f' => some .picture
  | '\ufe0e' => some .plain
  | '\ufe01' => some .wide
  | _ => none

/-- The columns of a character by itself. -/
def ofChar (c : Char) : Nat :=
  if c.toNat ≤ 0xa0 then 1
  else if c = '\u17a4' then 2
  else if c = '\u17d8' then 3
  else if blankChars.contains c then 0
  else if wideChars.contains c then 2
  else 1

/-- What a character is to those before it. -/
def Follower.ofChar (c : Char) : Follower :=
  if c = '\n' then .lineFeed
  else if c = '\u05dc' then .ligature (.lamed false)
  else if isAlef c then .ligature .alef
  else if isSubscriptLetter c then .ligature .subscriptLetter
  else if c = '\u1a10' then .ligature (.ya false)
  else if isConsonant c then .ligature (.consonant false)
  else if isToneLetter c then .ligature .toneLetter
  else if c.toNat = 0x10c03 then .ligature (.orkhonI false)
  else if c.toNat = 0x16d67 then .vowelE
  else if c.toNat = 0x16d68 then .vowelAi
  else if isFlagLetter c then .flagLetter
  else if isSkinTone c then .skinTone
  else if pictures.contains c then .picture
  else .other

/-- What a character is by itself: its columns, and what it is to those
before it. -/
def alone (c : Char) : Int × Behind :=
  (ofChar c, { follower := .ofChar c, selector? := selector? c })

namespace Behind

/-- What is left when the selector does not apply. Only a ligature lasts. -/
def unselected (b : Behind) : Behind :=
  match b.follower with
  | .ligature l => { follower := .ligature l }
  | _ => {}

/-- Put a selector before what stands behind. -/
def select (b : Behind) (s : Selector) : Behind :=
  match b.follower, s with
  | .ligature l, s => { follower := .ligature l, selector? := some s }
  | .joiner, .picture => { follower := .joiner, selector? := some .picture }
  | .joinedKeycap, .picture => { follower := .joinedKeycap, selector? := some .picture }
  | _, s => { selector? := some s }

end Behind

namespace Ligature

/-- A joiner or a mark before a ligature, if that goes on behind it. -/
def extend? (l : Ligature) (c : Char) : Option Ligature :=
  if l = .alef then none
  else if c = zeroWidthJoiner then
    some (match l with
      | .lamed _ => .lamed true
      | .ya _ => .ya true
      | .consonant _ => .consonant true
      | .orkhonI _ => .orkhonI true
      | l => l)
  else if isTransparent c then some l
  else none

/-- The columns that a character adds to a ligature, and what it is then. -/
def precede? (l : Ligature) (c : Char) : Option (Int × Follower) :=
  match l with
  | .alef =>
    if isLam c then some (0, .other)
    else if ofChar c = 0 ∧ !opaqueBlanks.contains c then some (0, .ligature .alef)
    else none
  | .lamed true => if c = '\u05d0' then some (0, .other) else none
  | .subscriptLetter => if c = '\u17d2' then some (-1, .other) else none
  | .ya true => if c = '\u1a17' then some (0, .ligature .vowelI) else none
  | .vowelI => if c = '\u1a15' then some (0, .other) else none
  | .consonant joined =>
    if c = '\u2d7f' then some (1, .ligature .joinedConsonant)
    else if joined ∧ isConsonant c then some (0, .other)
    else none
  | .joinedConsonant => if isConsonant c then some (-1, .other) else none
  | .toneLetter => if isFirstToneLetter c then some (0, .other) else none
  | .orkhonI true => if c.toNat = 0x10c32 then some (0, .other) else none
  | _ => none

end Ligature

/-- The columns that a character adds before a joiner, and what it is then. -/
def joined? (c : Char) : Option (Int × Follower) :=
  if c = '\u20e3' then some (0, .joinedKeycap)
  else if isFlagLetter c then some (1, .joinedFlagLetter)
  else if isSkinTone c then some (0, .skinTone)
  else if c.toNat = 0xe007f then some (0, .tagLetters 0)
  else if pictures.contains c then some (0, .picture)
  else none

/-- The columns that a character adds before tags, and what it is then. -/
def tagged? (follower : Follower) (c : Char) : Option (Int × Follower) :=
  let ended := if c.toNat = 0x1f3f4 then some (0, .picture) else none
  match follower with
  | .tagLetters n =>
    if n < 6 ∧ isTagLetter c then some (0, .tagLetters (n + 1))
    else if n < 5 ∧ isTagDigit c then some (0, .tagDigits 1)
    else if 3 ≤ n then ended
    else none
  | .tagDigits n =>
    if n < 3 ∧ isTagDigit c then some (0, .tagDigits (n + 1)) else if n = 3 then ended else none
  | _ => none

/-- The columns that a character adds because of what stands behind it, and
what it is then, unless that does not matter. -/
def precede? (follower : Follower) (c : Char) : Option (Int × Follower) :=
  match follower with
  | .ligature l => l.precede? c
  | .skinTone =>
    if modifierBases.contains c then some (0, .picture)
    else if c = zeroWidthJoiner then some (0, .joiner)
    else none
  | .flagLetter => if isFlagLetter c then some (1, .flagLetters) else none
  | .flagLetters =>
    if isFlagLetter c then some (1, .flagLetters)
    else if c = zeroWidthJoiner then some (0, .joiner)
    else none
  | .picture => if c = zeroWidthJoiner then some (0, .joiner) else none
  | .joiner => joined? c
  | .joinedFlagLetter => if isFlagLetter c then some (-1, .joinedFlag) else none
  | .joinedFlag =>
    if isFlagLetter c then some (3, .joinedFlagAndLetter)
    else if c = zeroWidthJoiner then some (0, .joiner)
    else none
  | .joinedFlagAndLetter =>
    if isFlagLetter c then some (-1, .joinedFlag)
    else if c = zeroWidthJoiner then some (0, .joiner)
    else none
  | .tagLetters _ | .tagDigits _ => tagged? follower c
  | .vowelE => match c.toNat with
    | 0x16d63 | 0x16d69 => some (0, .other)
    | 0x16d67 => some (0, .vowelAi)
    | 0x16d68 => some (1, .vowelE)
    | _ => none
  | .vowelAi => if c.toNat = 0x16d63 then some (0, .other) else none
  | _ => none

/-- What a character beyond Latin adds when no selector applies to it. -/
def measureUnselected (c : Char) (b : Behind) : Int × Behind :=
  let extended? := match b.follower with
    | .ligature l => l.extend? c
    | _ => none
  match extended? with
  | some l => (0, { follower := .ligature l })
  | none =>
    match precede? b.follower c with
    | some (n, follower) => (n, { follower })
    | none => alone c

/-- The columns that a character adds to the text behind it, and what is
behind the characters before it then. -/
def measure (c : Char) (b : Behind) : Int × Behind :=
  if b.selector? = some .picture ∧ selectable.contains c then
    (if b.follower = .joiner ∨ b.follower = .joinedKeycap then 0 else 2, { follower := .picture })
  else
    let b := if b.selector? = some .picture then b.unselected else b
    if c.toNat ≤ 0xa0 then
      if c = '\r' ∧ b = { follower := .lineFeed } then (0, {}) else alone c
    else if b = {} then alone c
    else match selector? c with
      | some s => (0, b.select s)
      | none =>
        match b.selector? with
        | some .plain =>
          if isPlainSelectable c then (1, {}) else measureUnselected c b.unselected
        | some .wide =>
          if isQuotationMark c then (2, {}) else measureUnselected c b.unselected
        | _ => measureUnselected c b

end Width

def displayWidth (s : String) : Nat :=
  (s.toList.foldr (fun c (sum, b) =>
    let (n, b) := Width.measure c b
    (sum + n, b)) ((0 : Int), ({} : Width.Behind))).1.toNat

end Profiler
