/-
# Cutting a text and joining it again

Pieces that are joined by a separator which is in none of them are cut apart
again (`splitWhere_intercalate`). Words are what is left of the pieces between
white space, so they are found whatever white space stands between them
(`Text.words_append_cons`, `Text.words_append_of_blank`), and joined by one blank
each they give the text back if and only if it had one blank each
(`Text.intercalate_words_eq_iff`).

Key definitions: `Text.IsWord`, `Text.SingleBlanks`.
Key theorems: `splitWhere_eq_splitOnP`, `splitWhere_intercalate`,
`Text.words_append_cons`, `Text.words_intercalate`,
`Text.intercalate_words_eq_iff`.
-/
import Mathlib.Data.List.Chain
import Mathlib.Data.List.DropRight
import Profiler.Text.Blank

namespace Profiler

variable {p : Char → Bool} {s : Char} {cs : List Char} {pieces : List (List Char)}

/-! ### Pieces -/

theorem splitWhere_eq_splitOnP (p : Char → Bool) (cs : List Char) :
    splitWhere p cs = cs.splitOnP p := by
  induction cs with
  | nil => rfl
  | cons c cs ih =>
    obtain ⟨first, rest, heq⟩ := List.exists_cons_of_ne_nil (List.splitOnP_ne_nil p cs)
    rw [splitWhere, List.foldr_cons, ← splitWhere, ih, List.splitOnP_cons_eq_if_modifyHead, heq]
    rfl

/-- **Pieces that were joined are cut apart again.** -/
theorem splitWhere_intercalate (hs : p s) (hne : pieces ≠ [])
    (hpieces : ∀ piece ∈ pieces, ∀ c ∈ piece, p c = false) :
    splitWhere p ([s].intercalate pieces) = pieces := by
  rw [splitWhere_eq_splitOnP]
  induction pieces with
  | nil => exact absurd rfl hne
  | cons piece pieces ih =>
    obtain ⟨hpiece, hrest⟩ := List.forall_mem_cons.mp hpieces
    cases pieces with
    | nil =>
      rw [List.intercalate_singleton]
      exact List.splitOnP_eq_singleton hpiece
    | cons next pieces =>
      rw [List.intercalate_cons_cons, List.append_assoc, List.singleton_append,
        List.splitOnP_append_cons_of_forall_mem hpiece s hs, ih (List.cons_ne_nil _ _) hrest]

theorem intercalate_splitWhere (h : ∀ c ∈ cs, p c = true → c = s) (hs : p s) :
    [s].intercalate (splitWhere p cs) = cs := by
  have hcongr : splitWhere p cs = splitWhere (· == s) cs := by
    refine List.foldr_ext (consPiece p) (consPiece (· == s)) [[]] fun c hc pieces => ?_
    have hiff : p c = (c == s) := by
      by_cases hcs : c = s
      · rw [hcs, hs, beq_self_eq_true]
      · rw [beq_eq_false_iff_ne.mpr hcs]
        exact Bool.eq_false_iff.mpr fun hp => hcs (h c hc hp)
    unfold consPiece
    rw [hiff]
  rw [hcongr, splitWhere_eq_splitOnP]
  exact List.intercalate_splitOn s

theorem splitWhere_cons_of_neg {c : Char} (hc : p c = false) (cs : List Char) :
    ∃ first, splitWhere p (c :: cs) = (c :: first) :: (splitWhere p cs).tail := by
  obtain ⟨first, rest, heq⟩ := List.exists_cons_of_ne_nil (List.splitOnP_ne_nil p cs)
  refine ⟨first, ?_⟩
  rw [splitWhere_eq_splitOnP, splitWhere_eq_splitOnP, List.splitOnP_cons_eq_if_modifyHead, hc, heq]
  rfl

/-- Where separators do not stand next to each other or at the end, no piece
behind the first one is empty. -/
theorem ne_nil_of_mem_tail_splitWhere (hchain : cs.IsChain fun a b => ¬ (p a = true ∧ p b = true))
    (hlast : ∀ c ∈ cs.getLast?, p c = false) : ∀ piece ∈ (splitWhere p cs).tail, piece ≠ [] := by
  induction cs with
  | nil => nofun
  | cons c cs ih =>
    obtain ⟨hnext, hchain⟩ := List.isChain_cons.mp hchain
    have hrest := ih hchain fun d hd => hlast d (by rw [List.getLast?_cons, hd]; rfl)
    by_cases hc : p c = true
    · -- the separator is not the last character, and the next one is none
      cases cs with
      | nil => exact absurd hc (by rw [hlast c rfl]; decide)
      | cons d cs =>
        have hd : p d = false := Bool.eq_false_iff.mpr fun hd => hnext d rfl ⟨hc, hd⟩
        obtain ⟨first, heq⟩ := splitWhere_cons_of_neg hd cs
        have hcut : splitWhere p (c :: d :: cs) = [] :: splitWhere p (d :: cs) := if_pos hc
        rw [hcut, List.tail_cons, heq, List.forall_mem_cons]
        rw [heq] at hrest
        exact ⟨List.cons_ne_nil _ _, hrest⟩
    · obtain ⟨first, heq⟩ := splitWhere_cons_of_neg (Bool.eq_false_iff.mpr hc) cs
      rwa [heq]

namespace Text

/-- A text that is not empty and has no white space. -/
structure IsWord (w : List Char) : Prop where
  ne_nil : w ≠ []
  blank : ∀ c ∈ w, isBlank c = false

/-- White space is single blanks. -/
structure SingleBlanks (cs : List Char) : Prop where
  blank : ∀ c ∈ cs, isBlank c = true → c = ' '
  single : cs.IsChain fun a b => ¬ (isBlank a = true ∧ isBlank b = true)

theorem IsWord.append_cons {a b : List Char} {c : Char} (ha : IsWord a) (hc : isBlank c = false)
    (hb : IsWord b) : IsWord (a ++ c :: b) where
  ne_nil := List.append_ne_nil_of_left_ne_nil ha.ne_nil _
  blank := List.forall_mem_append.mpr ⟨ha.blank, List.forall_mem_cons.mpr ⟨hc, hb.blank⟩⟩

/-- White space parts the words before it from those behind it. -/
theorem words_append_cons (cs rest : List Char) {c : Char} (hc : isBlank c) :
    words (String.ofList (cs ++ c :: rest)) = words (String.ofList cs) ++ words (String.ofList rest) := by
  simp only [words, String.toList_ofList, splitWhere_eq_splitOnP]
  rw [List.splitOnP_append_cons cs rest hc, List.filter_append, List.map_append]

theorem words_append_of_blank {gap : List Char} (hgap : ∀ c ∈ gap, isBlank c = true)
    (rest : List Char) : words (String.ofList (gap ++ rest)) = words (String.ofList rest) := by
  induction gap with
  | nil => rfl
  | cons c gap ih =>
    obtain ⟨hc, hgap⟩ := List.forall_mem_cons.mp hgap
    rw [List.cons_append, ← ih hgap]
    exact words_append_cons [] (gap ++ rest) hc

theorem words_ofList_of_ne_nil (h : ∀ piece ∈ splitWhere isBlank cs, piece ≠ []) :
    words (String.ofList cs) = (splitWhere isBlank cs).map String.ofList := by
  rw [words, String.toList_ofList, List.filter_eq_self.mpr fun piece hpiece => ?_]
  simpa using h piece hpiece

theorem words_intercalate {ws : List (List Char)} (hws : ∀ w ∈ ws, IsWord w) :
    words (String.ofList ([' '].intercalate ws)) = ws.map String.ofList := by
  by_cases hne : ws = []
  · subst hne
    rfl
  · have hcut := splitWhere_intercalate (s := ' ') rfl hne fun w hw => (hws w hw).blank
    rw [words_ofList_of_ne_nil, hcut]
    rw [hcut]
    exact fun w hw => (hws w hw).ne_nil

theorem words_ne_nil {text : String} (hne : text ≠ "")
    (hfirst : ∀ c ∈ text.toList.head?, isBlank c = false) : words text ≠ [] := by
  obtain ⟨c, cs, heq⟩ := List.exists_cons_of_ne_nil (mt String.toList_eq_nil_iff.mp hne)
  rw [heq] at hfirst
  obtain ⟨first, hcut⟩ := splitWhere_cons_of_neg (hfirst c rfl) cs
  rw [words, heq, hcut]
  exact List.cons_ne_nil _ _

/-- What is joined by one blank each has single blanks. -/
theorem singleBlanks_intercalate {ws : List (List Char)} (hws : ∀ w ∈ ws, IsWord w) :
    SingleBlanks ([' '].intercalate ws) := by
  have hword : ∀ w : List Char, (∀ c ∈ w, isBlank c = false) → SingleBlanks w := by
    intro w hw
    refine ⟨fun c hc hblank => ?_, List.Pairwise.isChain (List.pairwise_of_forall_mem_list ?_)⟩
    · rw [hw c hc] at hblank
      cases hblank
    · rintro a ha b - ⟨hblank, -⟩
      rw [hw a ha] at hblank
      cases hblank
  induction ws with
  | nil => exact hword [] nofun
  | cons w ws ih =>
    obtain ⟨⟨-, hw⟩, hrest⟩ := List.forall_mem_cons.mp hws
    cases ws with
    | nil =>
      rw [List.intercalate_singleton]
      exact hword w hw
    | cons next ws =>
      obtain ⟨hne, hnext⟩ := hrest next List.mem_cons_self
      obtain ⟨first, next, rfl⟩ := List.exists_cons_of_ne_nil hne
      obtain ⟨hblank, hchain⟩ := ih hrest
      obtain ⟨hblank', hchain'⟩ := hword w hw
      rw [List.intercalate_cons_cons, List.append_assoc, List.singleton_append]
      rw [List.intercalate_cons_cons_left] at hblank hchain ⊢
      constructor
      · rw [List.forall_mem_append, List.forall_mem_cons]
        exact ⟨hblank', fun _ => rfl, hblank⟩
      · -- the words on both sides of the blank are not white space
        refine List.isChain_append.mpr ⟨hchain', List.isChain_cons.mpr ⟨?_, hchain⟩, ?_⟩
        · rintro _ ⟨rfl⟩ ⟨-, hfirst⟩
          rw [hnext first List.mem_cons_self] at hfirst
          cases hfirst
        · rintro c hc _ - ⟨hblank, -⟩
          rw [hw c (List.mem_of_getLast? hc)] at hblank
          cases hblank

/-- The words of a text, joined by one blank each, are the text if and only if its
white space is single blanks. -/
theorem intercalate_words_eq_iff {text : String}
    (hfirst : ∀ c ∈ text.toList.head?, isBlank c = false)
    (hlast : ∀ c ∈ text.toList.getLast?, isBlank c = false) :
    " ".intercalate (words text) = text ↔ SingleBlanks text.toList := by
  have hjoined : (" ".intercalate (words text)).toList =
      [' '].intercalate ((splitWhere isBlank text.toList).filter fun w => !w.isEmpty) := by
    rw [String.toList_intercalate, words, List.map_map]
    simp only [Function.comp_def, String.toList_ofList, List.map_id']
    rfl
  rw [← String.toList_inj, hjoined]
  constructor
  · intro h
    rw [← h]
    refine singleBlanks_intercalate fun w hw => ?_
    obtain ⟨hw, hne⟩ := List.mem_filter.mp hw
    exact ⟨by simpa using hne, fun c hc => not_mem_of_mem_splitWhere hw hc⟩
  · intro h
    cases htext : text.toList with
    | nil => rfl
    | cons c cs =>
      rw [htext] at hfirst hlast h
      obtain ⟨first, heq⟩ := splitWhere_cons_of_neg (hfirst c rfl) cs
      have hne := ne_nil_of_mem_tail_splitWhere h.single hlast
      have hpieces : ∀ piece ∈ splitWhere isBlank (c :: cs), piece ≠ [] := by
        rw [heq, List.tail_cons] at hne
        rw [heq, List.forall_mem_cons]
        exact ⟨List.cons_ne_nil _ _, hne⟩
      rw [List.filter_eq_self.mpr fun piece hpiece => by simpa using hpieces piece hpiece]
      exact intercalate_splitWhere h.blank rfl

theorem splitFirst?_eq_none {c : Char} (h : c ∉ cs) : splitFirst? c cs = none := by
  have hall : cs.dropWhile (· != c) = [] := List.dropWhile_eq_nil_iff.mpr fun d hd =>
    bne_iff_ne.mpr fun heq => h (heq ▸ hd)
  rw [splitFirst?, hall]

/-! ### White space at the ends -/

section Ends

variable {before after w : List Char}

theorem dropWhile_append_cons (hs : isBlank s = false) (a b : List Char) :
    (a ++ s :: b).dropWhile isBlank = a.dropWhile isBlank ++ s :: b := by
  have hs' : ¬ isBlank s = true := by rw [hs]; decide
  rw [List.dropWhile_append]
  split
  · next hempty => rw [List.isEmpty_iff.mp hempty, List.dropWhile_cons_of_neg hs', List.nil_append]
  · rfl

theorem rdropWhile_append_cons (hs : isBlank s = false) (a b : List Char) :
    (a ++ s :: b).rdropWhile isBlank = a ++ s :: b.rdropWhile isBlank := by
  have hreverse : (a ++ s :: b).reverse = b.reverse ++ s :: a.reverse := by simp
  rw [List.rdropWhile, hreverse, dropWhile_append_cons hs, List.rdropWhile]
  simp

theorem rdropWhile_append_of_blank (hafter : ∀ c ∈ after, isBlank c = true) (cs : List Char) :
    (cs ++ after).rdropWhile isBlank = cs.rdropWhile isBlank := by
  have hreverse : ∀ c ∈ after.reverse, isBlank c = true := fun c hc =>
    hafter c (List.mem_reverse.mp hc)
  rw [List.rdropWhile, List.reverse_append, List.dropWhile_append_of_pos hreverse, List.rdropWhile]

theorem trimChars_append (hbefore : ∀ c ∈ before, isBlank c = true)
    (hafter : ∀ c ∈ after, isBlank c = true) (cs : List Char) :
    trimChars (before ++ (cs ++ after)) = trimChars cs := by
  show ((before ++ (cs ++ after)).dropWhile isBlank).rdropWhile isBlank =
    (cs.dropWhile isBlank).rdropWhile isBlank
  rw [List.dropWhile_append_of_pos hbefore, List.dropWhile_append]
  split
  · next hempty =>
    rw [List.isEmpty_iff.mp hempty, List.dropWhile_eq_nil_iff.mpr hafter]
  · exact rdropWhile_append_of_blank hafter _

theorem IsWord.dropWhile_append (hw : IsWord w) (rest : List Char) :
    (w ++ rest).dropWhile isBlank = w ++ rest := by
  obtain ⟨c, w, rfl⟩ := List.exists_cons_of_ne_nil hw.ne_nil
  exact List.dropWhile_cons_of_neg (by rw [hw.blank c List.mem_cons_self]; decide)

theorem IsWord.rdropWhile_append (hw : IsWord w) (front : List Char) :
    (front ++ w).rdropWhile isBlank = front ++ w := by
  have hreverse : IsWord w.reverse :=
    ⟨mt List.reverse_eq_nil_iff.mp hw.ne_nil, fun c hc => hw.blank c (List.mem_reverse.mp hc)⟩
  rw [List.rdropWhile, List.reverse_append, hreverse.dropWhile_append]
  simp

theorem IsWord.trimChars_eq (hw : IsWord w) : trimChars w = w := by
  have hfront := hw.dropWhile_append []
  rw [List.append_nil] at hfront
  show (w.dropWhile isBlank).rdropWhile isBlank = w
  rw [hfront]
  exact hw.rdropWhile_append []

theorem dropWhile_intercalate (hs : isBlank s = false) (piece : List Char)
    (pieces : List (List Char)) : ([s].intercalate (piece :: pieces)).dropWhile isBlank =
      [s].intercalate (piece.dropWhile isBlank :: pieces) := by
  cases pieces with
  | nil => rw [List.intercalate_singleton, List.intercalate_singleton]
  | cons next pieces =>
    rw [List.intercalate_cons_cons, List.intercalate_cons_cons, List.append_assoc,
      List.append_assoc]
    exact dropWhile_append_cons hs _ _

theorem rdropWhile_intercalate (hs : isBlank s = false) (pieces : List (List Char))
    (piece : List Char) : ([s].intercalate (pieces ++ [piece])).rdropWhile isBlank =
      [s].intercalate (pieces ++ [piece.rdropWhile isBlank]) := by
  induction pieces with
  | nil => rw [List.nil_append, List.nil_append, List.intercalate_singleton,
      List.intercalate_singleton]
  | cons first pieces ih =>
    rw [List.cons_append, List.cons_append, List.intercalate_cons_of_ne_nil (by simp),
      List.intercalate_cons_of_ne_nil (by simp), ← ih, List.append_assoc, List.append_assoc]
    exact rdropWhile_append_cons hs _ _

end Ends

end Text
end Profiler
