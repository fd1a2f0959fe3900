import Mathlib
import PieceSquare.Text.Blank

set_option autoImplicit false

/-! # Texts and the blanks at their ends

Trimming leaves a text alone that neither begins nor ends with a blank (`trim_eq_self`), and it does
not notice blanks that are put in front of a text or behind it. So where a text is divided at a
character that is no blank, trimming the whole text first changes neither part once it is trimmed
(`trim_append_cons`, `trim_dropWhile`, `trim_trimEnd`).

What trimming leaves is the text without the blanks at its ends, which is the one that begins and ends
with no blank (`trimmed_iff`).
-/

namespace PieceSquare

theorem isBlank_of_isAlphanum {c : Char} (h : c.isAlphanum = true) : isBlank c = false := by
  have hrange : (65 ≤ c.toNat ∧ c.toNat ≤ 90) ∨ (97 ≤ c.toNat ∧ c.toNat ≤ 122) ∨
      (48 ≤ c.toNat ∧ c.toNat ≤ 57) := by
    simpa [Char.isAlphanum, Char.isAlpha, Char.isUpper, Char.isLower, Char.isDigit,
      UInt32.le_iff_toNat_le, or_assoc] using h
  rw [Bool.eq_false_iff]
  intro hblank
  simp only [isBlank, Bool.or_eq_true, Bool.and_eq_true, decide_eq_true_eq, beq_iff_eq] at hblank
  omega

theorem dropWhile_isBlank_eq_self {text : List Char} (h : ∀ c ∈ text.head?, isBlank c = false) :
    text.dropWhile isBlank = text := by
  cases text with
  | nil => rfl
  | cons c text => exact List.dropWhile_cons_of_neg (by rw [h c rfl]; decide)

/-- A text that neither begins nor ends with a blank is left as it is. -/
theorem trim_eq_self {text : List Char} (hhead : ∀ c ∈ text.head?, isBlank c = false)
    (hlast : ∀ c ∈ text.getLast?, isBlank c = false) : trim text = text := by
  rw [trim, dropWhile_isBlank_eq_self hhead, trimEnd,
    dropWhile_isBlank_eq_self (by rwa [List.head?_reverse]), List.reverse_reverse]

theorem trim_of_forall {text : List Char} (h : ∀ c ∈ text, isBlank c = false) :
    trim text = text :=
  trim_eq_self (fun c hc => h c (List.mem_of_head? hc)) fun c hc => h c (List.mem_of_getLast? hc)

/-! ## Blanks that do not count -/

/-- Whether a text has nothing but blanks. -/
def IsBlankText (text : List Char) : Prop := ∀ c ∈ text, isBlank c = true

theorem dropWhile_of_isBlankText {text : List Char} (h : IsBlankText text) :
    text.dropWhile isBlank = [] :=
  List.dropWhile_eq_nil_iff.mpr h

theorem isBlankText_takeWhile (text : List Char) : IsBlankText (text.takeWhile isBlank) :=
  fun _ hc => (List.mem_takeWhile_imp hc)

/-- Blanks in front of a text do not count. -/
theorem trim_append_left {blanks : List Char} (h : IsBlankText blanks) (text : List Char) :
    trim (blanks ++ text) = trim text := by
  rw [trim, List.dropWhile_append_of_pos h, trim]

theorem trimEnd_append {blanks : List Char} (h : IsBlankText blanks) (text : List Char) :
    trimEnd (text ++ blanks) = trimEnd text := by
  have hreverse : IsBlankText blanks.reverse := fun c hc => h c (List.mem_reverse.mp hc)
  rw [trimEnd, List.reverse_append, List.dropWhile_append_of_pos hreverse, trimEnd]

/-- Blanks behind a text do not count. -/
theorem trim_append_right {blanks : List Char} (h : IsBlankText blanks) (text : List Char) :
    trim (text ++ blanks) = trim text := by
  rw [trim, List.dropWhile_append]
  split_ifs with hempty
  · rw [dropWhile_of_isBlankText h, trim, List.isEmpty_iff.mp hempty]
  · exact trimEnd_append h _

theorem trimEnd_append_cons {c : Char} (hc : isBlank c = false) (before after : List Char) :
    trimEnd (before ++ c :: after) = before ++ c :: trimEnd after := by
  have hkeep : (c :: before.reverse).dropWhile isBlank = c :: before.reverse :=
    dropWhile_isBlank_eq_self fun d hd => by rwa [← Option.mem_some_iff.mp hd]
  rw [trimEnd, List.reverse_append, List.reverse_cons, List.append_assoc, List.singleton_append,
    List.dropWhile_append, hkeep, trimEnd]
  split_ifs with hempty
  · rw [List.isEmpty_iff.mp hempty]
    simp
  · simp

theorem exists_eq_trimEnd_append (text : List Char) :
    ∃ blanks, IsBlankText blanks ∧ text = trimEnd text ++ blanks := by
  refine ⟨(text.reverse.takeWhile isBlank).reverse, fun c hc => ?_, ?_⟩
  · exact isBlankText_takeWhile _ c (List.mem_reverse.mp hc)
  · rw [trimEnd, ← List.reverse_append, List.takeWhile_append_dropWhile, List.reverse_reverse]

theorem trim_trimEnd (text : List Char) : trim (trimEnd text) = trim text := by
  obtain ⟨blanks, hblanks, htext⟩ := exists_eq_trimEnd_append text
  conv_rhs => rw [htext, trim_append_right hblanks]

theorem trim_dropWhile (text : List Char) : trim (text.dropWhile isBlank) = trim text := by
  conv_rhs => rw [← List.takeWhile_append_dropWhile (p := isBlank) (l := text),
    trim_append_left (isBlankText_takeWhile text)]

/-- What is left of a text with a character that is no blank. -/
theorem trim_append_cons {c : Char} (hc : isBlank c = false) (before after : List Char) :
    trim (before ++ c :: after) = before.dropWhile isBlank ++ c :: trimEnd after := by
  rw [trim, List.dropWhile_append]
  split_ifs with hempty
  · have hkeep : (c :: after).dropWhile isBlank = c :: after :=
      dropWhile_isBlank_eq_self fun d hd => by rwa [← Option.mem_some_iff.mp hd]
    rw [hkeep, List.isEmpty_iff.mp hempty]
    exact trimEnd_append_cons hc [] after
  · exact trimEnd_append_cons hc _ after

theorem trim_eq_nil_iff {text : List Char} : trim text = [] ↔ IsBlankText text := by
  constructor
  · intro h c hc
    by_contra hblank
    obtain ⟨before, after, rfl⟩ := List.append_of_mem hc
    rw [trim_append_cons (Bool.eq_false_iff.mpr hblank)] at h
    simp at h
  · intro h
    rw [trim, dropWhile_of_isBlankText h]
    rfl

theorem isEmpty_trim_iff {text : List Char} : (trim text).isEmpty = true ↔ IsBlankText text := by
  rw [List.isEmpty_iff, trim_eq_nil_iff]

/-! ## What trimming leaves -/

/-- The second text is what is left of the first one without the blanks at its ends. -/
structure Trimmed (text core : List Char) : Prop where
  blanks : ∃ front back, text = front ++ core ++ back ∧ IsBlankText front ∧ IsBlankText back
  head : ∀ c ∈ core.head?, isBlank c = false
  last : ∀ c ∈ core.getLast?, isBlank c = false

theorem Trimmed.eq_trim {text core : List Char} (h : Trimmed text core) : core = trim text := by
  obtain ⟨front, back, rfl, hfront, hback⟩ := h.blanks
  rw [trim_append_right hback, trim_append_left hfront, trim_eq_self h.head h.last]

theorem trimmed_trim (text : List Char) : Trimmed text (trim text) := by
  have hhead {l : List Char} {c : Char} (hc : c ∈ (l.dropWhile isBlank).head?) :
      isBlank c = false := by
    have hnot := List.head?_dropWhile_not isBlank l
    rw [Option.mem_def.mp hc] at hnot
    exact hnot
  obtain ⟨back, hback, hcore⟩ := exists_eq_trimEnd_append (text.dropWhile isBlank)
  constructor
  case blanks =>
    refine ⟨text.takeWhile isBlank, back, ?_, isBlankText_takeWhile text, hback⟩
    rw [List.append_assoc, trim, ← hcore, List.takeWhile_append_dropWhile]
  case head =>
    -- The first character that trimming leaves is the first one that is no blank.
    intro c hc
    refine hhead (l := text) ?_
    rw [hcore, List.head?_append, Option.mem_def, show (trimEnd _).head? = some c from hc]
    rfl
  case last =>
    intro c hc
    rw [trim, trimEnd, List.getLast?_reverse] at hc
    exact hhead hc

theorem trimmed_iff {text core : List Char} : Trimmed text core ↔ core = trim text := by
  constructor
  · exact Trimmed.eq_trim
  · rintro rfl
    exact trimmed_trim text

end PieceSquare
