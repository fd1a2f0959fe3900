import Mathlib
import PieceSquare.Json.Printer
import PieceSquare.Json.Reader
import PieceSquare.Proofs.Text.Integer

set_option autoImplicit false

/-! # Written values as lexemes

A value that is written is one lexeme again, whatever stands behind it: a string with any characters
in it (`all_writeString`), a truth value, and an integer of 64 bits, if what stands behind it does not
go on with the number (`all_writeInteger`). An escape is read as the character that it stands for
(`content_escapedChar`), and no character that is not escaped ends the string. A number in general is
a `Numeral`, whose parts are cut off one by one (`scanNumber_text`).
-/

namespace PieceSquare

open Json (escapedChar writeString writeInteger)

/-! ## Digits -/

/-- Only the number zero is written with a zero in front. -/
theorem head?_natDigits_ne {n : Nat} (h : 0 < n) : (natDigits n).head? ≠ some '0' := by
  -- The digits in front of the last one are those of the quotient by ten.
  induction n using Nat.strong_induction_on with
  | _ n ih =>
      by_cases hsmall : n < 10
      · rw [natDigits, Nat.toDigits_of_lt_base hsmall]
        interval_cases n <;> decide
      · have hlarge : 10 ≤ n := not_lt.mp hsmall
        rw [natDigits, Nat.toDigits_of_base_le (by decide) hlarge,
          List.head?_append_of_ne_nil _ Nat.toDigits_ne_nil]
        exact ih (n / 10) (by omega) (by omega)

/-- Digits, at least one. -/
def Digits : Type := { ds : List Char // ds ≠ [] ∧ ∀ c ∈ ds, c.isDigit = true }

namespace Digits

variable (ds : Digits) {rest : List Char} (h : ∀ c ∈ rest.head?, c.isDigit = false)

include h in
/-- Digits end where no digit follows. -/
theorem takeWhile_append : (ds.1 ++ rest).takeWhile Char.isDigit = ds.1 := by
  rw [List.takeWhile_append_of_pos ds.2.2]
  cases rest with
  | nil => rw [List.takeWhile_nil, List.append_nil]
  | cons c rest =>
      rw [List.takeWhile_cons_of_neg (by rw [h c rfl]; decide), List.append_nil]

include h in
theorem dropWhile_append : (ds.1 ++ rest).dropWhile Char.isDigit = rest := by
  rw [List.dropWhile_append_of_pos ds.2.2]
  cases rest with
  | nil => rfl
  | cons c rest => exact List.dropWhile_cons_of_neg (by rw [h c rfl]; decide)

/-- The decimal digits of a number. -/
def ofNat (n : Nat) : Digits :=
  ⟨natDigits n, natDigits_ne_nil n, fun _ => isDigit_of_mem_natDigits⟩

end Digits

/-- The text of a number behind its sign, in parts. There is no zero in front of the whole part, unless
it is the only digit, and the exponent has a sign. -/
structure Numeral where
  /-- The digits in front of the point. -/
  whole : Digits
  whole_zero : whole.1.head? = some '0' → whole.1.length = 1
  /-- The digits behind the point, if there is a point. -/
  fraction : Option Digits
  /-- Whether the exponent is negative, and its digits. -/
  power : Option (Bool × Digits)

namespace Numeral

variable (t : Numeral)

/-- The point and the digits behind it. -/
def fractionText : List Char :=
  match t.fraction with
  | none => []
  | some ds => '.' :: ds.1

/-- The exponent with its mark. -/
def powerText : List Char :=
  match t.power with
  | none => []
  | some (down, ds) => 'e' :: (if down then '-' else '+') :: ds.1

/-- The whole text. -/
def text : List Char := t.whole.1 ++ (t.fractionText ++ t.powerText)

/-- The exponent as a number. -/
def powerValue : Option Int :=
  t.power.map fun (down, ds) =>
    let n : Int := ds.1.foldl (fun n c => 10 * n + digitValue c) (0 : Nat)
    if down then -n else n

/-- The parts of the number as a reader finds them. -/
def parts : JsonNumber.Parts := ⟨t.whole.1, t.fraction.map Subtype.val, t.powerValue⟩

/-- A number without a point and an exponent. -/
def ofNat (n : Nat) : Numeral where
  whole := .ofNat n
  whole_zero hzero := by
    rcases Nat.eq_zero_or_pos n with rfl | hpos
    · rfl
    · exact absurd hzero (head?_natDigits_ne hpos)
  fraction := none
  power := none

end Numeral

namespace Lexeme

theorem hexDigit?_digitChar : ∀ n : Fin 16, hexDigit? (Nat.digitChar n) = some n.val := by decide

theorem hexValue?_control {n : Nat} (h : n < 32) :
    hexValue? '0' '0' (Nat.digitChar (n / 16)) (Nat.digitChar (n % 16)) = some n := by
  have hhigh : hexDigit? (Nat.digitChar (n / 16)) = some (n / 16) :=
    hexDigit?_digitChar ⟨n / 16, by omega⟩
  have hlow : hexDigit? (Nat.digitChar (n % 16)) = some (n % 16) :=
    hexDigit?_digitChar ⟨n % 16, by omega⟩
  have hzero : hexDigit? '0' = some 0 := by decide
  rw [hexValue?, hzero, hhigh, hlow]
  show some (0 * 256 + n / 16 * 16 + n % 16) = some n
  congr 1
  omega

/-! ## Strings -/

/-- A character is written by an escape of one letter, by an escape with its number, or as itself. -/
inductive Escape (c : Char) : Prop where
  | letter (l : Char) (hl : l ≠ 'u') (hc : escaped? l = some c)
    (h : escapedChar c = ['\x5c', l])
  | control (hc : c.toNat < 32) (h : escapedChar c =
      ['\x5c', 'u', '0', '0', Nat.digitChar (c.toNat / 16), Nat.digitChar (c.toNat % 16)])
  | self (hquote : c ≠ '\x22') (hbackslash : c ≠ '\x5c') (hc : ¬ c < ' ')
    (h : escapedChar c = [c])

theorem escape (c : Char) : Escape c := by
  have h : escapedChar c = escapedChar c := rfl
  conv at h => rhs; unfold escapedChar
  split at h
  case h_8 hquote hbackslash _ _ _ _ _ =>
    split_ifs at h with hc
    · exact .control hc h
    · exact .self hquote hbackslash hc h
  all_goals exact .letter _ (by decide) (by decide) h

theorem content_escapedChar (c : Char) (rest : List Char) :
    content (escapedChar c ++ rest) = (content rest).map (c :: ·) := by
  cases escape c with
  | letter l hl hc h =>
      rw [h]
      show content ('\x5c' :: l :: rest) = _
      rw [content, hc]
      all_goals intros; contradiction
  | control hc h =>
      have htrailing : isTrailing c.toNat = false := by simp [isTrailing]; omega
      have hleading : isLeading c.toNat = false := by simp [isLeading]; omega
      rw [h]
      show content ('\x5c' :: 'u' :: '0' :: '0' :: _ :: _ :: rest) = _
      rw [content, hexValue?_control hc]
      simp only [htrailing, hleading, Char.ofNat_toNat]
      rfl
  | self hquote hbackslash hc h =>
      rw [h]
      show content (c :: rest) = _
      rw [content, if_neg hc]
      all_goals intros; contradiction

theorem behindText_escapedChar (c : Char) (rest : List Char) :
    behindText (escapedChar c ++ rest) = behindText rest := by
  cases escape c with
  | letter l hl hc h =>
      rw [h]
      show behindText ('\x5c' :: l :: rest) = _
      rw [behindText, hc]
      · rfl
      all_goals intros; contradiction
  | control hc h =>
      rw [h]
      show behindText ('\x5c' :: 'u' :: '0' :: '0' :: _ :: _ :: rest) = _
      rw [behindText, hexValue?_control hc]
  | self hquote hbackslash hc h =>
      rw [h]
      show behindText (c :: rest) = _
      rw [behindText, if_neg hc]
      all_goals intros; contradiction

theorem content_flatMap_escapedChar (s rest : List Char) :
    content (s.flatMap escapedChar ++ '\x22' :: rest) = .ok s := by
  induction s with
  | nil => rw [List.flatMap_nil, List.nil_append, content]
  | cons c s ih =>
      rw [List.flatMap_cons, List.append_assoc, content_escapedChar, ih]
      rfl

theorem behindText_flatMap_escapedChar (s rest : List Char) :
    behindText (s.flatMap escapedChar ++ '\x22' :: rest) = .ok rest := by
  induction s with
  | nil => rw [List.flatMap_nil, List.nil_append, behindText]
  | cons c s ih => rw [List.flatMap_cons, List.append_assoc, behindText_escapedChar, ih]

/-! ## Numbers -/

/-- Whether a text that stands behind digits does not go on with the number. -/
def EndsNumber (rest : List Char) : Prop :=
  ∀ c ∈ rest.head?, c.isDigit = false ∧ c ≠ '.' ∧ c ≠ 'e' ∧ c ≠ 'E'

/-- Separators and closing brackets end a number. -/
theorem endsNumber_cons {c : Char} (h : c = ',' ∨ c = ']' ∨ c = '\x7d') (rest : List Char) :
    EndsNumber (c :: rest) := by
  rintro d ⟨⟩
  rcases h with rfl | rfl | rfl <;> decide

theorem EndsNumber.isDigit {rest : List Char} (h : EndsNumber rest) :
    ∀ c ∈ rest.head?, c.isDigit = false := fun c hc => (h c hc).1

/-- Behind the digits in front of an exponent there is neither a digit nor a point. -/
theorem head?_powerText_append (t : Numeral) {rest : List Char} (h : EndsNumber rest) :
    ∀ c ∈ (t.powerText ++ rest).head?, c.isDigit = false ∧ c ≠ '.' := by
  unfold Numeral.powerText
  cases t.power with
  | none => exact fun c hc => ⟨(h c hc).1, (h c hc).2.1⟩
  | some power =>
      rintro c ⟨⟩
      decide

theorem head?_fractionText_append (t : Numeral) {rest : List Char} (h : EndsNumber rest) :
    ∀ c ∈ (t.fractionText ++ (t.powerText ++ rest)).head?, c.isDigit = false := by
  unfold Numeral.fractionText
  cases t.fraction with
  | none => exact fun c hc => (head?_powerText_append t h c hc).1
  | some ds =>
      -- The point ends the digits in front of it.
      rintro c ⟨⟩
      decide

theorem scanExponent_of_endsNumber (negative : Bool) (whole : List Char)
    (fraction : Option (List Char)) {rest : List Char} (h : EndsNumber rest) :
    scanExponent negative whole fraction rest = complete negative ⟨whole, fraction, none⟩ rest := by
  cases rest with
  | nil => rfl
  | cons c rest =>
      obtain ⟨-, -, he, hE⟩ := h c rfl
      rw [scanExponent, if_neg (by simp [he, hE])]

theorem scanFraction_of_ne_point (negative : Bool) (whole : List Char) {rest : List Char}
    (h : rest.head? ≠ some '.') :
    scanFraction negative whole rest = scanExponent negative whole none rest := by
  rw [scanFraction]
  rintro cs rfl
  exact h rfl

/-- An exponent is read with its sign. -/
theorem scanExponent_powerText (t : Numeral) (negative : Bool) (whole : List Char)
    (fraction : Option (List Char)) {rest : List Char} (h : EndsNumber rest) :
    scanExponent negative whole fraction (t.powerText ++ rest) =
      complete negative ⟨whole, fraction, t.powerValue⟩ rest := by
  unfold Numeral.powerText Numeral.powerValue
  cases t.power with
  | none => exact scanExponent_of_endsNumber negative whole fraction h
  | some power =>
      obtain ⟨down, ds⟩ := power
      have hsign : exponentSign ((if down then '-' else '+') :: (ds.1 ++ rest)) =
          (down, ds.1 ++ rest) := by cases down <;> rfl
      show scanExponent negative whole fraction
        ('e' :: (if down then '-' else '+') :: (ds.1 ++ rest)) = _
      simp only [scanExponent, true_or, if_true, hsign, ds.takeWhile_append h.isDigit,
        ds.dropWhile_append h.isDigit]
      rw [if_neg (by simpa using ds.2.1)]
      rfl

theorem scanFraction_text (t : Numeral) (negative : Bool) (whole : List Char) {rest : List Char}
    (h : EndsNumber rest) :
    scanFraction negative whole (t.fractionText ++ (t.powerText ++ rest)) =
      complete negative ⟨whole, t.fraction.map Subtype.val, t.powerValue⟩ rest := by
  have hpower := head?_powerText_append t h
  rw [Numeral.fractionText]
  cases t.fraction with
  | none =>
      rw [List.nil_append, scanFraction_of_ne_point negative whole fun hc => (hpower '.' hc).2 rfl]
      exact scanExponent_powerText t negative whole none h
  | some ds =>
      have hdigit : ∀ c ∈ (t.powerText ++ rest).head?, c.isDigit = false :=
        fun c hc => (hpower c hc).1
      show scanFraction negative whole ('.' :: (ds.1 ++ (t.powerText ++ rest))) = _
      simp only [scanFraction, ds.takeWhile_append hdigit, ds.dropWhile_append hdigit]
      rw [if_neg (by simpa using ds.2.1)]
      exact scanExponent_powerText t negative whole (some ds.1) h

/-- The text of a number is read part by part. -/
theorem scanNumber_text (t : Numeral) (negative : Bool) {rest : List Char} (h : EndsNumber rest) :
    scanNumber negative (t.text ++ rest) = complete negative t.parts rest := by
  have hdigit := head?_fractionText_append t h
  have hzero : ¬ (t.whole.1.head? == some '0' && 1 < t.whole.1.length) = true := by
    intro hlong
    rw [Bool.and_eq_true, beq_iff_eq, decide_eq_true_eq] at hlong
    exact absurd (t.whole_zero hlong.1) (by omega)
  rw [Numeral.text, List.append_assoc, List.append_assoc]
  simp only [scanNumber, t.whole.takeWhile_append hdigit, t.whole.dropWhile_append hdigit]
  rw [if_neg (by simpa using t.whole.2.1), if_neg hzero]
  exact scanFraction_text t negative t.whole.1 h

theorem scanNumber_natDigits (negative : Bool) (n : Nat) {rest : List Char} (h : EndsNumber rest) :
    scanNumber negative (natDigits n ++ rest) =
      complete negative ⟨natDigits n, none, none⟩ rest := by
  have htext : (Numeral.ofNat n).text = natDigits n := List.append_nil _
  have hscan := scanNumber_text (.ofNat n) negative h
  rw [htext] at hscan
  exact hscan

/-- The value of written digits, as long as it fits the wanted words. -/
theorem value_natDigits (n : Nat) :
    (n < wordCount → (⟨natDigits n, none, none⟩ : JsonNumber.Parts).value false =
      .ok (.integer n)) ∧
    (0 < n → n ≤ signedLimit → (⟨natDigits n, none, none⟩ : JsonNumber.Parts).value true =
      .ok (.integer (-n))) := by
  have hvalue : (natDigits n).foldl (fun n c => 10 * n + digitValue c) 0 = n :=
    Nat.ofDigitChars_ten_toDigits
  constructor
  · intro hn
    simp only [JsonNumber.Parts.value, hvalue]
    simp [hn]
  · intro hpos hn
    simp only [JsonNumber.Parts.value, hvalue]
    simp [hpos, hn]

/-! ## Texts of lexemes -/

theorem all_cons_of_scan {c : Char} {cs rest : List Char} {lexeme : Lexeme}
    (hspace : isSpace c = false) (hscan : scan c cs = (lexeme, some rest)) :
    all (c :: cs) = lexeme :: all rest := by
  rw [all, if_neg (by rw [hspace]; decide)]
  split
  · next heq =>
      rw [hscan] at heq
      cases heq
  · next heq =>
      rw [hscan] at heq
      cases heq
      rfl

/-- A written string is one lexeme. -/
theorem all_writeString (s : String) (rest : List Char) :
    all (writeString s ++ rest) = text (.ok s) none :: all rest := by
  have hscan : scan '\x22' (s.toList.flatMap escapedChar ++ '\x22' :: rest) =
      (text (.ok s) none, some rest) := by
    show scanText _ = _
    rw [scanText, content_flatMap_escapedChar, behindText_flatMap_escapedChar]
    show (text (.ok (String.ofList s.toList)) none, some rest) = _
    rw [String.ofList_toList]
  have happend : writeString s ++ rest =
      '\x22' :: (s.toList.flatMap escapedChar ++ '\x22' :: rest) := by
    simp [writeString]
  rw [happend, all_cons_of_scan (by decide) hscan]

theorem scan_of_isDigit {c : Char} (h : c.isDigit = true) (cs : List Char) :
    scan c cs = scanNumber false (c :: cs) := by
  have hne {d : Char} (hd : d.isDigit = false) : c ≠ d := by
    rintro rfl
    rw [h] at hd
    cases hd
  rw [scan, if_pos h]
  all_goals exact hne (by decide)

theorem isSpace_of_isDigit {c : Char} (h : c.isDigit = true) : isSpace c = false := by
  rw [Bool.eq_false_iff]
  intro hspace
  simp only [isSpace, Bool.or_eq_true, beq_iff_eq] at hspace
  rcases hspace with ((rfl | rfl) | rfl) | rfl <;> revert h <;> decide

/-- A written integer of 64 bits is one lexeme. -/
theorem all_writeInteger {n : Int} (hlo : -signedLimit ≤ n) (hhi : n < signedLimit)
    {rest : List Char} (hrest : EndsNumber rest) :
    all (writeInteger n ++ rest) = number (.ok (.integer n)) none :: all rest := by
  have hlimit : signedLimit < wordCount := by decide
  unfold writeInteger
  split_ifs with hneg
  · have hvalue := (value_natDigits n.natAbs).2 (by omega) (by omega)
    have hn : -(n.natAbs : Int) = n := by omega
    have hscan : scan '-' (natDigits n.natAbs ++ rest) =
        (number (.ok (.integer n)) none, some rest) := by
      show scanNumber true _ = _
      rw [scanNumber_natDigits true _ hrest, complete, hvalue, hn]
    exact all_cons_of_scan (by decide) hscan
  · have hvalue := (value_natDigits n.natAbs).1 (by omega)
    have hn : (n.natAbs : Int) = n := by omega
    have hscan := scanNumber_natDigits false n.natAbs hrest
    rw [complete, hvalue, hn] at hscan
    cases hdigits : natDigits n.natAbs with
    | nil => exact absurd hdigits (natDigits_ne_nil _)
    | cons c cs =>
        have hc : c.isDigit = true := isDigit_of_mem_natDigits (hdigits ▸ List.mem_cons_self)
        rw [hdigits, List.cons_append, ← scan_of_isDigit hc] at hscan
        exact all_cons_of_scan (isSpace_of_isDigit hc) hscan

/-- A written truth value is one lexeme. -/
theorem all_writeBool (b : Bool) (rest : List Char) :
    all ((Json.bool b).write ++ rest) = word (.bool b) :: all rest := by
  cases b with
  | true =>
      have hscan : scan 't' ('r' :: 'u' :: 'e' :: rest) = (word (.bool true), some rest) := rfl
      exact all_cons_of_scan (by decide) hscan
  | false =>
      have hscan : scan 'f' ('a' :: 'l' :: 's' :: 'e' :: rest) = (word (.bool false), some rest) :=
        rfl
      exact all_cons_of_scan (by decide) hscan

end Lexeme

end PieceSquare
