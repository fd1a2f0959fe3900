import PieceSquare.Proofs.Json.Lexemes

set_option autoImplicit false

/-! # Shortest texts are numbers of JSON

The shortest text of a number is one lexeme, whatever stands behind it, unless it goes on with the
number (`all_shortestText32`). Its digits do not begin with a zero, because zero does not read back as
any other number (`Binary.shortestDigits_pos`), and the zeros that are left out stand at their end. So
the text without an exponent has a single zero in front of the point only where its number is below
one, and the text with an exponent has one digit there.
-/

namespace PieceSquare

open Lexeme (EndsNumber)

/-! ## Digits -/

namespace Binary

variable {b : Binary}

/-- Zero is too far away from every other number. -/
theorem readsBack_zero (h : 0 < b.mantissa) (k : Int) : b.readsBack 0 k = false := by
  have hmargin : b.margins.1 ≤ 2 := by
    unfold margins
    split <;> decide
  have hunit : 0 < b.scaleUp * Nat.pow 10 (-k).toNat :=
    Nat.mul_pos (Nat.pow_pos (by decide)) (Nat.pow_pos (by decide))
  have hlow : 0 < (4 * b.mantissa - b.margins.1) * (b.scaleUp * Nat.pow 10 (-k).toNat) :=
    Nat.mul_pos (by omega) hunit
  simp only [readsBack, Nat.zero_mul]
  split
  · rw [Bool.and_eq_false_iff]
    exact .inl (decide_eq_false (by omega))
  · rw [Bool.and_eq_false_iff]
    exact .inl (decide_eq_false (by omega))

theorem nearestAt?_pos (h : 0 < b.mantissa) {k : Int} {d : Decimal}
    (hd : b.nearestAt? k = some d) : 0 < d.digits := by
  obtain ⟨c, hc, rfl⟩ := Option.map_eq_some_iff.mp hd
  have hreads : b.readsBack c k = true := List.find?_some (p := (b.readsBack · k)) hc
  refine Nat.pos_of_ne_zero ?_
  rintro rfl
  rw [readsBack_zero h] at hreads
  cases hreads

/-- The shortest decimal number is not zero. -/
theorem shortestDigits_pos (h : 0 < b.mantissa) : 0 < b.shortestDigits.digits := by
  simp only [shortestDigits]
  cases hfound : (List.range 17).findSome? fun (n : Nat) => b.nearestAt? (b.leadingPower - n) with
  | none => exact h
  | some d =>
      obtain ⟨n, -, hn⟩ := List.exists_of_findSome?_eq_some hfound
      rw [Option.getD_some]
      exact nearestAt?_pos h hn

end Binary

theorem withoutFinalZeros_cons {d : Char} (hd : d ≠ '0') (ds : List Char) :
    withoutFinalZeros (d :: ds) = d :: withoutFinalZeros ds := by
  unfold withoutFinalZeros
  rw [List.reverse_cons, List.dropWhile_append]
  split
  · next hnone =>
      rw [List.isEmpty_iff.mp hnone, List.dropWhile_cons_of_neg (by simpa using hd)]
      rfl
  · rw [List.reverse_append]
    rfl

theorem mem_of_mem_withoutFinalZeros {c : Char} {ds : List Char} (h : c ∈ withoutFinalZeros ds) :
    c ∈ ds :=
  List.mem_reverse.mp ((List.dropWhile_sublist _).mem (List.mem_reverse.mp h))

/-- Digits that do not begin with a zero. -/
structure Leading (digits : List Char) : Prop where
  digit : ∀ c ∈ digits, c.isDigit = true
  first : ∃ d ds, digits = d :: ds ∧ d ≠ '0'

/-- The digits of a number other than zero, without those zeros that say nothing. -/
theorem leading_withoutFinalZeros {n : Nat} (h : 0 < n) :
    Leading (withoutFinalZeros (natDigits n)) where
  digit c hc := isDigit_of_mem_natDigits (mem_of_mem_withoutFinalZeros hc)
  first := by
    obtain ⟨d, ds, hdigits⟩ := List.exists_cons_of_ne_nil (natDigits_ne_nil n)
    have hd : d ≠ '0' := by
      rintro rfl
      exact head?_natDigits_ne h (by rw [hdigits]; rfl)
    exact ⟨d, withoutFinalZeros ds, by rw [hdigits, withoutFinalZeros_cons hd], hd⟩

/-! ## Texts -/

theorem isDigit_of_mem_replicate {n : Nat} {c : Char} (h : c ∈ List.replicate n '0') :
    c.isDigit = true := by
  rw [List.eq_of_mem_replicate h]
  rfl

/-- A single zero. -/
def Digits.zero : Digits := ⟨['0'], List.cons_ne_nil _ _, List.forall_mem_singleton.mpr rfl⟩

theorem exists_numeral_positional {digits : List Char} (h : Leading digits) (lead : Int) :
    ∃ t : Numeral, t.text = positional digits lead := by
  obtain ⟨d, ds, rfl, hd⟩ := h.first
  unfold positional
  split
  · -- In front of the point there is nothing but a zero.
    have hfraction : ∀ c ∈ List.replicate ((-lead).toNat - 1) '0' ++ d :: ds, c.isDigit = true := by
      intro c hc
      rcases List.mem_append.mp hc with hc | hc
      · exact isDigit_of_mem_replicate hc
      · exact h.digit c hc
    exact ⟨⟨.zero, fun _ => rfl, some ⟨_, by simp, hfraction⟩, none⟩, by
      simp [Numeral.text, Numeral.fractionText, Numeral.powerText, Digits.zero]⟩
  · -- The digits begin in front of the point, and zeros may follow them up to it.
    obtain ⟨whole, hwhole⟩ : ∃ whole, whole = (d :: ds).take (lead.toNat + 1) ++
      List.replicate (lead.toNat + 1 - (d :: ds).length) '0' := ⟨_, rfl⟩
    have hne : whole ≠ [] := by simp [hwhole]
    have hhead : whole.head? = some d := by rw [hwhole]; rfl
    have hdigit : ∀ c ∈ whole, c.isDigit = true := by
      intro c hc
      rcases List.mem_append.mp (hwhole ▸ hc) with hc | hc
      · exact h.digit c (List.mem_of_mem_take hc)
      · exact isDigit_of_mem_replicate hc
    have hzero : whole.head? = some '0' → whole.length = 1 := by
      rw [hhead]
      rintro ⟨⟩
      exact absurd rfl hd
    obtain ⟨fraction, hfraction⟩ : ∃ fraction : Digits, fraction.1 =
        if ((d :: ds).drop (lead.toNat + 1)).isEmpty then ['0']
        else (d :: ds).drop (lead.toNat + 1) := by
      split
      · exact ⟨.zero, rfl⟩
      · next hrest =>
          rw [List.isEmpty_iff] at hrest
          exact ⟨⟨_, hrest, fun c hc => h.digit c (List.mem_of_mem_drop hc)⟩, rfl⟩
    refine ⟨⟨⟨whole, hne, hdigit⟩, hzero, some fraction, none⟩, ?_⟩
    simp only [Numeral.text, Numeral.fractionText, Numeral.powerText, List.append_nil, hfraction,
      hwhole]

theorem exists_numeral_scientific {digits : List Char} (h : Leading digits) (lead : Int) :
    ∃ t : Numeral, t.text = scientific digits lead := by
  obtain ⟨d, ds, rfl, hd⟩ := h.first
  obtain ⟨hdigit, hdigits⟩ := List.forall_mem_cons.mp h.digit
  have hwhole : [d] ≠ [] ∧ ∀ c ∈ [d], c.isDigit = true := by simpa using hdigit
  have hmark : (if lead < 0 then ['e', '-'] else ['e', '+']) =
      ['e', if decide (lead < 0) then '-' else '+'] := by
    by_cases hneg : lead < 0 <;> simp [hneg]
  cases ds with
  | nil =>
      refine ⟨⟨⟨[d], hwhole⟩, fun _ => rfl, none, some (decide (lead < 0), .ofNat lead.natAbs)⟩, ?_⟩
      simp only [scientific, hmark]
      rfl
  | cons d' ds =>
      refine ⟨⟨⟨[d], hwhole⟩, fun _ => rfl, some ⟨d' :: ds, by simp, hdigits⟩,
        some (decide (lead < 0), .ofNat lead.natAbs)⟩, ?_⟩
      simp only [scientific, hmark]
      simp [Numeral.text, Numeral.fractionText, Numeral.powerText, Digits.ofNat]

/-- The shortest text is a number with a minus sign or without. -/
theorem Binary.exists_numeral_shortestText (range : PositionalRange) (b : Binary) :
    ∃ t : Numeral, b.shortestText range = (if b.negative then ['-'] else []) ++ t.text := by
  by_cases hzero : b.mantissa = 0
  · refine ⟨⟨.zero, fun _ => rfl, some .zero, none⟩, ?_⟩
    simp only [Binary.shortestText, if_pos hzero]
    rfl
  · have hleading := leading_withoutFinalZeros (shortestDigits_pos (Nat.pos_of_ne_zero hzero))
    obtain ⟨lead, hlead⟩ : ∃ lead : Int, lead =
        b.shortestDigits.power + (natDigits b.shortestDigits.digits).length - 1 := ⟨_, rfl⟩
    by_cases hrange : range.least ≤ lead ∧ lead ≤ range.greatest
    · obtain ⟨t, ht⟩ := exists_numeral_positional hleading lead
      exact ⟨t, by simp only [Binary.shortestText, if_neg hzero, ← hlead, if_pos hrange, ht]⟩
    · obtain ⟨t, ht⟩ := exists_numeral_scientific hleading lead
      exact ⟨t, by simp only [Binary.shortestText, if_neg hzero, ← hlead, if_neg hrange, ht]⟩

/-! ## Lexemes -/

/-- A lexeme that a number is written as: a number, or the word that stands for one that is not
finite. -/
inductive IsNumber : Lexeme → Prop where
  | number (value : Except JsonFault Json) : IsNumber (.number value none)
  | null : IsNumber (.word .null)

/-- A number is one lexeme, with its sign. -/
theorem all_numeral (negative : Bool) (t : Numeral) {rest : List Char} (h : EndsNumber rest) :
    Lexeme.all ((if negative then ['-'] else []) ++ t.text ++ rest) =
      .number (t.parts.value negative) none :: Lexeme.all rest := by
  have hscan := Lexeme.scanNumber_text t negative h
  cases negative with
  | true => exact Lexeme.all_cons_of_scan (by decide) hscan
  | false =>
      obtain ⟨⟨whole, hne, hdigit⟩, hzero, fraction, power⟩ := t
      obtain ⟨d, ds, rfl⟩ := List.exists_cons_of_ne_nil hne
      have hd : d.isDigit = true := hdigit d List.mem_cons_self
      refine Lexeme.all_cons_of_scan (Lexeme.isSpace_of_isDigit hd) ?_
      rw [Lexeme.scan_of_isDigit hd]
      exact hscan

theorem exists_lexeme_shortestText32 (x : Float32) : ∃ lexeme, IsNumber lexeme ∧
    ∀ rest, EndsNumber rest → Lexeme.all (shortestText32 x ++ rest) = lexeme :: Lexeme.all rest := by
  unfold shortestText32
  cases Binary.ofFloat32? x with
  | none => exact ⟨_, .null, fun rest _ => Lexeme.all_cons_of_scan (by decide) rfl⟩
  | some b =>
      obtain ⟨t, ht⟩ := b.exists_numeral_shortestText .single
      refine ⟨_, .number (t.parts.value b.negative), fun rest h => ?_⟩
      simp only [ht]
      exact all_numeral b.negative t h

/-- The lexeme of a number. -/
def numberLexeme (x : Float32) : Lexeme := (Lexeme.all (shortestText32 x)).headD (.word .null)

theorem numberLexeme_eq {x : Float32} {lexeme : Lexeme}
    (h : ∀ rest, EndsNumber rest →
      Lexeme.all (shortestText32 x ++ rest) = lexeme :: Lexeme.all rest) :
    numberLexeme x = lexeme := by
  have hall := h [] (by rintro c ⟨⟩)
  rw [List.append_nil] at hall
  rw [numberLexeme, hall]
  rfl

theorem isNumber_numberLexeme (x : Float32) : IsNumber (numberLexeme x) := by
  obtain ⟨lexeme, hnumber, hall⟩ := exists_lexeme_shortestText32 x
  rwa [numberLexeme_eq hall]

/-- The shortest text of a number is one lexeme. -/
theorem all_shortestText32 (x : Float32) {rest : List Char} (h : EndsNumber rest) :
    Lexeme.all (shortestText32 x ++ rest) = numberLexeme x :: Lexeme.all rest := by
  obtain ⟨lexeme, -, hall⟩ := exists_lexeme_shortestText32 x
  rw [numberLexeme_eq hall, hall rest h]

end PieceSquare
