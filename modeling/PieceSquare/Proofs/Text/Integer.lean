import Mathlib
import PieceSquare.Json.Printer
import PieceSquare.Proofs.Text.Blank

set_option autoImplicit false

/-! # Numbers that are read back

The decimal digits of a number are read as that number if it is within the limit, and not at all
otherwise (`readDigits_natDigits`). The reader stops at the first digit that takes it past its limit;
the number read so far never falls, so a number within the limit was within it at every digit. In the
same way an integer is read if it has 64 bits (`readInt64?_writeInteger`).
-/

namespace PieceSquare

/-! ## Digits -/

theorem isDigit_of_mem_natDigits {n : Nat} {c : Char} (h : c ∈ natDigits n) : c.isDigit = true :=
  Nat.isDigit_of_mem_toDigits (by decide) (by decide) h

theorem natDigits_ne_nil (n : Nat) : natDigits n ≠ [] := Nat.toDigits_ne_nil

/-- More digits never make a number smaller. -/
theorem le_ofDigitChars (n : Nat) (text : List Char) : n ≤ Nat.ofDigitChars 10 text n := by
  rw [Nat.ofDigitChars_eq_ofDigitChars_zero]
  have hpos : 0 < 10 ^ text.length := Nat.pow_pos (by decide)
  have hle : n ≤ 10 ^ text.length * n := Nat.le_mul_of_pos_left n hpos
  omega

theorem readDigits_eq_ofDigitChars {limit n : Nat} {text : List Char}
    (hdigit : ∀ c ∈ text, c.isDigit = true) (hle : Nat.ofDigitChars 10 text n ≤ limit) :
    readDigits limit n text = .ok (Nat.ofDigitChars 10 text n) := by
  induction text generalizing n with
  | nil => rfl
  | cons c text ih =>
      rw [Nat.ofDigitChars_cons] at hle ⊢
      have hnext : 10 * n + digitValue c ≤ limit := le_trans (le_ofDigitChars _ text) hle
      rw [readDigits, if_pos (hdigit c List.mem_cons_self)]
      dsimp only
      rw [if_pos hnext]
      exact ih (fun d hd => hdigit d (List.mem_cons_of_mem c hd)) hle

theorem readDigits_of_limit_lt {limit n : Nat} {text : List Char}
    (hdigit : ∀ c ∈ text, c.isDigit = true) (hn : n ≤ limit)
    (hlt : limit < Nat.ofDigitChars 10 text n) : readDigits limit n text = .error .tooLarge := by
  induction text generalizing n with
  | nil =>
      rw [Nat.ofDigitChars_nil] at hlt
      omega
  | cons c text ih =>
      rw [Nat.ofDigitChars_cons] at hlt
      rw [readDigits, if_pos (hdigit c List.mem_cons_self)]
      dsimp only
      split_ifs with hnext
      · exact ih (fun d hd => hdigit d (List.mem_cons_of_mem c hd)) hnext hlt
      · rfl

/-- The digits of a number are read if the number is within the limit. -/
theorem readDigits_natDigits (limit n : Nat) :
    readDigits limit 0 (natDigits n) = if n ≤ limit then .ok n else .error .tooLarge := by
  have hvalue : Nat.ofDigitChars 10 (natDigits n) 0 = n := Nat.ofDigitChars_ten_toDigits
  have hdigit : ∀ c ∈ natDigits n, c.isDigit = true := fun _ => isDigit_of_mem_natDigits
  split_ifs with h
  · rw [readDigits_eq_ofDigitChars hdigit (by rwa [hvalue]), hvalue]
  · exact readDigits_of_limit_lt hdigit (Nat.zero_le limit) (by rw [hvalue]; omega)

/-- There is no sign among the digits of a number. -/
theorem not_mem_natDigits {c : Char} (h : c.isDigit = false) (n : Nat) : c ∉ natDigits n := by
  intro hmem
  rw [isDigit_of_mem_natDigits hmem] at h
  cases h

theorem natDigits_ne_cons {c : Char} (h : c.isDigit = false) (n : Nat) (text : List Char) :
    natDigits n ≠ c :: text := fun heq =>
  not_mem_natDigits h n (heq ▸ List.mem_cons_self)

/-! ## Whole numbers -/

/-- Without a plus sign in front there are only digits to read. -/
theorem readNatural_eq_readDigits (limit : Nat) {text : List Char} (hne : text ≠ [])
    (hplus : '+' ∉ text) : readNatural limit text = readDigits limit 0 text := by
  unfold readNatural
  split
  · exact absurd rfl hne
  · rfl
  · exact absurd List.mem_cons_self hplus
  · rfl

theorem readNatural_natDigits {limit n : Nat} (h : n ≤ limit) :
    readNatural limit (natDigits n) = .ok n := by
  rw [readNatural_eq_readDigits limit (natDigits_ne_nil n) (not_mem_natDigits (by decide) n),
    readDigits_natDigits, if_pos h]

/-! ## Integers -/

theorem toList_toString (n : Int) : (toString n).toList = Json.writeInteger n := by
  cases n with
  | ofNat m =>
      show (Nat.repr m).toList = natDigits m
      rw [Nat.repr, String.toList_ofList]
      rfl
  | negSucc m =>
      rw [Json.writeInteger, if_pos (Int.negSucc_lt_zero m)]
      show ("-" ++ Nat.repr (m + 1)).toList = '-' :: natDigits (m + 1)
      rw [String.toList_append, Nat.repr, String.toList_ofList, String.toList_ofList]
      rfl

theorem mem_writeInteger {n : Int} {c : Char} (h : c ∈ Json.writeInteger n) :
    c = '-' ∨ c.isDigit = true := by
  unfold Json.writeInteger at h
  split_ifs at h
  · exact (List.mem_cons.mp h).imp_right isDigit_of_mem_natDigits
  · exact .inr (isDigit_of_mem_natDigits h)

/-- A signed integer of 64 bits is within their range. -/
theorem toInt_bounds (n : Int64) : -(signedLimit : Int) ≤ n.toInt ∧ n.toInt < signedLimit :=
  ⟨n.le_toInt, n.toInt_lt⟩

theorem isBlank_of_mem_writeInteger {n : Int} {c : Char} (h : c ∈ Json.writeInteger n) :
    isBlank c = false := by
  rcases mem_writeInteger h with rfl | hdigit
  · decide
  · exact isBlank_of_isAlphanum (by rw [Char.isAlphanum, hdigit, Bool.or_true])

theorem not_mem_writeInteger {c : Char} (hminus : c ≠ '-') (hdigit : c.isDigit = false) (n : Int) :
    c ∉ Json.writeInteger n := by
  intro h
  rcases mem_writeInteger h with rfl | h
  · exact hminus rfl
  · rw [hdigit] at h
    cases h

/-- Without a sign in front there are only digits to read. -/
theorem readInt64?_eq_readDigits {text : List Char} (hne : text ≠ []) (hminus : '-' ∉ text)
    (hplus : '+' ∉ text) : readInt64? text =
      (readDigits (signedLimit - 1) 0 text).toOption.map fun n => .ofNat n := by
  unfold readInt64?
  split
  · exact absurd rfl hne
  · rfl
  · exact absurd List.mem_cons_self hminus
  · exact absurd List.mem_cons_self hplus
  · rfl

theorem readInt64?_minus {text : List Char} (hne : text ≠ []) : readInt64? ('-' :: text) =
    (readDigits signedLimit 0 text).toOption.map fun n => .ofInt (-n) := by
  cases text with
  | nil => exact absurd rfl hne
  | cons c text =>
      simp only [readInt64?]
      cases readDigits signedLimit 0 (c :: text) <;> rfl

/-- The decimal text of an integer is read if the integer has 64 bits. -/
theorem readInt64?_writeInteger (n : Int) : readInt64? (Json.writeInteger n) =
    if -signedLimit ≤ n ∧ n < signedLimit then some (.ofInt n) else none := by
  have hlimit : 0 < signedLimit := by decide
  unfold Json.writeInteger
  split_ifs with hneg hrange hrange
  · have hle : n.natAbs ≤ signedLimit := by omega
    have hn : -(n.natAbs : Int) = n := by omega
    rw [readInt64?_minus (natDigits_ne_nil _), readDigits_natDigits, if_pos hle]
    show some (Int64.ofInt (-(n.natAbs : Int))) = _
    rw [hn]
  · have hgt : ¬ n.natAbs ≤ signedLimit := by omega
    rw [readInt64?_minus (natDigits_ne_nil _), readDigits_natDigits, if_neg hgt]
    rfl
  · have hle : n.natAbs ≤ signedLimit - 1 := by omega
    have hn : (n.natAbs : Int) = n := by omega
    rw [readInt64?_eq_readDigits (natDigits_ne_nil _) (not_mem_natDigits (by decide) _)
      (not_mem_natDigits (by decide) _), readDigits_natDigits, if_pos hle]
    show some (Int64.ofNat n.natAbs) = _
    rw [← Int64.ofInt_eq_ofNat, hn]
  · have hgt : ¬ n.natAbs ≤ signedLimit - 1 := by omega
    rw [readInt64?_eq_readDigits (natDigits_ne_nil _) (not_mem_natDigits (by decide) _)
      (not_mem_natDigits (by decide) _), readDigits_natDigits, if_neg hgt]
    rfl

end PieceSquare
