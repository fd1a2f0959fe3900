import PieceSquare.Proofs.Binary32.Level

set_option autoImplicit false

/-! # The negative zero in sums

Adding zero changes no number but the negative zero (`add_zero_of_ne`), which becomes the positive
one, and a sum is the negative zero only if both of its numbers are (`add_ne_neg_zero`): exact
cancellation gives the positive zero, and a sum that is not zero is never rounded to zero. Infinities
and what is not a number are no exceptions.
-/

namespace PieceSquare.Binary32

open Float.Model (Format UnpackedFloat)
open Float.Model.UnpackedFloat

theorem ne_neg_zero_iff {x : Float32} : x ≠ -0 ↔ parts x ≠ .zero .negative := by
  rw [← parts_neg_zero]
  exact not_congr ⟨congrArg parts, parts_injective⟩

theorem add_zero_of_ne {x : Float32} (h : x ≠ -0) : x + 0 = x := by
  have hadd : UnpackedFloat.add Format.binary32 (parts x) (.zero .positive) = parts x := by
    rw [ne_neg_zero_iff] at h
    cases hx : parts x with
    | zero s =>
        cases s with
        | positive => rfl
        | negative => exact absurd hx h
    | _ => rfl
  rw [add_eq, parts_zero, hadd, ofParts_parts]

/-! ## Sums of finite numbers -/

theorem ofUnits_ne_neg_zero (n : Int) : ofUnits n ≠ -0 := by
  rcases eq_or_ne n 0 with rfl | hn
  · rw [ofUnits_zero]
    exact ordinary_zero.ne_neg_zero
  · intro h
    have hcanonical := canonical_nearest (Int.natAbs_pos.mpr hn)
    have hlevel : level (-0) =
        (signOf n).apply (min (mantissa n.natAbs * 2 ^ exponent n.natAbs) limit : Nat) := by
      rw [← h, ofUnits, nearestParts_of_ne hn, level_ofParts_finite hcanonical]
    have hpos : 0 < min (mantissa n.natAbs * 2 ^ exponent n.natAbs) limit :=
      lt_min (Nat.mul_pos hcanonical.pos (Nat.two_pow_pos _)) (by decide)
    have hzero : level (-0) = 0 := by decide +kernel
    have habs := congrArg Int.natAbs hlevel
    rw [hzero, natAbs_apply] at habs
    exact hpos.ne habs

/-! ## Sums of all numbers -/

theorem add_parts_of_not_finite {u v : UnpackedFloat}
    (h : u.isFinite = false ∨ v.isFinite = false) :
    UnpackedFloat.add Format.binary32 u v = .notANumber ∨
      ∃ s, UnpackedFloat.add Format.binary32 u v = .infinity s := by
  cases u with
  | notANumber => exact .inl rfl
  | infinity s =>
      cases v with
      | notANumber => exact .inl rfl
      | infinity s' =>
          by_cases hs : (s == s') = true
          · exact .inr ⟨s, if_pos hs⟩
          · exact .inl (if_neg hs)
      | zero s' => exact .inr ⟨s, rfl⟩
      | finite s' m e hm => exact .inr ⟨s, rfl⟩
  | zero s =>
      cases v with
      | notANumber => exact .inl rfl
      | infinity s' => exact .inr ⟨s', rfl⟩
      | _ => rcases h with h | h <;> cases h
  | finite s m e hm =>
      cases v with
      | notANumber => exact .inl rfl
      | infinity s' => exact .inr ⟨s', rfl⟩
      | _ => rcases h with h | h <;> cases h

/-- A finite sum is one of finite numbers. -/
theorem isFinite_of_isFinite_add {x y : Float32} (h : (x + y).isFinite = true) :
    x.isFinite = true ∧ y.isFinite = true := by
  by_contra hne
  have hparts : (parts x).isFinite = false ∨ (parts y).isFinite = false := by
    rw [← isFinite_eq, ← isFinite_eq, ← Bool.not_eq_true, ← Bool.not_eq_true]
    exact not_and_or.mp hne
  rw [isFinite_eq, add_eq] at h
  rcases add_parts_of_not_finite hparts with hadd | ⟨s, hadd⟩
  · rw [hadd, parts_ofParts (u := .notANumber) trivial] at h
    cases h
  · rw [hadd, parts_ofParts (u := .infinity s) trivial] at h
    cases h

theorem add_ne_neg_zero {x y : Float32} (h : x ≠ -0) : x + y ≠ -0 := by
  intro heq
  have hfinite : (x + y).isFinite = true := by
    rw [heq]
    decide +kernel
  obtain ⟨hx, hy⟩ := isFinite_of_isFinite_add hfinite
  rw [Ordinary.add_eq ⟨hx, h⟩ hy] at heq
  exact ofUnits_ne_neg_zero _ heq

end PieceSquare.Binary32
