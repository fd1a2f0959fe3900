import PieceSquare.Proofs.Binary32.Units

set_option autoImplicit false

/-! # The order of binary32 numbers

Comparing finite numbers by sign, exponent and mantissa is comparing their units, as the exponents
of canonical forms are ordered like the numbers themselves.
-/

namespace PieceSquare.Binary32

open Float.Model (UnpackedFloat)
open Float.Model.UnpackedFloat

/-- Canonical forms are compared by their exponents first. -/
theorem Canonical.compare_eq {m k m' k' : Nat} (h : Canonical m k) (h' : Canonical m' k') :
    (compare (power k) (power k')).then (compare m m') = compare (m * 2 ^ k) (m' * 2 ^ k') := by
  rcases lt_trichotomy k k' with hk | rfl | hk
  · have hp : power k < power k' := by unfold power; omega
    rw [Int.compare_eq_lt.mpr hp, Nat.compare_eq_lt.mpr (h.lt_of_exponent_lt h' hk)]
    rfl
  · have hpos := Nat.two_pow_pos k
    rw [Int.compare_eq_eq.mpr rfl]
    show compare m m' = _
    rcases lt_trichotomy m m' with hm | rfl | hm
    · rw [Nat.compare_eq_lt.mpr hm, Nat.compare_eq_lt.mpr (Nat.mul_lt_mul_of_pos_right hm hpos)]
    · rw [Nat.compare_eq_eq.mpr rfl, Nat.compare_eq_eq.mpr rfl]
    · rw [Nat.compare_eq_gt.mpr hm, Nat.compare_eq_gt.mpr (Nat.mul_lt_mul_of_pos_right hm hpos)]
  · have hp : power k' < power k := by unfold power; omega
    rw [Int.compare_eq_gt.mpr hp, Nat.compare_eq_gt.mpr (h'.lt_of_exponent_lt h hk)]
    rfl

theorem compare_natCast (a b : Nat) : compare (a : Int) b = compare a b := by
  rcases lt_trichotomy a b with h | rfl | h
  · rw [Nat.compare_eq_lt.mpr h, Int.compare_eq_lt.mpr (by omega)]
  · rw [Nat.compare_eq_eq.mpr rfl, Int.compare_eq_eq.mpr rfl]
  · rw [Nat.compare_eq_gt.mpr h, Int.compare_eq_gt.mpr (by omega)]

theorem compare_neg (a b : Int) : compare (-a) (-b) = (compare a b).swap := by
  rcases lt_trichotomy a b with h | rfl | h
  · rw [Int.compare_eq_lt.mpr h, Int.compare_eq_gt.mpr (by omega)]
    rfl
  · rw [Int.compare_eq_eq.mpr rfl, Int.compare_eq_eq.mpr rfl]
    rfl
  · rw [Int.compare_eq_gt.mpr h, Int.compare_eq_lt.mpr (by omega)]
    rfl

/-- Finite numbers are ordered by their units. -/
theorem compare_parts {x y : Float32} (hx : x.isFinite = true) (hy : y.isFinite = true) :
    (parts x).compare (parts y) = some (compare (units x) (units y)) := by
  -- Zeros compare by the sign of the other number, signs decide where they differ, and numbers of
  -- one sign compare by their canonical forms.
  rcases finite_cases hx with ⟨s, hpx⟩ | ⟨s, m, k, hm, hpx, hc⟩
  · have hux : units x = 0 := by simp only [units, hpx]
    rcases finite_cases hy with ⟨s', hpy⟩ | ⟨s', m', k', hm', hpy, -⟩
    · have huy : units y = 0 := by simp only [units, hpy]
      rw [hpx, hpy, hux, huy]
      rfl
    · have hpos : 0 < m' * 2 ^ k' := Nat.mul_pos hm' (Nat.two_pow_pos k')
      rw [units_of_parts hpy, hux, hpx, hpy]
      cases s' with
      | negative => rw [Int.compare_eq_gt.mpr (by simp only [Sign.apply]; omega)]; rfl
      | positive => rw [Int.compare_eq_lt.mpr (by simp only [Sign.apply]; omega)]; rfl
  · have hpos : 0 < m * 2 ^ k := Nat.mul_pos hm (Nat.two_pow_pos k)
    rcases finite_cases hy with ⟨s', hpy⟩ | ⟨s', m', k', hm', hpy, hc'⟩
    · have huy : units y = 0 := by simp only [units, hpy]
      rw [units_of_parts hpx, huy, hpx, hpy]
      cases s with
      | negative => rw [Int.compare_eq_lt.mpr (by simp only [Sign.apply]; omega)]; rfl
      | positive => rw [Int.compare_eq_gt.mpr (by simp only [Sign.apply]; omega)]; rfl
    · have hpos' : 0 < m' * 2 ^ k' := Nat.mul_pos hm' (Nat.two_pow_pos k')
      have hcmp := hc.compare_eq hc'
      rw [units_of_parts hpx, units_of_parts hpy, hpx, hpy]
      cases s <;> cases s' <;> simp only [Sign.apply]
      · rw [compare_neg, compare_natCast, ← hcmp]
        rfl
      · rw [Int.compare_eq_lt.mpr (by omega)]
        rfl
      · rw [Int.compare_eq_gt.mpr (by omega)]
        rfl
      · rw [compare_natCast, ← hcmp]
        rfl

/-- Finite numbers are equal in comparisons when they have the same units. -/
theorem beq_iff {x y : Float32} (hx : x.isFinite = true) (hy : y.isFinite = true) :
    (x == y) = true ↔ units x = units y := by
  have hbeq : (x == y) = ((parts x).compare (parts y) == some .eq) := rfl
  rw [hbeq, compare_parts hx hy, ← Int.compare_eq_eq]
  cases compare (units x) (units y) <;> decide

/-! ## Comparisons of numbers -/

theorem lt_iff_compare {x y : Float32} : x < y ↔ (parts x).compare (parts y) = some .lt := by
  have h : (x < y) = (decide ((parts x).lt (parts y) = true) = true) := rfl
  rw [h, decide_eq_true_iff]
  exact beq_iff_eq

theorem le_iff_compare {x y : Float32} :
    x ≤ y ↔ (parts x).compare (parts y) = some .lt ∨ (parts x).compare (parts y) = some .eq := by
  have h : (x ≤ y) = (decide ((parts x).le (parts y) = true) = true) := rfl
  rw [h, decide_eq_true_iff, UnpackedFloat.le]
  cases (parts x).compare (parts y) with
  | none => simp
  | some o => cases o <;> simp [Ordering.isLE]

theorem lt_iff_units {x y : Float32} (hx : x.isFinite = true) (hy : y.isFinite = true) :
    x < y ↔ units x < units y := by
  rw [lt_iff_compare, compare_parts hx hy, Option.some_inj, Int.compare_eq_lt]

theorem le_iff_units {x y : Float32} (hx : x.isFinite = true) (hy : y.isFinite = true) :
    x ≤ y ↔ units x ≤ units y := by
  rw [le_iff_compare, compare_parts hx hy, Option.some_inj, Option.some_inj, Int.compare_eq_lt,
    Int.compare_eq_eq, Int.le_iff_lt_or_eq]

/-- The positive infinity is above every finite number. -/
theorem compare_infinity_positive {x : Float32} (h : x.isFinite = true) :
    (parts x).compare (.infinity .positive) = some .lt ∧
      UnpackedFloat.compare (.infinity .positive) (parts x) = some .gt := by
  rcases finite_cases h with ⟨s, hx⟩ | ⟨s, m, k, hm, hx, -⟩ <;> rw [hx] <;> exact ⟨rfl, rfl⟩

/-- The negative infinity is below every finite number. -/
theorem compare_infinity_negative {x : Float32} (h : x.isFinite = true) :
    (parts x).compare (.infinity .negative) = some .gt ∧
      UnpackedFloat.compare (.infinity .negative) (parts x) = some .lt := by
  rcases finite_cases h with ⟨s, hx⟩ | ⟨s, m, k, hm, hx, -⟩ <;> rw [hx] <;> exact ⟨rfl, rfl⟩

end PieceSquare.Binary32
