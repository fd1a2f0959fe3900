import PieceSquare.Proofs.Binary32.Number

set_option autoImplicit false

/-! # Levels: the infinities among the numbers

Units order the finite numbers. An infinity has a level as well, the first whole number of units that
no finite number reaches, and then levels order all numbers (`compare_level`). Parts that are too
large for a word are packed as an infinity, whose level is just the bound that levels do not go
beyond, so that an overflow needs no case of its own where numbers are compared
(`level_ofParts_finite`).
-/

namespace PieceSquare.Binary32

open Float.Model (Format UnpackedFloat)
open Float.Model.UnpackedFloat

/-- The least power of two that is too large to be a finite number of units. -/
def limit : Nat := 2 ^ 24 * 2 ^ 253

/-- The place of a number among all numbers: its units, or the limit if it is infinite. -/
def level (x : Float32) : Int :=
  match parts x with
  | .infinity s => s.apply limit
  | _ => units x

theorem level_of_isFinite {x : Float32} (h : x.isFinite = true) : level x = units x := by
  rw [isFinite_eq] at h
  unfold level
  cases hx : parts x with
  | infinity s => rw [hx] at h; cases h
  | _ => rfl

theorem level_of_infinity {x : Float32} {s : Sign} (h : parts x = .infinity s) :
    level x = s.apply limit := by
  simp only [level, h]

/-- Finite numbers stay below the limit. -/
theorem natAbs_units_lt {x : Float32} (h : x.isFinite = true) : (units x).natAbs < limit := by
  have hpos : 0 < limit := by decide
  have hfit := fits_parts x
  rcases finite_cases h with ⟨s, hx⟩ | ⟨s, m, k, hm, hx, hc⟩
  · have hu : units x = 0 := by simp only [units, hx]
    rw [hu]
    exact hpos
  · rw [hx] at hfit
    obtain ⟨k', hk', hle, -⟩ := hfit
    have hk : k ≤ 253 := by unfold power at hk'; omega
    rw [units_of_parts hx, natAbs_apply]
    calc m * 2 ^ k < 2 ^ 24 * 2 ^ k := Nat.mul_lt_mul_of_pos_right hc.lt (Nat.two_pow_pos k)
      _ ≤ limit := Nat.mul_le_mul_left _ (Nat.pow_le_pow_right (by decide) hk)

theorem level_bounds {x : Float32} (h : x.isNaN = false) :
    -(limit : Int) ≤ level x ∧ level x ≤ limit := by
  rcases number_cases h with hfin | hinf | hinf
  · have := natAbs_units_lt hfin
    rw [level_of_isFinite hfin]
    omega
  · rw [level_of_infinity hinf]
    simp only [Sign.apply]
    omega
  · rw [level_of_infinity hinf]
    simp only [Sign.apply]
    omega

/-- What lies strictly between the levels of the infinities is finite. -/
theorem isFinite_of_level {x : Float32} (h : x.isNaN = false) (hlo : -(limit : Int) < level x)
    (hhi : level x < limit) : x.isFinite = true := by
  rcases number_cases h with hfin | hinf | hinf
  · exact hfin
  · rw [level_of_infinity hinf] at hhi
    exact absurd hhi (lt_irrefl _)
  · rw [level_of_infinity hinf] at hlo
    exact absurd hlo (lt_irrefl _)

/-! ## The order of all numbers -/

theorem compare_level {x y : Float32} (hx : x.isNaN = false) (hy : y.isNaN = false) :
    (parts x).compare (parts y) = some (compare (level x) (level y)) := by
  -- A finite number is strictly between the levels of the two infinities.
  have hbounds (z : Float32) (hz : z.isFinite = true) :
      -(limit : Int) < units z ∧ units z < limit := by
    have := natAbs_units_lt hz
    omega
  have hlimit : (-(limit : Int)) < limit := by
    have : 0 < limit := by decide
    omega
  rcases number_cases hx with hfx | hpx | hpx
  · rw [level_of_isFinite hfx]
    rcases number_cases hy with hfy | hpy | hpy
    · rw [level_of_isFinite hfy, compare_parts hfx hfy]
    · rw [level_of_infinity hpy, hpy, (compare_infinity_positive hfx).1]
      exact congrArg some (Int.compare_eq_lt.mpr (hbounds x hfx).2).symm
    · rw [level_of_infinity hpy, hpy, (compare_infinity_negative hfx).1]
      exact congrArg some (Int.compare_eq_gt.mpr (hbounds x hfx).1).symm
  · rw [level_of_infinity hpx, hpx]
    rcases number_cases hy with hfy | hpy | hpy
    · rw [level_of_isFinite hfy, (compare_infinity_positive hfy).2]
      exact congrArg some (Int.compare_eq_gt.mpr (hbounds y hfy).2).symm
    · rw [level_of_infinity hpy, hpy]
      exact congrArg some (Int.compare_eq_eq.mpr rfl).symm
    · rw [level_of_infinity hpy, hpy]
      exact congrArg some (Int.compare_eq_gt.mpr hlimit).symm
  · rw [level_of_infinity hpx, hpx]
    rcases number_cases hy with hfy | hpy | hpy
    · rw [level_of_isFinite hfy, (compare_infinity_negative hfy).2]
      exact congrArg some (Int.compare_eq_lt.mpr (hbounds y hfy).1).symm
    · rw [level_of_infinity hpy, hpy]
      exact congrArg some (Int.compare_eq_lt.mpr hlimit).symm
    · rw [level_of_infinity hpy, hpy]
      exact congrArg some (Int.compare_eq_eq.mpr rfl).symm

/-- Numbers are ordered by their levels. -/
theorem le_iff_level {x y : Float32} (hx : x.isNaN = false) (hy : y.isNaN = false) :
    x ≤ y ↔ level x ≤ level y := by
  rw [le_iff_compare, compare_level hx hy, Option.some_inj, Option.some_inj, Int.compare_eq_lt,
    Int.compare_eq_eq, Int.le_iff_lt_or_eq]

theorem lt_iff_level {x y : Float32} (hx : x.isNaN = false) (hy : y.isNaN = false) :
    x < y ↔ level x < level y := by
  rw [lt_iff_compare, compare_level hx hy, Option.some_inj, Int.compare_eq_lt]

/-- Numbers are equal in comparisons when they have the same level. -/
theorem beq_iff_level {x y : Float32} (hx : x.isNaN = false) (hy : y.isNaN = false) :
    (x == y) = true ↔ level x = level y := by
  have hbeq : (x == y) = ((parts x).compare (parts y) == some .eq) := rfl
  rw [hbeq, compare_level hx hy, ← Int.compare_eq_eq]
  cases compare (level x) (level y) <;> decide

/-- Of two numbers in order, both are finite, or the greater one is the positive infinity, or the
smaller one the negative. -/
theorem finite_or_infinity_of_level_le {x y : Float32} (hx : x.isNaN = false)
    (hy : y.isNaN = false) (h : level x ≤ level y) :
    x.isFinite = true ∧ y.isFinite = true ∨ parts y = .infinity .positive ∨
      parts x = .infinity .negative := by
  have hlimit : 0 < limit := by decide
  rcases number_cases hx with hfx | hpx | hpx
  · rcases number_cases hy with hfy | hpy | hpy
    · exact .inl ⟨hfx, hfy⟩
    · exact .inr (.inl hpy)
    · have hlt := natAbs_units_lt hfx
      rw [level_of_isFinite hfx, level_of_infinity hpy] at h
      simp only [Sign.apply] at h
      omega
  · rcases number_cases hy with hfy | hpy | hpy
    · have hlt := natAbs_units_lt hfy
      rw [level_of_infinity hpx, level_of_isFinite hfy] at h
      simp only [Sign.apply] at h
      omega
    · exact .inr (.inl hpy)
    · rw [level_of_infinity hpx, level_of_infinity hpy] at h
      simp only [Sign.apply] at h
      omega
  · exact .inr (.inr hpx)

/-! ## Levels of parts -/

theorem level_ofParts_zero (s : Sign) : level (ofParts (.zero s)) = 0 := by
  have hp : parts (ofParts (.zero s)) = .zero s := parts_ofParts trivial
  simp only [level, units, hp]

/-- Parts whose exponent is too large for a word are packed as an infinity. -/
theorem ofParts_of_large {s : Sign} {m k : Nat} (hm : 0 < m) (hk : 254 ≤ k) :
    ofParts (.finite s m (power k) hm) = ofParts (.infinity s) := by
  have hpack : pack Format.binary32 (.finite s m (power k) hm) =
      pack Format.binary32 (.infinity s) :=
    if_pos (show 2 ^ 8 ≤ (power k + (127 : Nat) + (23 : Nat)).toNat + 1 by unfold power; omega)
  show Float32.ofModel
    ⟨UInt32.ofBitVec (pack Format.binary32 (.finite s m (power k) hm)), _⟩ = _
  congr 2
  rw [hpack]

/-- The level of finite parts is their size in units, as far as the limit allows. -/
theorem level_ofParts_finite {s : Sign} {m k : Nat} {hm : 0 < m} (hc : Canonical m k) :
    level (ofParts (.finite s m (power k) hm)) = s.apply (min (m * 2 ^ k) limit : Nat) := by
  by_cases hk : k ≤ 253
  · have hp : parts (ofParts (.finite s m (power k) hm)) = .finite s m (power k) hm :=
      parts_ofParts ⟨k, rfl, hk, hc⟩
    have hle : m * 2 ^ k ≤ limit :=
      Nat.mul_le_mul hc.lt.le (Nat.pow_le_pow_right (by decide) hk)
    rw [level_of_isFinite (by rw [isFinite_eq, hp]; rfl), units_of_parts hp, Nat.min_eq_left hle]
  · have hp : parts (ofParts (.infinity s)) = .infinity s := parts_ofParts trivial
    have hfull : 2 ^ 23 ≤ m := hc.full.resolve_left (by omega)
    have hle : limit ≤ m * 2 ^ k := by
      calc limit = 2 ^ 23 * 2 ^ 254 := by unfold limit; norm_num
        _ ≤ m * 2 ^ k := Nat.mul_le_mul hfull (Nat.pow_le_pow_right (by decide) (by omega))
    rw [ofParts_of_large hm (by omega), level_of_infinity hp, Nat.min_eq_right hle]

end PieceSquare.Binary32
