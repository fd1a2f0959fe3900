import PieceSquare.Proofs.Binary32.Level
import PieceSquare.Proofs.Eval.Antisymmetry

set_option autoImplicit false

/-! # The range of values

A value lies strictly between -1 and 1, whatever the squares and the numbers of the planes are. Two
things could spoil this. A score could be infinite; but its terms are bounded sums of weights. And
clamping lets pass what is no number; but no operation of the curve leaves the numbers, not even
when the exponential overflows or vanishes. Clamping a number between finite bounds gives a finite
number between them (`clamp_between`), so the range follows from where the bounds lie.
-/

namespace PieceSquare

open Binary32
open Float.Model (UnpackedFloat)

/-! ## Clamping -/

/-- A number beyond one of the bounds is brought to that bound. -/
theorem level_clamp {lo hi x : Float32} (hlo : lo.isNaN = false) (hhi : hi.isNaN = false)
    (hle : level lo ≤ level hi) (hx : x.isNaN = false) :
    (clamp lo hi x).isNaN = false ∧
      level (clamp lo hi x) = max (level lo) (min (level hi) (level x)) := by
  have hord : ¬ hi < lo := by
    rw [lt_iff_level hhi hlo]
    omega
  unfold clamp
  by_cases h : x < lo
  · simp only [h, hord, ↓reduceIte]
    rw [lt_iff_level hx hlo] at h
    exact ⟨hlo, by omega⟩
  · by_cases h' : hi < x
    · simp only [h, h', ↓reduceIte]
      rw [lt_iff_level hhi hx] at h'
      exact ⟨hhi, by omega⟩
    · simp only [h, h', ↓reduceIte]
      rw [lt_iff_level hx hlo] at h
      rw [lt_iff_level hhi hx] at h'
      exact ⟨hx, by omega⟩

/-- A number is brought between two finite bounds. -/
theorem clamp_between {lo hi x : Float32} (hlo : lo.isFinite = true) (hhi : hi.isFinite = true)
    (hle : units lo ≤ units hi) (hx : x.isNaN = false) :
    (clamp lo hi x).isFinite = true ∧ units lo ≤ units (clamp lo hi x) ∧
      units (clamp lo hi x) ≤ units hi := by
  have hmin := natAbs_units_lt hlo
  have hmax := natAbs_units_lt hhi
  obtain ⟨hnum, hlevel⟩ := level_clamp (isNaN_of_isFinite hlo) (isNaN_of_isFinite hhi)
    (by rwa [level_of_isFinite hlo, level_of_isFinite hhi]) hx
  rw [level_of_isFinite hlo, level_of_isFinite hhi] at hlevel
  have hfin := isFinite_of_level hnum (by omega) (by omega)
  rw [level_of_isFinite hfin] at hlevel
  exact ⟨hfin, by omega, by omega⟩

/-! ## The bound -/

theorem isFinite_valueBound : valueBound.isFinite = true := by decide +kernel

theorem isFinite_one : (1 : Float32).isFinite = true := by decide +kernel

theorem units_one : units 1 = 2 ^ 149 := by decide +kernel

/-- The bound is 1 less `2 ^ -24`, which is `2 ^ 125` units. -/
theorem units_valueBound : units valueBound = units 1 - 2 ^ 125 := by decide +kernel

/-- A canonical number below 1 has at most 24 digits behind the point. -/
theorem units_le_of_lt_one {x : Float32} (hfin : x.isFinite = true) (h : units x < units 1) :
    units x ≤ units 1 - 2 ^ 125 := by
  rw [units_one] at h ⊢
  rcases finite_cases hfin with ⟨s, hx⟩ | ⟨s, m, k, hm, hx, hc⟩
  · have hu : units x = 0 := by simp only [units, hx]
    omega
  · rw [units_of_parts hx] at h ⊢
    cases s with
    | negative =>
        show -((m * 2 ^ k : Nat) : Int) ≤ _
        omega
    | positive =>
        change ((m * 2 ^ k : Nat) : Int) < _ at h
        show ((m * 2 ^ k : Nat) : Int) ≤ _
        -- A larger exponent would make use of all digits of the mantissa.
        have hk : k ≤ 125 := by
          by_contra hk
          have hfull : 2 ^ 23 ≤ m := hc.full.resolve_left (by omega)
          have hle : 2 ^ 23 * 2 ^ 126 ≤ m * 2 ^ k :=
            Nat.mul_le_mul hfull (Nat.pow_le_pow_right (by decide) (by omega))
          omega
        have hle : m * 2 ^ k ≤ (2 ^ 24 - 1) * 2 ^ 125 :=
          Nat.mul_le_mul (by have := hc.lt; omega) (Nat.pow_le_pow_right (by decide) hk)
        omega

/-- The bound is the greatest number below 1. -/
theorem isGreatest_valueBound : IsGreatest {x : Float32 | x < 1} valueBound := by
  constructor
  · show valueBound < 1
    rw [lt_iff_units isFinite_valueBound isFinite_one, units_valueBound]
    omega
  · intro x (hx : x < 1)
    have hnum : x.isNaN = false := by
      rw [isNaN_eq]
      cases hp : parts x with
      | notANumber => rw [lt_iff_compare, hp] at hx; cases hx
      | _ => rfl
    rcases number_cases hnum with hfin | hinf | hinf
    · rw [lt_iff_units hfin isFinite_one] at hx
      rw [le_iff_units hfin isFinite_valueBound, units_valueBound]
      exact units_le_of_lt_one hfin hx
    · rw [lt_iff_compare, hinf, (compare_infinity_positive isFinite_one).2] at hx
      cases hx
    · rw [le_iff_compare, hinf]
      exact Or.inl (compare_infinity_negative isFinite_valueBound).2

/-! ## Values -/

/-- What holds of every value: it is a number that does not go beyond the bound in either direction,
and so it lies strictly between -1 and 1. -/
structure InValueRange (v : Float32) : Prop where
  isNumber : v.isNaN = false
  ge_neg_bound : -valueBound ≤ v
  le_bound : v ≤ valueBound
  neg_one_lt : -1 < v
  lt_one : v < 1

theorem inValueRange_clamp {x : Float32} (h : x.isNaN = false) :
    InValueRange (clamp (-valueBound) valueBound x) := by
  have hneg : (-valueBound).isFinite = true := by rw [isFinite_neg]; exact isFinite_valueBound
  have hneg1 : (-1 : Float32).isFinite = true := by rw [isFinite_neg]; exact isFinite_one
  have hub := units_valueBound
  have hone := units_one
  obtain ⟨hfin, hge, hle⟩ := clamp_between hneg isFinite_valueBound
    (by rw [units_neg]; omega) h
  rw [units_neg] at hge
  constructor
  case isNumber => exact isNaN_of_isFinite hfin
  case ge_neg_bound => rwa [le_iff_units hneg hfin, units_neg]
  case le_bound => rwa [le_iff_units hfin isFinite_valueBound]
  case neg_one_lt => rw [lt_iff_units hneg1 hfin, units_neg]; omega
  case lt_one => rw [lt_iff_units hfin isFinite_one]; omega

theorem isNaN_one_add {e : Float32} (he : e.isNaN = false) : (1 + e).isNaN = false :=
  isNaN_add (isNaN_of_isFinite isFinite_one) he (.inl isFinite_one)

theorem isNaN_two_div {e : Float32} (he : e.isNaN = false) : (2 / (1 + e)).isNaN = false :=
  isNaN_div (by decide +kernel) (by decide +kernel) (isNaN_one_add he)

/-- The curve has a number for whatever number the exponential yields. -/
theorem isNaN_logistic {e : Float32} (he : e.isNaN = false) :
    (2 / (1 + e) - 1).isNaN = false :=
  isNaN_sub (isNaN_two_div he) (isNaN_of_isFinite isFinite_one) (.inr isFinite_one)

theorem isFinite_neg_slope : (-slope).isFinite = true := by decide +kernel

/-- The curve sends finite scores into the range, whatever numbers the exponential yields. -/
theorem inValueRange_squashWith {exp : Float32 → Float32}
    (hexp : ∀ x : Float32, x.isNaN = false → (exp x).isNaN = false) {q : Float32}
    (hq : q.isFinite = true) : InValueRange (squashWith exp q) := by
  have hprod : (q * -slope).isNaN = false := isNaN_mul hq isFinite_neg_slope
  exact inValueRange_clamp (isNaN_logistic (hexp _ hprod))

/-- Every list of at least twelve planes has a finite score and a value in the range, whatever the
squares and the numbers of its planes are. Of the exponential it is needed only that it yields a
number for every number; it may overflow or vanish. -/
theorem valueWith_inValueRange {exp : Float32 → Float32}
    (hexp : ∀ x : Float32, x.isNaN = false → (exp x).isNaN = false) {ps : Planes}
    (h : Planes.pieceCount ≤ ps.length) :
    IsGreatest {x : Float32 | x < 1} valueBound ∧ units valueBound = units 1 - 2 ^ 125 ∧
      ∃ q v, ps.score = .ok q ∧ q.isFinite = true ∧ ps.valueWith exp = .ok v ∧ InValueRange v := by
  have hfin : ps.men.score.isFinite = true := ps.men.opposite_score.left.isFinite
  refine ⟨isGreatest_valueBound, units_valueBound, ps.men.score, squashWith exp ps.men.score,
    Planes.score_eq h, hfin, ?_, inValueRange_squashWith hexp hfin⟩
  rw [Planes.valueWith, Planes.score_eq h]
  rfl

/-- An exponential that is right where it vanishes, where it overflows and at zero. -/
def coarseExp (x : Float32) : Float32 :=
  if x < -104 then 0 else if 89 < x then Float32.ofBits 0x7f800000 else 1

/-- The planes of a side whose queens stand on all squares. -/
def queensEverywhere : Planes :=
  .ofMasks (fun k => if k = .queen then Bitboard.full else 0) (fun _ => 0)

theorem valueWith_inValueRange_queens :
    (∀ x : Float32, x.isNaN = false → (coarseExp x).isNaN = false) ∧
      Planes.pieceCount ≤ queensEverywhere.length ∧
      ∃ q v, queensEverywhere.score = .ok q ∧ q.isFinite = true ∧
        queensEverywhere.valueWith coarseExp = .ok v ∧ InValueRange v := by
  have hexp : ∀ x : Float32, x.isNaN = false → (coarseExp x).isNaN = false := by
    intro x _
    unfold coarseExp
    split_ifs <;> decide +kernel
  exact ⟨hexp, by decide, (valueWith_inValueRange hexp (by decide)).2.2⟩

end PieceSquare
