import PieceSquare.Proofs.Binary32.Order

set_option autoImplicit false

/-! # Results that are numbers

An operation on numbers can have a result that is none: infinity less infinity, zero times infinity
and zero over zero have no value. Rounding never does this, not even where it overflows, so an
operation goes wrong only on the operands just named (`isNaN_add`, `isNaN_mul`, `isNaN_div`).
-/

namespace PieceSquare.Binary32

open Float.Model (Format UnpackedFloat)
open Float.Model.UnpackedFloat

/-! ## Rounding and packing -/

theorem isNaN_ofFields (s : Sign) {e : BitVec 8} (m : BitVec 23) (he : e ≠ -1#8) :
    (ofFields s e m).isNaN = false := by
  rw [ofFields, if_neg he]
  split_ifs <;> rfl

/-- Packing makes a number of the parts of a number, and of no others. -/
theorem isNaN_ofParts (u : UnpackedFloat) : (ofParts u).isNaN = u.isNaN := by
  have hfits (h : Fits u) : (ofParts u).isNaN = u.isNaN := by rw [isNaN_eq, parts_ofParts h]
  cases u with
  | notANumber => exact hfits trivial
  | infinity s => exact hfits trivial
  | zero s => exact hfits trivial
  | finite s m e h =>
      -- Even parts that do not fit become an infinity or keep their exponent below the last one.
      show (unpack Format.binary32 (pack Format.binary32 (.finite s m e h))).isNaN = false
      simp only [pack, packedInfinity]
      split_ifs with hlarge hfull
      · rw [unpack_packComponents]
        rfl
      · rw [unpack_packComponents]
        refine isNaN_ofFields s _ fun he => hlarge ?_
        have hmod := congrArg BitVec.toNat he
        rw [BitVec.toNat_ofNat, Nat.mod_eq_of_lt (by omega)] at hmod
        rw [hmod]
        decide
      · rw [unpack_packComponents]
        exact isNaN_ofFields s _ (by decide)

theorem isNaN_roundWithAccuracy (s : Sign) (m : Nat) (e : Int) (a : Accuracy) :
    (roundWithAccuracy Format.binary32 s m e a).isNaN = false := by
  simp only [roundWithAccuracy]
  split_ifs <;> rfl

theorem isNaN_normalize (n e : Int) (s : Sign) :
    (normalize Format.binary32 n e s).isNaN = false := by
  unfold UnpackedFloat.normalize
  split
  · exact isNaN_roundWithAccuracy ..
  · rfl
  · exact isNaN_roundWithAccuracy ..

/-! ## Operations -/

/-- A number is finite or one of the two infinities. -/
theorem number_cases {x : Float32} (h : x.isNaN = false) :
    x.isFinite = true ∨ parts x = .infinity .positive ∨ parts x = .infinity .negative := by
  rw [isNaN_eq] at h
  rw [isFinite_eq]
  cases hx : parts x with
  | notANumber => rw [hx] at h; cases h
  | infinity s => cases s <;> simp
  | zero s => exact Or.inl rfl
  | finite s m e hm => exact Or.inl rfl

theorem isNaN_neg (x : Float32) : (-x).isNaN = x.isNaN := by
  rw [isNaN_eq, isNaN_eq, parts_neg]
  cases parts x <;> rfl

theorem isNaN_add_parts {u v : UnpackedFloat} (hu : u.isNaN = false) (hv : v.isNaN = false)
    (hfin : u.isFinite = true ∨ v.isFinite = true) :
    (UnpackedFloat.add Format.binary32 u v).isNaN = false := by
  cases u with
  | notANumber => cases hu
  | infinity s =>
      cases v with
      | notANumber => cases hv
      | infinity s' => rcases hfin with h | h <;> cases h
      | zero s' => rfl
      | finite s' m' e' h' => rfl
  | zero s =>
      cases v with
      | notANumber => cases hv
      | infinity s' => rfl
      | zero s' => cases s <;> cases s' <;> rfl
      | finite s' m' e' h' => rfl
  | finite s m e h =>
      cases v with
      | notANumber => cases hv
      | infinity s' => rfl
      | zero s' => rfl
      | finite s' m' e' h' => exact isNaN_normalize ..

/-- A sum of numbers one of which is finite is a number. -/
theorem isNaN_add {x y : Float32} (hx : x.isNaN = false) (hy : y.isNaN = false)
    (hfin : x.isFinite = true ∨ y.isFinite = true) : (x + y).isNaN = false := by
  rw [add_eq, isNaN_ofParts]
  exact isNaN_add_parts hx hy hfin

/-- A difference of numbers one of which is finite is a number. -/
theorem isNaN_sub {x y : Float32} (hx : x.isNaN = false) (hy : y.isNaN = false)
    (hfin : x.isFinite = true ∨ y.isFinite = true) : (x - y).isNaN = false := by
  rw [sub_eq_add_neg]
  exact isNaN_add hx (by rw [isNaN_neg]; exact hy) (by rw [isFinite_neg]; exact hfin)

theorem mul_eq (x y : Float32) :
    x * y = ofParts (UnpackedFloat.mul Format.binary32 (parts x) (parts y)) := rfl

theorem div_eq (x y : Float32) :
    x / y = ofParts (UnpackedFloat.div Format.binary32 (parts x) (parts y)) := rfl

/-- A product of finite numbers is a number, though perhaps an infinite one. -/
theorem isNaN_mul {x y : Float32} (hx : x.isFinite = true) (hy : y.isFinite = true) :
    (x * y).isNaN = false := by
  rw [mul_eq, isNaN_ofParts]
  rcases finite_cases hx with ⟨s, hpx⟩ | ⟨s, m, k, hm, hpx, -⟩ <;>
    rcases finite_cases hy with ⟨s', hpy⟩ | ⟨s', m', k', hm', hpy, -⟩ <;> rw [hpx, hpy]
  · rfl
  · rfl
  · rfl
  · exact isNaN_roundWithAccuracy ..

/-- A finite number that is not zero can be divided by any number. -/
theorem isNaN_div {x y : Float32} (hx : x.isFinite = true) (h0 : units x ≠ 0)
    (hy : y.isNaN = false) : (x / y).isNaN = false := by
  rw [div_eq, isNaN_ofParts]
  rw [isNaN_eq] at hy
  rcases finite_cases hx with ⟨s, hpx⟩ | ⟨s, m, k, hm, hpx, -⟩
  · exact absurd (by simp only [units, hpx]) h0
  · rw [hpx]
    cases hpy : parts y with
    | notANumber => rw [hpy] at hy; cases hy
    | infinity s' => rfl
    | zero s' => rfl
    | finite s' m' e' h' => exact isNaN_roundWithAccuracy ..

end PieceSquare.Binary32
