import PieceSquare.Decimal.Reading
import PieceSquare.Proofs.Binary32.Rounding

set_option autoImplicit false

/-! # Where binary64 numbers end

A whole number that is too large for a binary64 number becomes an infinity. The limit is not the
greatest finite number, which has 53 binary digits, all of them 1, but the middle between it and the
next power of two (`overflow`): from there on rounding carries into a digit that the format does not
have.
-/

namespace PieceSquare.Binary64

open Binary32 (Tracks tracks_exact)
open Float.Model (Format UnpackedFloat totalExponent)
open Float.Model.UnpackedFloat

/-- The least whole number that becomes infinite. -/
def overflow : Nat := 2 ^ 1024 - 2 ^ 970

/-- The limit has 54 binary digits, all of them 1, and then only zeros. -/
theorem overflow_eq : overflow = (2 ^ 54 - 1) * 2 ^ 970 := by decide +kernel

/-! ## Packed numbers -/

theorem isFinite_unpack_packComponents (s : Sign) (e : BitVec 11) (m : BitVec 52) :
    (unpack Format.binary64 (packComponents Format.binary64 s e m)).isFinite = true ↔
      e ≠ -1#11 := by
  unfold unpack
  simp only [unpackMantissa_packComponents, unpackExponent_packComponents]
  by_cases h : e = -1#11
  · refine iff_of_false (fun hfin => ?_) fun hne => hne h
    simp only [h, ↓reduceIte] at hfin
    split_ifs at hfin <;> cases hfin
  · refine iff_of_true ?_ h
    simp only [h, ↓reduceIte]
    split_ifs <;> rfl

/-- Finite parts are packed as a finite number if the exponent of their last digit is not too
large. -/
theorem isFinite_pack {s : Sign} {m : Nat} {e : Int} (hm : 0 < m) :
    (Float.Model.pack (.finite s m e hm)).isFinite = true ↔ e ≤ 971 := by
  show (unpack Format.binary64 (pack Format.binary64 (.finite s m e hm))).isFinite = true ↔ _
  have hbiased : (e + (1023 : Nat) + (52 : Nat)).toNat + 1 < 2 ^ 11 ↔ e ≤ 971 := by omega
  have hpack : pack Format.binary64 (.finite s m e hm) =
      if 2 ^ 11 ≤ (e + (1023 : Nat) + (52 : Nat)).toNat + 1 then
        packComponents Format.binary64 s (-1#11) 0
      else if m.log2 + 1 = 53 then
        packComponents Format.binary64 s (BitVec.ofNat 11 (e + (1023 : Nat) + (52 : Nat)).toNat)
          (BitVec.ofNat 52 m)
      else packComponents Format.binary64 s 0#11 (BitVec.ofNat 52 m) := rfl
  rw [hpack, ← hbiased]
  split_ifs with hlarge hfull
  · rw [isFinite_unpack_packComponents]
    exact iff_of_false (fun h => h rfl) (by omega)
  · rw [isFinite_unpack_packComponents]
    refine iff_of_true (fun h => ?_) (by omega)
    have hmod := congrArg BitVec.toNat h
    rw [BitVec.toNat_ofNat, Nat.mod_eq_of_lt (by omega)] at hmod
    have : (-1#11).toNat = 2047 := by decide
    omega
  · rw [isFinite_unpack_packComponents]
    exact iff_of_true (by decide) (by omega)

/-! ## Rounded numbers -/

/-- A quotient is rounded to more than an odd number if it is at least that number and a half. -/
theorem lt_roundDiv_iff {n d t : Nat} (hd : 0 < d) (hodd : t % 2 = 1) :
    t < roundDiv n d ↔ (2 * t + 1) * d ≤ 2 * n := by
  have hhalf : (2 * t + 1) * d = 2 * (t * d) + d := by ring
  have hnext : (t + 1) * d = t * d + d := by ring
  rw [hhalf]
  rcases lt_trichotomy (n / d) t with hq | hq | hq
  · have hn : n < t * d := (Nat.div_lt_iff_lt_mul hd).mp hq
    have hle := roundDiv_le_div_add_one n d
    exact iff_of_false (by omega) (by omega)
  · have hmod := Nat.div_add_mod n d
    rw [hq, Nat.mul_comm] at hmod
    simp only [roundDiv, hq, Bool.or_eq_true, decide_eq_true_eq, Bool.and_eq_true, beq_iff_eq]
    split_ifs with h <;> omega
  · have hn : (t + 1) * d ≤ n := (Nat.le_div_iff_mul_le hd).mp hq
    have hle := div_le_roundDiv n d
    exact iff_of_true (by omega) (by omega)

theorem targetExponent_eq (m : Nat) (e : Int) :
    Format.binary64.targetExponent (totalExponent m e) = max ((m.log2 : Int) + e - 52) (-1074) := by
  show max ((m.log2 : Int) + 1 + e - 53) (-1074) = _
  congr 1
  omega

/-- A mantissa of 53 digits is left as it is, and one of 54 digits, after a carry, is shifted. -/
theorem shiftToTargetExponent_carry {r : Nat} {e : Int} (he : -1074 ≤ e) (hlo : 2 ^ 52 ≤ r)
    (hhi : r ≤ 2 ^ 53) :
    0 < (shiftToTargetExponent Format.binary64 r e .exact).1.mantissa ∧
      (shiftToTargetExponent Format.binary64 r e .exact).2 = if r = 2 ^ 53 then e + 1 else e := by
  have hlog : r.log2 = if r = 2 ^ 53 then 53 else 52 := by
    split_ifs with h
    · rw [h, Nat.log2_two_pow]
    · exact (Nat.log2_eq_iff (by omega)).mpr ⟨hlo, by omega⟩
  have hshift : (Format.binary64.targetExponent (totalExponent r e) - e).toNat =
      if r = 2 ^ 53 then 1 else 0 := by
    rw [targetExponent_eq, hlog]
    split_ifs <;> omega
  simp only [shiftToTargetExponent, shiftToExponent, hshift]
  constructor
  · rw [((tracks_exact r).shiftRight Nat.one_pos _).mantissa]
    split_ifs <;> omega
  · split_ifs <;> omega

/-- A whole number, with its digits moved behind the point as the machine has them before it rounds,
is rounded to a finite number if it is below the limit. -/
theorem isFinite_round {m : Nat} (hm : 2 ^ 53 ≤ m) :
    (Float.Model.pack (roundWithAccuracy Format.binary64 .positive (m * 2 ^ 53) (-53)
      .exact)).isFinite = true ↔ m < overflow := by
  have hpos : m ≠ 0 := by omega
  have hlog : 53 ≤ m.log2 := (Nat.le_log2 hpos).mpr hm
  -- The last of the first 53 digits of `m` is worth `2 ^ l`.
  obtain ⟨l, hl⟩ : ∃ l, m.log2 = l + 52 := ⟨m.log2 - 52, by omega⟩
  have hlo : 2 ^ 52 * 2 ^ l ≤ m := by
    rw [← pow_add, Nat.add_comm, ← hl]
    exact Nat.log2_self_le hpos
  have hhi : m < 2 ^ 53 * 2 ^ l := by
    rw [← pow_add, Nat.add_comm, show l + 53 = m.log2 + 1 by omega]
    exact Nat.lt_log2_self
  have hd : 0 < 2 ^ l := Nat.two_pow_pos l
  obtain ⟨r, hr⟩ : ∃ r, r = roundDiv m (2 ^ l) := ⟨_, rfl⟩
  have hrlo : 2 ^ 52 ≤ r := hr ▸ le_roundDiv hd hlo
  have hrhi : r ≤ 2 ^ 53 := hr ▸ roundDiv_le hd hhi.le
  have hshift : (Format.binary64.targetExponent (totalExponent (m * 2 ^ 53) (-53)) - -53).toNat =
      l + 53 := by
    rw [targetExponent_eq, Binary32.log2_mul_two_pow (by omega), hl]
    omega
  have hrounded : (ExtendedMantissa.ofMantissaAndAccuracy (m * 2 ^ 53) .exact >>>
      (l + 53)).roundedMantissa = r := by
    rw [((tracks_exact (m * 2 ^ 53)).shiftRight Nat.one_pos _).roundedMantissa, Nat.one_mul, pow_add,
      roundDiv_mul_mul _ _ (Nat.two_pow_pos 53), hr]
  have hfirst : shiftToTargetExponent Format.binary64 (m * 2 ^ 53) (-53) .exact =
      (ExtendedMantissa.ofMantissaAndAccuracy (m * 2 ^ 53) .exact >>> (l + 53), (l : Int)) := by
    simp only [shiftToTargetExponent, shiftToExponent, hshift]
    congr 1
    omega
  obtain ⟨hmantissa, hexponent⟩ := shiftToTargetExponent_carry (e := l) (by omega) hrlo hrhi
  simp only [roundWithAccuracy, hfirst, hrounded]
  rw [dif_neg hmantissa.ne', isFinite_pack, hexponent]
  obtain ⟨k, hk⟩ : ∃ k, k = 970 := ⟨_, rfl⟩
  have hoverflow : overflow = (2 ^ 54 - 1) * 2 ^ k := by
    rw [hk]
    exact overflow_eq
  rw [hoverflow]
  -- A carry matters only where the last of 53 digits is worth twice the unit of the limit.
  rcases lt_trichotomy l (k + 1) with hl' | hl' | hl'
  · have hle : 2 ^ l ≤ 2 ^ k := Nat.pow_le_pow_right (by decide) (by omega)
    exact iff_of_true (by split_ifs <;> omega) (by omega)
  · have hcarry := lt_roundDiv_iff (n := m) (t := 2 ^ 53 - 1) hd (by decide)
    have hle : 2 ^ l = 2 * 2 ^ k := by rw [hl', pow_succ']
    rw [← hr, hle] at hcarry
    split_ifs with hc <;> omega
  · have hle : 2 ^ (k + 2) ≤ 2 ^ l := Nat.pow_le_pow_right (by decide) hl'
    rw [pow_add] at hle
    exact iff_of_false (by split_ifs <;> omega) (by omega)

/-- The number nearest to a large whole number is finite if the whole number is below the limit. -/
theorem isFinite_ofScientific {m : Nat} (hm : 2 ^ 53 ≤ m) :
    (Float.ofScientific m false 0).isFinite = true ↔ m < overflow := by
  have hpos : m ≠ 0 := by omega
  have hlow : ¬ (0 : Int) < -((2 ^ 11 : Int) + m.log2) := by omega
  have hround : UnpackedFloat.ofScientific Format.binary64 m 0 =
      roundWithAccuracy Format.binary64 .positive (m * 2 ^ 53) (-53) .exact := by
    rw [UnpackedFloat.ofScientific, dif_neg hpos, if_neg (by decide), if_neg hlow, if_pos le_rfl]
    show roundWithAccuracy Format.binary64 .positive (m <<< 53 * 1) (-53) .exact = _
    rw [Nat.mul_one, Nat.shiftLeft_eq]
  rw [← isFinite_round hm, ← hround, Float.ofScientific, dif_neg (by omega)]
  rfl

/-- The exponents of finite numbers are not too large. -/
theorem le_of_unpack {w : BitVec 64} {s : Sign} {m : Nat} {e : Int} {hm : 0 < m}
    (h : unpack Format.binary64 w = .finite s m e hm) : e ≤ 971 := by
  obtain ⟨E, hE⟩ : ∃ E : BitVec 11, @unpackExponent Format.binary64 w = E := ⟨_, rfl⟩
  simp only [unpack, hE] at h
  by_cases hmax : E = -1#11
  · simp only [hmax, ↓reduceIte] at h
    split_ifs at h
  · have hne : E.toNat ≠ 2047 := fun h => hmax (BitVec.eq_of_toNat_eq h)
    have hlt : E.toNat < 2 ^ 11 := E.isLt
    have hle : (E.toNat : Int) - (1023 + 52) ≤ 971 := by omega
    simp only [hmax, ↓reduceIte] at h
    split_ifs at h with hzero hfraction
    · injection h with _ _ he
      rw [← he, hzero]
      decide
    · injection h with _ _ he
      rw [← he]
      exact hle

/-- The sign does not matter. -/
theorem isFinite_neg (x : Float) : (-x).isFinite = x.isFinite := by
  show (Float.Model.pack x.toModel.unpack.neg).isFinite = x.toModel.unpack.isFinite
  cases hx : x.toModel.unpack with
  | notANumber => rfl
  | infinity s => cases s <;> rfl
  | zero s => cases s <;> rfl
  | finite s m e hm => exact (isFinite_pack hm).mpr (le_of_unpack hx)

end PieceSquare.Binary64
