import PieceSquare.Proofs.Binary32.Level

set_option autoImplicit false

/-! # Operations keep the order

The exact result of an operation on finite numbers is a quotient of whole numbers of units, and the
machine rounds it to 24 binary digits (`Rounds`). What is rounded keeps its order (`Rounds.level_le`),
overflow and underflow included, so each operation is monotone in its operands as soon as its exact
result is known: sums (`rounds_add`), products (`rounds_mul`) and quotients (`rounds_div`).
-/

namespace PieceSquare.Binary32

open Float.Model (Format UnpackedFloat totalExponent)
open Float.Model.UnpackedFloat

/-! ## Rounding of quotients -/

/-- `r` is the quotient `n / d` rounded to 24 binary digits, the last of which is worth `2 ^ k`. All
24 digits are used unless the last one is worth 1. -/
structure RoundsAt (n d k r : Nat) : Prop where
  lt : n < 2 ^ 24 * (d * 2 ^ k)
  full : k = 0 ∨ 2 ^ 23 * (d * 2 ^ k) ≤ n
  eq : r = roundDiv n (d * 2 ^ k) * 2 ^ k

namespace RoundsAt

variable {n d k r n' d' k' r' : Nat}

theorem pos (h : RoundsAt n d k r) : 0 < d * 2 ^ k := by
  have := h.lt
  by_contra h0
  rw [Nat.eq_zero_of_not_pos h0] at this
  omega

theorem zero (hd : 0 < d) : RoundsAt 0 d 0 0 := by
  refine ⟨by rw [pow_zero]; omega, .inl rfl, ?_⟩
  have h := roundDiv_mul_self 0 hd
  rw [Nat.zero_mul] at h
  rw [pow_zero, Nat.mul_one, Nat.mul_one, h]

/-- Only the ratio counts. -/
theorem of_mul_mul {c : Nat} (hc : 0 < c) (h : RoundsAt (n * c) (d * c) k r) :
    RoundsAt n d k r := by
  have hd : d * c * 2 ^ k = d * 2 ^ k * c := Nat.mul_right_comm d c (2 ^ k)
  obtain ⟨hlt, hfull, heq⟩ := h
  rw [hd, ← Nat.mul_assoc] at hlt hfull
  rw [hd, roundDiv_mul_mul _ _ hc] at heq
  exact ⟨Nat.lt_of_mul_lt_mul_right hlt,
    hfull.imp_right fun h => Nat.le_of_mul_le_mul_right h hc, heq⟩

theorem mul_mul (h : RoundsAt n d k r) {c : Nat} (hc : 0 < c) : RoundsAt (n * c) (d * c) k r := by
  have hd : d * c * 2 ^ k = d * 2 ^ k * c := Nat.mul_right_comm d c (2 ^ k)
  obtain ⟨hlt, hfull, heq⟩ := h
  rw [← roundDiv_mul_mul _ _ hc, ← hd] at heq
  refine ⟨?_, hfull.imp_right fun h => ?_, heq⟩
  · rw [hd, ← Nat.mul_assoc]
    exact Nat.mul_lt_mul_of_pos_right hlt hc
  · rw [hd, ← Nat.mul_assoc]
    exact Nat.mul_le_mul_right c h

theorem le_of_le_left (h : RoundsAt n d k r) (h' : RoundsAt n' d k' r') (hle : n ≤ n') :
    r ≤ r' := by
  have hpos := h.pos
  have hpos' := h'.pos
  rcases lt_trichotomy k k' with hk | rfl | hk
  · -- A power of two separates quotients whose last digits differ in their worth.
    have hfull : 2 ^ 23 * (d * 2 ^ k') ≤ n' := h'.full.resolve_left (by omega)
    calc r = roundDiv n (d * 2 ^ k) * 2 ^ k := h.eq
      _ ≤ 2 ^ 24 * 2 ^ k := Nat.mul_le_mul_right _ (roundDiv_le hpos h.lt.le)
      _ = 2 ^ 23 * 2 ^ (k + 1) := by ring
      _ ≤ 2 ^ 23 * 2 ^ k' := Nat.mul_le_mul_left _ (Nat.pow_le_pow_right (by decide) hk)
      _ ≤ roundDiv n' (d * 2 ^ k') * 2 ^ k' := Nat.mul_le_mul_right _ (le_roundDiv hpos' hfull)
      _ = r' := h'.eq.symm
  · rw [h.eq, h'.eq]
    exact Nat.mul_le_mul_right _ (roundDiv_mono hle)
  · -- The smaller quotient would have the last digit of more worth.
    have hfull : 2 ^ 23 * (d * 2 ^ k) ≤ n := h.full.resolve_left (by omega)
    have hpow : 2 ^ (k' + 1) ≤ 2 ^ k := Nat.pow_le_pow_right (by decide) hk
    have hsmall : 2 ^ 24 * (d * 2 ^ k') ≤ 2 ^ 23 * (d * 2 ^ k) := by
      calc 2 ^ 24 * (d * 2 ^ k') = 2 ^ 23 * (d * 2 ^ (k' + 1)) := by ring
        _ ≤ 2 ^ 23 * (d * 2 ^ k) := Nat.mul_le_mul_left _ (Nat.mul_le_mul_left _ hpow)
    have hlt := h'.lt
    omega

/-- Rounding keeps the order of quotients. -/
theorem le (h : RoundsAt n d k r) (h' : RoundsAt n' d' k' r') (hle : n * d' ≤ n' * d) :
    r ≤ r' := by
  have hd : 0 < d := Nat.pos_of_mul_pos_right h.pos
  have hd' : 0 < d' := Nat.pos_of_mul_pos_right h'.pos
  have hscaled := h'.mul_mul hd
  rw [Nat.mul_comm d' d] at hscaled
  exact (h.mul_mul hd').le_of_le_left hscaled hle

end RoundsAt

/-! ## Rounding of shifted mantissas -/

/-- The rounded mantissa `r` at the exponent `k`, after a carry if there is one. -/
theorem level_carried (s : Sign) {r k : Nat} (hr : r ≤ 2 ^ 24) (hfull : k = 0 ∨ 2 ^ 23 ≤ r)
    (h : 0 < r / 2 ^ excess r) :
    level (ofParts (.finite s (r / 2 ^ excess r) (power (k + excess r)) h)) =
      s.apply (min (r * 2 ^ k) limit : Nat) := by
  have hexcess := excess_of_le hr
  have hc : Canonical (r / 2 ^ excess r) (k + excess r) := by
    rw [hexcess]
    split_ifs with hcarry
    · rw [hcarry]
      exact ⟨by decide, by decide, .inr (by decide)⟩
    · rw [hexcess, if_neg hcarry, pow_zero, Nat.div_one] at h
      rw [pow_zero, Nat.div_one]
      exact ⟨h, by omega, hfull⟩
  have hvalue : r / 2 ^ excess r * 2 ^ (k + excess r) = r * 2 ^ k := by
    rw [hexcess]
    split_ifs with hcarry
    · rw [hcarry]
      ring
    · rw [pow_zero, Nat.div_one, Nat.add_zero]
  rw [level_ofParts_finite hc, hvalue]

/-- The distance `l` by which a mantissa is shifted to the exponent `k` at which it has 24 digits. -/
theorem exists_shift {m : Nat} {e : Int} (hfull : e ≤ -149 ∨ 2 ^ 23 ≤ m) :
    ∃ k l : Nat, Format.binary32.targetExponent (totalExponent m e) = power k ∧
      power k = e + l ∧ m < 2 ^ 24 * 2 ^ l ∧ (k = 0 ∨ 2 ^ 23 * 2 ^ l ≤ m) := by
  have htarget : Format.binary32.targetExponent (totalExponent m e) =
      max ((m.log2 : Int) + 1 + e - 24) (-149) := rfl
  have hlog : e ≤ -149 ∨ 23 ≤ m.log2 := by
    refine hfull.imp_right fun h => ?_
    exact (Nat.le_log2 (by omega)).mpr h
  obtain ⟨k, hk⟩ : ∃ k : Nat, k = (max ((m.log2 : Int) + 1 + e - 24) (-149) + 149).toNat := ⟨_, rfl⟩
  obtain ⟨l, hl⟩ : ∃ l : Nat, l = (max ((m.log2 : Int) + 1 + e - 24) (-149) - e).toNat := ⟨_, rfl⟩
  refine ⟨k, l, by rw [htarget]; unfold power; omega, by unfold power; omega, ?_, ?_⟩
  · calc m < 2 ^ (m.log2 + 1) := Nat.lt_log2_self
      _ ≤ 2 ^ (24 + l) := Nat.pow_le_pow_right (by decide) (by omega)
      _ = 2 ^ 24 * 2 ^ l := pow_add 2 24 l
  · rcases Nat.eq_zero_or_pos k with h0 | hpos
    · exact .inl h0
    · right
      have hm : m ≠ 0 := by
        rintro rfl
        rw [Nat.log2_zero] at hk hlog
        omega
      calc 2 ^ 23 * 2 ^ l = 2 ^ (23 + l) := (pow_add 2 23 l).symm
        _ ≤ 2 ^ m.log2 := Nat.pow_le_pow_right (by decide) (by omega)
        _ ≤ m := Nat.log2_self_le hm

/-- A mantissa with its residual bits stands for a quotient, and is rounded to what the quotient is
rounded to. The mantissa must have enough digits, as it is only shifted to the right. -/
theorem level_roundWithAccuracy (s : Sign) {m n d i j : Nat} {e : Int} {acc : Accuracy}
    (ht : Tracks (.ofMantissaAndAccuracy m acc) n d) (hd : 0 < d)
    (he : e = (i : Int) - j - 149) (hfull : e ≤ -149 ∨ 2 ^ 23 ≤ m) :
    ∃ k r, RoundsAt (n * 2 ^ i) (d * 2 ^ j) k r ∧
      level (ofParts (roundWithAccuracy Format.binary32 s m e acc)) =
        s.apply (min r limit : Nat) := by
  have hm : m = n / d := by
    have := ht.mantissa
    cases acc with
    | exact => exact this
    | inexact o => cases o <;> exact this
  obtain ⟨k, l, htarget, hkl, hlt, hle⟩ := exists_shift hfull
  rw [hm, Nat.div_lt_iff_lt_mul hd, Nat.mul_assoc, Nat.mul_comm (2 ^ l)] at hlt
  rw [hm, Nat.le_div_iff_mul_le hd, Nat.mul_assoc, Nat.mul_comm (2 ^ l)] at hle
  have hpos : 0 < d * 2 ^ l := Nat.mul_pos hd (Nat.two_pow_pos l)
  obtain ⟨r, hr⟩ : ∃ r, r = roundDiv n (d * 2 ^ l) := ⟨_, rfl⟩
  have hrle : r ≤ 2 ^ 24 := hr ▸ roundDiv_le hpos hlt.le
  have hrfull : k = 0 ∨ 2 ^ 23 ≤ r := hle.imp_right fun h => hr ▸ le_roundDiv hpos h
  refine ⟨k, r * 2 ^ k, ?_, ?_⟩
  · -- Both sides of the quotient have been multiplied by the same power of two.
    have hexp : j + k = l + i := by unfold power at hkl; omega
    have hscale : d * 2 ^ j * 2 ^ k = d * 2 ^ l * 2 ^ i := by
      rw [Nat.mul_assoc, ← pow_add, hexp, pow_add, Nat.mul_assoc]
    constructor
    · rw [hscale, ← Nat.mul_assoc]
      exact Nat.mul_lt_mul_of_pos_right hlt (Nat.two_pow_pos i)
    · refine hle.imp_right fun h => ?_
      rw [hscale, ← Nat.mul_assoc]
      exact Nat.mul_le_mul_right _ h
    · rw [hscale, roundDiv_mul_mul _ _ (Nat.two_pow_pos i), hr]
  · have hfirst : shiftToTargetExponent Format.binary32 m e acc =
        (ExtendedMantissa.ofMantissaAndAccuracy m acc >>> l, power k) := by
      have hl : (power k - e).toNat = l := by omega
      simp only [shiftToTargetExponent, shiftToExponent, htarget, hl]
      rw [hkl]
    have hrounded : (ExtendedMantissa.ofMantissaAndAccuracy m acc >>> l).roundedMantissa = r :=
      ((ht.shiftRight hd l).roundedMantissa).trans hr.symm
    have hcarried := (tracks_shiftRight r (excess r)).mantissa
    simp only [roundWithAccuracy, hfirst, hrounded, shiftToTargetExponent_power]
    split_ifs with h0
    · have hr0 : r = 0 := by
        rw [hcarried, excess_of_le hrle] at h0
        split_ifs at h0 with h24
        · rw [h24] at h0
          norm_num at h0
        · rwa [pow_zero, Nat.div_one] at h0
      rw [level_ofParts_zero, hr0]
      cases s <;> simp [Sign.apply]
    · have hq : 0 < r / 2 ^ excess r := by rw [← hcarried]; exact Nat.pos_of_ne_zero h0
      rw [finite_congr hcarried rfl (Nat.pos_of_ne_zero h0) hq]
      exact level_carried s hrle hrfull hq

/-! ## Rounding of signed quotients -/

/-- A number is what the exact value of `n / d` units is rounded to, overflow included. -/
def Rounds (n : Int) (d : Nat) (x : Float32) : Prop :=
  ∃ k r, RoundsAt n.natAbs d k r ∧ level x = n.sign * (min r limit : Nat)

theorem Rounds.level_nonneg {n : Int} {d : Nat} {x : Float32} (h : Rounds n d x) (hn : 0 ≤ n) :
    0 ≤ level x := by
  obtain ⟨k, r, -, hx⟩ := h
  rw [hx]
  exact Int.mul_nonneg (Int.sign_nonneg_iff.mpr hn) (Int.natCast_nonneg _)

theorem Rounds.level_nonpos {n : Int} {d : Nat} {x : Float32} (h : Rounds n d x) (hn : n ≤ 0) :
    level x ≤ 0 := by
  obtain ⟨k, r, -, hx⟩ := h
  rw [hx]
  exact Int.mul_nonpos_of_nonpos_of_nonneg (Int.sign_nonpos_iff.mpr hn) (Int.natCast_nonneg _)

/-- Rounding keeps the order. -/
theorem Rounds.level_le {n n' : Int} {d d' : Nat} {x x' : Float32} (h : Rounds n d x)
    (h' : Rounds n' d' x') (hle : n * d' ≤ n' * d) : level x ≤ level x' := by
  obtain ⟨k, r, hr, hx⟩ := id h
  obtain ⟨k', r', hr', hx'⟩ := id h'
  have hd : (0 : Int) < d := Int.natCast_pos.mpr (Nat.pos_of_mul_pos_right hr.pos)
  have hd' : (0 : Int) < d' := Int.natCast_pos.mpr (Nat.pos_of_mul_pos_right hr'.pos)
  rcases lt_or_ge n' 0 with hn' | hn'
  · -- With a negative result on the right both are negative, and magnitudes compare the other way.
    have hn : n < 0 := by
      by_contra hn
      have hleft := Int.mul_nonneg (not_lt.mp hn) hd'.le
      have hright := Int.mul_neg_of_neg_of_pos hn' hd
      omega
    have hmagnitude : n'.natAbs * d ≤ n.natAbs * d' := by
      zify
      rw [abs_of_neg hn, abs_of_neg hn']
      linarith
    have hrr := hr'.le hr hmagnitude
    rw [hx, hx', Int.sign_eq_neg_one_of_neg hn, Int.sign_eq_neg_one_of_neg hn']
    omega
  · rcases lt_or_ge 0 n with hn | hn
    · have hpos' : 0 < n' := by
        have hleft := Int.mul_pos hn hd'
        by_contra hn0
        have hzero : n' = 0 := le_antisymm (not_lt.mp hn0) hn'
        rw [hzero] at hle
        omega
      have hmagnitude : n.natAbs * d' ≤ n'.natAbs * d := by
        zify
        rwa [abs_of_pos hn, abs_of_nonneg hn']
      have hrr := hr.le hr' hmagnitude
      rw [hx, hx', Int.sign_eq_one_of_pos hn, Int.sign_eq_one_of_pos hpos']
      omega
    · exact (h.level_nonpos hn).trans (h'.level_nonneg hn')

theorem rounds_zero {d : Nat} (hd : 0 < d) {x : Float32} (h : level x = 0) : Rounds 0 d x :=
  ⟨0, 0, .zero hd, by rw [h]; rfl⟩

/-- Parts with a sign have the level that the signed quotient is rounded to. -/
theorem rounds_apply {s : Sign} {n d k r : Nat} (hn : 0 < n) (h : RoundsAt n d k r) {x : Float32}
    (hx : level x = s.apply (min r limit : Nat)) : Rounds (s.apply n) d x := by
  refine ⟨k, r, by rwa [natAbs_apply], ?_⟩
  rw [hx]
  cases s with
  | negative =>
      rw [Sign.apply, Sign.apply, Int.sign_eq_neg_one_of_neg (by omega), Int.neg_one_mul]
  | positive =>
      rw [Sign.apply, Sign.apply, Int.sign_eq_one_of_pos (by omega), Int.one_mul]

/-! ## Sums -/

theorem roundsAt_nearest (n : Nat) : RoundsAt n 1 (excess n) (nearest n) := by
  constructor
  · rw [Nat.one_mul]
    exact lt_two_pow_excess n
  · rw [Nat.one_mul]
    exact (Nat.eq_zero_or_pos _).imp_right two_pow_excess_le
  · rw [Nat.one_mul]
    rfl

theorem rounds_ofUnits (n : Int) : Rounds n 1 (ofUnits n) := by
  by_cases hn : n = 0
  · subst hn
    exact rounds_zero Nat.one_pos (level_ofParts_zero .positive)
  · have hpos := Int.natAbs_pos.mpr hn
    have hsign : (signOf n).apply n.natAbs = n := by
      unfold signOf
      split_ifs with h <;> simp only [Sign.apply] <;> omega
    have hlevel : level (ofUnits n) = (signOf n).apply (min (nearest n.natAbs) limit : Nat) := by
      rw [ofUnits, nearestParts_of_ne hn, level_ofParts_finite (canonical_nearest hpos),
        mantissa_mul_two_pow]
    have h := rounds_apply hpos (roundsAt_nearest n.natAbs) hlevel
    rwa [hsign] at h

theorem add_comm_parts (u v : UnpackedFloat) :
    UnpackedFloat.add Format.binary32 u v = UnpackedFloat.add Format.binary32 v u := by
  cases u <;> cases v <;> try rfl
  case infinity.infinity s s' => cases s <;> cases s' <;> rfl
  case zero.zero s s' => cases s <;> cases s' <;> rfl
  case finite.finite => simp only [UnpackedFloat.add, Int.min_comm, Int.add_comm]

theorem add_commutes (x y : Float32) : x + y = y + x := by
  rw [add_eq, add_eq, add_comm_parts]

/-- A sum of finite numbers is rounded from their exact sum. -/
theorem rounds_add {x y : Float32} (hx : x.isFinite = true) (hy : y.isFinite = true) :
    Rounds (units x + units y) 1 (x + y) := by
  by_cases hx0 : x = -0
  · by_cases hy0 : y = -0
    · rw [hx0, hy0, units_neg, units_zero]
      exact rounds_zero Nat.one_pos (by decide +kernel)
    · have hsum := Ordinary.add_eq ⟨hy, hy0⟩ hx
      rw [add_commutes, hsum, Int.add_comm]
      exact rounds_ofUnits _
  · rw [Ordinary.add_eq ⟨hx, hx0⟩ hy]
    exact rounds_ofUnits _

/-! ## Products -/

theorem apply_mul (s s' : Sign) (a b : Int) : s.apply a * s'.apply b = (s * s').apply (a * b) := by
  cases s <;> cases s'
  · exact Int.neg_mul_neg a b
  · exact Int.neg_mul a b
  · exact Int.mul_neg a b
  · rfl

theorem units_of_zero {x : Float32} {s : Sign} (h : parts x = .zero s) : units x = 0 := by
  simp only [units, h]

/-- A product of finite numbers is rounded from their exact product. -/
theorem rounds_mul {x y : Float32} (hx : x.isFinite = true) (hy : y.isFinite = true) :
    Rounds (units x * units y) (2 ^ 149) (x * y) := by
  have hpow : 0 < 2 ^ 149 := Nat.two_pow_pos 149
  rcases finite_cases hx with ⟨s, hpx⟩ | ⟨s, m, k, hm, hpx, hc⟩
  · rw [units_of_zero hpx, Int.zero_mul]
    rcases finite_cases hy with ⟨s', hpy⟩ | ⟨s', m', k', hm', hpy, -⟩ <;>
      exact rounds_zero hpow (by rw [mul_eq, hpx, hpy]; exact level_ofParts_zero _)
  · rcases finite_cases hy with ⟨s', hpy⟩ | ⟨s', m', k', hm', hpy, hc'⟩
    · rw [units_of_zero hpy, Int.mul_zero]
      exact rounds_zero hpow (by rw [mul_eq, hpx, hpy]; exact level_ofParts_zero _)
    · have hmm : 0 < m * m' := Nat.mul_pos hm hm'
      -- One of two mantissas with an exponent above the least one uses all its digits.
      have hfull : power k + power k' ≤ -149 ∨ 2 ^ 23 ≤ m * m' := by
        rcases hc.full with hk | hk
        · rcases hc'.full with hk' | hk'
          · left
            unfold power
            omega
          · exact .inr (hk'.trans (Nat.le_mul_of_pos_left m' hm))
        · exact .inr (hk.trans (Nat.le_mul_of_pos_right m hm'))
      have hexp : power k + power k' = ((k + k' : Nat) : Int) - (149 : Nat) - 149 := by
        unfold power
        omega
      obtain ⟨i, r, hr, hlevel⟩ :=
        level_roundWithAccuracy (s * s') (tracks_exact (m * m')) Nat.one_pos hexp hfull
      rw [Nat.one_mul] at hr
      have hprod : units x * units y = (s * s').apply (m * m' * 2 ^ (k + k') : Nat) := by
        rw [units_of_parts hpx, units_of_parts hpy, apply_mul]
        congr 1
        push_cast
        ring
      rw [hprod]
      refine rounds_apply (Nat.mul_pos hmm (Nat.two_pow_pos _)) hr ?_
      rw [mul_eq, hpx, hpy]
      exact hlevel

/-! ## Quotients -/

theorem tracks_fraction {n d : Nat} (hd : 0 < d) :
    Tracks (.ofMantissaAndAccuracy (n / d) (accuracyOfFraction (n % d) d)) n d := by
  have hlt := Nat.mod_lt n hd
  unfold accuracyOfFraction
  split_ifs with h0
  · refine ⟨rfl, ?_, ?_⟩ <;> simp [ExtendedMantissa.ofMantissaAndAccuracy] <;> omega
  · rcases lt_trichotomy (2 * (n % d)) d with h | h | h
    · rw [Nat.compare_eq_lt.mpr h]
      refine ⟨rfl, ?_, ?_⟩ <;> simp [ExtendedMantissa.ofMantissaAndAccuracy] <;> omega
    · rw [Nat.compare_eq_eq.mpr h]
      refine ⟨rfl, ?_, ?_⟩ <;> simp [ExtendedMantissa.ofMantissaAndAccuracy] <;> omega
    · rw [Nat.compare_eq_gt.mpr h]
      refine ⟨rfl, ?_, ?_⟩ <;> simp [ExtendedMantissa.ofMantissaAndAccuracy] <;> omega

/-- The quotient of two mantissas is taken with enough digits for rounding. -/
theorem exists_divCore {m m' : Nat} (hm : 0 < m) (hm' : 0 < m') (k k' : Nat) :
    ∃ (l : Nat) (e : Int), divCore Format.binary32 m (power k) m' (power k') =
        (m * 2 ^ l / m', e, accuracyOfFraction (m * 2 ^ l % m') m') ∧
      e = (k : Int) - k' - l ∧ (e ≤ -149 ∨ 2 ^ 23 ≤ m * 2 ^ l / m') := by
  obtain ⟨t, ht⟩ : ∃ t, t = Format.binary32.targetExponent
      (totalExponent m (power k) - totalExponent m' (power k')) := ⟨_, rfl⟩
  obtain ⟨e, he⟩ : ∃ e, e = min (power k - power k') t := ⟨_, rfl⟩
  obtain ⟨l, hl⟩ : ∃ l, l = (power k - power k' - e).toNat := ⟨_, rfl⟩
  refine ⟨l, e, ?_, by unfold power at he hl; omega, ?_⟩
  · simp only [divCore, ← ht, ← he, ← hl, Nat.shiftLeft_eq]
  · have htarget : t = max ((m.log2 : Int) + 1 + power k - (m'.log2 + 1 + power k') - 24) (-149) := ht
    rcases le_or_gt e (-149) with hlow | hhigh
    · exact .inl hlow
    · right
      have hlog : m'.log2 + 24 ≤ m.log2 + l := by omega
      rw [Nat.le_div_iff_mul_le hm']
      calc 2 ^ 23 * m' ≤ 2 ^ 23 * 2 ^ (m'.log2 + 1) := Nat.mul_le_mul_left _ Nat.lt_log2_self.le
        _ = 2 ^ (m'.log2 + 24) := by ring
        _ ≤ 2 ^ (m.log2 + l) := Nat.pow_le_pow_right (by decide) hlog
        _ = 2 ^ m.log2 * 2 ^ l := pow_add 2 _ _
        _ ≤ m * 2 ^ l := Nat.mul_le_mul_right _ (Nat.log2_self_le hm.ne')

theorem div_finite (s s' : Sign) {m m' : Nat} {e e' : Int} (hm : 0 < m) (hm' : 0 < m') :
    UnpackedFloat.div Format.binary32 (.finite s m e hm) (.finite s' m' e' hm') =
      roundWithAccuracy Format.binary32 (s / s') (divCore Format.binary32 m e m' e').1
        (divCore Format.binary32 m e m' e').2.1 (divCore Format.binary32 m e m' e').2.2 := rfl

/-- A quotient of finite numbers is rounded from their exact quotient. -/
theorem rounds_div {x y : Float32} (hx : x.isFinite = true) (hy : y.isFinite = true)
    (hpos : 0 < units y) : Rounds (units x * 2 ^ 149) (units y).natAbs (x / y) := by
  have hdpos : 0 < (units y).natAbs := Int.natAbs_pos.mpr hpos.ne'
  rcases finite_cases hy with ⟨s', hpy⟩ | ⟨s', m', k', hm', hpy, -⟩
  · rw [units_of_zero hpy] at hpos
    omega
  · obtain rfl : s' = .positive := by
      rw [units_of_parts hpy] at hpos
      cases s' with
      | negative => simp only [Sign.apply] at hpos; omega
      | positive => rfl
    rcases finite_cases hx with ⟨s, hpx⟩ | ⟨s, m, k, hm, hpx, -⟩
    · rw [units_of_zero hpx, Int.zero_mul]
      exact rounds_zero hdpos (by rw [div_eq, hpx, hpy]; exact level_ofParts_zero _)
    · obtain ⟨l, e, hcore, he, hfull⟩ := exists_divCore hm hm' k k'
      have hexp : e = ((k + 149 : Nat) : Int) - (k' + l : Nat) - 149 := by omega
      obtain ⟨i, r, hr, hlevel⟩ :=
        level_roundWithAccuracy (s / .positive) (tracks_fraction hm') hm' hexp hfull
      have hnum : m * 2 ^ l * 2 ^ (k + 149) = m * 2 ^ k * 2 ^ 149 * 2 ^ l := by ring
      have hden : m' * 2 ^ (k' + l) = m' * 2 ^ k' * 2 ^ l := by ring
      rw [hnum, hden] at hr
      have hratio := hr.of_mul_mul (Nat.two_pow_pos l)
      have hx' : units x * 2 ^ 149 = (s / .positive).apply (m * 2 ^ k * 2 ^ 149 : Nat) := by
        rw [units_of_parts hpx]
        cases s <;> simp only [Sign.apply] <;> push_cast
        · exact Int.neg_mul _ _
        · rfl
      rw [hx', units_of_parts hpy, natAbs_apply]
      refine rounds_apply (Nat.mul_pos (Nat.mul_pos hm (Nat.two_pow_pos k)) (by decide)) hratio ?_
      rw [div_eq, hpx, hpy]
      rw [div_finite, hcore]
      exact hlevel

/-! ## The order of results -/

/-- A product with a finite number that is not positive reverses the order. -/
theorem mul_le_mul_of_nonpos {x x' y : Float32} (hx : x.isFinite = true)
    (hx' : x'.isFinite = true) (hy : y.isFinite = true) (hneg : units y ≤ 0) (h : x ≤ x') :
    x' * y ≤ x * y := by
  rw [le_iff_units hx hx'] at h
  rw [le_iff_level (isNaN_mul hx' hy) (isNaN_mul hx hy)]
  refine (rounds_mul hx' hy).level_le (rounds_mul hx hy) ?_
  exact Int.mul_le_mul_of_nonneg_right (Int.mul_le_mul_of_nonpos_right h hneg) (by positivity)

theorem parts_add_infinity {x y : Float32} {s : Sign} (hx : x.isFinite = true)
    (hy : parts y = .infinity s) : parts (x + y) = .infinity s := by
  have hadd : UnpackedFloat.add Format.binary32 (parts x) (.infinity s) = .infinity s := by
    rcases finite_cases hx with ⟨s', hpx⟩ | ⟨s', m, k, hm, hpx, -⟩ <;> rw [hpx] <;> rfl
  rw [add_eq, hy, hadd]
  exact parts_ofParts trivial

/-- Adding a finite number keeps the order, also of infinities. -/
theorem add_le_add_left {x y y' : Float32} (hx : x.isFinite = true) (hy : y.isNaN = false)
    (hy' : y'.isNaN = false) (h : y ≤ y') : x + y ≤ x + y' := by
  have hnum : x.isNaN = false := isNaN_of_isFinite hx
  have hsum : (x + y).isNaN = false := isNaN_add hnum hy (.inl hx)
  have hsum' : (x + y').isNaN = false := isNaN_add hnum hy' (.inl hx)
  rw [le_iff_level hy hy'] at h
  rw [le_iff_level hsum hsum']
  rcases finite_or_infinity_of_level_le hy hy' h with ⟨hfin, hfin'⟩ | hinf' | hinf
  · rw [level_of_isFinite hfin, level_of_isFinite hfin'] at h
    exact (rounds_add hx hfin).level_le (rounds_add hx hfin') (by omega)
  · -- An infinity is at one end of all levels, before and after the addition.
    rw [level_of_infinity (parts_add_infinity hx hinf')]
    exact (level_bounds hsum).2
  · rw [level_of_infinity (parts_add_infinity hx hinf)]
    exact (level_bounds hsum').1

theorem sub_le_sub_right {x x' y : Float32} (hx : x.isNaN = false) (hx' : x'.isNaN = false)
    (hy : y.isFinite = true) (h : x ≤ x') : x - y ≤ x' - y := by
  have hneg : (-y).isFinite = true := by rw [isFinite_neg]; exact hy
  rw [sub_eq_add_neg, sub_eq_add_neg, add_commutes x, add_commutes x']
  exact add_le_add_left hneg hx hx' h

theorem level_div_infinity {x y : Float32} (hx : x.isFinite = true)
    (hy : parts y = .infinity .positive) : level (x / y) = 0 := by
  rw [div_eq, hy]
  rcases finite_cases hx with ⟨s, hpx⟩ | ⟨s, m, k, hm, hpx, -⟩ <;> rw [hpx] <;>
    exact level_ofParts_zero _

/-- A larger positive divisor, perhaps an infinite one, makes a quotient of a positive number
smaller. -/
theorem div_le_div_left {x y y' : Float32} (hx : x.isFinite = true) (hpos : 0 < units x)
    (hy : y.isNaN = false) (hy' : y'.isNaN = false) (hypos : 0 < y) (h : y ≤ y') :
    x / y' ≤ x / y := by
  have hzero : (0 : Float32).isNaN = false := isNaN_of_isFinite ordinary_zero.isFinite
  rw [lt_iff_level hzero hy, level_of_isFinite ordinary_zero.isFinite, units_zero] at hypos
  rw [le_iff_level hy hy'] at h
  rw [le_iff_level (isNaN_div hx hpos.ne' hy') (isNaN_div hx hpos.ne' hy)]
  have hnum : 0 ≤ units x * 2 ^ 149 := Int.mul_nonneg hpos.le (by decide)
  rcases finite_or_infinity_of_level_le hy hy' h with ⟨hfin, hfin'⟩ | hinf' | hinf
  · rw [level_of_isFinite hfin] at hypos h
    rw [level_of_isFinite hfin'] at h
    refine (rounds_div hx hfin' (by omega)).level_le (rounds_div hx hfin hypos) ?_
    exact Int.mul_le_mul_of_nonneg_left (by omega) hnum
  · rw [level_div_infinity hx hinf']
    rcases number_cases hy with hfin | hinf | hinf
    · rw [level_of_isFinite hfin] at hypos
      exact (rounds_div hx hfin hypos).level_nonneg hnum
    · rw [level_div_infinity hx hinf]
    · rw [level_of_infinity hinf] at hypos
      simp only [Sign.apply] at hypos
      omega
  · rw [level_of_infinity hinf] at hypos
    simp only [Sign.apply] at hypos
    omega

end PieceSquare.Binary32
