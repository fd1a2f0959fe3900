import Mathlib
import PieceSquare.Decimal.Fixed

set_option autoImplicit false

/-! # Rounding to 24 binary digits

A finite binary32 number is `m * 2 ^ k` units for a mantissa `m` of 24 binary digits and an exponent
`k` counted from the least one, where a unit is `2 ^ -149`. Arithmetic computes an exact result and
rounds it; this file says to what, with whole numbers alone. `nearest n` is the result for `n`
units, and `mantissa` and `exponent` are its `Canonical` form.

The machine rounds by shifting, one digit at a time, and by looking at two residual bits. The bits
are known to describe the remainder of a division (`Tracks`), so that the shifted and rounded
mantissa is the nearest quotient (`roundDiv`), and the rounding of a whole number of units at any
exponent is `nearest` (`round_power`).
-/

namespace PieceSquare

/-! ## The nearest quotient -/

theorem div_le_roundDiv (n d : Nat) : n / d ≤ roundDiv n d := by
  simp only [roundDiv]
  split <;> omega

theorem roundDiv_le_div_add_one (n d : Nat) : roundDiv n d ≤ n / d + 1 := by
  simp only [roundDiv]
  split <;> omega

/-- A multiple of the divisor has an exact quotient. -/
theorem roundDiv_mul_self (m : Nat) {d : Nat} (hd : 0 < d) : roundDiv (m * d) d = m := by
  simp [roundDiv, Nat.mul_div_cancel m hd, hd.ne']

/-- Only the ratio counts. -/
theorem roundDiv_mul_mul (n d : Nat) {c : Nat} (hc : 0 < c) :
    roundDiv (n * c) (d * c) = roundDiv n d := by
  have hlt : d * c < 2 * (n % d) * c ↔ d < 2 * (n % d) := Nat.mul_lt_mul_right hc
  have heq : d * c = 2 * (n % d) * c ↔ d = 2 * (n % d) := Nat.mul_left_inj hc.ne'
  simp only [roundDiv, Nat.mul_div_mul_right _ _ hc, Nat.mul_mod_mul_right, ← Nat.mul_assoc,
    hlt, beq_eq_decide, heq]

theorem roundDiv_mono {a b d : Nat} (h : a ≤ b) : roundDiv a d ≤ roundDiv b d := by
  rcases (Nat.div_le_div_right h : a / d ≤ b / d).lt_or_eq with hq | hq
  · calc roundDiv a d ≤ a / d + 1 := roundDiv_le_div_add_one a d
      _ ≤ b / d := hq
      _ ≤ roundDiv b d := div_le_roundDiv b d
  · -- With equal quotients the remainders are ordered.
    have hr : a % d ≤ b % d := by
      have ha := Nat.div_add_mod a d
      have hb := Nat.div_add_mod b d
      rw [hq] at ha
      omega
    simp only [roundDiv, hq, Bool.or_eq_true, decide_eq_true_eq, Bool.and_eq_true, beq_iff_eq]
    split <;> split <;> omega

theorem roundDiv_le {n m d : Nat} (hd : 0 < d) (h : n ≤ m * d) : roundDiv n d ≤ m :=
  (roundDiv_mono h).trans (roundDiv_mul_self m hd).le

theorem le_roundDiv {n m d : Nat} (hd : 0 < d) (h : m * d ≤ n) : m ≤ roundDiv n d :=
  (roundDiv_mul_self m hd).ge.trans (roundDiv_mono h)

namespace Binary32

/-! ## Numbers of 24 binary digits -/

/-- The number of binary digits of `n` behind its first 24. -/
def excess (n : Nat) : Nat := n.log2 - 23

/-- The first 24 binary digits of `n`, rounded to nearest. A carry can make it `2 ^ 24`. -/
def leading (n : Nat) : Nat := roundDiv n (2 ^ excess n)

/-- The number of at most 24 significant binary digits that is nearest to `n`, and the one with
an even last digit where two are equally near. -/
def nearest (n : Nat) : Nat := leading n * 2 ^ excess n

theorem lt_two_pow_excess (n : Nat) : n < 2 ^ 24 * 2 ^ excess n := by
  calc n < 2 ^ (n.log2 + 1) := Nat.lt_log2_self
    _ ≤ 2 ^ (24 + excess n) := Nat.pow_le_pow_right (by decide) (by unfold excess; omega)
    _ = 2 ^ 24 * 2 ^ excess n := pow_add 2 24 _

theorem two_pow_excess_le {n : Nat} (h : 0 < excess n) : 2 ^ 23 * 2 ^ excess n ≤ n := by
  have hn : n ≠ 0 := by rintro rfl; simp [excess] at h
  calc 2 ^ 23 * 2 ^ excess n = 2 ^ (23 + excess n) := (pow_add 2 23 _).symm
    _ = 2 ^ n.log2 := by congr 1; unfold excess at h ⊢; omega
    _ ≤ n := Nat.log2_self_le hn

theorem leading_le (n : Nat) : leading n ≤ 2 ^ 24 :=
  roundDiv_le (Nat.two_pow_pos _) (lt_two_pow_excess n).le

theorem le_leading {n : Nat} (h : 0 < excess n) : 2 ^ 23 ≤ leading n :=
  le_roundDiv (Nat.two_pow_pos _) (two_pow_excess_le h)

theorem leading_pos {n : Nat} (h : 0 < n) : 0 < leading n := by
  rcases Nat.eq_zero_or_pos (excess n) with he | he
  · have hl : leading n = n := by
      have h1 := roundDiv_mul_self n Nat.one_pos
      rw [Nat.mul_one] at h1
      rw [leading, he, pow_zero, h1]
    omega
  · have := le_leading he
    omega

theorem excess_mono {a b : Nat} (h : a ≤ b) : excess a ≤ excess b := by
  have hl : a.log2 ≤ b.log2 := by
    rcases Nat.eq_zero_or_pos a with rfl | ha
    · simp
    · exact (Nat.le_log2 (by omega)).mpr ((Nat.log2_self_le ha.ne').trans h)
  exact Nat.sub_le_sub_right hl 23

/-- Rounding keeps the order. -/
theorem nearest_mono {a b : Nat} (h : a ≤ b) : nearest a ≤ nearest b := by
  rcases (excess_mono h).lt_or_eq with he | he
  · -- Between two binades lies a power of two that both sides respect.
    calc nearest a ≤ 2 ^ 24 * 2 ^ excess a := Nat.mul_le_mul_right _ (leading_le a)
      _ = 2 ^ 23 * 2 ^ (excess a + 1) := by rw [pow_succ 2 (excess a)]; ring
      _ ≤ 2 ^ 23 * 2 ^ excess b := Nat.mul_le_mul_left _ (Nat.pow_le_pow_right (by decide) he)
      _ ≤ nearest b := Nat.mul_le_mul_right _ (le_leading (by omega))
  · unfold nearest leading
    rw [he]
    exact Nat.mul_le_mul_right _ (roundDiv_mono h)

theorem excess_le {n k : Nat} (h : n < 2 ^ 24 * 2 ^ k) : excess n ≤ k := by
  rcases Nat.eq_zero_or_pos n with rfl | hn
  · simp [excess]
  · rw [← pow_add] at h
    have := (Nat.log2_lt hn.ne').mpr h
    unfold excess
    omega

theorem nearest_of_dvd {n : Nat} (h : 2 ^ excess n ∣ n) : nearest n = n := by
  obtain ⟨q, hq⟩ := h
  have hl : leading n = q := by
    calc leading n = roundDiv (q * 2 ^ excess n) (2 ^ excess n) := by
          rw [Nat.mul_comm, ← hq, leading]
      _ = q := roundDiv_mul_self q (Nat.two_pow_pos _)
  rw [nearest, hl, Nat.mul_comm, ← hq]

/-- Numbers of at most 24 significant binary digits stay as they are. -/
theorem nearest_mul_two_pow {m : Nat} (h : m ≤ 2 ^ 24) (k : Nat) :
    nearest (m * 2 ^ k) = m * 2 ^ k := by
  apply nearest_of_dvd
  rcases h.lt_or_eq with hm | rfl
  · have he : excess (m * 2 ^ k) ≤ k :=
      excess_le (Nat.mul_lt_mul_of_pos_right hm (Nat.two_pow_pos k))
    exact (pow_dvd_pow 2 he).mul_left m
  · have he : excess (2 ^ 24 * 2 ^ k) = k + 1 := by
      rw [excess, ← pow_add, Nat.log2_two_pow]
      omega
    exact ⟨2 ^ 23, by rw [he]; ring⟩

/-! ## Mantissa and exponent -/

/-- A mantissa and an exponent, counted from the least one, in the only form in which a word holds
them: all 24 digits are used unless the exponent is the least one. -/
structure Canonical (m k : Nat) : Prop where
  pos : 0 < m
  lt : m < 2 ^ 24
  full : k = 0 ∨ 2 ^ 23 ≤ m

theorem Canonical.lt_of_exponent_lt {m k m' k' : Nat} (h : Canonical m k) (h' : Canonical m' k')
    (hk : k < k') : m * 2 ^ k < m' * 2 ^ k' := by
  have hm' : 2 ^ 23 ≤ m' := h'.full.resolve_left (by omega)
  calc m * 2 ^ k < 2 ^ 24 * 2 ^ k := Nat.mul_lt_mul_of_pos_right h.lt (Nat.two_pow_pos k)
    _ = 2 ^ 23 * 2 ^ (k + 1) := by ring
    _ ≤ 2 ^ 23 * 2 ^ k' := Nat.mul_le_mul_left _ (Nat.pow_le_pow_right (by decide) hk)
    _ ≤ m' * 2 ^ k' := Nat.mul_le_mul_right _ hm'

/-- A number has at most one canonical form. -/
theorem Canonical.unique {m k m' k' : Nat} (h : Canonical m k) (h' : Canonical m' k')
    (he : m * 2 ^ k = m' * 2 ^ k') : m = m' ∧ k = k' := by
  rcases lt_trichotomy k k' with hk | rfl | hk
  · exact absurd he (h.lt_of_exponent_lt h' hk).ne
  · exact ⟨Nat.eq_of_mul_eq_mul_right (Nat.two_pow_pos k) he, rfl⟩
  · exact absurd he.symm (h'.lt_of_exponent_lt h hk).ne

/-- The mantissa of the number nearest to `n`. -/
def mantissa (n : Nat) : Nat := if leading n = 2 ^ 24 then 2 ^ 23 else leading n

/-- The exponent of the number nearest to `n`. -/
def exponent (n : Nat) : Nat := if leading n = 2 ^ 24 then excess n + 1 else excess n

theorem mantissa_mul_two_pow (n : Nat) : mantissa n * 2 ^ exponent n = nearest n := by
  unfold mantissa exponent nearest
  split_ifs with h
  · rw [h]
    ring
  · rfl

theorem canonical_nearest {n : Nat} (hn : 0 < n) : Canonical (mantissa n) (exponent n) := by
  have hpos := leading_pos hn
  have hle := leading_le n
  unfold mantissa exponent
  split_ifs with h
  · exact ⟨by decide, by decide, Or.inr le_rfl⟩
  · refine ⟨hpos, by omega, ?_⟩
    rcases Nat.eq_zero_or_pos (excess n) with he | he
    · exact Or.inl he
    · exact Or.inr (le_leading he)

/-- A number in canonical form is its own nearest. -/
theorem Canonical.nearest_eq {m k : Nat} (h : Canonical m k) :
    mantissa (m * 2 ^ k) = m ∧ exponent (m * 2 ^ k) = k := by
  have hpos : 0 < m * 2 ^ k := Nat.mul_pos h.pos (Nat.two_pow_pos k)
  apply (canonical_nearest hpos).unique h
  rw [mantissa_mul_two_pow, nearest_mul_two_pow h.lt.le]

theorem log2_mul_two_pow {n : Nat} (hn : 0 < n) (c : Nat) : (n * 2 ^ c).log2 = n.log2 + c := by
  have hpos : 0 < n * 2 ^ c := Nat.mul_pos hn (Nat.two_pow_pos c)
  rw [Nat.log2_eq_iff hpos.ne', Nat.add_right_comm, pow_add, pow_add 2 (n.log2 + 1)]
  exact ⟨Nat.mul_le_mul_right _ (Nat.log2_self_le hn.ne'),
    Nat.mul_lt_mul_of_pos_right Nat.lt_log2_self (Nat.two_pow_pos c)⟩

/-- Once all digits of the mantissa are used, doubling changes the exponent only. -/
theorem nearest_scale {m c : Nat} (hm : 0 < m) (h : c = 0 ∨ 2 ^ 23 ≤ m) :
    mantissa (m * 2 ^ c) = mantissa m ∧ exponent (m * 2 ^ c) = exponent m + c := by
  have he : excess (m * 2 ^ c) = excess m + c := by
    rw [← Nat.le_log2 hm.ne'] at h
    unfold excess
    rw [log2_mul_two_pow hm]
    omega
  have hl : leading (m * 2 ^ c) = leading m := by
    unfold leading
    rw [he, pow_add, roundDiv_mul_mul _ _ (Nat.two_pow_pos c)]
  unfold mantissa exponent
  rw [he, hl]
  split_ifs <;> exact ⟨rfl, by omega⟩

/-! ## The residual bits -/

open Float.Model (Format UnpackedFloat totalExponent)
open Float.Model.UnpackedFloat

/-- A mantissa with its two residual bits stands for the quotient `n / d`: the bits tell how the
remainder compares with zero and with half of the divisor. -/
structure Tracks (em : ExtendedMantissa) (n d : Nat) : Prop where
  mantissa : em.mantissa = n / d
  roundBit : em.roundBit = true ↔ d ≤ 2 * (n % d)
  stickyBit : em.stickyBit = true ↔ n % d ≠ 0 ∧ 2 * (n % d) ≠ d

theorem Tracks.shiftRightOne {em : ExtendedMantissa} {n d : Nat} (h : Tracks em n d)
    (hd : 0 < d) : Tracks em.shiftRightOne n (d * 2) := by
  have hlt := Nat.mod_lt n hd
  have hmod : n % (d * 2) = n % d + d * (n / d % 2) := Nat.mod_mul
  have hbit : n / d % 2 = 0 ∨ n / d % 2 = 1 := Nat.mod_two_eq_zero_or_one _
  refine ⟨?_, ?_, ?_⟩
  · simp only [ExtendedMantissa.shiftRightOne, h.mantissa, Nat.div_div_eq_div_mul]
  · simp only [ExtendedMantissa.shiftRightOne, h.mantissa, hmod, bne_iff_ne]
    rcases hbit with hb | hb <;> rw [hb] <;> omega
  · simp only [ExtendedMantissa.shiftRightOne, hmod, Bool.or_eq_true, h.roundBit, h.stickyBit]
    rcases hbit with hb | hb <;> rw [hb] <;> omega

/-- Shifting by `k` digits divides by `2 ^ k` and keeps track of the remainder. -/
theorem Tracks.shiftRight {em : ExtendedMantissa} {n d : Nat} (h : Tracks em n d) (hd : 0 < d)
    (k : Nat) : Tracks (em >>> k) n (d * 2 ^ k) := by
  show Tracks (Nat.repeat ExtendedMantissa.shiftRightOne k em) n (d * 2 ^ k)
  induction k with
  | zero => rwa [pow_zero, Nat.mul_one]
  | succ k ih =>
      rw [pow_succ, ← Nat.mul_assoc]
      exact ih.shiftRightOne (Nat.mul_pos hd (Nat.two_pow_pos k))

theorem tracks_exact (n : Nat) : Tracks (.ofMantissaAndAccuracy n .exact) n 1 :=
  ⟨(Nat.div_one n).symm, by simp [Nat.mod_one]; rfl, by simp [Nat.mod_one]; rfl⟩

/-- A whole mantissa is exact before it is shifted. -/
theorem tracks_shiftRight (n k : Nat) :
    Tracks (ExtendedMantissa.ofMantissaAndAccuracy n .exact >>> k) n (2 ^ k) := by
  have h := (tracks_exact n).shiftRight Nat.one_pos k
  rwa [Nat.one_mul] at h

theorem Tracks.roundedMantissa {em : ExtendedMantissa} {n d : Nat} (h : Tracks em n d) :
    em.roundedMantissa = roundDiv n d := by
  obtain ⟨m, r, s⟩ := em
  obtain ⟨rfl, hr, hs⟩ := h
  have hmod := Nat.mod_two_eq_zero_or_one (n / d)
  simp only [roundDiv, Bool.or_eq_true, decide_eq_true_eq, Bool.and_eq_true, beq_iff_eq]
  cases r <;> cases s <;>
    simp only [Bool.false_eq_true, false_iff, true_iff, not_and_or, not_not, not_le] at hr hs <;>
    simp only [ExtendedMantissa.roundedMantissa, ExtendedMantissa.accuracy,
      Accuracy.roundToNearestEven] <;>
    split_ifs <;> omega

/-! ## Rounding of finite numbers -/

/-- The exponent that is written as `k` when exponents are counted from the least one. -/
def power (k : Nat) : Int := (k : Int) - 149

theorem targetExponent_power (m a : Nat) :
    Format.binary32.targetExponent (totalExponent m (power a)) = power (m.log2 + a - 23) := by
  show max (((m.log2 : Nat) : Int) + 1 + power a - 24) (-149) = _
  unfold power
  omega

theorem shiftToTargetExponent_power (m a : Nat) :
    shiftToTargetExponent Format.binary32 m (power a) .exact =
      (ExtendedMantissa.ofMantissaAndAccuracy m .exact >>> excess m, power (a + excess m)) := by
  have hk : (power (m.log2 + a - 23) - power a).toNat = excess m := by
    unfold power excess
    omega
  have he : power a + (excess m : Int) = power (a + excess m) := by unfold power; omega
  simp only [shiftToTargetExponent, shiftToExponent, targetExponent_power, hk, he]

theorem finite_congr {s : Sign} {m m' : Nat} {e e' : Int} (hm : m = m') (he : e = e')
    (h : 0 < m) (h' : 0 < m') : UnpackedFloat.finite s m e h = .finite s m' e' h' := by
  subst hm he
  rfl

/-- After a carry a mantissa has one digit too many, and a second shift removes it. -/
theorem excess_of_le {r : Nat} (h : r ≤ 2 ^ 24) : excess r = if r = 2 ^ 24 then 1 else 0 := by
  split_ifs with hr
  · rw [hr, excess, Nat.log2_two_pow]
  · exact Nat.le_zero.mp (excess_le (by omega))

theorem carry_leading (m : Nat) : leading m / 2 ^ excess (leading m) = mantissa m ∧
    excess m + excess (leading m) = exponent m := by
  rw [excess_of_le (leading_le m)]
  unfold mantissa exponent
  split_ifs with h
  · rw [h]
    exact ⟨rfl, rfl⟩
  · rw [pow_zero, Nat.div_one]
    exact ⟨rfl, rfl⟩

/-- Rounding keeps 24 digits of the mantissa; a carry goes into the exponent. -/
theorem roundWithAccuracy_power (s : Sign) {m : Nat} (hm : 0 < m) (a : Nat) :
    roundWithAccuracy Format.binary32 s m (power a) .exact =
      .finite s (mantissa m) (power (a + exponent m)) (canonical_nearest hm).pos := by
  have hr : (ExtendedMantissa.ofMantissaAndAccuracy m .exact >>> excess m).roundedMantissa
      = leading m := (tracks_shiftRight m (excess m)).roundedMantissa
  obtain ⟨hcarry, hexp⟩ := carry_leading m
  have hq := (tracks_shiftRight (leading m) (excess (leading m))).mantissa
  rw [hcarry] at hq
  have hpos := (canonical_nearest hm).pos
  simp only [roundWithAccuracy, shiftToTargetExponent_power, hr]
  rw [dif_neg (by omega)]
  exact finite_congr hq (by rw [Nat.add_assoc, hexp]) _ _

/-- A number is rounded by its size in units of the least positive number. -/
theorem round_power (s : Sign) {n : Nat} (hn : 0 < n) (j : Nat) (h : 0 < n * 2 ^ j) :
    UnpackedFloat.round Format.binary32 s n (power j) =
      .finite s (mantissa (n * 2 ^ j)) (power (exponent (n * 2 ^ j)))
        (canonical_nearest h).pos := by
  -- The mantissa is first shifted to the left by the distance `l` from the wanted exponent.
  obtain ⟨l, hl⟩ : ∃ l, l = j - (n.log2 + j - 23) := ⟨_, rfl⟩
  have hm : 0 < n * 2 ^ l := Nat.mul_pos hn (Nat.two_pow_pos l)
  have hfull : j - l = 0 ∨ 2 ^ 23 ≤ n * 2 ^ l := by
    rw [← Nat.le_log2 hm.ne', log2_mul_two_pow hn]
    omega
  have hN : n * 2 ^ l * 2 ^ (j - l) = n * 2 ^ j := by
    rw [Nat.mul_assoc, ← pow_add]
    congr 2
    omega
  have hshift : (power j - power (n.log2 + j - 23)).toNat = l := by unfold power; omega
  have hexp : power j - (l : Int) = power (j - l) := by unfold power; omega
  obtain ⟨hman, hpow⟩ := nearest_scale hm hfull
  rw [hN] at hman hpow
  simp only [UnpackedFloat.round, decreaseExponent, targetExponent_power, hshift, hexp,
    Nat.shiftLeft_eq, roundWithAccuracy_power s hm]
  exact finite_congr hman.symm (by rw [hpow, Nat.add_comm]) _ _

end Binary32

end PieceSquare
