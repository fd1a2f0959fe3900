import PieceSquare.Proofs.Binary32.Word

set_option autoImplicit false

/-! # Binary32 numbers in units

Every finite number is a whole number of units of `2 ^ -149`, the least positive number. A sum or a
difference is the number nearest to the exact result in units (`Ordinary.add_eq`,
`Ordinary.sub_eq`), so statements about sums become statements about whole numbers and `nearest`.

Units do not tell the two zeros apart. `Ordinary` numbers leave out the negative zero: such a number
is determined by its units (`Ordinary.ofUnits_units`), and sums that start from zero are ordinary.
Bounds are kept by `Within`: rounding never passes a bound that has at most 24 binary digits, so no
sum of a few numbers of known magnitude overflows.
-/

namespace PieceSquare.Binary32

open Float.Model (Format UnpackedFloat)
open Float.Model.UnpackedFloat

/-! ## Numbers and their parts -/

/-- The parts of a number. -/
def parts (x : Float32) : UnpackedFloat := x.toModel.unpack

/-- The number with given parts. -/
def ofParts (u : UnpackedFloat) : Float32 := .ofModel (.pack u)

theorem fits_parts (x : Float32) : Fits (parts x) := fits_unpack _

theorem ofParts_parts (x : Float32) : ofParts (parts x) = x := by
  obtain ⟨⟨w, hw⟩⟩ := x
  have h := pack_unpack hw
  show Float32.ofModel
    ⟨UInt32.ofBitVec (pack Format.binary32 (unpack Format.binary32 w.toBitVec)), _⟩ = _
  congr 2
  rw [h]

theorem parts_ofParts {u : UnpackedFloat} (h : Fits u) : parts (ofParts u) = u := unpack_pack h

theorem parts_injective {x y : Float32} (h : parts x = parts y) : x = y := by
  rw [← ofParts_parts x, h, ofParts_parts]

theorem isFinite_eq (x : Float32) : x.isFinite = (parts x).isFinite := rfl

theorem isNaN_eq (x : Float32) : x.isNaN = (parts x).isNaN := rfl

theorem add_eq (x y : Float32) :
    x + y = ofParts (UnpackedFloat.add Format.binary32 (parts x) (parts y)) := rfl

theorem sub_eq (x y : Float32) :
    x - y = ofParts (UnpackedFloat.sub Format.binary32 (parts x) (parts y)) := rfl

theorem neg_eq (x : Float32) : -x = ofParts (parts x).neg := rfl

theorem fits_neg {u : UnpackedFloat} (h : Fits u) : Fits u.neg := by
  cases u <;> exact h

theorem parts_neg (x : Float32) : parts (-x) = (parts x).neg := by
  rw [neg_eq, parts_ofParts (fits_neg (fits_parts x))]

theorem apply_neg (s : Sign) (n : Int) : (-s).apply n = -s.apply n := by
  cases s with
  | negative => exact (Int.neg_neg n).symm
  | positive => rfl

theorem sub_eq_add_neg_parts (u v : UnpackedFloat) :
    UnpackedFloat.sub Format.binary32 u v = UnpackedFloat.add Format.binary32 u v.neg := by
  cases u <;> cases v <;> try rfl
  -- Only the exact difference of two finite mantissas is not written in the same way.
  simp only [UnpackedFloat.sub, UnpackedFloat.neg, UnpackedFloat.add, apply_neg, Int.sub_eq_add_neg]

/-- A difference is a sum, whatever the numbers are. -/
theorem sub_eq_add_neg (x y : Float32) : x - y = x + -y := by
  rw [sub_eq, add_eq, parts_neg, sub_eq_add_neg_parts]

/-! ## Units -/

/-- The value of a finite number in units of `2 ^ -149`, the least positive number. -/
def units (x : Float32) : Int :=
  match parts x with
  | .finite s m e _ => s.apply (m * 2 ^ (e + 149).toNat : Nat)
  | _ => 0

theorem units_of_parts {x : Float32} {s : Sign} {m k : Nat} {h : 0 < m}
    (hx : parts x = .finite s m (power k) h) : units x = s.apply (m * 2 ^ k : Nat) := by
  have hk : (power k + 149).toNat = k := by unfold power; omega
  simp only [units, hx, hk]

theorem units_neg (x : Float32) : units (-x) = -units x := by
  unfold units
  rw [parts_neg]
  cases parts x with
  | finite s m e h => exact apply_neg s _
  | _ => rfl

/-- The parts of the number nearest to `n` units. The zero is the positive one. -/
def nearestParts (n : Int) : UnpackedFloat := normalize Format.binary32 n (power 0) .positive

/-- The number nearest to `n` units. -/
def ofUnits (n : Int) : Float32 := ofParts (nearestParts n)

/-- The sign of a number that is not zero. -/
def signOf (n : Int) : Sign := if n < 0 then .negative else .positive

theorem natAbs_apply (s : Sign) (n : Nat) : (s.apply n).natAbs = n := by
  cases s with
  | negative => exact Int.natAbs_neg n
  | positive => rfl

theorem signOf_apply (s : Sign) {n : Nat} (hn : 0 < n) : signOf (s.apply n) = s := by
  cases s with
  | negative => exact if_pos (show -(n : Int) < 0 by omega)
  | positive => exact if_neg (show ¬ (n : Int) < 0 by omega)

theorem signOf_neg {n : Int} (hn : n ≠ 0) : signOf (-n) = -signOf n := by
  unfold signOf
  split_ifs <;> first | rfl | omega

/-- Finite mantissas at any exponent are rounded by their size in units. -/
theorem normalize_power {n : Int} (hn : n ≠ 0) (j : Nat) (h : 0 < n.natAbs * 2 ^ j) :
    normalize Format.binary32 n (power j) .positive =
      .finite (signOf n) (mantissa (n.natAbs * 2 ^ j)) (power (exponent (n.natAbs * 2 ^ j)))
        (canonical_nearest h).pos := by
  unfold UnpackedFloat.normalize signOf
  rcases lt_or_gt_of_ne hn with hlt | hgt
  · have habs : (-n).toNat = n.natAbs := by omega
    rw [Int.compare_eq_lt.mpr hlt, if_pos hlt]
    simp only [habs]
    exact round_power .negative (by omega) j h
  · have habs : n.toNat = n.natAbs := by omega
    rw [Int.compare_eq_gt.mpr hgt, if_neg (by omega)]
    simp only [habs]
    exact round_power .positive (by omega) j h

theorem nearestParts_zero : nearestParts 0 = .zero .positive := rfl

theorem nearestParts_of_ne {n : Int} (hn : n ≠ 0) (h : 0 < n.natAbs := Int.natAbs_pos.mpr hn) :
    nearestParts n = .finite (signOf n) (mantissa n.natAbs) (power (exponent n.natAbs))
      (canonical_nearest h).pos := by
  have h1 := normalize_power hn 0 (by simpa using hn)
  simpa [nearestParts] using h1

/-- Rounding depends on the value alone. -/
theorem normalize_eq_nearestParts (n : Int) (j : Nat) :
    normalize Format.binary32 n (power j) .positive = nearestParts (n * 2 ^ j) := by
  by_cases hn : n = 0
  · subst hn
    rw [Int.zero_mul]
    rfl
  · have hpow : (0 : Int) < 2 ^ j := by positivity
    have hne : n * 2 ^ j ≠ 0 := mul_ne_zero hn hpow.ne'
    have habs : (n * 2 ^ j).natAbs = n.natAbs * 2 ^ j := by
      rw [Int.natAbs_mul, Int.natAbs_pow]
      rfl
    have hsign : signOf (n * 2 ^ j) = signOf n := by
      unfold signOf
      simp only [mul_neg_iff, hpow, not_lt.mpr hpow.le, and_true, and_false, false_or]
    have hpos : 0 < n.natAbs * 2 ^ j :=
      Nat.mul_pos (Int.natAbs_pos.mpr hn) (Nat.two_pow_pos j)
    rw [normalize_power hn j hpos, nearestParts_of_ne hne (habs ▸ hpos), hsign]
    simp only [habs]

/-! ## Ordinary numbers -/

/-- The whole numbers of units whose nearest numbers are certainly finite. -/
def InRange (n : Int) : Prop := n.natAbs < 2 ^ 24 * 2 ^ 252

/-- Rounding to 24 binary digits, with the sign kept. -/
def roundUnits (n : Int) : Int := n.sign * nearest n.natAbs

theorem fits_nearestParts {n : Int} (h : InRange n) : Fits (nearestParts n) := by
  by_cases hn : n = 0
  · subst hn
    trivial
  · have hpos := Int.natAbs_pos.mpr hn
    have he : excess n.natAbs ≤ 252 := excess_le h
    rw [nearestParts_of_ne hn]
    refine ⟨_, rfl, ?_, canonical_nearest hpos⟩
    unfold exponent
    split_ifs <;> omega

theorem parts_ofUnits {n : Int} (h : InRange n) : parts (ofUnits n) = nearestParts n :=
  parts_ofParts (fits_nearestParts h)

theorem units_ofUnits {n : Int} (h : InRange n) : units (ofUnits n) = roundUnits n := by
  by_cases hn : n = 0
  · subst hn
    rfl
  · have hp := parts_ofUnits h
    rw [nearestParts_of_ne hn] at hp
    rw [units_of_parts hp, mantissa_mul_two_pow, roundUnits]
    unfold signOf
    split_ifs with hlt
    · rw [Int.sign_eq_neg_one_of_neg hlt, Int.neg_one_mul]
      rfl
    · rw [Int.sign_eq_one_of_pos (by omega), Int.one_mul]
      rfl

/-- The finite numbers except the negative zero: these are the sums that start from zero. -/
structure Ordinary (x : Float32) : Prop where
  isFinite : x.isFinite = true
  ne_neg_zero : x ≠ -0

theorem zero_eq_ofParts : (0 : Float32) = ofParts (.zero .positive) := by decide +kernel

theorem parts_zero : parts 0 = .zero .positive := by
  rw [zero_eq_ofParts]
  exact parts_ofParts trivial

theorem units_zero : units 0 = 0 := by
  simp only [units, parts_zero]

theorem parts_neg_zero : parts (-0) = .zero .negative := by
  rw [parts_neg, parts_zero]
  rfl

theorem finite_cases {x : Float32} (h : x.isFinite = true) :
    (∃ s, parts x = .zero s) ∨
      ∃ s m k hm, parts x = .finite s m (power k) hm ∧ Canonical m k := by
  have hfit := fits_parts x
  rw [isFinite_eq] at h
  cases hx : parts x with
  | notANumber => simp [hx, UnpackedFloat.isFinite] at h
  | infinity s => simp [hx, UnpackedFloat.isFinite] at h
  | zero s => exact Or.inl ⟨s, rfl⟩
  | finite s m e hm =>
      rw [hx] at hfit
      obtain ⟨k, rfl, -, hc⟩ := hfit
      exact Or.inr ⟨s, m, k, hm, rfl, hc⟩

theorem Ordinary.cases {x : Float32} (h : Ordinary x) :
    parts x = .zero .positive ∨
      ∃ s m k hm, parts x = .finite s m (power k) hm ∧ Canonical m k := by
  rcases finite_cases h.isFinite with ⟨s, hx⟩ | hx
  · cases s with
    | positive => exact Or.inl hx
    | negative => exact absurd (parts_injective (hx.trans parts_neg_zero.symm)) h.ne_neg_zero
  · exact Or.inr hx

theorem ordinary_of_parts {x : Float32} {s : Sign} {m k : Nat} {hm : 0 < m}
    (hx : parts x = .finite s m (power k) hm) : Ordinary x := by
  refine ⟨by rw [isFinite_eq, hx]; rfl, ?_⟩
  rintro rfl
  rw [parts_neg_zero] at hx
  cases hx

/-- An ordinary number is the one nearest to its units. -/
theorem Ordinary.ofUnits_units {x : Float32} (h : Ordinary x) : ofUnits (units x) = x := by
  rcases h.cases with hx | ⟨s, m, k, hm, hx, hc⟩
  · have hu : units x = 0 := by simp only [units, hx]
    rw [hu, ofUnits, nearestParts_zero, ← hx, ofParts_parts]
  · have hpos : 0 < m * 2 ^ k := Nat.mul_pos hm (Nat.two_pow_pos k)
    have hne : s.apply (m * 2 ^ k : Nat) ≠ 0 := by
      rw [← Int.natAbs_pos, natAbs_apply]
      exact hpos
    obtain ⟨hman, hexp⟩ := hc.nearest_eq
    rw [units_of_parts hx, ofUnits, nearestParts_of_ne hne, signOf_apply s hpos,
      ← ofParts_parts x, hx]
    simp only [natAbs_apply, hman, hexp]

theorem ofUnits_zero : ofUnits 0 = 0 := zero_eq_ofParts.symm

theorem ordinary_zero : Ordinary 0 := by
  refine ⟨by decide +kernel, fun h => ?_⟩
  have hp := congrArg parts h
  rw [parts_zero, parts_neg_zero] at hp
  cases hp

theorem ordinary_ofUnits {n : Int} (h : InRange n) : Ordinary (ofUnits n) := by
  by_cases hn : n = 0
  · rw [hn, ofUnits_zero]
    exact ordinary_zero
  · have hp := parts_ofUnits h
    rw [nearestParts_of_ne hn] at hp
    exact ordinary_of_parts hp

/-! ## Sums -/

theorem shiftLeft_decrease (s : Sign) (m k j : Nat) (h : j ≤ k) :
    s.apply ((decreaseExponent m (power k) (power j)).1 : Nat) * 2 ^ j =
      s.apply (m * 2 ^ k : Nat) := by
  have hshift : (power k - power j).toNat = k - j := by unfold power; omega
  have hmul : m * 2 ^ (k - j) * 2 ^ j = m * 2 ^ k := by
    rw [Nat.mul_assoc, ← pow_add, Nat.sub_add_cancel h]
  simp only [decreaseExponent, hshift, Nat.shiftLeft_eq]
  cases s <;> simp only [Sign.apply, ← hmul] <;> push_cast <;> ring

theorem add_finite (s s' : Sign) (m k m' k' : Nat) (h : 0 < m) (h' : 0 < m') :
    UnpackedFloat.add Format.binary32 (.finite s m (power k) h) (.finite s' m' (power k') h') =
      nearestParts (s.apply (m * 2 ^ k : Nat) + s'.apply (m' * 2 ^ k' : Nat)) := by
  have hmin : min (power k) (power k') = power (min k k') := by unfold power; omega
  rw [← shiftLeft_decrease s m k (min k k') (min_le_left k k'),
    ← shiftLeft_decrease s' m' k' (min k k') (min_le_right k k'), ← add_mul,
    ← normalize_eq_nearestParts]
  simp only [UnpackedFloat.add, hmin]

/-- Adding a zero of either sign changes nothing. -/
theorem Ordinary.add_zero {x y : Float32} {s : Sign} (hx : Ordinary x)
    (hy : parts y = .zero s) : x + y = x := by
  have hadd : UnpackedFloat.add Format.binary32 (parts x) (.zero s) = parts x := by
    rcases hx.cases with hpx | ⟨s', m, k, hm, hpx, -⟩
    · rw [hpx]
      cases s <;> rfl
    · rw [hpx]
      rfl
  rw [add_eq, hy, hadd, ofParts_parts]

/-- A sum is the number nearest to the exact sum. -/
theorem Ordinary.add_eq {x y : Float32} (hx : Ordinary x) (hy : y.isFinite = true) :
    x + y = ofUnits (units x + units y) := by
  rcases finite_cases hy with ⟨s, hpy⟩ | ⟨s, m, k, hm, hpy, -⟩
  · have hu : units y = 0 := by simp only [units, hpy]
    rw [hx.add_zero hpy, hu, Int.add_zero, hx.ofUnits_units]
  · rcases hx.cases with hpx | ⟨s', m', k', hm', hpx, -⟩
    · have hu : units x = 0 := by simp only [units, hpx]
      have hadd : UnpackedFloat.add Format.binary32 (parts x) (parts y) = parts y := by
        rw [hpx, hpy]
        rfl
      rw [Binary32.add_eq, hadd, ofParts_parts, hu, Int.zero_add,
        (ordinary_of_parts hpy).ofUnits_units]
    · rw [Binary32.add_eq, units_of_parts hpx, units_of_parts hpy, hpx, hpy, add_finite, ofUnits]

theorem isFinite_neg (x : Float32) : (-x).isFinite = x.isFinite := by
  rw [isFinite_eq, isFinite_eq, parts_neg]
  cases parts x <;> rfl

/-- A difference is the number nearest to the exact difference. -/
theorem Ordinary.sub_eq {x y : Float32} (hx : Ordinary x) (hy : y.isFinite = true) :
    x - y = ofUnits (units x - units y) := by
  rw [sub_eq_add_neg, hx.add_eq (by rw [isFinite_neg]; exact hy), units_neg, Int.sub_eq_add_neg]

/-- Opposite exact values are rounded to opposite numbers. -/
theorem ofUnits_neg {n : Int} (h : InRange n) (hn : n ≠ 0) : ofUnits (-n) = -ofUnits n := by
  have hneg : nearestParts (-n) = (nearestParts n).neg := by
    rw [nearestParts_of_ne hn, nearestParts_of_ne (neg_ne_zero.mpr hn), signOf_neg hn]
    simp only [Int.natAbs_neg]
    rfl
  rw [neg_eq, parts_ofUnits h, ofUnits, hneg]

/-- The word of a number with the opposite sign. -/
theorem packComponents_neg (s : Sign) (e : BitVec 8) (m : BitVec 23) :
    packComponents Format.binary32 (-s) e m =
      packComponents Format.binary32 s e m ^^^ 0x80000000#32 := by
  have hmask : (0x80000000#32) = 1#1 ++ 0#8 ++ 0#23 := rfl
  show (-s).toBitVec ++ e ++ m = (s.toBitVec ++ e ++ m) ^^^ 0x80000000#32
  rw [hmask, BitVec.xor_append, BitVec.xor_append, BitVec.xor_zero, BitVec.xor_zero]
  cases s <;> rfl

theorem pack_neg {u : UnpackedFloat} (h : u.isNaN = false) :
    pack Format.binary32 u.neg = pack Format.binary32 u ^^^ 0x80000000#32 := by
  cases u with
  | notANumber => simp [UnpackedFloat.isNaN] at h
  | infinity s => exact packComponents_neg s _ _
  | zero s => exact packComponents_neg s _ _
  | finite s m e hm =>
      simp only [UnpackedFloat.neg, pack]
      split_ifs <;> exact packComponents_neg s _ _

theorem isNaN_of_isFinite {x : Float32} (h : x.isFinite = true) : x.isNaN = false := by
  rw [isFinite_eq] at h
  rw [isNaN_eq]
  cases hx : parts x <;> simp [hx, UnpackedFloat.isFinite, UnpackedFloat.isNaN] at h ⊢

/-- A number and its negation differ in the sign bit only. -/
theorem toBits_neg {x : Float32} (h : x.isNaN = false) :
    (-x).toBits = x.toBits ^^^ 0x80000000 := by
  have hx : x.toBits = UInt32.ofBitVec (pack Format.binary32 (parts x)) :=
    congrArg Float32.toBits (ofParts_parts x).symm
  rw [hx]
  exact congrArg UInt32.ofBitVec (pack_neg (u := parts x) h)

/-! ## Magnitudes -/

theorem natAbs_roundUnits (n : Int) : (roundUnits n).natAbs = nearest n.natAbs := by
  rcases eq_or_ne n 0 with rfl | hn
  · rfl
  · rw [roundUnits, Int.natAbs_mul, Int.natAbs_sign_of_ne_zero hn, Nat.one_mul]
    rfl

theorem roundUnits_neg (n : Int) : roundUnits (-n) = -roundUnits n := by
  rw [roundUnits, Int.sign_neg, Int.natAbs_neg, Int.neg_mul, roundUnits]

/-- A finite number of magnitude at most `b`. -/
structure Within (b : Nat) (x : Float32) : Prop where
  isFinite : x.isFinite = true
  le : (units x).natAbs ≤ b * 2 ^ 149

theorem inRange_of_le {n : Int} {b : Nat} (hb : b ≤ 2 ^ 24) (h : n.natAbs ≤ b * 2 ^ 149) :
    InRange n := by
  calc n.natAbs ≤ b * 2 ^ 149 := h
    _ ≤ 2 ^ 24 * 2 ^ 149 := Nat.mul_le_mul_right _ hb
    _ < 2 ^ 24 * 2 ^ 252 := by norm_num

/-- Rounding does not go beyond a bound of at most 24 binary digits. -/
theorem within_ofUnits {n : Int} {b : Nat} (hb : b ≤ 2 ^ 24) (h : n.natAbs ≤ b * 2 ^ 149) :
    Within b (ofUnits n) := by
  have hr := inRange_of_le hb h
  refine ⟨(ordinary_ofUnits hr).isFinite, ?_⟩
  calc (units (ofUnits n)).natAbs = nearest n.natAbs := by rw [units_ofUnits hr, natAbs_roundUnits]
    _ ≤ nearest (b * 2 ^ 149) := nearest_mono h
    _ = b * 2 ^ 149 := nearest_mul_two_pow hb 149

theorem Within.units_add_le {a b : Nat} {x y : Float32} (hx : Within a x) (hy : Within b y) :
    (units x + units y).natAbs ≤ (a + b) * 2 ^ 149 := by
  have h := Int.natAbs_add_le (units x) (units y)
  have hx := hx.le
  have hy := hy.le
  rw [Nat.add_mul]
  omega

/-- Magnitudes add up as long as their bound has at most 24 binary digits. -/
theorem Within.add {a b : Nat} {x y : Float32} (ho : Ordinary x) (hx : Within a x)
    (hy : Within b y) (hab : a + b ≤ 2 ^ 24) : Ordinary (x + y) ∧ Within (a + b) (x + y) := by
  have hle := hx.units_add_le hy
  rw [ho.add_eq hy.isFinite]
  exact ⟨ordinary_ofUnits (inRange_of_le hab hle), within_ofUnits hab hle⟩

theorem Within.neg {b : Nat} {x : Float32} (h : Within b x) : Within b (-x) :=
  ⟨by rw [isFinite_neg]; exact h.isFinite, by rw [units_neg, Int.natAbs_neg]; exact h.le⟩

theorem Within.mono {a b : Nat} {x : Float32} (h : Within a x) (hab : a ≤ b) : Within b x :=
  ⟨h.isFinite, h.le.trans (Nat.mul_le_mul_right _ hab)⟩

theorem within_zero : Within 0 0 := ⟨by decide +kernel, by decide +kernel⟩

end PieceSquare.Binary32
