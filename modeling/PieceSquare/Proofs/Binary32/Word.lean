import PieceSquare.Proofs.Binary32.Rounding

set_option autoImplicit false

/-! # The words of binary32 numbers

A word of 32 bits holds a sign, an exponent and a fraction. Unpacking it gives parts in canonical
form (`fits_unpack`), packing such parts loses nothing (`unpack_pack`), and a word is packed from
its own parts (`pack_unpack`). What is not a number has one word only, which is why the last of
these asks for a valid word.
-/

namespace PieceSquare.Binary32

open Float.Model (Format UnpackedFloat)
open Float.Model.UnpackedFloat

/-- The parts that words are made from. -/
def Fits : UnpackedFloat → Prop
  | .finite _ m e _ => ∃ k : Nat, e = power k ∧ k ≤ 253 ∧ Canonical m k
  | _ => True

theorem ofBitVec_toBitVec (s : Sign) : Sign.ofBitVec s.toBitVec = s := by cases s <;> rfl

theorem toBitVec_ofBitVec (b : BitVec 1) : (Sign.ofBitVec b).toBitVec = b := by
  revert b; decide

theorem unpackSign_packComponents (s : Sign) (e : BitVec 8) (m : BitVec 23) :
    unpackSign (packComponents Format.binary32 s e m) = s.toBitVec := by
  show (s.toBitVec ++ e ++ m).extractLsb' 31 1 = s.toBitVec
  rw [BitVec.extractLsb'_append_eq_of_le (by decide),
    BitVec.extractLsb'_append_eq_of_le (by decide)]
  exact BitVec.extractLsb'_eq_self

/-- A word is put together from its sign, its exponent and its fraction. -/
theorem packComponents_unpack (b : BitVec Format.binary32.numBits) :
    packComponents Format.binary32 (Sign.ofBitVec (unpackSign b)) (unpackExponent b)
      (unpackMantissa b) = b := by
  rw [packComponents, toBitVec_ofBitVec]
  show b.extractLsb' 31 1 ++ b.extractLsb' 23 8 ++ b.extractLsb' 0 23 = b
  rw [BitVec.extractLsb'_append_extractLsb'_eq_extractLsb' (by decide),
    BitVec.extractLsb'_append_extractLsb'_eq_extractLsb' (by decide)]
  exact BitVec.extractLsb'_eq_self

/-- The parts of a word with a given sign, exponent and fraction. -/
def ofFields (s : Sign) (e : BitVec 8) (m : BitVec 23) : UnpackedFloat :=
  if e = -1#8 then if m = 0#23 then .infinity s else .notANumber
  else if e = 0#8 then
    if h : m = 0#23 then .zero s
    else .finite s m.toNat (power 0) (by simpa [BitVec.toNat_pos, BitVec.pos_iff_ne_zero] using h)
  else .finite s (2 ^ 23 + m.toNat) (power (e.toNat - 1)) (by omega)

theorem unpack_packComponents (s : Sign) (e : BitVec 8) (m : BitVec 23) :
    unpack Format.binary32 (packComponents Format.binary32 s e m) = ofFields s e m := by
  have hm : (1#1 ++ m).toNat = 2 ^ 23 + m.toNat := by
    rw [BitVec.toNat_append, ← Nat.shiftLeft_add_eq_or_of_lt m.isLt]
    rfl
  unfold unpack ofFields
  simp only [unpackMantissa_packComponents, unpackExponent_packComponents,
    unpackSign_packComponents, ofBitVec_toBitVec, hm]
  -- The two sides differ in how they write the exponent.
  by_cases h1 : e = -1#8
  · simp only [h1, ↓reduceIte]
  · by_cases h2 : e = 0#8
    · simp only [h2, ↓reduceIte]
      rfl
    · have he : e.toNat ≠ 0 := fun h => h2 (BitVec.eq_of_toNat_eq h)
      have hp : (e.toNat : Int) - (127 + 23) = power (e.toNat - 1) := by
        unfold power
        omega
      simp only [h1, h2, ↓reduceIte]
      exact congrArg (fun x => UnpackedFloat.finite s _ x _) hp

theorem fits_ofFields (s : Sign) (e : BitVec 8) (m : BitVec 23) : Fits (ofFields s e m) := by
  unfold ofFields
  split_ifs with h1 h2 h3 h4
  · trivial
  · trivial
  · trivial
  · have hm : m.toNat ≠ 0 := fun h => h4 (BitVec.eq_of_toNat_eq h)
    exact ⟨0, rfl, by decide, ⟨by omega, by omega, Or.inl rfl⟩⟩
  · have he : e.toNat ≠ 255 := fun h => h1 (BitVec.eq_of_toNat_eq h)
    exact ⟨e.toNat - 1, rfl, by omega, ⟨by omega, by omega, Or.inr (by omega)⟩⟩

theorem fits_unpack (b : BitVec Format.binary32.numBits) : Fits (unpack Format.binary32 b) := by
  rw [← packComponents_unpack b, unpack_packComponents]
  exact fits_ofFields _ _ _

/-- The word of a number whose mantissa uses all its digits. -/
theorem pack_normal (s : Sign) {m k : Nat} (hk : k ≤ 253) (hlo : 2 ^ 23 ≤ m) (hhi : m < 2 ^ 24)
    (hm : 0 < m) : pack Format.binary32 (.finite s m (power k) hm) =
      packComponents Format.binary32 s (BitVec.ofNat 8 (k + 1)) (BitVec.ofNat 23 m) := by
  have hb : (power k + (127 : Nat) + (23 : Nat)).toNat = k + 1 := by unfold power; omega
  have hlog : m.log2 = 23 := (Nat.log2_eq_iff hm.ne').mpr ⟨hlo, hhi⟩
  show (if 2 ^ 8 ≤ (power k + (127 : Nat) + (23 : Nat)).toNat + 1 then
      packedInfinity Format.binary32 s
    else if m.log2 + 1 = 24 then
      packComponents Format.binary32 s
        (BitVec.ofNat 8 (power k + (127 : Nat) + (23 : Nat)).toNat) (BitVec.ofNat 23 m)
    else packComponents Format.binary32 s 0#8 (BitVec.ofNat 23 m)) = _
  rw [hb, if_neg (by omega), if_pos (by omega)]

/-- The word of a number that is too small to use all digits of its mantissa. -/
theorem pack_subnormal (s : Sign) {m : Nat} (hhi : m < 2 ^ 23) (hm : 0 < m) :
    pack Format.binary32 (.finite s m (power 0) hm) =
      packComponents Format.binary32 s 0#8 (BitVec.ofNat 23 m) := by
  have hlog : m.log2 < 23 := (Nat.log2_lt hm.ne').mpr hhi
  exact if_neg (show ¬ m.log2 + 1 = 24 by omega)

theorem ofFields_normal (s : Sign) {m k : Nat} (hk : k ≤ 253) (hlo : 2 ^ 23 ≤ m)
    (hhi : m < 2 ^ 24) (hm : 0 < m) :
    ofFields s (BitVec.ofNat 8 (k + 1)) (BitVec.ofNat 23 m) = .finite s m (power k) hm := by
  have he : (BitVec.ofNat 8 (k + 1)).toNat = k + 1 := by simp; omega
  have hf : 2 ^ 23 + (BitVec.ofNat 23 m).toNat = m := by simp; omega
  have h1 : BitVec.ofNat 8 (k + 1) ≠ -1#8 := by
    intro h
    rw [h] at he
    simp at he
    omega
  have h2 : BitVec.ofNat 8 (k + 1) ≠ 0#8 := by
    intro h
    rw [h] at he
    simp at he
  simp only [ofFields, h1, h2, ↓reduceIte, hf, he, Nat.add_sub_cancel]

theorem ofFields_subnormal (s : Sign) {m : Nat} (hhi : m < 2 ^ 23) (hm : 0 < m) :
    ofFields s 0#8 (BitVec.ofNat 23 m) = .finite s m (power 0) hm := by
  have hf : (BitVec.ofNat 23 m).toNat = m := by simp; omega
  have h : BitVec.ofNat 23 m ≠ 0#23 := by
    intro h
    rw [h] at hf
    simp at hf
    omega
  simp [ofFields, h, hf]

/-- Packing parts of the right form loses nothing. -/
theorem unpack_pack {u : UnpackedFloat} (h : Fits u) :
    unpack Format.binary32 (pack Format.binary32 u) = u := by
  cases u with
  | notANumber => rfl
  | infinity s => cases s <;> rfl
  | zero s => cases s <;> rfl
  | finite s m e hm =>
      obtain ⟨k, rfl, hk, hc⟩ := h
      by_cases hlo : 2 ^ 23 ≤ m
      · rw [pack_normal s hk hlo hc.lt hm, unpack_packComponents, ofFields_normal s hk hlo hc.lt hm]
      · obtain rfl : k = 0 := hc.full.resolve_right hlo
        rw [pack_subnormal s (by omega) hm, unpack_packComponents,
          ofFields_subnormal s (by omega) hm]

theorem pack_ofFields (s : Sign) (e : BitVec 8) (m : BitVec 23) (h : e = -1#8 → m = 0#23) :
    pack Format.binary32 (ofFields s e m) = packComponents Format.binary32 s e m := by
  unfold ofFields
  split_ifs with h1 h2 h3 h4
  · rw [h1, h2]
    rfl
  · exact absurd (h h1) h2
  · rw [h3, h4]
    rfl
  · rw [pack_subnormal s m.isLt, h3, BitVec.ofNat_toNat, BitVec.setWidth_eq]
  · have h0 : e.toNat ≠ 0 := fun h => h3 (BitVec.eq_of_toNat_eq h)
    have h255 : e.toNat ≠ 255 := fun h => h1 (BitVec.eq_of_toNat_eq h)
    rw [pack_normal s (by omega) (by omega) (by omega), Nat.sub_add_cancel (by omega),
      BitVec.ofNat_toNat, BitVec.setWidth_eq]
    congr 1
    apply BitVec.eq_of_toNat_eq
    have := m.isLt
    simp
    omega

/-- Unpacking a word loses nothing, as whatever is no number has only one word. -/
theorem pack_unpack {b : BitVec Format.binary32.numBits} (hb : Format.binary32.Valid b) :
    pack Format.binary32 (unpack Format.binary32 b) = b := by
  have hu : unpack Format.binary32 b =
      ofFields (Sign.ofBitVec (unpackSign b)) (unpackExponent b) (unpackMantissa b) := by
    rw [← unpack_packComponents, packComponents_unpack]
  -- Only what is no number has a fraction that unpacking forgets.
  by_cases h : unpackExponent b = -1#8 ∧ unpackMantissa b ≠ 0#23
  · rw [hu, ofFields, if_pos h.1, if_neg h.2]
    exact (hb.eq_packedNaN h.1 h.2).symm
  · rw [hu, pack_ofFields _ _ _ (by tauto), packComponents_unpack]

end PieceSquare.Binary32
