import PieceSquare.Proofs.Binary32.Units
import PieceSquare.Proofs.Bitboard
import PieceSquare.Proofs.Planes.Sides

set_option autoImplicit false

/-! # The size of sums of weights

Every weight is finite and of magnitude at most 1, so a sum of weights over a set of squares is
finite and of magnitude at most the number of squares. The bound of a weight is read off its
exponent (`belowOne`), which is cheap to compute for all squares of all tables. Only kings are worth
less than nothing on some squares.
-/

namespace PieceSquare

open Binary32
open Float.Model (UnpackedFloat)

/-! ## Weights -/

/-- Whether the exponent of a number shows that its magnitude is below 1. -/
def belowOne : UnpackedFloat → Bool
  | .zero _ => true
  | .finite _ _ e _ => decide (e ≤ power 125)
  | _ => false

theorem within_one {x : Float32} (h : belowOne (parts x) = true) : Within 1 x := by
  have hfin : x.isFinite = true := by
    rw [isFinite_eq]
    cases hx : parts x <;> simp [hx, belowOne, UnpackedFloat.isFinite] at h ⊢
  refine ⟨hfin, ?_⟩
  rcases finite_cases hfin with ⟨s, hx⟩ | ⟨s, m, k, hm, hx, hc⟩
  · simp only [units, hx]
    exact Nat.zero_le _
  · have hk : k ≤ 125 := by
      rw [hx] at h
      have := of_decide_eq_true h
      unfold power at this
      omega
    rw [units_of_parts hx, natAbs_apply]
    calc m * 2 ^ k ≤ 2 ^ 24 * 2 ^ k := Nat.mul_le_mul_right _ hc.lt.le
      _ ≤ 2 ^ 24 * 2 ^ 125 := Nat.mul_le_mul_left _ (Nat.pow_le_pow_right (by decide) hk)
      _ = 1 * 2 ^ 149 := by norm_num

/-- Whether the sign and the exponent of a number show that it is from 0 to below 1, and not the
negative zero. -/
def belowOneNonneg : UnpackedFloat → Bool
  | .zero .positive => true
  | .finite .positive _ e _ => decide (e ≤ power 125)
  | _ => false

theorem belowOne_of_nonneg {u : UnpackedFloat} (h : belowOneNonneg u = true) :
    belowOne u = true := by
  cases u with
  | zero s => rfl
  | finite s m e hm =>
      cases s with
      | positive => exact h
      | negative => cases h
  | _ => cases h

theorem nonneg_of_belowOneNonneg {x : Float32} (h : belowOneNonneg (parts x) = true) :
    Ordinary x ∧ 0 ≤ units x := by
  have hfin := (within_one (belowOne_of_nonneg h)).isFinite
  rcases finite_cases hfin with ⟨s, hx⟩ | ⟨s, m, k, hm, hx, -⟩
  · rw [hx] at h
    cases s with
    | positive =>
        rw [parts_injective (hx.trans parts_zero.symm)]
        exact ⟨ordinary_zero, units_zero.ge⟩
    | negative => cases h
  · refine ⟨ordinary_of_parts hx, ?_⟩
    rw [hx] at h
    rw [units_of_parts hx]
    cases s with
    | positive => exact Int.natCast_nonneg _
    | negative => cases h

/-- Only the tables of kings have negative weights. -/
theorem belowOneNonneg_weights : ∀ w ∈ [Weights.pawns, .knights, .bishops, .rooks, .queens],
    ∀ s : Square, belowOneNonneg (parts (w.get s)) = true := by
  decide +kernel

theorem belowOne_kings : ∀ w ∈ [Weights.kings, .kingsEndgame],
    ∀ s : Square, belowOne (parts (w.get s)) = true := by
  decide +kernel

theorem belowOneNonneg_ofKind {kind : Kind} (h : kind ≠ .king) (phase : Phase) (s : Square) :
    belowOneNonneg (parts ((Weights.ofKind kind phase).get s)) = true := by
  apply belowOneNonneg_weights
  cases kind <;> simp [Weights.ofKind] at h ⊢

/-- Every weight is finite and of magnitude at most 1. -/
theorem within_weight (kind : Kind) (phase : Phase) (s : Square) :
    Within 1 ((Weights.ofKind kind phase).get s) := by
  apply within_one
  by_cases h : kind = .king
  · subst h
    apply belowOne_kings
    cases phase <;> simp [Weights.ofKind]
  · exact belowOne_of_nonneg (belowOneNonneg_ofKind h phase s)

/-! ## Sums of weights -/

/-- A sum grows by at most 1 with each weight. -/
theorem within_foldl_weights (kind : Kind) (phase : Phase) (l : List Square) {b : Nat}
    {x : Float32} (ho : Ordinary x) (hx : Within b x) (hb : b + l.length ≤ 2 ^ 24) :
    Ordinary (l.foldl (fun sum s => sum + (Weights.ofKind kind phase).get s) x) ∧
      Within (b + l.length)
        (l.foldl (fun sum s => sum + (Weights.ofKind kind phase).get s) x) := by
  -- Each sum is ordinary again, which the next addition needs.
  induction l generalizing b x with
  | nil => exact ⟨ho, hx⟩
  | cons s l ih =>
      rw [List.length_cons] at hb
      obtain ⟨ho', hx'⟩ := hx.add ho (within_weight kind phase s) (by omega)
      have h := ih ho' hx' (by omega)
      rwa [Nat.add_assoc, Nat.add_comm 1] at h

theorem within_dot (b : Bitboard) (kind : Kind) (phase : Phase) :
    Ordinary (dot b (.ofKind kind phase)) ∧ Within 64 (dot b (.ofKind kind phase)) := by
  have hlen : b.squares.length ≤ 64 := by
    rw [Bitboard.length_squares]
    exact b.count_le
  obtain ⟨ho, hw⟩ :=
    within_foldl_weights kind phase b.squares ordinary_zero within_zero (by omega)
  exact ⟨ho, hw.mono (by omega)⟩

end PieceSquare
