import PieceSquare.Eval.Score
import PieceSquare.Proofs.Binary32.Zero
import PieceSquare.Proofs.Bitboard.Squares

set_option autoImplicit false

/-! # Sums over a set and over the whole board

The weights on the squares of a set can be added up in two ways. A sweep takes one bit after another
off the word of the set, lowest first, and looks the weight up by the number of trailing zeros. The
plain way goes over all 64 squares and adds zero on those outside the set. The two sums have the same
bits, whatever the weights are (`sweep_eq_denseDot`): the sweep meets the squares in ascending order,
and a zero more changes nothing, as a sum that starts from zero never becomes the negative zero.
-/

namespace PieceSquare

open Binary32 (add_ne_neg_zero add_zero_of_ne ordinary_zero)

/-! ## Sweeps over a word -/

/-- Adds the weights at the places of the ones of a word to a sum, from the lowest to the highest. A
place that is not in the table is a fault. -/
def sweep (w : Weights) (b : Bitboard) (sum : Float32) : Except Fault Float32 :=
  if b = 0 then .ok sum
  else do
    let weight ← entry w.toList b.ctz.toNat
    sweep w (b &&& (b - 1)) (sum + weight)
termination_by b.toNat
decreasing_by exact Bitboard.toNat_clear_lt ‹_›

theorem entry_ctz (w : Weights) {b : Bitboard} (h : b ≠ 0) :
    entry w.toList b.ctz.toNat = .ok (w.get ⟨b.ctz.toNat, Bitboard.ctz_lt h⟩) := by
  have hlt : b.ctz.toNat < w.toList.length := by
    rw [Vector.length_toList]
    exact Bitboard.ctz_lt h
  rw [entry_of_lt hlt]
  rfl

/-- A sweep finds all places in the table, and they are the squares of the set in order. -/
theorem sweep_eq (w : Weights) (b : Bitboard) (sum : Float32) :
    sweep w b sum = .ok (b.squares.foldl (fun sum s => sum + w.get s) sum) := by
  fun_induction sweep w b sum with
  | case1 sum =>
      rw [Bitboard.squares_zero]
      rfl
  | case2 b sum h ih =>
      rw [entry_ctz w h, (Bitboard.isLowest_ctz h).squares_eq]
      exact ih _

/-! ## Sums over the whole board -/

/-- A sum that does not start from the negative zero never becomes it, and zeros can be left out of
it. -/
theorem foldl_filter_add (l : List Square) (p : Square → Bool) (f : Square → Float32) {x : Float32}
    (hx : x ≠ -0) :
    (l.filter p).foldl (fun sum s => sum + f s) x =
        l.foldl (fun sum s => sum + if p s then f s else 0) x ∧
      (l.filter p).foldl (fun sum s => sum + f s) x ≠ -0 := by
  induction l generalizing x with
  | nil => exact ⟨rfl, hx⟩
  | cons s l ih =>
      by_cases hs : p s = true
      · rw [List.filter_cons_of_pos hs, List.foldl_cons, List.foldl_cons, if_pos hs]
        exact ih (add_ne_neg_zero hx)
      · rw [List.filter_cons_of_neg hs, List.foldl_cons, if_neg hs, add_zero_of_ne hx]
        exact ih hx

/-- The sweep over a word from zero never leaves the table and gives the sum of the weights on the
squares of the set. This is the sum over the whole board with zeros outside the set, bit for bit, and
never the negative zero. -/
theorem sweep_eq_denseDot (w : Weights) (b : Bitboard) :
    sweep w b 0 = .ok (dot b w) ∧ dot b w = denseDot b w ∧ dot b w ≠ -0 := by
  obtain ⟨hdense, hne⟩ :=
    foldl_filter_add Square.all b.contains w.get ordinary_zero.ne_neg_zero
  exact ⟨sweep_eq w b 0, hdense, hne⟩

end PieceSquare
