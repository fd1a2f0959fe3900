import Mathlib
import PieceSquare.Bitboard

set_option autoImplicit false

/-! # Counting and comparing sets of squares

Turning the board upside down permutes its squares, so a set keeps its number of squares. A set that
lies within another one (`Subset`) has at most as many, and disjoint sets together have the sum of
theirs.
-/

namespace PieceSquare

theorem Square.flip_injective : Function.Injective Square.flip := fun s t h => by
  rw [← Square.flip_flip s, h, Square.flip_flip]

/-- Turning the board upside down only changes the order of its squares. -/
theorem Square.perm_map_flip : (Square.all.map Square.flip).Perm Square.all := by
  have hnodup : Square.all.Nodup := List.nodup_finRange 64
  rw [List.perm_ext_iff_of_nodup (hnodup.map Square.flip_injective) hnodup]
  intro s
  simp only [List.mem_map, Square.mem_all, true_and, iff_true]
  exact ⟨s.flip, Square.flip_flip s⟩

namespace Bitboard

/-- No square is lost upside down. -/
@[simp] theorem count_flip (b : Bitboard) : b.flip.count = b.count := by
  have hp : (fun s => b.flip.contains s) = b.contains ∘ Square.flip := by
    funext s
    exact contains_flip b s
  calc b.flip.count = Square.all.countP (b.contains ∘ Square.flip) := by rw [← hp]; rfl
    _ = (Square.all.map Square.flip).countP b.contains := List.countP_map.symm
    _ = b.count := Square.perm_map_flip.countP_eq _

@[simp] theorem flip_or (a b : Bitboard) : (a ||| b).flip = a.flip ||| b.flip :=
  ext_contains fun s => by simp only [contains_flip, contains_or]

theorem contains_and (a b : Bitboard) (s : Square) :
    contains (a &&& b) s = (contains a s && contains b s) := BitVec.getLsbD_and

theorem flip_and (a b : Bitboard) : (a &&& b).flip = a.flip &&& b.flip :=
  ext_contains fun s => by simp only [contains_flip, contains_and]

theorem flip_injective : Function.Injective Bitboard.flip := fun a b h => by
  rw [← flip_flip a, h, flip_flip]

theorem flip_zero : Bitboard.flip 0 = 0 := ext_contains fun s => by
  rw [contains_flip, contains_zero, contains_zero]

@[simp] theorem flip_eq_zero {b : Bitboard} : b.flip = 0 ↔ b = 0 := by
  rw [← flip_zero, flip_injective.eq_iff, flip_zero]

theorem count_le (b : Bitboard) : b.count ≤ 64 := by
  have h := List.countP_le_length (p := b.contains) (l := Square.all)
  rwa [Square.all, List.length_finRange] at h

theorem count_eq_zero {b : Bitboard} : b.count = 0 ↔ b = 0 := by
  rw [count, List.countP_eq_zero]
  constructor
  · intro h
    refine ext_contains fun s => ?_
    rw [contains_zero]
    exact Bool.eq_false_iff.mpr (h s s.mem_all)
  · rintro rfl s -
    rw [contains_zero]
    decide

/-- Sets without a common square have as many squares together as in sum. -/
theorem count_or {a b : Bitboard} (h : ∀ s, a.contains s = true → b.contains s = false) :
    (a ||| b).count = a.count + b.count := by
  unfold count
  induction Square.all with
  | nil => rfl
  | cons s l ih =>
      have hs := h s
      rw [List.countP_cons, List.countP_cons, List.countP_cons, ih, contains_or]
      cases ha : a.contains s <;> cases hb : b.contains s <;> simp_all <;> omega

/-! ## Sets within one another -/

/-- Whether all squares of a set belong to another one. -/
def Subset (a b : Bitboard) : Prop := ∀ s, a.contains s = true → b.contains s = true

instance (a b : Bitboard) : Decidable (Subset a b) :=
  inferInstanceAs (Decidable (∀ s : Square, a.contains s = true → b.contains s = true))

theorem Subset.refl (a : Bitboard) : Subset a a := fun _ h => h

theorem Subset.count_le {a b : Bitboard} (h : Subset a b) : a.count ≤ b.count :=
  List.countP_mono_left fun s _ => h s

theorem Subset.or {a b a' b' : Bitboard} (ha : Subset a a') (hb : Subset b b') :
    Subset (a ||| b) (a' ||| b') := by
  intro s hs
  rw [contains_or, Bool.or_eq_true] at hs ⊢
  exact hs.imp (ha s) (hb s)

theorem Subset.flip {a b : Bitboard} (h : Subset a b) : Subset a.flip b.flip := by
  intro s hs
  rw [contains_flip] at hs ⊢
  exact h s.flip hs

theorem Subset.eq_zero {a b : Bitboard} (h : Subset a b) (hb : b = 0) : a = 0 := by
  rw [← count_eq_zero] at hb ⊢
  exact Nat.le_zero.mp (hb ▸ h.count_le)

end Bitboard

end PieceSquare
