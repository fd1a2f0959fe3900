import Mathlib
import PieceSquare.Random

set_option autoImplicit false

/-! # The search for a word that counts is not cut short

A draw makes words until one counts, and `Generator.drawBelow` limits their number. The words follow from
the state alone, so with more words than there are states one state has come twice
(`exists_after_eq`), and what comes between the two can be left out. A word that counts is thus found
among the first `stateCount` words or not at all (`exists_after_lt`), and `Generator.below` gives the
number of the first word that counts wherever it stands (`below_eq_scaled`).
-/

namespace PieceSquare.Generator

/-- The generator after a number of words. -/
def after (g : Generator) (k : Nat) : Generator := (fun g => g.next.2)^[k] g

theorem after_add (g : Generator) (j k : Nat) : g.after (j + k) = (g.after k).after j :=
  Function.iterate_add_apply _ j k g

/-! ## States come again -/

/-- Four numbers of 64 bits. -/
abbrev Numbers : Type := Fin UInt64.size × Fin UInt64.size × Fin UInt64.size × Fin UInt64.size

/-- The four words of a state, as numbers. -/
def numbers (g : Generator) : Numbers := (g.s0.toFin, g.s1.toFin, g.s2.toFin, g.s3.toFin)

theorem numbers_injective : Function.Injective numbers := by
  rintro ⟨a, b, c, d⟩ ⟨a', b', c', d'⟩ h
  simp only [numbers, Prod.mk.injEq, UInt64.toFin_inj] at h
  obtain ⟨rfl, rfl, rfl, rfl⟩ := h
  rfl

/-- Of the first states, one more than there are, two are the same. -/
theorem exists_after_eq (g : Generator) : ∃ i j, i < j ∧ j ≤ stateCount ∧ g.after i = g.after j := by
  have hcard : Fintype.card Numbers < Fintype.card (Fin (stateCount + 1)) := by
    simp only [Fintype.card_prod, Fintype.card_fin]
    exact Nat.lt_succ_self stateCount
  obtain ⟨i, j, hne, heq⟩ := Fintype.exists_ne_map_eq_of_card_lt
    (fun k : Fin (stateCount + 1) => (g.after k).numbers) hcard
  have hafter : g.after i = g.after j := numbers_injective heq
  rcases lt_or_gt_of_ne hne with hlt | hlt
  · exact ⟨i, j, hlt, Nat.le_of_lt_succ j.isLt, hafter⟩
  · exact ⟨j, i, hlt, Nat.le_of_lt_succ i.isLt, hafter.symm⟩

/-- What holds of some later state holds of one of the first ones, as many as there are states. -/
theorem exists_after_lt (P : Generator → Prop) {g : Generator} (h : ∃ k, P (g.after k)) :
    ∃ k < stateCount, P (g.after k) := by
  classical
  refine ⟨Nat.find h, ?_, Nat.find_spec h⟩
  by_contra hge
  -- A state that came twice on the way there makes the way shorter.
  obtain ⟨i, j, hlt, hle, heq⟩ := exists_after_eq g
  have hshort : g.after (Nat.find h - j + i) = g.after (Nat.find h) := by
    rw [after_add, heq, ← after_add]
    congr 1
    omega
  refine Nat.find_min h (m := Nat.find h - j + i) (by omega) ?_
  rw [hshort]
  exact Nat.find_spec h

/-! ## The first word that counts -/

theorem drawBelow_of_first {n k : Nat} {g : Generator} (hcounts : counts n (g.after k).next.1)
    (hfirst : ∀ j < k, ¬ counts n (g.after j).next.1) {more : Nat} (hk : k ≤ more) :
    drawBelow n more g = (scaled n (g.after k).next.1, g.after (k + 1)) := by
  -- Each word that does not count moves the search on by one, so the induction is on their number.
  induction k generalizing more g with
  | zero =>
      cases more with
      | zero => rfl
      | succ more => exact if_pos hcounts
  | succ k ih =>
      obtain ⟨more, rfl⟩ := Nat.exists_eq_add_of_le' hk
      have hnot : ¬ counts n g.next.1 := hfirst 0 (Nat.succ_pos k)
      have hrest : drawBelow n (more + (k + 1)) g = drawBelow n (more + k) g.next.2 := if_neg hnot
      rw [hrest]
      exact ih hcounts (fun j hj => hfirst (j + 1) (Nat.succ_lt_succ hj)) (Nat.le_add_left k more)

/-- A draw gives the number of the first word that counts, and the generator behind that word. -/
theorem below_eq_scaled {n k : Nat} {g : Generator} (hcounts : counts n (g.after k).next.1)
    (hfirst : ∀ j < k, ¬ counts n (g.after j).next.1) :
    g.below n = (scaled n (g.after k).next.1, g.after (k + 1)) := by
  -- The word may stand anywhere, but then some word among the first ones counts as well.
  obtain ⟨i, hi, hcounts'⟩ := exists_after_lt (fun g => counts n g.next.1) ⟨k, hcounts⟩
  have hki : k ≤ i := by
    by_contra hlt
    exact hfirst i (Nat.lt_of_not_le hlt) hcounts'
  exact drawBelow_of_first hcounts hfirst (hki.trans hi.le)

end PieceSquare.Generator
