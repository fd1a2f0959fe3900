import PieceSquare.Proofs.Binary32.Order
import PieceSquare.Proofs.Bitboard
import PieceSquare.Proofs.Eval.Size
import PieceSquare.Proofs.Planes.Sides

set_option autoImplicit false

/-! # The score from the other side of the board

A position seen from the other side has the negated score, exactly and not only up to rounding.
Rounding to nearest treats a number and its negation alike, so `Opposite` numbers, whose exact
values are negated, stay opposite when they are added up in the same order. The sign of zero needs
care: the negation of the positive zero is the negative zero, which no sum in a score ever produces.
Opposite numbers are therefore `Ordinary`, which excludes the negative zero.
-/

namespace PieceSquare

open Binary32

/-! ## Opposite sums -/

/-- What each addition keeps, while a bound grows by `b`, two sums of the same length keep. -/
theorem foldl_related {R : Nat → Float32 → Float32 → Prop} {α : Type} {t u : α → Float32} {b : Nat}
    (hadd : ∀ {a x y} k, R a x y → a + b ≤ 2 ^ 24 → R (a + b) (x + t k) (y + u k)) (l : List α)
    {a : Nat} {x y : Float32} (h : R a x y) (hl : a + l.length * b ≤ 2 ^ 24) :
    R (a + l.length * b) (l.foldl (fun sum k => sum + t k) x)
      (l.foldl (fun sum k => sum + u k) y) := by
  induction l generalizing a x y with
  | nil => simpa using h
  | cons k l ih =>
      have hmul : (k :: l).length * b = b + l.length * b := by
        rw [List.length_cons]
        ring
      rw [hmul, ← Nat.add_assoc] at hl ⊢
      exact ih (hadd k h (by omega)) hl

/-- Two ordinary numbers, of magnitude at most `b`, whose exact values are opposite. -/
structure Opposite (b : Nat) (x y : Float32) : Prop where
  left : Ordinary x
  right : Ordinary y
  within : Within b x
  units_eq : units y = -units x

theorem Opposite.within_right {b : Nat} {x y : Float32} (h : Opposite b x y) : Within b y :=
  ⟨h.right.isFinite, by rw [h.units_eq, Int.natAbs_neg]; exact h.within.le⟩

theorem opposite_ofUnits {n : Int} {b : Nat} (hb : b ≤ 2 ^ 24) (h : n.natAbs ≤ b * 2 ^ 149) :
    Opposite b (ofUnits n) (ofUnits (-n)) := by
  have hn := inRange_of_le hb h
  have hn' : InRange (-n) := by
    unfold InRange
    rw [Int.natAbs_neg]
    exact hn
  refine ⟨ordinary_ofUnits hn, ordinary_ofUnits hn', within_ofUnits hb h, ?_⟩
  rw [units_ofUnits hn, units_ofUnits hn', roundUnits_neg]

/-- Differences taken in the two orders are opposite. -/
theorem opposite_sub {a b : Nat} {x y : Float32} (hox : Ordinary x) (hoy : Ordinary y)
    (hx : Within a x) (hy : Within b y) (hab : a + b ≤ 2 ^ 24) :
    Opposite (a + b) (x - y) (y - x) := by
  have hle := hx.units_add_le hy.neg
  rw [units_neg, ← Int.sub_eq_add_neg] at hle
  rw [hox.sub_eq hy.isFinite, hoy.sub_eq hx.isFinite, ← Int.neg_sub (units x)]
  exact opposite_ofUnits hab hle

/-- Sums of opposite numbers are opposite. -/
theorem Opposite.add {a b : Nat} {x y t u : Float32} (h : Opposite a x y) (h' : Opposite b t u)
    (hab : a + b ≤ 2 ^ 24) : Opposite (a + b) (x + t) (y + u) := by
  have hle := h.within.units_add_le h'.within
  have hneg : units y + units u = -(units x + units t) := by
    rw [h.units_eq, h'.units_eq]
    omega
  rw [h.left.add_eq h'.within.isFinite, h.right.add_eq h'.within_right.isFinite, hneg]
  exact opposite_ofUnits hab hle

/-- Sums of the same length with opposite terms are opposite. -/
theorem Opposite.foldl {α : Type} {t u : α → Float32} {b : Nat} (ht : ∀ k, Opposite b (t k) (u k))
    (l : List α) {a : Nat} {x y : Float32} (h : Opposite a x y) (hl : a + l.length * b ≤ 2 ^ 24) :
    Opposite (a + l.length * b) (l.foldl (fun sum k => sum + t k) x)
      (l.foldl (fun sum k => sum + u k) y) :=
  foldl_related (fun k h hab => h.add (ht k) hab) l h hl

/-- Opposite numbers differ in their sign only, except that they are both the positive zero. -/
theorem Opposite.eq_zero_or_neg {b : Nat} {x y : Float32} (hb : b ≤ 2 ^ 24) (h : Opposite b x y) :
    x = 0 ∧ y = 0 ∨ units x ≠ 0 ∧ y = -x := by
  by_cases h0 : units x = 0
  · -- Units do not tell the zeros apart, but ordinary numbers leave out the negative one.
    left
    rw [← h.left.ofUnits_units, ← h.right.ofUnits_units, h.units_eq, h0]
    exact ⟨ofUnits_zero, ofUnits_zero⟩
  · right
    refine ⟨h0, ?_⟩
    calc y = ofUnits (-units x) := by rw [← h.units_eq, h.right.ofUnits_units]
      _ = -ofUnits (units x) := ofUnits_neg (inRange_of_le hb h.within.le) h0
      _ = -x := by rw [h.left.ofUnits_units]

/-! ## The sides exchanged -/

namespace Men

variable (m : Men)

theorem light_exchange (side : Side) : m.exchange.light side = m.light side.other := by
  simp only [light, exchange, Bitboard.flip_eq_zero, ← Bitboard.flip_or, Bitboard.count_flip]

theorem phase_exchange : m.exchange.phase = m.phase := by
  simp only [phase, light_exchange, Side.other, Bool.and_comm]

/-- The terms of a position and of its exchange are opposite. -/
theorem opposite_term (kind : Kind) (phase : Phase) :
    Opposite 128 (m.term kind phase) (m.exchange.term kind phase) := by
  obtain ⟨ho, hw⟩ := within_dot (m .own kind) kind phase
  obtain ⟨ho', hw'⟩ := within_dot (m .opponent kind).flip kind phase
  -- The opponent's set is turned upside down twice, so the two sums only change their places.
  have hex : m.exchange.term kind phase =
      dot (m .opponent kind).flip (.ofKind kind phase) -
        dot (m .own kind) (.ofKind kind phase) := by
    simp only [term, exchange, Side.other, Bitboard.flip_flip]
  rw [hex]
  exact opposite_sub ho ho' hw hw' (by decide)

theorem opposite_score : Opposite 768 m.score m.exchange.score := by
  have h0 : Opposite 0 0 0 := ⟨ordinary_zero, ordinary_zero, within_zero, by decide +kernel⟩
  unfold score
  rw [phase_exchange]
  exact Opposite.foldl (fun k => m.opposite_term k m.phase) Kind.all h0 (by decide)

end Men

/-- The scores of a position seen from the two sides: each is the negated other. A score that is
not zero changes its sign bit and no other bit; of a zero score both are the positive zero. -/
structure NegatedScore (q q' : Float32) : Prop where
  isFinite : q.isFinite = true ∧ q'.isFinite = true
  eq_neg : (q' == -q) = true
  zero : (q == 0) = true → q.toBits = 0 ∧ q'.toBits = 0
  nonzero : (q == 0) = false → q' = -q ∧ q'.toBits = q.toBits ^^^ 0x80000000

theorem Opposite.negatedScore {b : Nat} {x y : Float32} (hb : b ≤ 2 ^ 24) (h : Opposite b x y) :
    NegatedScore x y := by
  have hfin := h.left.isFinite
  have hzero : (x == 0) = true ↔ units x = 0 := by
    rw [beq_iff hfin ordinary_zero.isFinite, units_zero]
  constructor
  case isFinite => exact ⟨hfin, h.right.isFinite⟩
  case eq_neg =>
    rw [beq_iff h.right.isFinite (by rw [isFinite_neg]; exact hfin), units_neg, h.units_eq]
  case zero =>
    intro h0
    rcases h.eq_zero_or_neg hb with ⟨hx, hy⟩ | ⟨hne, -⟩
    · rw [hx, hy]
      decide +kernel
    · exact absurd (hzero.mp h0) hne
  case nonzero =>
    intro h0
    rcases h.eq_zero_or_neg hb with ⟨hx, -⟩ | ⟨-, hy⟩
    · have : (x == 0) = true := hzero.mpr (by rw [hx, units_zero])
      rw [h0] at this
      cases this
    · rw [hy]
      exact ⟨rfl, toBits_neg (isNaN_of_isFinite hfin)⟩

/-- The score of a position seen from the other side is the negated score, whatever the masks and
the numbers of its planes. -/
theorem score_exchangeSides {ps : Planes} (h : Planes.pieceCount ≤ ps.length) :
    ∃ qs q q', ps.exchangeSides = .ok qs ∧ ps.score = .ok q ∧ qs.score = .ok q' ∧
      NegatedScore q q' := by
  obtain ⟨qs, hqs, hlen, hmen⟩ := Planes.men_exchangeSides h
  refine ⟨qs, _, _, hqs, Planes.score_eq h, Planes.score_eq hlen, ?_⟩
  rw [hmen]
  exact ps.men.opposite_score.negatedScore (by decide)

theorem score_exchangeSides_full :
    Planes.pieceCount ≤ (Planes.ofMasks (fun _ => Bitboard.full) (fun _ => 0)).length ∧
      ∃ qs q q', (Planes.ofMasks (fun _ => Bitboard.full) (fun _ => 0)).exchangeSides = .ok qs ∧
        (Planes.ofMasks (fun _ => Bitboard.full) (fun _ => 0)).score = .ok q ∧
        qs.score = .ok q' ∧ NegatedScore q q' :=
  ⟨by decide, score_exchangeSides (by decide)⟩

end PieceSquare
