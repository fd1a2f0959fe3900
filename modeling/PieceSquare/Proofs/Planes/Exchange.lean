import PieceSquare.Proofs.Eval.Antisymmetry

set_option autoImplicit false

/-! # Planes seen from the other side

Seen from the other side of the board, the two sides of a position have changed places and each of
their planes is upside down; nothing else changes (`SidesExchanged`). Looking from the other side
twice shows the position as it was. As the squares and the planes are only put in another order, no
plane gains or loses squares, two planes share a square if they did before, and the phase is the same.
-/

namespace PieceSquare

theorem Side.other_other (side : Side) : side.other.other = side := by cases side <;> rfl

/-- The second plane is the first one upside down. -/
structure Plane.UpsideDown (p q : Plane) : Prop where
  value : q.value = p.value
  contains : ∀ s : Square, q.mask.contains s = p.mask.contains s.flip
  count : q.mask.count = p.mask.count

theorem Plane.upsideDown_flip (p : Plane) : p.UpsideDown p.flip where
  value := rfl
  contains := p.mask.contains_flip
  count := p.mask.count_flip

namespace Planes

/-! ## Planes without a common square -/

/-- No square is shown on two of the piece planes. -/
def PairwiseDisjoint (ps : Planes) : Prop :=
  (ps.take pieceCount).Pairwise fun p q => p.mask &&& q.mask = 0

theorem flip_mask_and_eq_zero (p q : Plane) :
    p.flip.mask &&& q.flip.mask = 0 ↔ p.mask &&& q.mask = 0 := by
  show p.mask.flip &&& q.mask.flip = 0 ↔ _
  rw [← Bitboard.flip_and, Bitboard.flip_eq_zero]

section

variable (p : Side → Kind → Plane) (rest : Planes)

/-- The sides of a position as they are seen from the other side. -/
def across : Side → Kind → Plane := fun side kind => (p side.other kind).flip

theorem across_across : across (across p) = p := by
  funext side kind
  rw [across, across, Plane.flip_flip, Side.other_other]

/-- The piece planes only change their places, and each is turned upside down. -/
theorem perm_take_across : ((ofSides (across p) rest).take pieceCount).Perm
    (((ofSides p rest).take pieceCount).map Plane.flip) := by
  show (ofSides (across p) []).Perm ((ofSides p []).map Plane.flip)
  rw [ofSides, ofSides, List.append_nil, List.append_nil, List.map_append, List.map_map,
    List.map_map]
  exact List.perm_append_comm

theorem pairwiseDisjoint_across :
    (ofSides (across p) rest).PairwiseDisjoint ↔ (ofSides p rest).PairwiseDisjoint := by
  have hsymm {p q : Plane} (h : p.mask &&& q.mask = 0) : q.mask &&& p.mask = 0 := by
    rwa [BitVec.and_comm]
  unfold PairwiseDisjoint
  rw [List.Perm.pairwise_iff hsymm (perm_take_across p rest), List.pairwise_map]
  exact List.Pairwise.iff fun p q => flip_mask_and_eq_zero p q

theorem men_across : (ofSides (across p) rest).men = (ofSides p rest).men.exchange := by
  funext side kind
  simp only [men, plane_ofSides, Men.exchange]
  rfl

end

/-! ## The sides exchanged -/

/-- The second list shows the position of the first one from the other side of the board. -/
structure SidesExchanged (ps qs : Planes) : Prop where
  length : qs.length = ps.length
  further : ∀ i, 12 ≤ i → qs[i]? = ps[i]?
  own : ∀ kind : Kind, ∃ p q, ps[6 + kind.index]? = some p ∧ qs[kind.index]? = some q ∧
    p.UpsideDown q
  opponent : ∀ kind : Kind, ∃ p q, ps[kind.index]? = some p ∧ qs[6 + kind.index]? = some q ∧
    p.UpsideDown q
  back : qs.exchangeSides = .ok ps
  disjoint : qs.PairwiseDisjoint ↔ ps.PairwiseDisjoint
  phase : ∃ phase, ps.phase = .ok phase ∧ qs.phase = .ok phase

theorem sidesExchanged_ofSides (p : Side → Kind → Plane) (rest : Planes) :
    SidesExchanged (ofSides p rest) (ofSides (across p) rest) := by
  have hown (p : Side → Kind → Plane) (kind : Kind) :
      (ofSides p rest)[kind.index]? = some (p .own kind) := by
    rw [← slot_own, getElem?_ofSides]
  have hopponent (p : Side → Kind → Plane) (kind : Kind) :
      (ofSides p rest)[6 + kind.index]? = some (p .opponent kind) :=
    getElem?_ofSides p rest .opponent kind
  constructor
  case length => rw [length_ofSides, length_ofSides]
  case further =>
    intro i hi
    obtain ⟨j, rfl⟩ : ∃ j, i = pieceCount + j := Nat.exists_eq_add_of_le hi
    rw [getElem?_ofSides_add, getElem?_ofSides_add]
  case own =>
    exact fun kind => ⟨_, _, hopponent p kind, hown _ kind, (p .opponent kind).upsideDown_flip⟩
  case opponent =>
    exact fun kind => ⟨_, _, hown p kind, hopponent _ kind, (p .own kind).upsideDown_flip⟩
  case back =>
    show (ofSides (across p) rest).exchangeSides = _
    rw [exchangeSides_ofSides]
    exact congrArg (fun p => Except.ok (ofSides p rest)) (across_across p)
  case disjoint => exact pairwiseDisjoint_across p rest
  case phase =>
    refine ⟨_, phase_ofSides p rest, ?_⟩
    rw [phase_ofSides, men_across, Men.phase_exchange]

/-- Twelve planes or more can be seen from the other side of the board. -/
theorem exchangeSides_sidesExchanged {ps : Planes} (h : pieceCount ≤ ps.length) :
    ∃ qs, ps.exchangeSides = .ok qs ∧ SidesExchanged ps qs := by
  refine ⟨_, exchangeSides_eq h, ?_⟩
  have hexchanged := sidesExchanged_ofSides ps.plane (ps.drop pieceCount)
  rwa [← eq_ofSides h] at hexchanged

/-- A pawn on a2 against the queen on d8, a king on both sides, and a plane behind them. -/
def pawnAgainstQueen : Planes :=
  ofMasks
    (fun
      | .pawn => 0x100
      | .king => 0x10
      | _ => 0)
    (fun
      | .queen => 0x800000000000000
      | .king => 0x1000000000000000
      | _ => 0) ++ [.filled 3]

theorem exchangeSides_sidesExchanged_pawnAgainstQueen :
    pieceCount ≤ pawnAgainstQueen.length ∧
      ∃ qs, pawnAgainstQueen.exchangeSides = .ok qs ∧ SidesExchanged pawnAgainstQueen qs := by
  have h : pieceCount ≤ pawnAgainstQueen.length := by decide
  exact ⟨h, exchangeSides_sidesExchanged h⟩

end Planes

end PieceSquare
