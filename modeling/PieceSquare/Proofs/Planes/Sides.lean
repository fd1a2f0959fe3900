import PieceSquare.Eval.Score
import PieceSquare.Proofs.Bitboard
import PieceSquare.Proofs.Fallible

set_option autoImplicit false

/-! # The two sides of a list of planes

What an evaluation reads of a list of planes are twelve sets of squares, one for each side and kind
of piece. `Men` are these sets, and the phase, the terms and the score of a list of planes are those
of its men (`Planes.score_eq`): no number on a plane and no plane behind the first twelve matters.
Every list of at least twelve planes is `Planes.ofSides` of its own planes, so that a lookup in it
can be computed.
-/

namespace PieceSquare

/-- The side across the board. -/
def Side.other : Side → Side
  | .own => .opponent
  | .opponent => .own

theorem Kind.exists_index {i : Nat} (h : i < 6) : ∃ k : Kind, k.index = i :=
  match i, h with
  | 0, _ => ⟨.pawn, rfl⟩
  | 1, _ => ⟨.knight, rfl⟩
  | 2, _ => ⟨.bishop, rfl⟩
  | 3, _ => ⟨.rook, rfl⟩
  | 4, _ => ⟨.queen, rfl⟩
  | 5, _ => ⟨.king, rfl⟩

/-- The squares of the pieces of each side and kind. -/
abbrev Men := Side → Kind → Bitboard

namespace Men

/-- Whether a side has no queen, or no rook and at most one minor piece. -/
def light (m : Men) (side : Side) : Bool :=
  decide (m side .queen = 0) ||
    (decide (m side .rook = 0) && decide ((m side .knight ||| m side .bishop).count ≤ 1))

/-- The phase of a position: the endgame when both sides are light. -/
def phase (m : Men) : Phase :=
  if m.light .own && m.light .opponent then .endgame else .middlegame

/-- The own weights of one kind of piece less the opponent's. -/
def term (m : Men) (kind : Kind) (phase : Phase) : Float32 :=
  dot (m .own kind) (.ofKind kind phase) - dot (m .opponent kind).flip (.ofKind kind phase)

/-- The score of a position. -/
def score (m : Men) : Float32 := Kind.all.foldl (fun sum k => sum + m.term k m.phase) 0

/-- The men seen from the other side of the board. -/
def exchange (m : Men) : Men := fun side kind => (m side.other kind).flip

end Men

namespace Planes

/-- The planes of the two sides in the order in which a list holds them, with further planes. -/
def ofSides (p : Side → Kind → Plane) (rest : Planes) : Planes :=
  Kind.all.map (p .own) ++ Kind.all.map (p .opponent) ++ rest

/-- The plane of a list that shows the pieces of one side and kind. -/
def plane (ps : Planes) (side : Side) (kind : Kind) : Plane := ps.getD (slot side kind) .empty

/-- The squares that the piece planes of a list show. -/
def men (ps : Planes) : Men := fun side kind => (ps.plane side kind).mask

theorem slot_own (kind : Kind) : slot .own kind = kind.index := Nat.zero_add _

theorem slot_lt (side : Side) (kind : Kind) : slot side kind < pieceCount := by
  cases side <;> cases kind <;> decide

/-! ## Single planes -/

section

variable {ps : Planes} {side : Side} {kind : Kind}

theorem mask_of_lt (h : slot side kind < ps.length) :
    ps.mask side kind = .ok (ps.men side kind) := by
  rw [mask, entry_of_lt h, men, plane, List.getD_eq_getElem _ _ h]
  rfl

theorem mask_of_le (h : ps.length ≤ slot side kind) :
    ps.mask side kind = .error (.outOfRange ps.length (slot side kind)) := by
  rw [mask, entry_of_le h]
  rfl

/-- Whether a side is light is known when its queen's plane is there: the other planes that are
looked at come before it. -/
theorem isLight_of_lt (h : slot side .queen < ps.length) :
    ps.isLight side = .ok (ps.men.light side) := by
  have hmask (kind : Kind) (hkind : kind.index ≤ Kind.queen.index) :
      ps.mask side kind = .ok (ps.men side kind) :=
    mask_of_lt (lt_of_le_of_lt (Nat.add_le_add_left hkind _) h)
  rw [isLight, Men.light, hmask .queen (by decide), hmask .rook (by decide),
    hmask .knight (by decide), hmask .bishop (by decide)]
  simp only [ok_bind]
  by_cases hq : ps.men side .queen = 0
  · simp only [hq, ↓reduceIte, decide_true, Bool.true_or]
    rfl
  · by_cases hr : ps.men side .rook = 0
    · simp only [hq, hr, ↓reduceIte, decide_false, decide_true, Bool.false_or, Bool.true_and]
      rfl
    · simp only [hq, hr, ↓reduceIte, decide_false, Bool.false_or, Bool.false_and]
      rfl

end

/-! ## Twelve planes -/

theorem eq_ofSides {ps : Planes} (h : pieceCount ≤ ps.length) :
    ps = ofSides ps.plane (ps.drop pieceCount) := by
  obtain ⟨front, rest, rfl, hlen⟩ : ∃ front rest, ps = front ++ rest ∧ front.length = pieceCount :=
    ⟨ps.take pieceCount, ps.drop pieceCount, (List.take_append_drop _ _).symm,
      List.length_take_of_le h⟩
  match front, hlen with
  | [_, _, _, _, _, _, _, _, _, _, _, _], _ => rfl

section

variable (p : Side → Kind → Plane) (rest : Planes)

theorem length_ofSides : (ofSides p rest).length = pieceCount + rest.length := by
  show (Kind.all.map (p .own) ++ Kind.all.map (p .opponent) ++ rest).length = _
  simp [Kind.all, pieceCount]
  omega

theorem getElem?_ofSides (side : Side) (kind : Kind) :
    (ofSides p rest)[slot side kind]? = some (p side kind) := by
  cases side <;> cases kind <;> rfl

/-- The planes behind the piece planes. -/
theorem getElem?_ofSides_add (i : Nat) : (ofSides p rest)[pieceCount + i]? = rest[i]? := by
  rw [← List.getElem?_drop]
  rfl

@[simp] theorem plane_ofSides (side : Side) (kind : Kind) :
    (ofSides p rest).plane side kind = p side kind := by
  cases side <;> cases kind <;> rfl

theorem ofSides_inj {p' : Side → Kind → Plane} {rest' : Planes} :
    ofSides p rest = ofSides p' rest' ↔ p = p' ∧ rest = rest' := by
  constructor
  · intro h
    refine ⟨funext fun side => funext fun kind => ?_, congrArg (List.drop pieceCount) h⟩
    rw [← plane_ofSides p rest, h, plane_ofSides]
  · rintro ⟨rfl, rfl⟩
    rfl

@[simp] theorem mask_ofSides (side : Side) (kind : Kind) :
    (ofSides p rest).mask side kind = .ok (p side kind).mask := by
  cases side <;> cases kind <;> rfl

/-- The sides change places, and each of their planes is turned upside down. -/
theorem exchangeSides_ofSides : (ofSides p rest).exchangeSides =
    .ok (ofSides (fun side kind => (p side.other kind).flip) rest) := rfl

theorem isLight_ofSides (side : Side) :
    (ofSides p rest).isLight side = .ok ((ofSides p rest).men.light side) := by
  refine isLight_of_lt (lt_of_lt_of_le (slot_lt side .queen) ?_)
  rw [length_ofSides]
  exact Nat.le_add_right _ _

theorem phase_ofSides : (ofSides p rest).phase = .ok (ofSides p rest).men.phase := by
  simp only [Planes.phase, Men.phase, isLight_ofSides, ok_bind]
  cases (ofSides p rest).men.light .own <;> cases (ofSides p rest).men.light .opponent <;> rfl

theorem term_ofSides (kind : Kind) (phase : Phase) :
    (ofSides p rest).term kind phase = .ok ((ofSides p rest).men.term kind phase) := by
  simp only [Planes.term, Men.term, men, mask_ofSides, plane_ofSides, ok_bind]
  rfl

theorem score_ofSides : (ofSides p rest).score = .ok (ofSides p rest).men.score := by
  have hlen : ¬ (ofSides p rest).length < pieceCount := by
    rw [length_ofSides]
    omega
  have hstep : (fun (sum : Float32) kind => (do
      return sum + (← (ofSides p rest).term kind (ofSides p rest).men.phase) :
        Except Fault Float32)) =
      fun sum kind => pure (sum + (ofSides p rest).men.term kind (ofSides p rest).men.phase) := by
    funext sum kind
    rw [term_ofSides, ok_bind]
  rw [Planes.score, if_neg hlen, phase_ofSides, ok_bind, hstep, List.foldlM_pure]
  rfl

end

/-- Twelve planes have a score, which depends on the men alone. -/
theorem score_eq {ps : Planes} (h : pieceCount ≤ ps.length) : ps.score = .ok ps.men.score := by
  rw [eq_ofSides h]
  exact score_ofSides _ _

/-- Fewer planes have none. -/
theorem score_of_lt {ps : Planes} (h : ps.length < pieceCount) :
    ps.score = .error (.tooFewPlanes ps.length) := by
  rw [score, if_pos h]
  rfl

/-- Twelve planes have a phase, which depends on the men alone. -/
theorem phase_eq {ps : Planes} (h : pieceCount ≤ ps.length) : ps.phase = .ok ps.men.phase := by
  rw [eq_ofSides h]
  exact phase_ofSides _ _

/-- Twelve planes have a term for each kind, which depends on the men alone. -/
theorem term_eq {ps : Planes} (h : pieceCount ≤ ps.length) (kind : Kind) (phase : Phase) :
    ps.term kind phase = .ok (ps.men.term kind phase) := by
  rw [eq_ofSides h]
  exact term_ofSides _ _ _ _

theorem valueWith_eq (exp : Float32 → Float32) {ps : Planes} (h : pieceCount ≤ ps.length) :
    ps.valueWith exp = .ok (squashWith exp ps.men.score) := by
  rw [valueWith, score_eq h]
  rfl

/-- Twelve planes can be seen from the other side. -/
theorem exchangeSides_eq {ps : Planes} (h : pieceCount ≤ ps.length) : ps.exchangeSides =
    .ok (ofSides (fun side kind => (ps.plane side.other kind).flip) (ps.drop pieceCount)) := by
  conv_lhs => rw [eq_ofSides h]
  exact exchangeSides_ofSides _ _

/-- What is seen from the other side are the men seen from there. -/
theorem men_exchangeSides {ps : Planes} (h : pieceCount ≤ ps.length) :
    ∃ qs, ps.exchangeSides = .ok qs ∧ pieceCount ≤ qs.length ∧ qs.men = ps.men.exchange := by
  refine ⟨_, exchangeSides_eq h, ?_, ?_⟩
  · rw [length_ofSides]
    omega
  · funext side kind
    simp only [men, plane_ofSides]
    rfl

end Planes

end PieceSquare
