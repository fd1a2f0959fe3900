import PieceSquare.Encoding
import PieceSquare.Proofs.Planes.Sides

set_option autoImplicit false

/-! # What the planes of a board show

The piece planes of a board show its men as the side to move sees them (`Board.shown`). A square of
the board is seen in its place by White and on the reversed rank by Black (`Board.view`), so that a
piece plane marks a square if a man of its side and kind stands on the square seen there
(`Board.contains_shown`).

Behind the piece planes the side to move matters twice: the castling planes show the own rights
before the opponent's, and plane 108 tells whether Black is to move. `Board.front` are the planes
before that one. Each plane is drawn once, in its place, so that the planes of a board are those before
plane 108, this one, and those behind it (`Board.planes_eq`).
-/

namespace PieceSquare

/-- The formats in which boards can be drawn. -/
def supportedFormats : List InputFormat := [.classical112, .classical112WithCastlingPlane]

theorem mem_supportedFormats_iff {f : InputFormat} :
    f ∈ supportedFormats ↔ ∃ layout, f.castlingLayout? = some layout := by
  constructor
  · intro h
    simp only [supportedFormats, List.mem_cons, List.not_mem_nil, or_false] at h
    rcases h with rfl | rfl
    · exact ⟨.flags, rfl⟩
    · exact ⟨.rooks, rfl⟩
  · rintro ⟨layout, h⟩
    cases f <;> first | decide | cases h

theorem Color.eq_or_eq_other (d c : Color) : c = d ∨ c = d.other := by
  cases c <;> cases d <;> decide

namespace Board

/-- The colour of a side: the own side is the side to move. -/
def colorOf (b : Board) : Side → Color
  | .own => b.turn
  | .opponent => b.turn.other

/-- The square where the side to move sees a square. -/
def view (b : Board) (s : Square) : Square :=
  match b.turn with
  | .white => s
  | .black => s.flip

/-- The men of a board as the side to move sees them. -/
def shown (b : Board) : Men := fun side kind => b.oriented (b.pieces (b.colorOf side) kind)

/-- A filled plane if a condition holds, an empty one otherwise. -/
def flagPlane (condition : Bool) : Plane := if condition then .filled 1 else .empty

/-- The planes of the castling rights. -/
def castlingPlanes (b : Board) : CastlingLayout → Planes
  | .flags =>
    let own := b.rights b.turn
    let opponent := b.rights b.turn.other
    [flagPlane own.long.isSome, flagPlane own.short.isSome, flagPlane opponent.long.isSome,
      flagPlane opponent.short.isSome]
  | .rooks =>
    let own := b.rights b.turn
    let opponent := b.rights b.turn.other
    [.ofMask (rookSquare own.long .one ||| rookSquare opponent.long .eight),
      .ofMask (rookSquare own.short .one ||| rookSquare opponent.short .eight), .empty, .empty]

/-- The planes before plane 108. -/
def front (b : Board) (layout : CastlingLayout) : Planes :=
  .ofSides (fun side kind => .ofMask (b.shown side kind))
    (List.replicate 92 .empty ++ b.castlingPlanes layout)

/-- Plane 108, which tells whether Black is to move. -/
def turnPlane (b : Board) : Plane := flagPlane (b.turn == .black)

/-- The planes behind plane 108. -/
def back (b : Board) : Planes := [.filled (Float32.ofNat b.halfmoves.val), .empty, .filled 1]

variable (b : Board)

/-! ## Squares as they are seen -/

@[simp] theorem view_view (s : Square) : b.view (b.view s) = s := by
  unfold view
  cases b.turn with
  | white => rfl
  | black => exact s.flip_flip

theorem view_flip (s : Square) : b.view s.flip = (b.view s).flip := by
  unfold view
  cases b.turn <;> rfl

theorem contains_oriented (squares : Bitboard) (s : Square) :
    (b.oriented squares).contains s = squares.contains (b.view s) := by
  unfold oriented view
  cases b.turn with
  | white => rfl
  | black => exact squares.contains_flip s

theorem contains_pieces (c : Color) (kind : Kind) (s : Square) :
    (b.pieces c kind).contains s = decide (b.men.man? s = some ⟨c, kind⟩) :=
  Bitboard.contains_ofPred _ s

theorem contains_shown (side : Side) (kind : Kind) (s : Square) :
    (b.shown side kind).contains s =
      decide (b.men.man? (b.view s) = some ⟨b.colorOf side, kind⟩) := by
  rw [shown, contains_oriented, contains_pieces]

/-- Each colour is the colour of one of the sides. -/
theorem exists_colorOf (c : Color) : ∃ side, b.colorOf side = c := by
  rcases Color.eq_or_eq_other b.turn c with rfl | rfl
  · exact ⟨.own, rfl⟩
  · exact ⟨.opponent, rfl⟩

/-! ## The list of planes -/

variable (layout : CastlingLayout)

theorem length_castlingPlanes : (b.castlingPlanes layout).length = 4 := by
  cases layout <;> rfl

theorem length_front : (b.front layout).length = 108 := by
  rw [front, Planes.length_ofSides, List.length_append, List.length_replicate,
    length_castlingPlanes]
  rfl

/-- The men are drawn on the first twelve planes. -/
theorem foldl_drawKind : Kind.all.foldl b.drawKind (List.replicate Planes.inputCount .empty) =
    .ofSides (fun side kind => .ofMask (b.shown side kind)) (List.replicate 100 .empty) := rfl

theorem drawFlags_ofSides (f : Side → Kind → Plane) (long short long' short' : Option File) :
    drawFlags [long, short, long', short'] (.ofSides f (List.replicate 100 .empty)) =
      .ofSides f (List.replicate 92 .empty ++ ([flagPlane long.isSome, flagPlane short.isSome,
        flagPlane long'.isSome, flagPlane short'.isSome] ++ List.replicate 4 .empty)) := by
  cases long <;> cases short <;> cases long' <;> cases short' <;> rfl

/-- The rights are drawn on four of the planes behind. -/
theorem drawCastling_ofSides (f : Side → Kind → Plane) :
    b.drawCastling layout (.ofSides f (List.replicate 100 .empty)) =
      .ofSides f (List.replicate 92 .empty ++
        (b.castlingPlanes layout ++ List.replicate 4 .empty)) := by
  cases layout with
  | flags => exact drawFlags_ofSides f _ _ _ _
  | rooks => rfl

theorem set_front (rest : Planes) (i : Nat) (p : Plane) :
    (b.front layout ++ rest).set (108 + i) p = b.front layout ++ rest.set i p := by
  rw [List.set_append_right _ _ (by rw [length_front]; omega), length_front,
    Nat.add_sub_cancel_left]

theorem planes_eq : b.planes layout = b.front layout ++ b.turnPlane :: b.back := by
  have hdrawn : b.drawCastling layout (Kind.all.foldl b.drawKind
      (List.replicate Planes.inputCount .empty)) =
        b.front layout ++ [.empty, .empty, .empty, .empty] := by
    rw [foldl_drawKind, drawCastling_ofSides, front, Planes.ofSides, Planes.ofSides]
    simp only [List.append_assoc]
    rfl
  unfold planes
  dsimp only
  rw [hdrawn]
  -- Plane 108 is drawn for Black only; for White it stays empty, as it was at first.
  by_cases hturn : b.turn = .black
  · have hplane : b.turnPlane = .filled 1 := by
      rw [turnPlane, hturn]
      rfl
    rw [if_pos hturn, hplane]
    show (((b.front layout ++ _).set (108 + 0) _).set (108 + 1) _).set (108 + 3) _ = _
    rw [set_front, set_front, set_front]
    rfl
  · have hplane : b.turnPlane = .empty := by
      rw [turnPlane, beq_false_of_ne hturn]
      rfl
    rw [if_neg hturn, hplane]
    show ((b.front layout ++ _).set (108 + 1) _).set (108 + 3) _ = _
    rw [set_front, set_front]
    rfl

theorem length_planes : (b.planes layout).length = 112 := by
  rw [planes_eq, List.length_append, length_front]
  rfl

theorem getElem?_turnPlane : (b.planes layout)[108]? = some b.turnPlane := by
  rw [planes_eq, List.getElem?_append_right (by rw [length_front]), length_front]
  rfl

/-- The piece planes come first. -/
theorem planes_eq_ofSides : ∃ rest, b.planes layout =
    Planes.ofSides (fun side kind => .ofMask (b.shown side kind)) rest := by
  rw [planes_eq, front, Planes.ofSides, List.append_assoc]
  exact ⟨_, rfl⟩

theorem men_planes : (b.planes layout).men = b.shown := by
  obtain ⟨rest, h⟩ := b.planes_eq_ofSides layout
  funext side kind
  rw [h, Planes.men, Planes.plane_ofSides]
  rfl

theorem score_planes : (b.planes layout).score = .ok b.shown.score := by
  rw [Planes.score_eq (by rw [length_planes]; decide), men_planes]

end Board

theorem contains_rookSquare (right : Option File) (r : Rank) (s : Square) :
    (Board.rookSquare right r).contains s = decide (right = some s.file ∧ r = s.rank) := by
  cases right with
  | none =>
      rw [Board.rookSquare, Bitboard.contains_zero]
      simp
  | some f =>
      rw [Board.rookSquare, Bitboard.contains_single]
      refine decide_eq_decide.mpr ⟨?_, ?_⟩
      · rintro rfl
        rw [Square.file_of, Square.rank_of]
        exact ⟨rfl, rfl⟩
      · rintro ⟨hf, rfl⟩
        cases hf
        exact s.of_file_rank

theorem encode_eq {b : Board} {f : InputFormat} {layout : CastlingLayout}
    (h : f.castlingLayout? = some layout) : b.encode f = .ok (b.planes layout) := by
  rw [Board.encode, h]

end PieceSquare
