import PieceSquare.Proofs.Encoding.Layout

set_option autoImplicit false

/-! # Boards with an exchange of sides

Two changes of a board are seen in its planes in a simple way. When the players change places, with
their men, their rights and the move, the new side to move sees what the old one saw, and only plane
108 tells the boards apart. When only the side to move changes, the new one sees the men from the
other side of the board.

Both follow from where a square is seen: the two boards see each square on ranks that are reversed
to one another.
-/

namespace PieceSquare

/-- The man of the same kind and the other colour. -/
def Man.recolored (m : Man) : Man := ⟨m.color.other, m.kind⟩

theorem Man.recolored_eq_iff (m : Man) (c : Color) (kind : Kind) :
    m.recolored = ⟨c.other, kind⟩ ↔ m = ⟨c, kind⟩ := by
  obtain ⟨d, k⟩ := m
  cases c <;> cases d <;> simp [recolored, Color.other]

theorem Board.view_of_turn {b b' : Board} (h : b'.turn = b.turn.other) (s : Square) :
    b'.view s = (b.view s).flip := by
  unfold Board.view
  rw [h]
  cases b.turn with
  | white => rfl
  | black => exact s.flip_flip.symm

theorem Board.colorOf_of_turn {b b' : Board} (h : b'.turn = b.turn.other) (side : Side) :
    b'.colorOf side = (b.colorOf side).other := by
  cases side with
  | own => exact h
  | opponent => exact congrArg Color.other h

theorem Board.colorOf_other (b : Board) (side : Side) :
    b.colorOf side.other = (b.colorOf side).other := by
  cases side with
  | own => rfl
  | opponent => exact (Color.other_other _).symm

/-! ## The players exchanged -/

/-- The second board is the first one with the players exchanged: each man has the other colour
and stands on the reversed rank, the other side is to move, and each player has the rights of the
other. The clock is kept; nothing is said of the en passant file and the number of the move. -/
structure PlayersExchanged (b b' : Board) : Prop where
  men : ∀ s : Square, b'.men.man? s.flip = (b.men.man? s).map Man.recolored
  turn : b'.turn = b.turn.other
  rights : ∀ c : Color, b'.rights c.other = b.rights c
  halfmoves : b'.halfmoves = b.halfmoves

/-- The board with the players exchanged. -/
def Board.exchangePlayers (b : Board) : Board where
  men := Vector.ofFn fun (s : Square) => (b.men.man? s.flip).map Man.recolored
  turn := b.turn.other
  whiteRights := b.blackRights
  blackRights := b.whiteRights
  enPassant := b.enPassant
  halfmoves := b.halfmoves
  moveNumber := b.moveNumber

theorem Board.playersExchanged (b : Board) : PlayersExchanged b b.exchangePlayers where
  men := by
    intro s
    rw [Placement.man?, Board.exchangePlayers, Vector.get_ofFn, Square.flip_flip]
  turn := rfl
  rights := by
    intro c
    cases c <;> simp only [Board.exchangePlayers, Board.rights, Color.other]
  halfmoves := by
    simp only [Board.exchangePlayers]

namespace PlayersExchanged

variable {b b' : Board} (h : PlayersExchanged b b')

include h

/-- Both sides to move see the same men. -/
theorem shown_eq : b'.shown = b.shown := by
  funext side kind
  refine Bitboard.ext_contains fun s => ?_
  rw [Board.contains_shown, Board.contains_shown, Board.view_of_turn h.turn, h.men,
    Board.colorOf_of_turn h.turn]
  -- The square is turned twice and the man recoloured twice, by the board and by its side to move.
  cases b.men.man? (b.view s) with
  | none => rfl
  | some m => simp [Man.recolored_eq_iff]

theorem rights_turn : b'.rights b'.turn = b.rights b.turn := by
  rw [h.turn, h.rights]

theorem rights_other : b'.rights b'.turn.other = b.rights b.turn.other := by
  rw [h.turn, h.rights]

theorem castlingPlanes_eq (layout : CastlingLayout) :
    b'.castlingPlanes layout = b.castlingPlanes layout := by
  cases layout <;> simp only [Board.castlingPlanes, h.rights_turn, h.rights_other]

theorem front_eq (layout : CastlingLayout) : b'.front layout = b.front layout := by
  rw [Board.front, Board.front, h.shown_eq, h.castlingPlanes_eq]

theorem back_eq : b'.back = b.back := by
  rw [Board.back, Board.back, h.halfmoves]

/-- No plane changes but the one that shows the turn. -/
theorem planes_eq_set (layout : CastlingLayout) :
    b'.planes layout = (b.planes layout).set 108 b'.turnPlane := by
  rw [b.planes_eq, b'.planes_eq, h.front_eq, h.back_eq,
    List.set_append_right _ _ (by rw [Board.length_front]), Board.length_front]
  rfl

end PlayersExchanged

/-- The planes of two boards differ in plane 108 only, which is filled when Black is to move. The
boards get the same score, and the same value whatever the exponential. -/
structure AgreeButTurn (b b' : Board) (ps ps' : Planes) : Prop where
  length : ps.length = 112 ∧ ps'.length = 112
  getElem?_eq : ∀ i, i ≠ 108 → ps'[i]? = ps[i]?
  left : ps[108]? = some (if b.turn = .black then .filled 1 else .empty)
  right : ps'[108]? = some (if b'.turn = .black then .filled 1 else .empty)
  score : ∃ q, ps.score = .ok q ∧ ps'.score = .ok q ∧
    (∀ exp, ps.valueWith exp = .ok (squashWith exp q) ∧
      ps'.valueWith exp = .ok (squashWith exp q)) ∧
    ps.value = .ok (squash q) ∧ ps'.value = .ok (squash q)

theorem Board.turnPlane_eq (b : Board) :
    b.turnPlane = if b.turn = .black then .filled 1 else .empty := by
  cases h : b.turn <;> simp [turnPlane, flagPlane, h]

theorem valueWith_of_score {ps : Planes} {q : Float32} (h : ps.score = .ok q)
    (exp : Float32 → Float32) : ps.valueWith exp = .ok (squashWith exp q) := by
  rw [Planes.valueWith, h]
  rfl

theorem PlayersExchanged.agreeButTurn {b b' : Board} (h : PlayersExchanged b b')
    (layout : CastlingLayout) : AgreeButTurn b b' (b.planes layout) (b'.planes layout) := by
  have hq : (b.planes layout).score = .ok b.shown.score := b.score_planes layout
  have hq' : (b'.planes layout).score = .ok b.shown.score := by
    rw [b'.score_planes, h.shown_eq]
  constructor
  case length => exact ⟨b.length_planes layout, b'.length_planes layout⟩
  case getElem?_eq =>
    intro i hi
    rw [h.planes_eq_set, List.getElem?_set_ne (Ne.symm hi)]
  case left => rw [b.getElem?_turnPlane, b.turnPlane_eq]
  case right => rw [b'.getElem?_turnPlane, b'.turnPlane_eq]
  case score =>
    refine ⟨_, hq, hq', fun exp => ?_, valueWith_of_score hq _, valueWith_of_score hq' _⟩
    exact ⟨valueWith_of_score hq exp, valueWith_of_score hq' exp⟩

/-- A board and the board with the players exchanged are drawn alike, but for the turn. -/
theorem encode_playersExchanged {b b' : Board} (h : PlayersExchanged b b') {f : InputFormat}
    (hf : f ∈ supportedFormats) :
    ∃ ps ps', b.encode f = .ok ps ∧ b'.encode f = .ok ps' ∧ AgreeButTurn b b' ps ps' := by
  obtain ⟨layout, hl⟩ := mem_supportedFormats_iff.mp hf
  exact ⟨_, _, encode_eq hl, encode_eq hl, h.agreeButTurn layout⟩

/-- The board at the start of a game, but with Black to move, who has lost one of the rights. -/
def Board.blackFirst : Board :=
  { start with turn := .black, blackRights := ⟨some .a, none⟩ }

theorem encode_blackFirst_exchanged :
    PlayersExchanged .blackFirst Board.blackFirst.exchangePlayers ∧
      InputFormat.classical112WithCastlingPlane ∈ supportedFormats ∧
      ∃ ps ps', Board.blackFirst.encode .classical112WithCastlingPlane = .ok ps ∧
        Board.blackFirst.exchangePlayers.encode .classical112WithCastlingPlane = .ok ps' ∧
        AgreeButTurn .blackFirst Board.blackFirst.exchangePlayers ps ps' :=
  ⟨Board.playersExchanged _, by decide,
    encode_playersExchanged (Board.playersExchanged _) (by decide)⟩

/-! ## The turn passed -/

/-- When the other side is to move, the men are seen from the other side of the board. -/
theorem shown_of_turn {b b' : Board} (hmen : b'.men = b.men) (hturn : b'.turn = b.turn.other) :
    b'.shown = b.shown.exchange := by
  funext side kind
  refine Bitboard.ext_contains fun s => ?_
  have hex : (b.shown.exchange side kind).contains s =
      (b.shown side.other kind).contains s.flip := Bitboard.contains_flip _ s
  rw [hex, Board.contains_shown, Board.contains_shown, Board.view_of_turn hturn, hmen,
    Board.colorOf_of_turn hturn, Board.view_flip, Board.colorOf_other]

theorem take_ofSides (p : Side → Kind → Plane) (rest : Planes) :
    (Planes.ofSides p rest).take Planes.pieceCount = Planes.ofSides p [] := rfl

/-- When the other side is to move, whatever the rights, the clocks and the format, the piece planes
are those of the position seen from the other side of the board. -/
theorem take_encode_of_turn {b b' : Board} (hmen : b'.men = b.men)
    (hturn : b'.turn = b.turn.other) {f f' : InputFormat} (hf : f ∈ supportedFormats)
    (hf' : f' ∈ supportedFormats) :
    ∃ ps ps' qs, b.encode f = .ok ps ∧ b'.encode f' = .ok ps' ∧ ps.exchangeSides = .ok qs ∧
      (ps'.take Planes.pieceCount).length = Planes.pieceCount ∧
      ps'.take Planes.pieceCount = qs.take Planes.pieceCount := by
  obtain ⟨layout, hl⟩ := mem_supportedFormats_iff.mp hf
  obtain ⟨layout', hl'⟩ := mem_supportedFormats_iff.mp hf'
  obtain ⟨rest, hps⟩ := b.planes_eq_ofSides layout
  obtain ⟨rest', hps'⟩ := b'.planes_eq_ofSides layout'
  refine ⟨b.planes layout, b'.planes layout', _, encode_eq hl, encode_eq hl',
    by rw [hps]; exact Planes.exchangeSides_ofSides _ _, ?_, ?_⟩
  · rw [List.length_take, Board.length_planes]
    rfl
  · rw [hps', take_ofSides, take_ofSides, shown_of_turn hmen hturn]
    rfl

theorem take_encode_blackFirst :
    Board.blackFirst.men = Board.start.men ∧ Board.blackFirst.turn = Board.start.turn.other ∧
      InputFormat.classical112 ∈ supportedFormats ∧
      InputFormat.classical112WithCastlingPlane ∈ supportedFormats ∧
      ∃ ps ps' qs, Board.start.encode .classical112 = .ok ps ∧
        Board.blackFirst.encode .classical112WithCastlingPlane = .ok ps' ∧
        ps.exchangeSides = .ok qs ∧
        (ps'.take Planes.pieceCount).length = Planes.pieceCount ∧
        ps'.take Planes.pieceCount = qs.take Planes.pieceCount := by
  have hmen : Board.blackFirst.men = Board.start.men := by simp only [Board.blackFirst]
  have hturn : Board.blackFirst.turn = Board.start.turn.other := by decide
  have hf : InputFormat.classical112 ∈ supportedFormats := by decide
  have hf' : InputFormat.classical112WithCastlingPlane ∈ supportedFormats := by decide
  exact ⟨hmen, hturn, hf, hf', take_encode_of_turn hmen hturn hf hf'⟩

end PieceSquare
