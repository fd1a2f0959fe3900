import PieceSquare.Board.Attack

set_option autoImplicit false

/-! # Legal moves

`Board.legalMoves` lists the legal moves of the side to move in a fixed order: pawns first, then
knights, bishops, rooks, queens and the king. Among the men of one kind those that are free come
before those that are pinned to their king, each group from the lowest square to the highest. The
targets of one man go from the lowest square to the highest, and a promotion gives four moves, to
knight, bishop, rook and queen. En passant captures close the moves of the pawns.

A king in check restricts all other men to capturing the checking man or standing in its way; two
checking men leave only moves of the king. Castling is written as the king's move onto the square
of its own rook.
-/

namespace PieceSquare

/-- A move from one square to another. Castling goes to the square of the rook. -/
structure Move where
  /-- Where the man comes from. -/
  source : Square
  /-- Where it goes. -/
  target : Square
  /-- What a pawn becomes on the last rank. -/
  promotion : Option Kind
deriving DecidableEq

/-- The kinds that a pawn may become. -/
def Kind.promotions : List Kind := [.knight, .bishop, .rook, .queen]

namespace Board

/-! ## Where a man may go, checks and pins aside -/

/-- The squares that a man other than a pawn attacks. -/
def reach (men : Placement) (k : Kind) (s : Square) : Bitboard :=
  match k with
  | .pawn => 0
  | .knight => .ofSquares (Step.leaps.filterMap (Square.step? s))
  | .king => .ofSquares (Step.around.filterMap (Square.step? s))
  | k => .ofSquares ((Step.around.filter k.slides).flatMap fun d => men.visible (s.ray d))

/-- The squares to which a pawn may advance: one step, and two from the pawns' first rank. -/
def pawnAdvances (men : Placement) (c : Color) (s : Square) : List Square :=
  let free (from? : Option Square) : Option Square :=
    from?.bind fun s => (Square.step? s (Step.ahead c)).filter men.isEmptyAt
  let one := free (some s)
  let two := if s.rank = c.ownRank .two then free one else none
  one.toList ++ two.toList

/-- The squares on which a pawn may capture a man. -/
def pawnTakes (men : Placement) (c : Color) (s : Square) : List Square :=
  ((Step.pawnCaptures c).filterMap (Square.step? s)).filter fun t =>
    decide ((men.man? t).map (·.color) = some c.other)

/-- The squares to which a man may go, captures en passant and castling aside. -/
def targets (men : Placement) (m : Man) (s : Square) : Bitboard :=
  match m.kind with
  | .pawn => .ofSquares (pawnAdvances men m.color s ++ pawnTakes men m.color s)
  | k => reach men k s &&& ~~~ men.squaresOfColor m.color

/-- The moves to a target: four for a pawn that reaches its last rank. -/
def movesTo (k : Kind) (c : Color) (s t : Square) : List Move :=
  if k = .pawn ∧ t.rank = c.other.backRank then
    Kind.promotions.map fun p => ⟨s, t, some p⟩
  else
    [⟨s, t, none⟩]

/-- The moves of a man, restricted to a set of targets. -/
def movesWithin (men : Placement) (m : Man) (allowed : Bitboard) (s : Square) : List Move :=
  (targets men m s &&& allowed).squares.flatMap (movesTo m.kind m.color s)

/-! ## Captures en passant -/

/-- Whether the king is safe from sliding pieces after a capture en passant. -/
def enPassantSafe (men : Placement) (c : Color) (source target taken : Square) : Bool :=
  let after : Placement := ((men.put source none).put taken none).put target (men.man? source)
  match after.king? c with
  | none => false
  | some k => (after.sliders c.other k).isEmpty

/-- The captures en passant. They are checked by looking at the board after them. -/
def enPassantMoves (b : Board) : List Move :=
  match b.enPassantSquare, b.enPassant with
  | some target, some f =>
    let taken := Square.of f (b.turn.other.ownRank .four)
    let sources := Bitboard.ofSquares (b.men.reachedBy target
      (Step.pawnCaptures b.turn.other) ⟨b.turn, .pawn⟩)
    (sources.squares.filter fun s => enPassantSafe b.men b.turn s target taken).map fun s =>
      ⟨s, target, none⟩
  | _, _ => []

/-! ## The king -/

/-- The square of the rook if the king may castle with it. The squares between king and rook and
those up to where the two arrive must be empty, the king passes through no attacked square, and
the rook is not pinned. -/
def castlingTarget (b : Board) (king : Square) (pinned : List Square) (right : Option File)
    (kingFile rookFile : File) : List Square :=
  match right with
  | none => []
  | some f =>
    let rook := Square.of f b.turn.backRank
    let kingTo := Square.of kingFile b.turn.backRank
    let rookTo := Square.of rookFile b.turn.backRank
    let path := kingTo :: king.between kingTo
    let crossed := rookTo :: (path ++ king.between rook)
    let bare : Placement := b.men.put king none
    if !pinned.contains rook &&
        (crossed.all fun s => s == king || s == rook || b.men.isEmptyAt s) &&
        (path.all fun s => !bare.isAttacked b.turn.other s) then
      [rook]
    else
      []

/-- The moves of the king. Its targets are tested with the king taken off the board. -/
def kingMoves (b : Board) (king : Square) (inCheck : Bool) (pinned : List Square) : List Move :=
  let bare : Placement := b.men.put king none
  let steps := (targets b.men ⟨b.turn, .king⟩ king).squares.filter fun s =>
    !bare.isAttacked b.turn.other s
  let r := b.rights b.turn
  let castles :=
    if inCheck then []
    else castlingTarget b king pinned r.short .g .f ++ castlingTarget b king pinned r.long .c .d
  (Bitboard.ofSquares (steps ++ castles)).squares.map fun t => ⟨king, t, none⟩

/-! ## All moves -/

/-- The squares on which men other than the king may arrive: all, unless the king is in check. -/
def checkMask (king : Square) : List Square → Bitboard
  | [] => .full
  | c :: _ => .ofSquares (c :: king.between c)

/-- The moves of the men of one kind other than the king, the free ones first. A pinned man stays
on its line, and it cannot move at all while the king is in check. -/
def movesOfKind (b : Board) (allowed : Bitboard) (inCheck : Bool)
    (pins : List (Square × List Square)) (k : Kind) : List Move :=
  let m : Man := ⟨b.turn, k⟩
  let all := (b.pieces b.turn k).squares
  let line (s : Square) : Option (List Square) := pins.lookup s
  let free := (all.filter fun s => (line s).isNone).flatMap (movesWithin b.men m allowed)
  let pinned := all.flatMap fun s =>
    match line s with
    | none => []
    | some l => if inCheck then [] else movesWithin b.men m (allowed &&& .ofSquares l) s
  free ++ pinned

/-- The legal moves of the side to move. -/
def legalMoves (b : Board) : List Move :=
  match b.men.king? b.turn with
  | none => []
  | some king =>
    let checkers := b.men.checkers b.turn
    let pins := b.men.pins b.turn
    let inCheck := !checkers.isEmpty
    let ofKing := kingMoves b king inCheck (pins.map (·.1))
    if 2 ≤ checkers.length then
      ofKing
    else
      let ofKind := movesOfKind b (checkMask king checkers) inCheck pins
      ofKind .pawn ++ enPassantMoves b ++ ofKind .knight ++ ofKind .bishop ++ ofKind .rook ++
        ofKind .queen ++ ofKing

end Board

end PieceSquare
