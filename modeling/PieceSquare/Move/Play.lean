import PieceSquare.Move

set_option autoImplicit false

/-! # Playing a move

`Board.play` gives the board after a move that is legal on it: the men after the move, the rights
and the en passant file that remain, the clocks, and the other side to move.
-/

namespace PieceSquare.Board

/-- Whether a move is castling: the king goes to the square of one of its own men. -/
def isCastling (b : Board) (m : Move) : Bool :=
  decide ((b.men.man? m.target).map (·.color) = some b.turn)

/-- The men after a move. -/
def menAfter (b : Board) (m : Move) : Placement :=
  let lifted := b.men.put m.source none
  if b.isCastling m then
    let toward (kingFile rookFile : File) : Placement :=
      ((lifted.put m.target none).put (Square.of kingFile b.turn.backRank)
        (some ⟨b.turn, .king⟩)).put (Square.of rookFile b.turn.backRank) (some ⟨b.turn, .rook⟩)
    if m.source.file < m.target.file then toward .g .f else toward .c .d
  else
    let moved := b.men.man? m.source
    let arriving := match m.promotion with
      | none => moved
      | some k => some ⟨b.turn, k⟩
    let placed := lifted.put m.target arriving
    if moved = some ⟨b.turn, .pawn⟩ ∧ b.enPassantSquare = some m.target then
      placed.put (Square.of m.target.file (b.turn.other.ownRank .four)) none
    else
      placed

/-- The rights of a player without those of the rook on a square. -/
def rightsWithout (r : Rights) (c : Color) (s : Square) : Rights :=
  if s.rank = c.backRank then
    ⟨r.long.filter (· != s.file), r.short.filter (· != s.file)⟩
  else
    r

/-- The rights of the side that moves: none after a move of the king, and none with a rook that
leaves its square. -/
def ownRightsAfter (b : Board) (m : Move) : Rights :=
  if b.men.man? m.source = some ⟨b.turn, .king⟩ then .none
  else rightsWithout (b.rights b.turn) b.turn m.source

/-- The rights of the other side: none with a rook that has been captured. -/
def otherRightsAfter (b : Board) (m : Move) : Rights :=
  rightsWithout (b.rights b.turn.other) b.turn.other m.target

/-- The file on which the move has advanced a pawn by two squares. -/
def enPassantAfter (b : Board) (m : Move) : Option File :=
  if b.men.man? m.source = some ⟨b.turn, .pawn⟩ ∧ m.source.rank = b.turn.ownRank .two ∧
      m.target.rank = b.turn.ownRank .four then
    some m.target.file
  else
    none

/-- Whether the move is of a pawn or takes a man. -/
def isIrreversible (b : Board) (m : Move) : Bool :=
  decide (b.men.man? m.source = some ⟨b.turn, .pawn⟩) ||
    decide ((b.men.man? m.target).map (·.color) = some b.turn.other)

/-- The board after a legal move. -/
def play (b : Board) (m : Move) : Board :=
  let moved : Board := {
    b with
    men := b.menAfter m
    turn := b.turn.other
    enPassant := b.enPassantAfter m
    halfmoves := if b.isIrreversible m then .zero else b.halfmoves.tick
    moveNumber := if b.turn = .black then min (b.moveNumber + 1) 65535 else b.moveNumber }
  (moved.setRights b.turn (b.ownRightsAfter m)).setRights b.turn.other (b.otherRightsAfter m)

end PieceSquare.Board
