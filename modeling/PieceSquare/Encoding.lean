import PieceSquare.Board.Fen
import PieceSquare.Format
import PieceSquare.Plane
import PieceSquare.Text.Blank

set_option autoImplicit false

/-! # Boards as planes

A board is drawn on 112 planes from the point of view of the side to move: when Black is to move,
every piece plane is turned upside down, so that the mover always plays up the board.

    0 to 11     the piece planes, own pieces first
    12 to 103   repetitions and seven earlier positions, all left empty
    104 to 107  castling rights
    108         filled when Black is to move
    109         filled with the clock of moves without a capture or pawn move
    110         empty
    111         filled

Two formats are supported. They differ in the castling planes only: either each right has a plane
that is filled when the right exists, or the rooks that may castle are marked on their squares.
-/

namespace PieceSquare

/-- The ways to draw castling rights. -/
inductive CastlingLayout where
  /-- A filled plane for each right. -/
  | flags
  /-- The squares of the rooks that may castle. -/
  | rooks
deriving DecidableEq

/-- The way in which a format draws castling rights, if the format is supported. -/
def InputFormat.castlingLayout? : InputFormat → Option CastlingLayout
  | .classical112 => some .flags
  | .classical112WithCastlingPlane => some .rooks
  | _ => none

/-- Why a position cannot be encoded. -/
inductive EncodeFault where
  /-- The text of the position is wrong. -/
  | invalidFen (fen : String) (reason : FenFault)
  /-- Positions cannot be drawn in this format. -/
  | unsupportedFormat (format : InputFormat)
deriving DecidableEq

/-- The text of a fault. -/
def EncodeFault.message : EncodeFault → String
  | .invalidFen fen reason => s!"invalid FEN '{fen}': {reason.name}"
  | .unsupportedFormat format =>
    s!"input format {format.text} is not supported by the encoder"

namespace Board

/-- Reads a board from a text that may have blanks at its ends. -/
def ofText (fen : String) : Except EncodeFault Board :=
  (Fen.read (trim fen.toList)).mapError (.invalidFen fen)

/-- A set of squares as the side to move sees it. -/
def oriented (b : Board) (squares : Bitboard) : Bitboard :=
  match b.turn with
  | .white => squares
  | .black => squares.flip

/-- The square of a rook that may castle, on a given rank. -/
def rookSquare (right : Option File) (r : Rank) : Bitboard :=
  match right with
  | none => 0
  | some f => .single (.of f r)

/-- Draws the men of one kind: the own ones and those of the opponent. -/
def drawKind (b : Board) (ps : Planes) (k : Kind) : Planes :=
  (ps.set (slot .own k) (.ofMask (b.oriented (b.pieces b.turn k)))).set (slot .opponent k)
    (.ofMask (b.oriented (b.pieces b.turn.other k)))

/-- Fills a plane for each right that exists, the first of them behind the planes of the positions. -/
def drawFlags (rights : List (Option File)) (ps : Planes) : Planes :=
  rights.zipIdx.foldl (fun ps (right, i) =>
    if right.isSome then ps.set (Planes.auxBase + i) (.filled 1) else ps) ps

/-- Draws the castling rights. The own rooks stand on the first rank, the opponent's on the last. -/
def drawCastling (b : Board) (layout : CastlingLayout) (ps : Planes) : Planes :=
  let own := b.rights b.turn
  let opponent := b.rights b.turn.other
  match layout with
  | .flags => drawFlags [own.long, own.short, opponent.long, opponent.short] ps
  | .rooks =>
    let long := rookSquare own.long .one ||| rookSquare opponent.long .eight
    let short := rookSquare own.short .one ||| rookSquare opponent.short .eight
    (ps.modify Planes.auxBase fun p => { p with mask := long }).modify (Planes.auxBase + 1)
      fun p => { p with mask := short }

/-- The planes of a board, drawn on empty ones. -/
def planes (b : Board) (layout : CastlingLayout) : Planes :=
  let ps := Kind.all.foldl b.drawKind (List.replicate Planes.inputCount .empty)
  let ps := b.drawCastling layout ps
  let ps := if b.turn = .black then ps.set (Planes.auxBase + 4) (.filled 1) else ps
  (ps.set (Planes.auxBase + 5) (.filled (Float32.ofNat b.halfmoves.val))).set (Planes.auxBase + 7)
    (.filled 1)

/-- The planes of a board in a format, if the format is supported. -/
def encode (b : Board) (format : InputFormat) : Except EncodeFault Planes :=
  match format.castlingLayout? with
  | some layout => .ok (b.planes layout)
  | none => .error (.unsupportedFormat format)

end Board

/-- The planes of the board with a given text. The text is read before the format is looked at. -/
def encodeText (fen : String) (format : InputFormat) : Except EncodeFault Planes := do
  (← Board.ofText fen).encode format

end PieceSquare
