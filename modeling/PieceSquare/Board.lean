import PieceSquare.Bitboard
import PieceSquare.Piece

set_option autoImplicit false

/-! # Boards

A board is the full state of a game of chess as far as the rules of moving need it: the man on
every square, the side to move, the castling rights, the file on which a pawn has just advanced
two squares, and the two clocks.

A castling right is the file of the rook that may still castle. The clock of moves without a
capture or a pawn move stops at 100; the number of the current move stops at 65535.
-/

namespace PieceSquare

/-- What stands on each square. -/
abbrev Placement := Vector (Option Man) 64

namespace Placement

/-- What stands on a square. -/
def man? (men : Placement) (s : Square) : Option Man := men.get s

/-- The men with a change on one square. -/
def put (men : Placement) (s : Square) (man : Option Man) : Placement := men.set s.val man s.isLt

/-- The squares on which a given man stands. -/
def squaresOf (men : Placement) (man : Man) : Bitboard :=
  .ofPred fun s => decide (men.man? s = some man)

/-- The squares on which men of a colour stand. -/
def squaresOfColor (men : Placement) (c : Color) : Bitboard :=
  .ofPred fun s => decide ((men.man? s).map (·.color) = some c)

/-- Whether nothing stands on a square. -/
def isEmptyAt (men : Placement) (s : Square) : Bool := (men.man? s).isNone

/-- The square of the king of a colour, if it is on the board. -/
def king? (men : Placement) (c : Color) : Option Square :=
  Square.all.find? fun s => decide (men.man? s = some ⟨c, .king⟩)

end Placement

/-- The castling rights of one player, each with the file of its rook. -/
structure Rights where
  /-- Castling with the rook on the queen's side. -/
  long : Option File
  /-- Castling with the rook on the king's side. -/
  short : Option File
deriving DecidableEq

/-- No right to castle. -/
def Rights.none : Rights := ⟨.none, .none⟩

/-- A number of moves without a capture or pawn move, at most 100. -/
abbrev Clock := Fin 101

namespace Clock

/-- The clock behind a capture or pawn move. -/
def zero : Clock := ⟨0, by decide⟩

/-- The clock one move later, which stops at 100. -/
def tick (n : Clock) : Clock := ⟨min (n.val + 1) 100, by omega⟩

end Clock

/-- A board with everything that the rules of moving depend on. -/
structure Board where
  /-- The man on each square. -/
  men : Placement
  /-- The side to move. -/
  turn : Color
  /-- The castling rights of White. -/
  whiteRights : Rights
  /-- The castling rights of Black. -/
  blackRights : Rights
  /-- The file of a pawn that has just advanced two squares. -/
  enPassant : Option File
  /-- The number of moves since the last capture or pawn move, at most 100. -/
  halfmoves : Clock
  /-- The number of the current move; it grows after each move of Black. -/
  moveNumber : Nat
deriving DecidableEq

namespace Color

/-- The rank on which the pieces of a player start. -/
def backRank : Color → Rank
  | .white => .one
  | .black => .eight

/-- A rank as a player counts the ranks, from the own back rank onwards. -/
def ownRank (c : Color) (r : Rank) : Rank :=
  match c with
  | .white => r
  | .black => r.rev

end Color

namespace Board

/-- The squares on which men of one colour and kind stand. -/
def pieces (b : Board) (c : Color) (k : Kind) : Bitboard := b.men.squaresOf ⟨c, k⟩

/-- The castling rights of a player. -/
def rights (b : Board) : Color → Rights
  | .white => b.whiteRights
  | .black => b.blackRights

/-- The board with new castling rights for one player. -/
def setRights (b : Board) (c : Color) (r : Rights) : Board :=
  match c with
  | .white => { b with whiteRights := r }
  | .black => { b with blackRights := r }

/-- The square behind the pawn that has just advanced two squares. -/
def enPassantSquare (b : Board) : Option Square :=
  b.enPassant.map fun f => .of f (b.turn.other.ownRank .three)

/-- The order of the pieces on the back rank at the start of a game. -/
def backRankKinds : Vector Kind 8 :=
  #v[.rook, .knight, .bishop, .queen, .king, .bishop, .knight, .rook]

/-- The men at the start of a game. -/
def startMen : Placement := Vector.ofFn fun (s : Square) =>
  let row : Square → Option Kind := fun s =>
    match s.rank.val with
    | 0 => some (backRankKinds.get s.file)
    | 1 => some .pawn
    | _ => none
  match row s, row s.flip with
  | some k, _ => some ⟨.white, k⟩
  | none, some k => some ⟨.black, k⟩
  | none, none => none

/-- The board at the start of a game. -/
def start : Board where
  men := startMen
  turn := .white
  whiteRights := ⟨some .a, some .h⟩
  blackRights := ⟨some .a, some .h⟩
  enPassant := none
  halfmoves := .zero
  moveNumber := 1

end Board

end PieceSquare
