import PieceSquare.Bitboard
import PieceSquare.Fault
import PieceSquare.Piece

set_option autoImplicit false

/-! # Input planes

A position is handed to an evaluator as a list of planes. A plane marks some squares and carries
one number on all of them. The first twelve planes are the piece planes: the six kinds of the
side to move, from pawn to king, then the six kinds of its opponent, all drawn from the mover's
point of view. Whatever planes follow describe castling rights, clocks and the like.

`exchangeSides` shows the same men from the other side of the board: the sides change places and
every piece plane is turned upside down.
-/

namespace PieceSquare

/-- A plane: a set of squares and the number that all of them carry. -/
structure Plane where
  /-- The marked squares. -/
  mask : Bitboard
  /-- The number on each marked square. -/
  value : Float32
deriving DecidableEq

namespace Plane

/-- The plane without a marked square, whose number is 1. -/
def empty : Plane := ⟨0, 1⟩

/-- The plane that carries 1 on a set of squares. -/
def ofMask (mask : Bitboard) : Plane := ⟨mask, 1⟩

/-- The plane that carries one number on all squares. -/
def filled (value : Float32) : Plane := ⟨Bitboard.full, value⟩

/-- The plane upside down. -/
def flip (p : Plane) : Plane := ⟨p.mask.flip, p.value⟩

@[simp] theorem flip_flip (p : Plane) : p.flip.flip = p := by simp [flip]

end Plane

/-- A list of planes. -/
abbrev Planes := List Plane

/-- The two sides of a list of planes: the side to move and its opponent. -/
inductive Side where
  | own
  | opponent
deriving DecidableEq

/-- The place of the first plane of a side. -/
def Side.base : Side → Nat
  | .own => 0
  | .opponent => 6

/-- The place of the plane that holds the pieces of one kind and one side. -/
def slot (side : Side) (kind : Kind) : Nat := side.base + kind.index

namespace Planes

/-- The number of piece planes. -/
def pieceCount : Nat := 12

/-- The number of planes of one position: the piece planes and one for repetitions. -/
def perPosition : Nat := 13

/-- The number of positions that are drawn: the current one and earlier ones. -/
def historyLength : Nat := 8

/-- The place of the first plane behind those of the positions. -/
def auxBase : Nat := perPosition * historyLength

/-- The number of planes of a board. -/
def inputCount : Nat := auxBase + 8

/-- The squares of the pieces of one kind and one side. -/
def mask (ps : Planes) (side : Side) (kind : Kind) : Except Fault Bitboard :=
  (entry ps (slot side kind)).map (·.mask)

/-- The twelve piece planes with the given squares for each kind. -/
def ofMasks (own opponent : Kind → Bitboard) : Planes :=
  Kind.all.map (fun k => .ofMask (own k)) ++ Kind.all.map (fun k => .ofMask (opponent k))

/-- One step of `exchangeSides`: `out` receives the two planes of a kind in exchanged places. -/
def exchangeKind (ps out : Planes) (kind : Kind) : Except Fault Planes := do
  let own ← entry ps (slot .own kind)
  let opponent ← entry ps (slot .opponent kind)
  return (out.set (slot .own kind) opponent.flip).set (slot .opponent kind) own.flip

/-- The same men seen from the other side of the board. Planes behind the piece planes stay as
they are. -/
def exchangeSides (ps : Planes) : Except Fault Planes :=
  Kind.all.foldlM (exchangeKind ps) ps

end Planes

end PieceSquare
