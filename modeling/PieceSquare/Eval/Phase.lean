import PieceSquare.Eval.Weights
import PieceSquare.Plane

set_option autoImplicit false

/-! # The phase of a position

A side is light when it has no queen, or when it has no rook and at most one knight or bishop.
The game is in its endgame when both sides are light; one decision then serves both kings.

The opponent is looked at only when the side to move is light, and the other pieces of a side
only when it has a queen. This is visible on lists that are too short to hold all piece planes:
the fault is the one of the first plane that is looked for and missing.
-/

namespace PieceSquare.Planes

/-- Whether a side has no queen, or no rook and at most one minor piece. -/
def isLight (ps : Planes) (side : Side) : Except Fault Bool := do
  if (← ps.mask side .queen) = 0 then
    return true
  else if (← ps.mask side .rook) = 0 then
    let knights ← ps.mask side .knight
    let bishops ← ps.mask side .bishop
    return decide ((knights ||| bishops).count ≤ 1)
  else
    return false

/-- The phase of a position: the endgame when both sides are light. -/
def phase (ps : Planes) : Except Fault Phase := do
  if ← ps.isLight .own then
    if ← ps.isLight .opponent then
      return .endgame
    else
      return .middlegame
  else
    return .middlegame

end PieceSquare.Planes
