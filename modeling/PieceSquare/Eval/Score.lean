import PieceSquare.Eval.Phase

set_option autoImplicit false

/-! # The value of a position

The score of a position is the sum of the weights of the own pieces less the sum of the weights
of the opponent's. The opponent's planes are turned upside down first, so that both sides read
the tables from their own back rank. The score is then squashed by a logistic curve into the open
interval from -1 to 1.

All arithmetic is in binary32, and the order of the additions matters: weights are added from the
lowest square to the highest, terms from pawns to kings, each sum starting from zero.

The curve needs an exponential. Everything about it is defined for any function in its place
(`squashWith`, `valueWith`); `squash` and `value` take the exponential of the machine.
-/

namespace PieceSquare

/-- The sum of the weights on the squares of a set, added in ascending order. -/
def dot (b : Bitboard) (w : Weights) : Float32 :=
  b.squares.foldl (fun sum s => sum + w.get s) 0

/-- The sum over all 64 squares in ascending order, where squares outside the set add zero. -/
def denseDot (b : Bitboard) (w : Weights) : Float32 :=
  Square.all.foldl (fun sum s => sum + if b.contains s then w.get s else 0) 0

namespace Planes

/-- The own weights of one kind of piece less the opponent's. -/
def term (ps : Planes) (kind : Kind) (phase : Phase) : Except Fault Float32 := do
  let weights := Weights.ofKind kind phase
  let own ← ps.mask .own kind
  let opponent ← ps.mask .opponent kind
  return dot own weights - dot opponent.flip weights

/-- The score of a position from the point of view of the side to move. -/
def score (ps : Planes) : Except Fault Float32 := do
  if ps.length < pieceCount then
    throw (.tooFewPlanes ps.length)
  else
    let phase ← ps.phase
    Kind.all.foldlM (fun sum kind => return sum + (← ps.term kind phase)) 0

end Planes

/-! ## Squashing -/

/-- The steepness of the logistic curve. -/
def slope : Float32 := 10

/-- The largest binary32 number below 1, which is 1 less 2 to the power -24. -/
def valueBound : Float32 := Float32.ofBits 0x3f7fffff

/-- The number of the interval from `lo` to `hi` nearest to `x`. What is not a number stays so. -/
def clamp (lo hi x : Float32) : Float32 :=
  let x := if x < lo then lo else x
  if hi < x then hi else x

/-- The logistic curve over a given exponential, kept strictly between -1 and 1. -/
def squashWith (exp : Float32 → Float32) (q : Float32) : Float32 :=
  clamp (-valueBound) valueBound (2 / (1 + exp (q * -slope)) - 1)

/-- The logistic curve. -/
def squash : Float32 → Float32 := squashWith Float32.exp

/-- The expected outcome of a position for the side to move, over a given exponential. -/
def Planes.valueWith (exp : Float32 → Float32) (ps : Planes) : Except Fault Float32 :=
  ps.score.map (squashWith exp)

/-- The expected outcome of a position for the side to move. -/
def Planes.value : Planes → Except Fault Float32 := Planes.valueWith Float32.exp

end PieceSquare
