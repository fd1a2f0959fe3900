import PieceSquare.Board.Fen
import PieceSquare.Move.Play
import PieceSquare.Random

set_option autoImplicit false

/-! # Random walks

Positions to try an evaluator on: walks from the start of the game, each by random legal moves. A
walk draws its length first, then one legal move after another, and ends early where there is no
legal move. All walks of a run share one generator, so a seed fixes them all, and asking for more
walks leaves the first ones as they are.

A walk asks nothing else of the game than its moves, and nothing else of the generator than numbers
below a bound (`Game`, `Source`).
-/

namespace PieceSquare

/-- What has to be known of a game to walk through it. -/
structure Game (σ μ : Type) where
  /-- The position at the start. -/
  start : σ
  /-- The moves in a position. -/
  moves : σ → List μ
  /-- The position after a move. -/
  play : σ → μ → σ

namespace Game

variable {σ μ γ : Type} (G : Game σ μ) (R : Source γ)

/-- Plays up to `plies` random moves. -/
def wander : Nat → σ → γ → σ × γ
  | 0, b, g => (b, g)
  | plies + 1, b, g =>
    let moves := G.moves b
    if moves.isEmpty then
      (b, g)
    else
      let (i, g) := R.below moves.length g
      match moves[i]? with
      | none => (b, g)
      | some m => wander plies (G.play b m) g

/-- One walk from the start of the game, of at most `maxPlies` moves. -/
def walk (maxPlies : Nat) (g : γ) : σ × γ :=
  if maxPlies = 0 then
    (G.start, g)
  else
    let (plies, g) := R.below (maxPlies + 1) g
    G.wander R plies G.start g

/-- The positions at the ends of a number of walks. -/
def walks (maxPlies : Nat) : Nat → γ → List σ
  | 0, _ => []
  | count + 1, g =>
    let (b, g) := G.walk R maxPlies g
    b :: walks maxPlies count g

end Game

/-- Chess, by its legal moves. -/
def chess : Game Board Move := ⟨.start, Board.legalMoves, Board.play⟩

/-- The boards at the ends of a number of walks that a seed fixes. The number has no limit here: a list
of boards for which there is no room in memory is beyond what is modelled. -/
def randomBoards (count maxPlies : Nat) (seed : UInt64) : List Board :=
  chess.walks Generator.source maxPlies count (.ofSeed seed)

end PieceSquare
