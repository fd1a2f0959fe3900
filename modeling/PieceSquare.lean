import PieceSquare.Bitboard.Cursor
import PieceSquare.Format.Json
import PieceSquare.Main
import PieceSquare.Session
import PieceSquare.Proofs.Binary32.Rounding
import PieceSquare.Proofs.Binary32.Word
import PieceSquare.Proofs.Binary32.Units
import PieceSquare.Proofs.Planes.Sides
import PieceSquare.Proofs.Bitboard
import PieceSquare.Proofs.Eval.Size
import PieceSquare.Proofs.Binary32.Order
import PieceSquare.Proofs.Eval.Antisymmetry
import PieceSquare.Proofs.Encoding.Exchange
import PieceSquare.Proofs.Board.Fen
import PieceSquare.Proofs.Encoding.Injective
import PieceSquare.Proofs.Eval.Range
import PieceSquare.Proofs.Evaluator.Reports
import PieceSquare.Proofs.Backend.Registrations
import PieceSquare.Proofs.Evaluator.Session
import PieceSquare.Proofs.Encoding.Drawing
import PieceSquare.Proofs.Encoding.Consistent
import PieceSquare.Proofs.Board.Printing
import PieceSquare.Proofs.CommandLine.Runs
import PieceSquare.Proofs.Eval.Phase
import PieceSquare.Proofs.Binary32.Level
import PieceSquare.Proofs.Binary32.Monotone
import PieceSquare.Proofs.Eval.Monotone
import PieceSquare.Proofs.Binary64.Overflow
import PieceSquare.Proofs.Options.Items
import PieceSquare.Proofs.Evaluator.Construction
import PieceSquare.Proofs.Options.Members
import PieceSquare.Proofs.Options.Reading
import PieceSquare.Proofs.Json.Lexemes
import PieceSquare.Proofs.Json.Objects
import PieceSquare.Proofs.Options.Agreement
import PieceSquare.Proofs.Evaluator.TopMoves
import PieceSquare.Proofs.Random
import PieceSquare.Proofs.Walk
import PieceSquare.Proofs.Text.Utf8
import PieceSquare.Proofs.Files
import PieceSquare.Proofs.Planes.Short
import PieceSquare.Proofs.Planes.Exchange
import PieceSquare.Proofs.Eval.Dependence
import PieceSquare.Proofs.Bitboard.Squares
import PieceSquare.Proofs.Bitboard.Cursor
import PieceSquare.Proofs.Binary32.Zero
import PieceSquare.Proofs.Eval.Sums
import PieceSquare.Proofs.Json.Capabilities
