import PieceSquare.Backend.Fault
import PieceSquare.Eval.Policy
import PieceSquare.Eval.Score
import PieceSquare.WeightsFile

set_option autoImplicit false

/-! # Evaluators and their batches

An evaluator judges positions in batches: positions are added to a batch, the batch is computed,
and then each of its samples can be asked for its value. This one judges a position at once when
it is added, by its piece-square score, so that nothing is left to compute. Its policy is the same
for every position, and it knows neither draws nor the number of moves left.
-/

namespace PieceSquare

/-- An evaluator, known by what it consumes and produces. -/
structure Evaluator where
  /-- What the evaluator consumes and produces. -/
  capabilities : Capabilities
deriving DecidableEq

namespace Evaluator

/-- The evaluator of classical planes. -/
def standard : Evaluator := ⟨.standard⟩

/-- The option that holds the number of the input format. -/
def formatOption : String := "input_mode"

/-- The evaluator that consumes the input format whose number stands in the options. Every number
will do; without one the format is that of classical planes. -/
def ofOptions (o : Options) : Except BackendFault Evaluator :=
  match o.getD Json.asInt64 formatOption InputFormat.classical112.code with
  | .ok code => .ok ⟨⟨.ofCode code, .classical, .none⟩⟩
  | .error fault => .error (.invalidOption fault)

/-- Creates an evaluator. Weights may be handed over, but they are of no use to it. -/
def create (weights : Option WeightsFile) (o : Options) :
    ExceptT BackendFault Logged Evaluator := do
  match weights with
  | some file => Logged.note (.ignoringWeights file.path)
  | none => pure ()
  let evaluator ← ExceptT.mk (pure (ofOptions o))
  Logged.note (.ready evaluator.capabilities.input)
  return evaluator

end Evaluator

/-- A batch: the values of the positions that have been added to it, in order. -/
structure Batch where
  /-- The value of each sample. -/
  values : List Float32
deriving DecidableEq

/-- An action on a batch. It may fail, and the batch is there afterwards in either case, as the action
has left it. -/
abbrev BatchAction := ExceptT Fault (StateT Batch Logged)

/-- Carries an action out: what it gives, and the batch behind it. -/
def BatchAction.runOn {α : Type} (x : BatchAction α) (b : Batch) : Logged (Except Fault α × Batch) :=
  x.run.run b

namespace Batch

/-- A batch without samples. -/
def empty : Batch := ⟨[]⟩

/-- The number of samples. -/
def size (b : Batch) : Nat := b.values.length

/-- Adds a position, once its value is known. -/
def add (ps : Planes) : BatchAction Unit := do
  let value ← ofExcept ps.value
  Logged.note (.evaluated (← get).size value)
  modify fun b => ⟨b.values ++ [value]⟩

/-- Computes what is left to compute. -/
def compute : BatchAction Unit := do
  Logged.note (.complete (← get).size)

/-- The value of a sample. -/
def value (b : Batch) (sample : Nat) : Except Fault Float32 := entry b.values sample

/-- The probability of a draw, which is not estimated. -/
def draw (_ : Batch) (_sample : Nat) : Float32 := 0

/-- The number of moves left, which is not estimated. -/
def movesLeft (_ : Batch) (_sample : Nat) : Float32 := 0

/-- The logarithm of the probability of a move, which is the same for every sample. -/
def logit (_ : Batch) (_sample : Nat) (move : Fin policySize) : Float32 := logPolicy.get move

/-- The logarithm of the probability of the move with a number. -/
def policy (b : Batch) (sample move : Nat) : Except Fault Float32 :=
  if h : move < policySize then .ok (b.logit sample ⟨move, h⟩)
  else .error (.outOfRange policySize move)

end Batch

end PieceSquare
