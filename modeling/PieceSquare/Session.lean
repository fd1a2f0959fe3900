import PieceSquare.Evaluator

set_option autoImplicit false

/-! # Sessions

Work on several batches at once. Batches have numbers; a batch that has not been used is empty. A
request concerns one batch and is answered at once. If it cannot be answered, the session goes on with
the batch that the failed request has left.
-/

namespace PieceSquare

/-- What can be asked of a batch. -/
inductive Request where
  /-- To begin again without samples. -/
  | reset
  /-- To add a position. -/
  | add (ps : Planes)
  /-- To compute what is left to compute. -/
  | compute
  /-- The number of samples. -/
  | size
  /-- The value of a sample. -/
  | value (sample : Nat)
  /-- The values of all samples. -/
  | values
  /-- The probability of a draw in a sample. -/
  | draw (sample : Nat)
  /-- The number of moves left in a sample. -/
  | movesLeft (sample : Nat)
  /-- The logarithm of the probability of a move in a sample. -/
  | policy (sample move : Nat)

/-- What a batch can answer. -/
inductive Answer where
  /-- The request has been carried out. -/
  | done
  /-- A number of samples. -/
  | size (n : Nat)
  /-- A number. -/
  | number (x : Float32)
  /-- A list of numbers. -/
  | numbers (xs : List Float32)
deriving DecidableEq

/-- The answer of a batch to a request. -/
def Batch.answer : Request → BatchAction Answer
  | .reset => do
    set Batch.empty
    return .done
  | .add ps => do
    add ps
    return .size (← get).size
  | .compute => do
    compute
    return .done
  | .size => return .size (← get).size
  | .value sample => return .number (← ofExcept ((← get).value sample))
  | .values => return .numbers (← get).values
  | .draw sample => return .number ((← get).draw sample)
  | .movesLeft sample => return .number ((← get).movesLeft sample)
  | .policy sample move => return .number (← ofExcept ((← get).policy sample move))

/-- Batches by their numbers. -/
structure Session where
  /-- The batch with a number. -/
  batch : Nat → Batch

namespace Session

/-- No batch has been used. -/
def empty : Session := ⟨fun _ => .empty⟩

/-- Puts a batch in the place of the one with a number. -/
def put (s : Session) (number : Nat) (b : Batch) : Session :=
  ⟨fun other => if other = number then b else s.batch other⟩

theorem batch_put (s : Session) (number : Nat) (b : Batch) (other : Nat) :
    (s.put number b).batch other = if other = number then b else s.batch other := rfl

/-- A batch that is put where it has been changes nothing. -/
theorem put_batch (s : Session) (number : Nat) : s.put number (s.batch number) = s := by
  refine congrArg Session.mk (funext fun other => ?_)
  split
  · next h => rw [h]
  · rfl

/-- The answer to a request that concerns the batch with a number, and the session after it. -/
def step (s : Session) (number : Nat) (r : Request) : Logged (Except Fault Answer × Session) := do
  let (answer, b) ← (Batch.answer r).runOn (s.batch number)
  return (answer, s.put number b)

/-- The answers to a list of requests, and the session after them. -/
def run : Session → List (Nat × Request) → Logged (List (Except Fault Answer) × Session)
  | s, [] => return ([], s)
  | s, (number, r) :: rs => do
    let (answer, s) ← s.step number r
    let (answers, s) ← s.run rs
    return (answer :: answers, s)

end Session

end PieceSquare
