import PieceSquare.Decimal.Fixed
import PieceSquare.Decimal.Shortest
import PieceSquare.Evaluator
import PieceSquare.Json.Printer

set_option autoImplicit false

/-! # Reports

What is told of a position once it has been evaluated: its text, the estimates of the evaluator,
and the moves to which the policy gives the highest probability. Positions are evaluated in
batches, on which several threads work at the same time; how many positions make a batch, and how
many threads there are, is not visible in the reports.
-/

namespace PieceSquare

/-- What is told of a position. -/
structure Report where
  /-- The position as it was given. -/
  fen : String
  /-- The expected outcome for the side to move. -/
  value : Float32
  /-- The probability of a draw. -/
  draw : Float32
  /-- The number of moves left. -/
  movesLeft : Float32
  /-- The moves of the highest probability, with the logarithms of their probabilities. -/
  topMoves : List (Fin policySize × Float32)
deriving DecidableEq

/-- The `n` moves with the highest numbers, in falling order; moves with equal numbers stay in the
order of the moves. -/
def topMoves (logits : Fin policySize → Float32) (n : Nat) : List (Fin policySize × Float32) :=
  if n = 0 then []
  else
    let moves := (List.finRange policySize).map fun m => (m, logits m)
    (moves.mergeSort fun a b => !decide (a.2 < b.2)).take n

/-- The report on a sample of a batch, with a number of top moves. -/
def Batch.report (b : Batch) (sample : Nat) (fen : String) (top : Nat) : Except Fault Report := do
  return {
    fen := fen
    value := ← b.value sample
    draw := b.draw sample
    movesLeft := b.movesLeft sample
    topMoves := topMoves (b.logit sample) top
  }

/-- The reports on some positions that are added to a batch, each found by the number of its sample. -/
def Batch.reports (top : Nat) (inputs : List (String × Planes)) : BatchAction (List Report) := do
  (inputs.map (·.2)).forM add
  compute
  let computed ← get
  ofExcept (inputs.zipIdx.mapM fun ((fen, _), sample) => computed.report sample fen top)

/-- The reports on some positions that make up one batch. -/
def evaluateBatch (top : Nat) (inputs : List (String × Planes)) : Except Fault (List Report) :=
  ((Batch.reports top inputs).runOn .empty).value.1

/-- A list cut into pieces of `size` elements, the last of which may be shorter. A size of zero
counts as one. -/
def chunks {α : Type} (size : Nat) : List α → List (List α)
  | [] => []
  | x :: xs => (x :: xs.take (size - 1)) :: chunks size (xs.drop (size - 1))
termination_by xs => xs.length
decreasing_by exact Nat.lt_succ_of_le (List.drop_sublist _ _).length_le

/-- Cutting a list loses nothing. -/
theorem flatten_chunks {α : Type} (size : Nat) (xs : List α) : (chunks size xs).flatten = xs := by
  fun_induction chunks size xs with
  | case1 => rfl
  | case2 x xs ih =>
      rw [List.flatten_cons, ih, List.cons_append, List.take_append_drop]

/-- A pool of threads that work on the elements of a list at the same time. Nothing is known of the
order in which they do so, nor of which fault is told where several elements have one. -/
structure Pool where
  /-- Works on all elements by a number of threads, and collects what comes out. -/
  collect : {α β : Type} → Nat → (α → Except Fault β) → List α → Except Fault (List β)
  /-- Results are collected where no element has a fault, in the order of the elements. -/
  collect_eq_ok_iff : ∀ {α β : Type} (threads : Nat) (f : α → Except Fault β) {xs : List α}
    {ys : List β}, collect threads f xs = .ok ys ↔ xs.mapM f = .ok ys

/-- One thread that takes the elements in their order, whatever number of threads is wanted. -/
def Pool.single : Pool := ⟨fun _ f xs => xs.mapM f, fun _ _ => Iff.rfl⟩

/-- The reports on some positions, evaluated by a number of threads in batches of a given size. -/
def evaluateAll (pool : Pool) (threads batchSize top : Nat) (inputs : List (String × Planes)) :
    Except Fault (List Report) :=
  (pool.collect (max 1 threads) (evaluateBatch top) (chunks batchSize inputs)).map List.flatten

namespace Report

/-! ## Reports as lines -/

/-- A text with blanks in front of it, up to a width. -/
def padLeft (width : Nat) (text : String) : String :=
  "".pushn ' ' (width - text.length) ++ text

/-- A line for a move. -/
def moveLine (move : Fin policySize × Float32) : String :=
  s!"    move {padLeft 4 (toString move.1.val)}  logit {fixedText [] 5 move.2}"

/-- A line for the position, and one for each move. -/
def lines (r : Report) : List String :=
  let value := fixedText ['+'] 5 r.value
  let draw := fixedText [] 3 r.draw
  let left := fixedText [] 1 r.movesLeft
  s!"{value}  d={draw} m={left}  {r.fen}" :: r.topMoves.map moveLine

/-! ## Reports as JSON -/

/-- A list with given elements. -/
def listJson (elements : List (List Char)) : List Char :=
  '[' :: ([','].intercalate elements ++ [']'])

/-- An object with given members. -/
def objectJson (members : List (List Char)) : List Char :=
  '\x7b' :: ([','].intercalate members ++ ['\x7d'])

/-- The member of an object. -/
def memberJson (name : String) (value : List Char) : List Char :=
  Json.writeString name ++ ':' :: value

/-- A move as a list of its number and the logarithm. -/
def moveJson (move : Fin policySize × Float32) : List Char :=
  listJson [natDigits move.1.val, shortestText32 move.2]

/-- What the object on a report holds. There is a list of moves only if there are any. -/
def memberTexts (r : Report) : List (List Char) :=
  [memberJson "fen" (Json.writeString r.fen), memberJson "value" (shortestText32 r.value),
    memberJson "draw" (shortestText32 r.draw),
    memberJson "moves_left" (shortestText32 r.movesLeft)] ++
  if r.topMoves.isEmpty then [] else [memberJson "top_policy" (listJson (r.topMoves.map moveJson))]

/-- The report as an object on one line. -/
def json (r : Report) : String := String.ofList (objectJson r.memberTexts)

end Report

end PieceSquare
