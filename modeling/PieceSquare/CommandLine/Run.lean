import PieceSquare.Backend.Registry
import PieceSquare.CommandLine.Help
import PieceSquare.Encoding
import PieceSquare.Report
import PieceSquare.Walk

set_option autoImplicit false

/-! # Running the program

The program evaluates the positions it is given. It first makes sure that it can: the options, the
weights, the backend, the file with positions and then each position are looked at in this order,
and the first one with a fault ends the run. Only when every position has been encoded is anything
evaluated and written, so a run either writes a report on each position or nothing but the fault.

The memory and the output of a run have no limits here: that there is no room for a huge number of
random positions, or that nobody reads what is written, is beyond what is modelled.
-/

namespace PieceSquare.CommandLine

/-- Why a run ends without reports. -/
inductive RunFault where
  /-- The backend cannot be used. -/
  | backend (fault : BackendFault)
  /-- The weights file cannot be read. -/
  | weights (fault : WeightsFault)
  /-- The file with positions cannot be read. -/
  | positions (fault : PositionsFault)
  /-- There are no positions. -/
  | noPositions
  /-- A position cannot be read. -/
  | position (fault : EncodeFault)
  /-- Positions cannot be drawn in the format of the evaluator. -/
  | encoding (format : InputFormat) (fault : EncodeFault)
  /-- A position has too few planes to be evaluated. -/
  | planes (fault : Fault)

namespace RunFault

/-- What went wrong. -/
def message : RunFault → String
  | backend fault => fault.message
  | weights fault => fault.context
  | positions fault => fault.context
  | noPositions => "no positions given; use --fen, --positions or --random"
  | position fault => fault.message
  | encoding format _ => s!"encode position for backend input format {format.text}"
  | planes fault => fault.message

/-- What lies behind it, where the message does not tell. -/
def cause? : RunFault → Option String
  | weights fault => some fault.cause.message
  | positions fault => some fault.cause.message
  | encoding _ fault => some fault.message
  | _ => none

/-- The lines that tell of a fault. -/
def lines (fault : RunFault) : List String :=
  s!"Error: {fault.message}" ::
    match fault.cause? with
    | none => []
    | some cause => ["", "Caused by:", s!"    {cause}"]

end RunFault

/-! ## The stages of a run -/

/-- The weights, if a file is named. -/
def loadWeights (files : Files) (a : Arguments) : Except RunFault (Option WeightsFile) :=
  match a.weights with
  | none => .ok none
  | some path => ((WeightsFile.load files path).run.value.mapError .weights).map some

/-- The evaluator. The options are read first, then the weights. -/
def makeEvaluator (files : Files) (a : Arguments) : Except RunFault Evaluator := do
  let options ← (Options.parse a.options).mapError fun fault => .backend (.malformedOptions fault)
  let weights ← loadWeights files a
  let created :=
    match a.backend with
    | some name => Registry.builtin.create name weights options
    | none => Registry.builtin.createDefault weights options
  created.run.value.mapError .backend

/-- The positions in the file, if one is named. -/
def filePositions (files : Files) (a : Arguments) : Except RunFault (List String) :=
  match a.positions with
  | none => .ok []
  | some path => (readPositions files path).mapError .positions

/-- The random positions. -/
def randomPositions (a : Arguments) : List String :=
  (randomBoards a.random a.maxPlies (.ofNat a.seed)).map Fen.write

/-- All positions: those given one by one, those in the file and the random ones. -/
def collectPositions (files : Files) (a : Arguments) : Except RunFault (List String) := do
  let listed ← filePositions files a
  return a.fens ++ listed ++ randomPositions a

/-- The planes of a position. -/
def encodePosition (format : InputFormat) (fen : String) : Except RunFault (String × Planes) := do
  let board ← (Board.ofText fen).mapError .position
  let planes ← (board.encode format).mapError (.encoding format)
  return (fen, planes)

/-- The planes of all positions, in the format of the evaluator. -/
def prepare (files : Files) (a : Arguments) : Except RunFault (List (String × Planes)) := do
  let evaluator ← makeEvaluator files a
  let fens ← collectPositions files a
  if fens.isEmpty then
    throw .noPositions
  else
    fens.mapM (encodePosition evaluator.capabilities.input)

/-- The reports on all positions. -/
def reports (pool : Pool) (files : Files) (a : Arguments) : Except RunFault (List Report) := do
  let inputs ← prepare files a
  (evaluateAll pool a.threads a.batchSize a.topPolicy inputs).mapError .planes

/-! ## The result of a run -/

/-- What a run leaves behind. -/
structure Outcome where
  /-- The exit code. -/
  code : UInt8
  /-- What is written to the standard output, line by line. -/
  output : List String
  /-- What is written to the standard error, line by line. -/
  errors : List String
deriving DecidableEq

/-- A line for each backend. -/
def backendLines : List String :=
  Registry.builtin.registrations.map fun r => s!"{padRight 12 r.name} priority {r.priority}"

/-- The lines of a report in the form that is asked for. -/
def reportLines (a : Arguments) (r : Report) : List String := if a.json then [r.json] else r.lines

/-- Runs the program with its arguments. -/
def runArguments (pool : Pool) (files : Files) (a : Arguments) : Outcome :=
  if a.listBackends then
    ⟨0, backendLines, []⟩
  else
    match reports pool files a with
    | .ok reports => ⟨0, reports.flatMap (reportLines a), []⟩
    | .error fault => ⟨1, [], fault.lines⟩

/-- Runs the program with the words of its command line. -/
def run (files : Files) (words : List String) (pool : Pool := .single) : Outcome :=
  match Command.read words with
  | .ok (.run a) => runArguments pool files a
  | .ok (.tell n) => ⟨0, n.lines, []⟩
  | .error fault => ⟨2, [], [s!"error: {fault.message}"]⟩

end PieceSquare.CommandLine
