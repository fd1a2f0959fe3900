import PieceSquare.CommandLine.Arguments

set_option autoImplicit false

/-! # Help

The notices of the program: how it is used, with a line for each item of the command line, and its
version.
-/

namespace PieceSquare.CommandLine

/-- What a setting is for. -/
def Setting.purpose : Setting → String
  | .backend => "Backend name (defaults to the highest-priority registered backend)"
  | .backendOptions => "Backend options as key=value pairs, e.g. \"input_mode=1\""
  | .weights => "Weights file handed to the backend"
  | .fen => "Position to evaluate (repeatable)"
  | .positions => "File with one FEN per line"
  | .random => "Number of random-walk positions to add"
  | .maxPlies => "Maximum plies per random walk"
  | .seed => "Seed for random positions"
  | .batchSize => "Positions per computation"
  | .threads => "Worker threads; each runs its own computations"
  | .topPolicy => "Report the N highest-scoring move indices per position"

/-- The number that a setting has unless it is given. -/
def Setting.standard? : Setting → Option Nat
  | .random => some Arguments.standard.random
  | .maxPlies => some Arguments.standard.maxPlies
  | .seed => some Arguments.standard.seed
  | .batchSize => some Arguments.standard.batchSize
  | .threads => some Arguments.standard.threads
  | .topPolicy => some Arguments.standard.topPolicy
  | _ => none

/-- What a switch is for. -/
def Switch.purpose : Switch → String
  | .json => "Print one JSON object per position"
  | .listBackends => "List registered backends and exit"

/-- What a notice is for. -/
def Notice.purpose : Notice → String
  | .help => "Print help"
  | .version => "Print version"

namespace Item

/-- All items. -/
def all : List Item :=
  Setting.all.map setting ++ Switch.all.map switch ++ Notice.all.map notice

/-- How an item is written, with its letter in front if it has one. -/
def usage : Item → String
  | notice n => s!"-{n.letter}, {n.text}"
  | i => s!"    {i.text}"

/-- What an item is for, and what its value is unless it is given. -/
def purpose : Item → String
  | setting s =>
    match s.standard? with
    | some n => s!"{s.purpose} [default: {n}]"
    | none => s.purpose
  | switch s => s.purpose
  | notice n => n.purpose

end Item

/-- A text with blanks behind it, up to a width. -/
def padRight (width : Nat) (text : String) : String := text.pushn ' ' (width - text.length)

/-- How the program is used. -/
def helpLines : List String :=
  ["Evaluate chess positions through a network backend", "", "Usage: [OPTIONS]", "", "Options:"] ++
    Item.all.map fun i => s!"  {padRight 33 i.usage}  {i.purpose}"

/-- The lines of a notice. -/
def Notice.lines : Notice → List String
  | .help => helpLines
  | .version => ["0.1.0"]

end PieceSquare.CommandLine
