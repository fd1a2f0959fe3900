import PieceSquare.Text.Control
import PieceSquare.Text.Integer

set_option autoImplicit false

/-! # The command line

The words behind the name of the program. A setting takes a value, either behind an equals sign or
as the next word, which must not begin with a dash. A switch takes none. Nothing may be given
twice but positions. A command line can also ask for a notice, such as help; then nothing behind
that word is looked at.

Words are read from left to right. The value of a setting that stands in a word of its own is
looked at only when the next setting, switch or notice has been recognized, or at the end. So a
word that means nothing is reported before the faults of the setting in front of it.
-/

namespace PieceSquare.CommandLine

/-- What takes a value. -/
inductive Setting where
  | backend
  | backendOptions
  | weights
  | fen
  | positions
  | random
  | maxPlies
  | seed
  | batchSize
  | threads
  | topPolicy
deriving DecidableEq

namespace Setting

/-- All settings. -/
def all : List Setting :=
  [backend, backendOptions, weights, fen, positions, random, maxPlies, seed, batchSize, threads,
    topPolicy]

/-- The name of a setting. -/
def name : Setting → String
  | backend => "backend"
  | backendOptions => "backend-opts"
  | weights => "weights"
  | fen => "fen"
  | positions => "positions"
  | random => "random"
  | maxPlies => "max-plies"
  | seed => "seed"
  | batchSize => "batch-size"
  | threads => "threads"
  | topPolicy => "top-policy"

/-- What stands for the value of a setting in a description. -/
def placeholder : Setting → String
  | backend => "BACKEND"
  | backendOptions => "BACKEND_OPTS"
  | weights => "WEIGHTS"
  | fen => "FEN"
  | positions => "POSITIONS"
  | random => "RANDOM"
  | maxPlies => "MAX_PLIES"
  | seed => "SEED"
  | batchSize => "BATCH_SIZE"
  | threads => "THREADS"
  | topPolicy => "TOP_POLICY"

/-- The description of a setting. -/
def text (s : Setting) : String := s!"--{s.name} <{s.placeholder}>"

end Setting

/-- What takes no value. -/
inductive Switch where
  | json
  | listBackends
deriving DecidableEq

namespace Switch

/-- All switches. -/
def all : List Switch := [json, listBackends]

/-- The name of a switch. -/
def name : Switch → String
  | json => "json"
  | listBackends => "list-backends"

/-- The description of a switch. -/
def text (s : Switch) : String := s!"--{s.name}"

end Switch

/-- What a command line can ask to be told. -/
inductive Notice where
  /-- How the program is used. -/
  | help
  /-- Which version of the program this is. -/
  | version
deriving DecidableEq

namespace Notice

/-- All notices. -/
def all : List Notice := [help, version]

/-- The name of a notice. -/
def name : Notice → String
  | help => "help"
  | version => "version"

/-- The letter that stands for a notice behind a single dash. -/
def letter : Notice → Char
  | help => 'h'
  | version => 'V'

/-- The description of a notice. -/
def text (n : Notice) : String := s!"--{n.name}"

/-- The notice with a letter. -/
def ofLetter? (letter : Char) : Option Notice := all.find? (·.letter == letter)

end Notice

/-- A setting, a switch or a notice. -/
inductive Item where
  | setting (s : Setting)
  | switch (s : Switch)
  | notice (n : Notice)
deriving DecidableEq

namespace Item

/-- The description of an item. -/
def text : Item → String
  | setting s => s.text
  | switch s => s.text
  | notice n => n.text

/-- The item with a name. -/
def ofName? (name : String) : Option Item :=
  ((Setting.all.find? (·.name == name)).map setting).or
    (((Switch.all.find? (·.name == name)).map switch).or
      ((Notice.all.find? (·.name == name)).map notice))

/-- Whether an item may be given more than once. -/
def isRepeatable (i : Item) : Bool := i == setting .fen

end Item

/-- What the program is asked to do. -/
structure Arguments where
  /-- The name of the backend; without one the default backend is used. -/
  backend : Option String
  /-- The options of the backend. -/
  options : String
  /-- The path of a weights file. -/
  weights : Option String
  /-- Positions. -/
  fens : List String
  /-- The path of a file with positions. -/
  positions : Option String
  /-- The number of random positions. -/
  random : Nat
  /-- The greatest number of moves on the way to a random position. -/
  maxPlies : Nat
  /-- The seed of the random positions. -/
  seed : Nat
  /-- The number of positions in a batch. -/
  batchSize : Nat
  /-- The number of batches that may be evaluated at the same time. -/
  threads : Nat
  /-- The number of moves to report for each position. -/
  topPolicy : Nat
  /-- Whether reports are written as JSON. -/
  json : Bool
  /-- Whether the backends are to be listed and nothing else. -/
  listBackends : Bool
deriving DecidableEq

/-- The arguments of an empty command line. -/
def Arguments.standard : Arguments where
  backend := none
  options := ""
  weights := none
  fens := []
  positions := none
  random := 0
  maxPlies := 40
  seed := 1
  batchSize := 256
  threads := 1
  topPolicy := 0
  json := false
  listBackends := false

/-- What is wrong with a command line. -/
inductive UsageFault where
  /-- A word means nothing. -/
  | unexpectedArgument (word : String)
  /-- A setting has no value. -/
  | missingValue (s : Setting)
  /-- An item is given twice. -/
  | repeated (i : Item)
  /-- A switch or a notice has a value. -/
  | unneededValue (i : Item) (value : String)
  /-- The value of a setting is no number, or too large a number. -/
  | invalidNumber (s : Setting) (value : String) (fault : IntegerFault)
deriving DecidableEq

/-- The text of a fault. What it repeats of the command line it repeats without controls. -/
def UsageFault.message : UsageFault → String
  | .unexpectedArgument word => s!"unexpected argument '{withoutControls word}' found"
  | .missingValue s => s!"a value is required for '{s.text}' but none was supplied"
  | .repeated i => s!"the argument '{i.text}' cannot be used multiple times"
  | .unneededValue i value =>
    s!"unexpected value '{withoutControls value}' for '{i.text}' found; no more were expected"
  | .invalidNumber s value fault =>
    s!"invalid value '{withoutControls value}' for '{s.text}': {fault.message}"

/-! ## Values -/

/-- The greatest number that a setting can have. -/
def maxNumber : Nat := wordCount - 1

/-- Reads the value of a setting that is a number. -/
def readNumber (s : Setting) (value : String) : Except UsageFault Nat :=
  (readNatural maxNumber value.toList).mapError (.invalidNumber s value)

/-- Reads the value of a setting that is a path. An empty path counts as none. -/
def readPath (s : Setting) (value : String) : Except UsageFault String :=
  if value.isEmpty then .error (.missingValue s) else .ok value

/-- Gives a setting its value. -/
def Arguments.assign (a : Arguments) (s : Setting) (value : String) :
    Except UsageFault Arguments :=
  match s with
  | .backend => .ok { a with backend := some value }
  | .backendOptions => .ok { a with options := value }
  | .weights => (readPath s value).map fun path => { a with weights := some path }
  | .fen => .ok { a with fens := a.fens ++ [value] }
  | .positions => (readPath s value).map fun path => { a with positions := some path }
  | .random => (readNumber s value).map fun n => { a with random := n }
  | .maxPlies => (readNumber s value).map fun n => { a with maxPlies := n }
  | .seed => (readNumber s value).map fun n => { a with seed := n }
  | .batchSize => (readNumber s value).map fun n => { a with batchSize := n }
  | .threads => (readNumber s value).map fun n => { a with threads := n }
  | .topPolicy => (readNumber s value).map fun n => { a with topPolicy := n }

/-- Turns a switch on. -/
def Arguments.turnOn (a : Arguments) : Switch → Arguments
  | .json => { a with json := true }
  | .listBackends => { a with listBackends := true }

/-! ## Words -/

/-- What a word looks like. -/
inductive Word where
  /-- Two dashes: no item stands behind them. -/
  | terminator
  /-- Two dashes and a name, possibly with a value. -/
  | long (name : String) (value : Option String)
  /-- A dash and letters, of which the first one is looked at. -/
  | short (letter : Char)
  /-- Any other word. -/
  | plain (text : String)
deriving DecidableEq

/-- Tells the form of a word. -/
def Word.ofString (word : String) : Word :=
  match word.toList with
  | ['-', '-'] => .terminator
  | '-' :: '-' :: rest =>
    let name := String.ofList (rest.takeWhile (· != '='))
    match rest.dropWhile (· != '=') with
    | [] => .long name none
    | _ :: value => .long name (some (String.ofList value))
  | '-' :: letter :: _ => .short letter
  | _ => .plain word

/-- What a command line asks for. -/
inductive Command where
  /-- A run of the program with some arguments. -/
  | run (a : Arguments)
  /-- A notice. -/
  | tell (n : Notice)
deriving DecidableEq

/-- How far a command line has been read. -/
structure Progress where
  /-- The arguments so far. -/
  arguments : Arguments
  /-- The items that have been given. -/
  given : List Item
  /-- A setting whose value has not been looked at, and the value, unless it is still to come. -/
  pending : Option (Setting × Option String)

namespace Progress

/-- Nothing has been read. -/
def start : Progress := ⟨.standard, [], none⟩

/-- Notes that an item is given. -/
def give (p : Progress) (i : Item) : Except UsageFault Progress :=
  if !i.isRepeatable && p.given.contains i then .error (.repeated i)
  else .ok { p with given := i :: p.given }

/-- Gives a setting its value. -/
def assign (p : Progress) (s : Setting) (value : String) : Except UsageFault Progress := do
  let p ← p.give (.setting s)
  return { p with arguments := ← p.arguments.assign s value }

/-- Looks at the value of the pending setting. -/
def resolve (p : Progress) : Except UsageFault Progress :=
  match p.pending with
  | none => .ok p
  | some (s, none) => .error (.missingValue s)
  | some (s, some value) => { p with pending := none }.assign s value

/-- Reads a word that names an item. -/
def readItem (p : Progress) (i : Item) (value : Option String) : Except UsageFault Progress :=
  match i, value with
  | .setting s, some value => do (← p.resolve).assign s value
  | .setting s, none => do return { (← p.resolve) with pending := some (s, none) }
  | i, some value => .error (.unneededValue i value)
  | .switch s, none => do
    let p ← (← p.resolve).give i
    return { p with arguments := p.arguments.turnOn s }
  | .notice _, none => p.resolve

/-- Reads a word that names no item. -/
def readPlain (p : Progress) (text : String) : Except UsageFault Progress :=
  match p.pending with
  | some (s, none) => .ok { p with pending := some (s, some text) }
  | _ => .error (.unexpectedArgument text)

/-- Ends the reading. -/
def finish (p : Progress) : Except UsageFault Command := do return .run (← p.resolve).arguments

/-- Reads further words. -/
def read (p : Progress) : List String → Except UsageFault Command
  | [] => p.finish
  | word :: words =>
    match Word.ofString word with
    | .terminator =>
      match words with
      | [] => p.finish
      | extra :: _ => .error (.unexpectedArgument extra)
    | .long name value =>
      match Item.ofName? name with
      | none => .error (.unexpectedArgument (String.ofList ('-' :: '-' :: name.toList)))
      | some i => do
        let p ← p.readItem i value
        match i with
        | .notice n => return .tell n
        | _ => p.read words
    | .short letter =>
      match Notice.ofLetter? letter with
      | none => .error (.unexpectedArgument (String.ofList ['-', letter]))
      | some n => do
        let _ ← p.readItem (.notice n) none
        return .tell n
    | .plain text => do (← p.readPlain text).read words

end Progress

/-- Reads a command line. -/
def Command.read (words : List String) : Except UsageFault Command := Progress.start.read words

end PieceSquare.CommandLine
