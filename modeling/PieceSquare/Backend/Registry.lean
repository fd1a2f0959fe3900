import PieceSquare.Evaluator
import PieceSquare.Text.Quoted

set_option autoImplicit false

/-! # The registry of backends

Backends are known by their names, and each name stands for the backend that was registered under
it last. They are kept in order of falling priority, and backends of equal priority in the order
of their registration. The first one is the default.

What a backend makes is of no concern to a registry. In the program it is an `Evaluator`.
-/

namespace PieceSquare

/-- What makes a network from weights, if there are any, and options. -/
abbrev Constructor (network : Type := Evaluator) :=
  Option WeightsFile → Options → ExceptT BackendFault Logged network

/-- A backend. -/
structure Registration (network : Type := Evaluator) where
  /-- The name by which the backend is asked for. -/
  name : String
  /-- The higher it is, the earlier the backend comes. -/
  priority : Int
  /-- What makes a network. -/
  create : Constructor network

/-- The registered backends. -/
structure Registry (network : Type := Evaluator) where
  /-- The backends, the first of them being the default. -/
  registrations : List (Registration network)

namespace Registry

variable {network : Type}

/-- No backend is registered. -/
def empty : Registry network := ⟨[]⟩

/-- Inserts a backend in front of the first one of lower priority. -/
def insertByPriority (r : Registration network) :
    List (Registration network) → List (Registration network)
  | [] => [r]
  | s :: rest => if s.priority < r.priority then r :: s :: rest else s :: insertByPriority r rest

/-- Registers a backend, in place of one that already has its name. -/
def register (registry : Registry network) (r : Registration network) :
    Logged (Registry network) := do
  if registry.registrations.any (·.name == r.name) then
    Logged.note (.replacing r.name)
  return ⟨insertByPriority r (registry.registrations.eraseP (·.name == r.name))⟩

/-- The backends that are always there. -/
def builtin : Registry := ⟨[⟨"trivial", 4, Evaluator.create⟩]⟩

/-- The names of the backends, in order. -/
def names (registry : Registry network) : List String := registry.registrations.map (·.name)

/-- The backend that is used when none is asked for. -/
def default? (registry : Registry network) : Option String :=
  registry.registrations.head?.map (·.name)

/-- Makes a network of the backend with a name. -/
def create (registry : Registry network) (name : String) (weights : Option WeightsFile)
    (o : Options) : ExceptT BackendFault Logged network :=
  match registry.registrations.find? (·.name == name) with
  | none => throw (.unknownBackend name)
  | some r => do
    Logged.note (.creating r.name)
    r.create weights o

/-- Makes a network of the default backend. -/
def createDefault (registry : Registry network) (weights : Option WeightsFile) (o : Options) :
    ExceptT BackendFault Logged network :=
  match registry.default? with
  | none => throw .noBackends
  | some name => registry.create name weights o

/-- A description of a backend. -/
def registrationText (r : Registration network) : String :=
  s!"Registration \x7b name: {quoted r.name}, priority: {r.priority} \x7d"

/-- A description of all backends. -/
def text (registry : Registry network) : String :=
  let entries := ", ".intercalate (registry.registrations.map registrationText)
  s!"NetworkFactory \x7b registrations: [{entries}] \x7d"

end Registry

end PieceSquare
