import PieceSquare.Format
import PieceSquare.Options

set_option autoImplicit false

/-! # Why there is no evaluator

What goes wrong when an evaluator is asked for by the name of its backend, or when it is checked
against the planes that its user has.
-/

namespace PieceSquare

/-- The ways in which a backend cannot be used. -/
inductive BackendFault where
  /-- No backend has this name. -/
  | unknownBackend (name : String)
  /-- There is no backend at all. -/
  | noBackends
  /-- An evaluator consumes planes of another format. -/
  | incompatibleFormat (expected actual : InputFormat)
  /-- An option has a value that the backend cannot use. -/
  | invalidOption (fault : InvalidOption)
  /-- The options cannot be used at all. -/
  | malformedOptions (fault : OptionsFault)

/-- The text of a fault. -/
def BackendFault.message : BackendFault → String
  | .unknownBackend name => s!"unknown backend: {name}"
  | .noBackends => "no backends registered"
  | .incompatibleFormat expected actual =>
    s!"backend expects input format {expected.text}, got {actual.text}"
  | .invalidOption ⟨name, reason⟩ => s!"invalid value for option '{name}': {reason.message}"
  | .malformedOptions fault => s!"malformed backend options '{fault.message}'"

/-- Checks that planes of a format can be consumed. -/
def Capabilities.checkInput (c : Capabilities) (format : InputFormat) : Except BackendFault Unit :=
  if format = c.input then .ok () else .error (.incompatibleFormat c.input format)

end PieceSquare
