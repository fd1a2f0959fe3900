set_option autoImplicit false

/-! # Formats and capabilities

An evaluator states what it consumes and what it produces: the format of its input planes, the
form of its estimate of the outcome, and whether it estimates the number of moves left. Formats
have numbers; a number without a name of its own is carried along as `other`. So `other 1` is a
format of its own, different from the format whose number is 1.
-/

namespace PieceSquare

/-- The formats of input planes. -/
inductive InputFormat where
  | unknown
  | classical112
  | classical112WithCastlingPlane
  | withCanonicalization
  | withCanonicalizationHectoplies
  | withCanonicalizationV2
  | hectopliesArmageddon
  | canonicalizationV2Armageddon
  /-- A format that is known by its number alone. -/
  | other (code : Int64)
deriving DecidableEq

namespace InputFormat

/-- The formats with a name of their own. -/
def named : List InputFormat :=
  [unknown, classical112, classical112WithCastlingPlane, withCanonicalization,
    withCanonicalizationHectoplies, withCanonicalizationV2, hectopliesArmageddon,
    canonicalizationV2Armageddon]

/-- The number of a format. -/
def code : InputFormat → Int64
  | unknown => 0
  | classical112 => 1
  | classical112WithCastlingPlane => 2
  | withCanonicalization => 3
  | withCanonicalizationHectoplies => 4
  | withCanonicalizationV2 => 5
  | hectopliesArmageddon => 132
  | canonicalizationV2Armageddon => 133
  | other code => code

/-- The format with a given number, with its name where it has one. -/
def ofCode (n : Int64) : InputFormat := (named.find? (·.code == n)).getD (other n)

/-- The name of a format; all formats without a name of their own share one. -/
def name : InputFormat → String
  | unknown => "Unknown"
  | classical112 => "Classical112"
  | classical112WithCastlingPlane => "Classical112WithCastlingPlane"
  | withCanonicalization => "WithCanonicalization"
  | withCanonicalizationHectoplies => "WithCanonicalizationHectoplies"
  | withCanonicalizationV2 => "WithCanonicalizationV2"
  | hectopliesArmageddon => "HectopliesArmageddon"
  | canonicalizationV2Armageddon => "CanonicalizationV2Armageddon"
  | other _ => "Other"

/-- The name of a format, with the number where the name does not settle it. -/
def text : InputFormat → String
  | other code => s!"Other({code.toInt})"
  | f => f.name

end InputFormat

/-- The forms of an estimate of the outcome. -/
inductive OutputFormat where
  | unknown
  | classical
  | wdl
deriving DecidableEq

namespace OutputFormat

/-- All forms. -/
def all : List OutputFormat := [unknown, classical, wdl]

/-- The number of a form. -/
def code : OutputFormat → Nat
  | unknown => 0
  | classical => 1
  | wdl => 2

/-- The name of a form. -/
def name : OutputFormat → String
  | unknown => "Unknown"
  | classical => "Classical"
  | wdl => "Wdl"

end OutputFormat

/-- The ways to estimate the number of moves left. -/
inductive MovesLeftFormat where
  | none
  | v1
deriving DecidableEq

namespace MovesLeftFormat

/-- All ways. -/
def all : List MovesLeftFormat := [none, v1]

/-- The number of a way. -/
def code : MovesLeftFormat → Nat
  | none => 0
  | v1 => 1

/-- The name of a way. -/
def name : MovesLeftFormat → String
  | none => "None"
  | v1 => "V1"

end MovesLeftFormat

/-- What an evaluator consumes and produces. -/
structure Capabilities where
  /-- The format of the input planes. -/
  input : InputFormat
  /-- The form of the estimated outcome. -/
  output : OutputFormat
  /-- The way in which the number of moves left is estimated. -/
  movesLeft : MovesLeftFormat
deriving DecidableEq

namespace Capabilities

/-- Classical planes, a classical outcome and no estimate of the moves left. -/
def standard : Capabilities := ⟨.classical112, .classical, .none⟩

/-- Whether wins, draws and losses are estimated apart. -/
def hasWdl (c : Capabilities) : Bool := c.output == .wdl

/-- Whether the number of moves left is estimated. -/
def hasMovesLeft (c : Capabilities) : Bool := c.movesLeft != .none

end Capabilities

end PieceSquare
