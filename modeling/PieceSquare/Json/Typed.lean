import PieceSquare.Json.Reader

set_option autoImplicit false

/-! # JSON values of a wanted shape

Readers that take a value of one kind and report what else they find. An integer is also read as a
binary64 number, the nearest one; a binary64 number is never read as an integer.
-/

namespace PieceSquare

/-- The description of a value. -/
def Json.found : Json → Found
  | .null => .null
  | .bool b => .bool b
  | .integer n => .integer n
  | .float x => .float x
  | .string s => .string s
  | .array _ => .list
  | .object _ => .object

namespace Json

/-- Reads an integer of a range. -/
def asIntegerIn (least greatest : Int) (wanted : Wanted) : Json → Except Mismatch Int
  | integer n =>
    if least ≤ n ∧ n ≤ greatest then .ok n else .error (.range (.integer n) wanted)
  | j => .error (.kind j.found wanted)

/-- Reads a signed integer of 64 bits. -/
def asInt64 (j : Json) : Except Mismatch Int64 :=
  (j.asIntegerIn (-signedLimit) (signedLimit - 1) .int64).map .ofInt

/-- Reads an unsigned integer of 64 bits. -/
def asUInt64 (j : Json) : Except Mismatch UInt64 :=
  (j.asIntegerIn 0 (wordCount - 1) .word64).map fun n => .ofNat n.toNat

/-- Reads an unsigned integer of 8 bits. -/
def asUInt8 (j : Json) : Except Mismatch UInt8 :=
  (j.asIntegerIn 0 255 .byte).map fun n => .ofNat n.toNat

/-- Reads a number. -/
def asFloat : Json → Except Mismatch Float
  | integer n => .ok (.ofInt n)
  | float x => .ok x
  | j => .error (.kind j.found .double)

/-- Reads a truth value. -/
def asBool : Json → Except Mismatch Bool
  | bool b => .ok b
  | j => .error (.kind j.found .bool)

/-- Reads a string. -/
def asString : Json → Except Mismatch String
  | string s => .ok s
  | j => .error (.kind j.found .string)

/-- Reads a list of signed integers of 64 bits. The first element of another shape counts. -/
def asInt64List : Json → Except Mismatch (List Int64)
  | array xs => xs.mapM asInt64
  | j => .error (.kind j.found .list)

end Json

/-- What a reader finds that meets a lexeme where no value of this kind is wanted. A lexeme that
breaks a rule of JSON is reported as such. -/
def Lexeme.unwanted (wanted : Wanted) : Lexeme → ReadFault
  | .openList => .shape (.kind .list wanted)
  | .openObject => .shape (.kind .object wanted)
  | .word value => .shape (.kind value.found wanted)
  | .number (.ok value) _ => .shape (.kind value.found wanted)
  | .number (.error fault) _ => .json fault
  | .text (.ok s) _ => .shape (.kind (.string s) wanted)
  | .text (.error fault) _ => .json fault
  | .stray fault => .json fault
  | _ => .json .expectedValue

/-- Reads the members of an object. A text that begins with something else is not read any
further. -/
def readMembers (text : String) : Except ReadFault Members :=
  match Lexeme.all text.toList with
  | [] => .error (.json .endInValue)
  | .openObject :: rest =>
    match Json.run [] .value (.openObject :: rest) with
    | .ok (.object members) => .ok members
    | .ok j => .error (.shape (.kind j.found .object))
    | .error fault => .error (.json fault)
  | lexeme :: _ => .error (lexeme.unwanted .object)

end PieceSquare
