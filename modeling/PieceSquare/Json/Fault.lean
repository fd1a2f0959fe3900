import PieceSquare.Decimal.Shortest
import PieceSquare.Text.Quoted

set_option autoImplicit false

/-! # Why a JSON text cannot be read

A text can break the rules of JSON (`JsonFault`), or be JSON of another shape than the reader
wants (`Mismatch`). Reading goes from left to right and stops at the first of either.
-/

namespace PieceSquare

/-- The ways to break the rules of JSON. -/
inductive JsonFault where
  | endInValue
  | endInList
  | endInObject
  | endInString
  | expectedValue
  | expectedWord
  | expectedColon
  | expectedListSeparator
  | expectedObjectSeparator
  | keyNotString
  | trailingComma
  | trailingCharacters
  | invalidNumber
  | numberOutOfRange
  | invalidEscape
  | unpairedSurrogateEnd
  | loneSurrogate
  | controlCharacter
  | tooDeep
deriving DecidableEq

/-- The text of a fault. -/
def JsonFault.message : JsonFault → String
  | .endInValue => "EOF while parsing a value"
  | .endInList => "EOF while parsing a list"
  | .endInObject => "EOF while parsing an object"
  | .endInString => "EOF while parsing a string"
  | .expectedValue => "expected value"
  | .expectedWord => "expected ident"
  | .expectedColon => "expected `:`"
  | .expectedListSeparator => "expected `,` or `]`"
  | .expectedObjectSeparator => "expected `,` or `\x7d`"
  | .keyNotString => "key must be a string"
  | .trailingComma => "trailing comma"
  | .trailingCharacters => "trailing characters"
  | .invalidNumber => "invalid number"
  | .numberOutOfRange => "number out of range"
  | .invalidEscape => "invalid escape"
  | .unpairedSurrogateEnd => "unexpected end of hex escape"
  | .loneSurrogate => "lone leading surrogate in hex escape"
  | .controlCharacter => "control character (\\u0000-\\u001F) found while parsing a string"
  | .tooDeep => "recursion limit exceeded"

/-- What a reader came upon instead of what it wanted. -/
inductive Found where
  | null
  | bool (b : Bool)
  | integer (n : Int)
  | float (x : Float)
  | string (s : String)
  | list
  | object
  | unitVariant

/-- The description of what was found. -/
def Found.text : Found → String
  | .null => "null"
  | .bool b => s!"boolean `{b}`"
  | .integer n => s!"integer `{n}`"
  | .float x => "floating point `" ++ String.ofList (shortestText x) ++ "`"
  | .string s => "string " ++ quoted s
  | .list => "sequence"
  | .object => "map"
  | .unitVariant => "unit variant"

/-- What a reader can want. -/
inductive Wanted where
  | int64
  | word64
  | byte
  | double
  | bool
  | string
  | list
  | object
  | unit
  | numberedVariant
  | capabilities
deriving DecidableEq

/-- The description of what is wanted. -/
def Wanted.text : Wanted → String
  | .int64 => "i64"
  | .word64 => "u64"
  | .byte => "u8"
  | .double => "f64"
  | .bool => "a boolean"
  | .string => "a string"
  | .list => "a sequence"
  | .object => "a map"
  | .unit => "unit"
  | .numberedVariant => "newtype variant"
  | .capabilities => "struct NetworkCapabilities"

/-- The ways in which JSON can have another shape than the wanted one. -/
inductive Mismatch where
  /-- A value of another kind. -/
  | kind (found : Found) (wanted : Wanted)
  /-- A value of the right kind that is out of range. -/
  | range (found : Found) (wanted : Wanted)
  /-- A list with too few elements for a record. -/
  | length (elements : Nat) (wanted : Wanted) (fields : Nat)
  | missingField (name : String)
  | duplicateField (name : String)
  /-- A name that is none of the names of a choice. -/
  | unknownVariant (name : String) (names : List String)

/-- The names of a choice, as a message lists them. -/
def listNames (names : List String) : String :=
  let marked := names.map fun n => "`" ++ n ++ "`"
  match marked with
  | [a] => a
  | [a, b] => a ++ " or " ++ b
  | _ => "one of " ++ ", ".intercalate marked

/-- The text of a mismatch. -/
def Mismatch.message : Mismatch → String
  | .kind found wanted => s!"invalid type: {found.text}, expected {wanted.text}"
  | .range found wanted => s!"invalid value: {found.text}, expected {wanted.text}"
  | .length elements wanted fields =>
    s!"invalid length {elements}, expected {wanted.text} with {fields} elements"
  | .missingField name => s!"missing field `{name}`"
  | .duplicateField name => s!"duplicate field `{name}`"
  | .unknownVariant name names => s!"unknown variant `{name}`, expected {listNames names}"

/-- Why a JSON text cannot be read as a value of a wanted shape. -/
inductive ReadFault where
  | json (fault : JsonFault)
  | shape (mismatch : Mismatch)

/-- The text of a fault. -/
def ReadFault.message : ReadFault → String
  | .json fault => fault.message
  | .shape mismatch => mismatch.message

end PieceSquare
