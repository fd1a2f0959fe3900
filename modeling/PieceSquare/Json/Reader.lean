import PieceSquare.Json.Lexeme

set_option autoImplicit false

/-! # Reading JSON values

The lexemes of a text are read one by one. The lists and objects that are open at a moment lie on
a stack, each with what has been read of it so far, and `Expecting` says what may come next. At
most 127 lists and objects may be open at once.
-/

namespace PieceSquare

namespace Json

/-- A list or object that is still open. -/
inductive Frame where
  /-- A list with its elements so far, the last one first. -/
  | list (before : List Json)
  /-- An object with its members so far and the name whose value is being read. -/
  | object (before : Members) (name : String)

/-- What may come next. -/
inductive Expecting where
  /-- A value. -/
  | value
  /-- The first element of a list, or its end. -/
  | firstElement
  /-- A further element of a list. -/
  | element (before : List Json)
  /-- The first name of an object, or its end. -/
  | firstName
  /-- A further name of an object. -/
  | name (before : Members)
  /-- The colon behind a name. -/
  | colon (before : Members) (name : String)
  /-- Whatever may stand behind a complete value. -/
  | behind (value : Json)

/-- The number of lists and objects that may be open at once. -/
def maxDepth : Nat := 127

/-- Begins a value when `depth` lists and objects are open: what may come next is whatever stands
behind the value, or the first element or name of the list or object that has been opened. -/
def begin? (depth : Nat) : Lexeme → Except JsonFault Expecting
  | .openList => if depth < maxDepth then .ok .firstElement else .error .tooDeep
  | .openObject => if depth < maxDepth then .ok .firstName else .error .tooDeep
  | .word value => .ok (.behind value)
  | .number value _ => value.map .behind
  | .text content _ => content.map fun s => .behind (.string s)
  | .stray fault => .error fault
  | _ => .error .expectedValue

/-- Reads the rest of a text, given the open lists and objects and what may come next. -/
def run : List Frame → Expecting → List Lexeme → Except JsonFault Json
  -- The end of the text.
  | [], .behind v, [] => .ok v
  | .list _ :: _, .behind _, [] => .error .endInList
  | .object _ _ :: _, .behind _, [] => .error .endInObject
  | _, .firstElement, [] => .error .endInList
  | _, .firstName, [] => .error .endInObject
  | _, .colon _ _, [] => .error .endInObject
  | _, _, [] => .error .endInValue
  -- Behind a value.
  | [], .behind _, _ :: _ => .error .trailingCharacters
  | .list before :: stack, .behind v, l :: ls =>
    match l with
    | .comma => run stack (.element (v :: before)) ls
    | .closeList => run stack (.behind (.array (v :: before).reverse)) ls
    | _ => .error .expectedListSeparator
  | .object before name :: stack, .behind v, l :: ls =>
    match l with
    | .comma => run stack (.name (before.insert name v)) ls
    | .closeObject => run stack (.behind (.object (before.insert name v))) ls
    | _ => .error .expectedObjectSeparator
  -- Names and colons.
  | stack, .firstName, l :: ls =>
    match l with
    | .closeObject => run stack (.behind (.object [])) ls
    | .text content _ => do run stack (.colon [] (← content)) ls
    | _ => .error .keyNotString
  | stack, .name before, l :: ls =>
    match l with
    | .closeObject => .error .trailingComma
    | .text content _ => do run stack (.colon before (← content)) ls
    | _ => .error .keyNotString
  | stack, .colon before name, l :: ls =>
    match l with
    | .colon => run (.object before name :: stack) .value ls
    | _ => .error .expectedColon
  -- Values.
  | stack, .firstElement, l :: ls =>
    match l with
    | .closeList => run stack (.behind (.array [])) ls
    | l => do run (.list [] :: stack) (← begin? (stack.length + 1) l) ls
  | stack, .element before, l :: ls =>
    match l with
    | .closeList => .error .trailingComma
    | l => do run (.list before :: stack) (← begin? (stack.length + 1) l) ls
  | stack, .value, l :: ls => do run stack (← begin? stack.length l) ls

/-- Reads a value. -/
def read (text : List Char) : Except JsonFault Json := run [] .value (Lexeme.all text)

end Json

end PieceSquare
