import PieceSquare.Json.Lexeme

set_option autoImplicit false

/-! # Passing over JSON values

A reader that wants only some members of an object passes over the values of the others. They have
to obey the rules of JSON as far as these bind a reader who does not want the value, and they may
be nested to any depth.
-/

namespace PieceSquare.Lexeme

/-- A list or object that is passed over and still open. -/
inductive Enclosure where
  | list
  | object
deriving DecidableEq

/-- What may come next while a value is passed over. -/
inductive Passing where
  /-- A value. -/
  | value
  /-- The first element of a list, or its end. -/
  | firstElement
  /-- The first name of an object, or its end. -/
  | firstName
  /-- A further name of an object. -/
  | name
  /-- The colon behind a name. -/
  | colon
  /-- Whatever may stand behind a complete value. -/
  | behind
deriving DecidableEq

/-- Passes over a value of one lexeme, or over the beginning of a list or object. -/
def passValue : Lexeme → Except JsonFault Passing
  | openList => .ok .firstElement
  | openObject => .ok .firstName
  | word _ => .ok .behind
  | number _ none => .ok .behind
  | number _ (some fault) => .error fault
  | text _ none => .ok .behind
  | text _ (some fault) => .error fault
  | stray fault => .error fault
  | _ => .error .expectedValue

/-- Passes over the name of a member. -/
def passName : Lexeme → Except JsonFault Passing
  | text _ none => .ok .colon
  | text _ (some fault) => .error fault
  | _ => .error .keyNotString

/-- Passes over the rest of a value, given the open lists and objects and what may come next. -/
def passRest : List Enclosure → Passing → List Lexeme → Except JsonFault (List Lexeme)
  | [], .behind, ls => .ok ls
  -- The end of the text.
  | .list :: _, .behind, [] => .error .endInList
  | _, .firstElement, [] => .error .endInList
  | _, .value, [] => .error .endInValue
  | _, _, [] => .error .endInObject
  -- Behind a value.
  | .list :: stack, .behind, l :: ls =>
    match l with
    | comma => passRest (.list :: stack) .value ls
    | closeList => passRest stack .behind ls
    | _ => .error .expectedListSeparator
  | .object :: stack, .behind, l :: ls =>
    match l with
    | comma => passRest (.object :: stack) .name ls
    | closeObject => passRest stack .behind ls
    | _ => .error .expectedObjectSeparator
  -- Names and colons.
  | stack, .firstName, l :: ls =>
    match l with
    | closeObject => passRest stack .behind ls
    | l => do passRest (.object :: stack) (← l.passName) ls
  | stack, .name, l :: ls => do passRest stack (← l.passName) ls
  | stack, .colon, l :: ls =>
    match l with
    | colon => passRest stack .value ls
    | _ => .error .expectedColon
  -- Values.
  | stack, .firstElement, l :: ls =>
    match l with
    | closeList => passRest stack .behind ls
    | l => do passRest (.list :: stack) (← l.passValue) ls
  | stack, .value, l :: ls => do passRest stack (← l.passValue) ls

/-- Passes over a value. -/
def pass (ls : List Lexeme) : Except JsonFault (List Lexeme) := passRest [] .value ls

theorem passRest_length {stack : List Enclosure} {passing : Passing} {ls rest : List Lexeme}
    (h : passRest stack passing ls = .ok rest) : rest.length ≤ ls.length := by
  have step {n : Nat} {stack : List Enclosure} {ls : List Lexeme}
      {next : Except JsonFault Passing}
      (ih : ∀ passing, passRest stack passing ls = .ok rest → rest.length ≤ n)
      (h : (do passRest stack (← next) ls) = .ok rest) : rest.length ≤ n + 1 := by
    cases next with
    | error => cases h
    | ok p => exact Nat.le_succ_of_le (ih p h)
  fun_induction passRest stack passing ls
  case case1 => exact Except.ok.inj h ▸ Nat.le_refl _
  all_goals first
    | cases h
    | next ih => exact step ih h
    | next ih => exact Nat.le_succ_of_le (ih h)

end PieceSquare.Lexeme
