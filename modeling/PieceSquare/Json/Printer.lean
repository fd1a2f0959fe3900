import PieceSquare.Decimal.Shortest
import PieceSquare.Json

set_option autoImplicit false

/-! # Writing JSON values

Values are written without spaces. In a string the quote, the backslash and the controls are
escaped, by a letter where there is one and by their number otherwise; all other characters stand
for themselves.
-/

namespace PieceSquare.Json

/-- A character as it stands in a string. -/
def escapedChar (c : Char) : List Char :=
  match c with
  | '\x22' => ['\x5c', '\x22']
  | '\x5c' => ['\x5c', '\x5c']
  | '\x08' => ['\x5c', 'b']
  | '\x0c' => ['\x5c', 'f']
  | '\n' => ['\x5c', 'n']
  | '\r' => ['\x5c', 'r']
  | '\t' => ['\x5c', 't']
  | c =>
    if c < ' ' then
      ['\x5c', 'u', '0', '0', Nat.digitChar (c.toNat / 16), Nat.digitChar (c.toNat % 16)]
    else [c]

/-- The text of a string. -/
def writeString (s : String) : List Char :=
  '\x22' :: (s.toList.flatMap escapedChar ++ ['\x22'])

/-- The text of an integer. -/
def writeInteger (n : Int) : List Char :=
  if n < 0 then '-' :: natDigits n.natAbs else natDigits n.natAbs

mutual

/-- The text of a value. -/
def write : Json → List Char
  | null => ['n', 'u', 'l', 'l']
  | bool true => ['t', 'r', 'u', 'e']
  | bool false => ['f', 'a', 'l', 's', 'e']
  | integer n => writeInteger n
  | float x => shortestText x
  | string s => writeString s
  | array [] => ['[', ']']
  | array (x :: xs) => '[' :: (write x ++ writeElements xs)
  | object [] => ['\x7b', '\x7d']
  | object ((n, x) :: xs) => '\x7b' :: (writeString n ++ ':' :: (write x ++ writeMembers xs))

/-- The text of further elements of a list, and its end. -/
def writeElements : List Json → List Char
  | [] => [']']
  | x :: xs => ',' :: (write x ++ writeElements xs)

/-- The text of further members of an object, and its end. -/
def writeMembers : List (String × Json) → List Char
  | [] => ['\x7d']
  | (n, x) :: xs => ',' :: (writeString n ++ ':' :: (write x ++ writeMembers xs))

end

/-- A value as a text. -/
def text (j : Json) : String := String.ofList j.write

end PieceSquare.Json
