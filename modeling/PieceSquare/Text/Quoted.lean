import PieceSquare.Text.Hidden

set_option autoImplicit false

/-! # Quoted texts

A text between double quotes, in which every character can be told: quotes and backslashes have a
backslash in front, the common controls have letters, and other characters that would not show
are written by their hexadecimal number.
-/

namespace PieceSquare

/-- The hexadecimal digits of a number. -/
def hexDigits (n : Nat) : List Char := Nat.toDigits 16 n

/-- A character as it stands between double quotes. -/
def quotedChar (c : Char) : List Char :=
  match c with
  | '\x22' => ['\x5c', '\x22']
  | '\x5c' => ['\x5c', '\x5c']
  | '\n' => ['\x5c', 'n']
  | '\r' => ['\x5c', 'r']
  | '\t' => ['\x5c', 't']
  | '\x00' => ['\x5c', '0']
  | c => if isHidden c then ['\x5c', 'u', '\x7b'] ++ hexDigits c.toNat ++ ['\x7d'] else [c]

/-- The text between double quotes. -/
def quoted (s : String) : String :=
  String.ofList ('\x22' :: (s.toList.flatMap quotedChar ++ ['\x22']))

end PieceSquare
