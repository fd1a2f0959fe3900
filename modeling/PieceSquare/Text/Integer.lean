set_option autoImplicit false

/-! # Decimal integers in text

A number is written with ASCII digits, at least one, after an optional sign. Characters are read
from the left, and the first one at which something is wrong decides which fault is reported: a
character that is no digit, or a digit that takes the number past its limit.
-/

namespace PieceSquare

/-- Why a text is no number of the wanted range. -/
inductive IntegerFault where
  /-- The text is empty. -/
  | empty
  /-- A character is no digit. -/
  | invalidDigit
  /-- The number is above the limit. -/
  | tooLarge
deriving DecidableEq

/-- The text of a fault. -/
def IntegerFault.message : IntegerFault → String
  | .empty => "cannot parse integer from empty string"
  | .invalidDigit => "invalid digit found in string"
  | .tooLarge => "number too large to fit in target type"

/-- The value of a digit. -/
def digitValue (c : Char) : Nat := c.toNat - '0'.toNat

/-- Continues a number with more digits, as long as it stays within a limit. -/
def readDigits (limit : Nat) : Nat → List Char → Except IntegerFault Nat
  | n, [] => .ok n
  | n, c :: cs =>
    if c.isDigit then
      let m := 10 * n + digitValue c
      if m ≤ limit then readDigits limit m cs else .error .tooLarge
    else
      .error .invalidDigit

/-- Reads a number from 0 to a limit, with an optional plus sign. -/
def readNatural (limit : Nat) : List Char → Except IntegerFault Nat
  | [] => .error .empty
  | [c] => readDigits limit 0 [c]
  | '+' :: c :: cs => readDigits limit 0 (c :: cs)
  | cs => readDigits limit 0 cs

/-- The number of words of 64 bits, which is 2 to the power 64. -/
def wordCount : Nat := 18446744073709551616

/-- Half of it, the first number that is no signed integer of 64 bits. -/
def signedLimit : Nat := 9223372036854775808

/-- Reads a signed integer of 64 bits. -/
def readInt64? : List Char → Option Int64
  | [] => none
  | [c] => (readDigits (signedLimit - 1) 0 [c]).toOption.map fun n => .ofNat n
  | '-' :: c :: cs => (readDigits signedLimit 0 (c :: cs)).toOption.map fun n => .ofInt (-n)
  | '+' :: c :: cs => (readDigits (signedLimit - 1) 0 (c :: cs)).toOption.map fun n => .ofNat n
  | cs => (readDigits (signedLimit - 1) 0 cs).toOption.map fun n => .ofNat n

/-- The decimal digits of a number. -/
def natDigits (n : Nat) : List Char := Nat.toDigits 10 n

end PieceSquare
