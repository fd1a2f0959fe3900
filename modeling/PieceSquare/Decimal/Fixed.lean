import PieceSquare.Decimal.Binary
import PieceSquare.Text.Integer

set_option autoImplicit false

/-! # Numbers with a fixed number of decimal places

The exact value is rounded to the nearest multiple of the last place, and a value halfway between
two multiples goes to the even one. A negative number keeps its minus sign also where it is zero
or is rounded to zero.
-/

namespace PieceSquare

/-- The natural number nearest to a quotient; of two that are equally near, the even one. -/
def roundDiv (num den : Nat) : Nat :=
  let q := num / den
  let twice := 2 * (num % den)
  if den < twice || (den == twice && q % 2 == 1) then q + 1 else q

/-- The digits of a number, filled up with leading zeros to a width. -/
def paddedDigits (width n : Nat) : List Char :=
  let digits := natDigits n
  List.replicate (width - digits.length) '0' ++ digits

/-- A number in units of its last decimal place, written with a decimal point. -/
def pointed (places units : Nat) : List Char :=
  let digits := paddedDigits (places + 1) units
  let whole := digits.length - places
  if places = 0 then digits else digits.take whole ++ '.' :: digits.drop whole

/-- What stands in front of a number: the minus of a negative one, and for all others a sign that
the caller chooses. -/
def signText (negative : Bool) (plus : List Char) : List Char := if negative then ['-'] else plus

/-- A binary32 number with a fixed number of decimal places, and `plus` in front of it if it has
no minus sign. -/
def fixedText (plus : List Char) (places : Nat) (x : Float32) : String :=
  match Binary.ofFloat32? x with
  | some b =>
    let units := roundDiv (b.mantissa * b.scaleUp * Nat.pow 10 places) b.scaleDown
    String.ofList (signText b.negative plus ++ pointed places units)
  | none =>
    if x.isNaN then "NaN" else String.ofList (signText (decide (x < 0)) plus ++ ['i', 'n', 'f'])

end PieceSquare
