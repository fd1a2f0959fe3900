import PieceSquare.Text.Integer

set_option autoImplicit false

/-! # Reading decimal numbers

The text of a number is an optional sign and then either the word `inf`, `infinity` or `nan` in
letters of any case, or decimal digits with an optional point (at least one digit in all) and an
optional exponent. Its value is the binary64 number nearest to the exact one; a number too large
for the format is infinite.
-/

namespace PieceSquare

/-- The number nearest to `m * 10 ^ e`. Exponents far outside the format's range, for which the
power would be a needlessly long integer, are answered at once. -/
def nearestDouble (m : Nat) (e : Int) : Float :=
  let lead := ((natDigits m).length : Int) + e
  if m = 0 ∨ lead < -400 then 0
  else if 400 < lead then 1 / 0
  else Float.ofScientific m (decide (e < 0)) e.natAbs

/-- The natural number that a list of digits stands for. -/
def digitsValue (digits : List Char) : Nat := digits.foldl (fun n c => 10 * n + digitValue c) 0

/-- Reads an exponent, mark included. No exponent at all is an exponent of zero. -/
def readExponent : List Char → Option Int
  | [] => some 0
  | mark :: cs =>
    if mark = 'e' ∨ mark = 'E' then
      let (negative, digits) := match cs with
        | '-' :: cs => (true, cs)
        | '+' :: cs => (false, cs)
        | cs => (false, cs)
      if digits.isEmpty || !digits.all Char.isDigit then none
      else some (if negative then -(digitsValue digits : Int) else digitsValue digits)
    else
      none

/-- Reads a number without a sign. -/
def readUnsigned (cs : List Char) : Option Float :=
  let word := cs.map Char.toLower
  if word = ['i', 'n', 'f'] ∨ word = ['i', 'n', 'f', 'i', 'n', 'i', 't', 'y'] then
    some (1 / 0)
  else if word = ['n', 'a', 'n'] then
    some (0 / 0)
  else
    let whole := cs.takeWhile Char.isDigit
    let rest := cs.dropWhile Char.isDigit
    let (fraction, rest) := match rest with
      | '.' :: rest => (rest.takeWhile Char.isDigit, rest.dropWhile Char.isDigit)
      | rest => ([], rest)
    if whole.isEmpty && fraction.isEmpty then
      none
    else
      (readExponent rest).map fun e =>
        nearestDouble (digitsValue (whole ++ fraction)) (e - fraction.length)

/-- Reads a number. -/
def readDouble? : List Char → Option Float
  | '-' :: cs => (readUnsigned cs).map fun x => -x
  | '+' :: cs => readUnsigned cs
  | cs => readUnsigned cs

end PieceSquare
