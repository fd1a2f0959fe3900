import PieceSquare.Decimal.Binary
import PieceSquare.Text.Integer

set_option autoImplicit false

/-! # The shortest decimal text of a number

A floating point number is written with the fewest decimal digits that read back as the same
number, and of several texts with that many digits the one nearest to the exact value is taken,
or the even one of two that are equally near.

The numbers that read back as a given number form an interval around it; its ends belong to it
when the mantissa is even. `shortestDigits` looks for a decimal number in that interval, first
among those with one digit, then among those with two digits and so on. On each of these grids
only the two neighbours of the exact value have to be tried.
-/

namespace PieceSquare

namespace Binary

/-- A decimal number `digits * 10 ^ power`. -/
structure Decimal where
  /-- The digits as one natural number. -/
  digits : Nat
  /-- The power of ten. -/
  power : Int

/-- Twice the distances from a number to the two ends of the interval of numbers that read back
as it, in units of a quarter of its last binary place. -/
def margins (b : Binary) : Nat × Nat := (if b.closeBelow then 1 else 2, 2)

/-- Whether `c * 10 ^ k` reads back as the number. -/
def readsBack (b : Binary) (c : Nat) (k : Int) : Bool :=
  -- Both sides of each comparison are multiplied by the denominators of the two powers.
  let x := c * Nat.pow 10 k.toNat * b.scaleDown * 4
  let unit := b.scaleUp * Nat.pow 10 (-k).toNat
  let low := (4 * b.mantissa - b.margins.1) * unit
  let high := (4 * b.mantissa + b.margins.2) * unit
  if b.mantissa % 2 == 0 then low ≤ x && x ≤ high else low < x && x < high

/-- The power of ten of the leading digit of a positive number. -/
def leadingPower (b : Binary) : Int :=
  let shift : Nat := 400
  ((natDigits (b.mantissa * b.scaleUp * Nat.pow 10 shift / b.scaleDown)).length : Int) - 1 - shift

/-- The decimal number with a last digit at `10 ^ k` that is nearest to the number among those
that read back as it; of two that are equally near, the even one. -/
def nearestAt? (b : Binary) (k : Int) : Option Decimal :=
  let num := b.mantissa * b.scaleUp * Nat.pow 10 (-k).toNat
  let den := b.scaleDown * Nat.pow 10 k.toNat
  let below := num / den
  let twice := 2 * (num % den)
  let downwards := twice < den || (twice == den && below % 2 == 0)
  let nearer := if downwards then [below, below + 1] else [below + 1, below]
  (nearer.find? fun c => b.readsBack c k).map fun c => ⟨c, k⟩

/-- The shortest decimal number that reads back as a positive number. -/
def shortestDigits (b : Binary) : Decimal :=
  let lead := b.leadingPower
  ((List.range 17).findSome? fun (n : Nat) => b.nearestAt? (lead - n)).getD ⟨b.mantissa, 0⟩

end Binary

/-! ## The text -/

/-- The powers of ten of the leading digit for which a number is written without an exponent. -/
structure PositionalRange where
  /-- The least such power. -/
  least : Int
  /-- The greatest such power. -/
  greatest : Int

/-- Numbers of binary64 are written without an exponent from 0.00001 to below 10 ^ 16. -/
def PositionalRange.double : PositionalRange := ⟨-5, 15⟩

/-- Numbers of binary32 are written without an exponent from 0.000001 to below 10 ^ 13. -/
def PositionalRange.single : PositionalRange := ⟨-6, 12⟩

/-- The digits without the zeros at their end. -/
def withoutFinalZeros (digits : List Char) : List Char :=
  (digits.reverse.dropWhile (· == '0')).reverse

/-- Digits whose leading one has the power `lead` of ten, written without an exponent. At least
one digit stands on each side of the point. -/
def positional (digits : List Char) (lead : Int) : List Char :=
  if lead < 0 then
    '0' :: '.' :: (List.replicate ((-lead).toNat - 1) '0' ++ digits)
  else
    let whole := lead.toNat + 1
    let before := digits.take whole ++ List.replicate (whole - digits.length) '0'
    let after := digits.drop whole
    before ++ '.' :: (if after.isEmpty then ['0'] else after)

/-- Digits whose leading one has the power `lead` of ten, written with an exponent. The exponent
has a sign. -/
def scientific (digits : List Char) (lead : Int) : List Char :=
  let mark := if lead < 0 then ['e', '-'] else ['e', '+']
  let rest := digits.drop 1
  digits.take 1 ++ (if rest.isEmpty then [] else '.' :: rest) ++ mark ++ natDigits lead.natAbs

/-- The shortest text of a finite number. -/
def Binary.shortestText (range : PositionalRange) (b : Binary) : List Char :=
  let sign := if b.negative then ['-'] else []
  if b.mantissa = 0 then
    sign ++ ['0', '.', '0']
  else
    let d := b.shortestDigits
    let all := natDigits d.digits
    let lead := d.power + all.length - 1
    let digits := withoutFinalZeros all
    sign ++
      if range.least ≤ lead ∧ lead ≤ range.greatest then positional digits lead
      else scientific digits lead

/-- The shortest text of a binary64 number. A number that is not finite has none. -/
def shortestText (x : Float) : List Char :=
  match Binary.ofFloat? x with
  | some b => b.shortestText .double
  | none => ['n', 'u', 'l', 'l']

/-- The shortest text of a binary32 number. A number that is not finite has none. -/
def shortestText32 (x : Float32) : List Char :=
  match Binary.ofFloat32? x with
  | some b => b.shortestText .single
  | none => ['n', 'u', 'l', 'l']

end PieceSquare
