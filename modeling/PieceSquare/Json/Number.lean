import PieceSquare.Json
import PieceSquare.Json.Fault

set_option autoImplicit false

/-! # Numbers in JSON

The digits of a number are gathered in a significand of 64 bits. Digits of the whole part that do
not fit any more count as powers of ten; digits of the fraction are dropped from the first one
that does not fit. A number that is not an integer is its significand as a binary64 number, once
multiplied or divided by a power of ten; a number too large for the format is a fault.
-/

namespace PieceSquare.JsonNumber

/-- Appends digits to a significand as long as it fits 64 bits, and gives the number of digits
that were appended. -/
def gather : Nat → List Char → Nat × Nat
  | n, [] => (n, 0)
  | n, c :: cs =>
    let m := 10 * n + digitValue c
    if m < wordCount then
      let (all, count) := gather m cs
      (all, count + 1)
    else
      (n, 0)

/-- The binary64 number nearest to a power of ten, for exponents up to 308. -/
def powerOfTen (k : Nat) : Float := Float.ofScientific 1 false k

/-- A significand times a power of ten. -/
def scaled (significand : Nat) (power : Int) : Except JsonFault Float :=
  let x := significand.toUInt64.toFloat
  if power ≤ -617 then
    .ok 0
  else if power < -308 then
    .ok (x / powerOfTen 308 / powerOfTen (-power - 308).toNat)
  else if power < 0 then
    .ok (x / powerOfTen (-power).toNat)
  else if significand = 0 then
    .ok 0
  else
    let product := x * powerOfTen power.toNat
    if 308 < power ∨ product.isInf then .error .numberOutOfRange else .ok product

/-- The parts of a number behind its sign, as they stand in a text. -/
structure Parts where
  /-- The digits in front of the point. -/
  whole : List Char
  /-- The digits behind the point, if there is a point. -/
  fraction : Option (List Char)
  /-- The exponent, if there is one. -/
  power : Option Int

/-- The binary64 number with given parts. -/
def Parts.toFloat (p : Parts) (negative : Bool) : Except JsonFault Float := do
  let (significand, count) := gather 0 p.whole
  let power : Int := (p.whole.length - count : Nat)
  let (significand, count) := gather significand (p.fraction.getD [])
  let x ← scaled significand (power - count + p.power.getD 0)
  return if negative then -x else x

/-- The value of a number. Minus zero is not an integer. -/
def Parts.value (p : Parts) (negative : Bool) : Except JsonFault Json :=
  let n := p.whole.foldl (fun n c => 10 * n + digitValue c) 0
  if p.fraction.isSome || p.power.isSome then
    (p.toFloat negative).map .float
  else if negative && 0 < n && n ≤ signedLimit then
    .ok (.integer (-n))
  else if !negative && n < wordCount then
    .ok (.integer n)
  else
    (p.toFloat negative).map .float

end PieceSquare.JsonNumber
