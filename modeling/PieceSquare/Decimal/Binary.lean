set_option autoImplicit false

/-! # Binary floating point numbers taken apart

A finite floating point number is a natural number times a power of two, with a sign. The texts
of such numbers are computed from these exact parts, never from an approximation.
-/

namespace PieceSquare

/-- The layout of a floating point format: a sign bit, an exponent and a fraction. -/
structure FloatLayout where
  /-- The number of bits of the fraction. -/
  fractionBits : Nat
  /-- The number of bits of the exponent. -/
  exponentBits : Nat

/-- The layout of binary64. -/
def FloatLayout.double : FloatLayout := ⟨52, 11⟩

/-- The layout of binary32. -/
def FloatLayout.single : FloatLayout := ⟨23, 8⟩

/-- A finite number `± mantissa * 2 ^ exponent`. -/
structure Binary where
  /-- Whether the sign bit is set; zero has a sign too. -/
  negative : Bool
  /-- The significand as a natural number. -/
  mantissa : Nat
  /-- The power of two that it is multiplied by. -/
  exponent : Int
  /-- Whether the next number towards zero is only half as far away as the one on the other side. -/
  closeBelow : Bool

namespace Binary

/-- The number that a word stands for, if it is finite. -/
def ofWord? (layout : FloatLayout) (word : Nat) : Option Binary :=
  let fraction := word % Nat.pow 2 layout.fractionBits
  let biased := word / Nat.pow 2 layout.fractionBits % Nat.pow 2 layout.exponentBits
  let negative := word / Nat.pow 2 (layout.fractionBits + layout.exponentBits) % 2 == 1
  let bias : Int := Nat.pow 2 (layout.exponentBits - 1) - 1
  if biased + 1 = Nat.pow 2 layout.exponentBits then
    none
  else if biased = 0 then
    some ⟨negative, fraction, 1 - bias - layout.fractionBits, false⟩
  else
    some ⟨negative, Nat.pow 2 layout.fractionBits + fraction, biased - bias - layout.fractionBits,
      fraction == 0 && 1 < biased⟩

/-- The parts of a binary64 number. -/
def ofFloat? (x : Float) : Option Binary := ofWord? .double x.toBits.toNat

/-- The parts of a binary32 number. -/
def ofFloat32? (x : Float32) : Option Binary := ofWord? .single x.toBits.toNat

/-- The numerator of the power of two. -/
def scaleUp (b : Binary) : Nat := Nat.pow 2 b.exponent.toNat

/-- The denominator of the power of two. -/
def scaleDown (b : Binary) : Nat := Nat.pow 2 (-b.exponent).toNat

end Binary

end PieceSquare
