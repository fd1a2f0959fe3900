set_option autoImplicit false

/-! # A seeded generator of random words

The xoshiro256++ generator: a state of four 64-bit words, of which each step makes one random
word and a new state. A seed of 64 bits is stretched to the four words by a linear congruential
generator with permuted output, 32 bits at a time.

`below` draws a number below a bound without bias. The product of a random word and the bound has
128 bits; its high half is the number, and its low half decides whether the draw counts. Words are
made until one counts. As the next words follow from the state alone and there are `stateCount`
states, no later word counts if none of the first `stateCount` words does, and the search stops there.
-/

namespace PieceSquare

/-- The state of the generator. -/
structure Generator where
  s0 : UInt64
  s1 : UInt64
  s2 : UInt64
  s3 : UInt64
deriving DecidableEq

namespace Generator

/-- The bits of a 32-bit word, moved to the right by `n` places in a circle. -/
def rotateRight (x n : UInt32) : UInt32 := (x >>> n) ||| (x <<< ((32 - n) % 32))

/-- The bits of a 64-bit word, moved to the left by `n` places in a circle, for `n` from 1 to 63. -/
def rotateLeft (x n : UInt64) : UInt64 := (x <<< n) ||| (x >>> (64 - n))

/-! ## Seeding -/

/-- The next state of the congruential generator. -/
def stretch (state : UInt64) : UInt64 := state * 6364136223846793005 + 11634580027462260723

/-- The 32 random bits of a state of the congruential generator: some of its high bits, folded
and turned by an amount that its highest bits give. -/
def permuted (state : UInt64) : UInt32 :=
  rotateRight (((state >>> 18) ^^^ state) >>> 27).toUInt32 (state >>> 59).toUInt32

/-- Two outputs of the congruential generator as one word, the first in the low half, and the
state behind them. -/
def stretchWord (state : UInt64) : UInt64 × UInt64 :=
  let low := stretch state
  let high := stretch low
  ((permuted low).toUInt64 ||| ((permuted high).toUInt64 <<< 32), high)

/-- The generator of a seed. -/
def ofSeed (seed : UInt64) : Generator :=
  let (s0, state) := stretchWord seed
  let (s1, state) := stretchWord state
  let (s2, state) := stretchWord state
  let (s3, _) := stretchWord state
  ⟨s0, s1, s2, s3⟩

/-! ## Drawing -/

/-- A random word and the generator behind it. -/
def next (g : Generator) : UInt64 × Generator :=
  let word := rotateLeft (g.s0 + g.s3) 23 + g.s0
  let s2 := g.s2 ^^^ g.s0
  let s3 := g.s3 ^^^ g.s1
  (word, ⟨g.s0 ^^^ s3, g.s1 ^^^ s2, s2 ^^^ (g.s1 <<< 17), rotateLeft s3 45⟩)

/-- The number of states: four words of 64 bits. -/
def stateCount : Nat := Nat.pow 2 256

/-- The bound with its leading zeros moved to its end, less one: draws whose low half is not above
it count. -/
def zone (n : Nat) : Nat := (n <<< (63 - n.log2)) - 1

/-- Whether a word counts in a draw below `n`. -/
def counts (n : Nat) (word : UInt64) : Bool := word.toNat * n % Nat.pow 2 64 ≤ zone n

/-- The number below `n` that a word gives. -/
def scaled (n : Nat) (word : UInt64) : Nat := word.toNat * n / Nat.pow 2 64

theorem scaled_lt {n : Nat} (hn : 0 < n) (word : UInt64) : scaled n word < n := by
  -- A word is below the number of words, so its product with `n` has a high half below `n`.
  have hword : word.toNat < Nat.pow 2 64 := word.toNat_lt
  exact Nat.div_lt_of_lt_mul (Nat.mul_lt_mul_of_pos_right hword hn)

/-- Draws until a word counts, at most so many words more. -/
def drawBelow (n : Nat) : Nat → Generator → Nat × Generator
  | 0, g => (scaled n g.next.1, g.next.2)
  | more + 1, g =>
    if counts n g.next.1 then (scaled n g.next.1, g.next.2) else drawBelow n more g.next.2

theorem drawBelow_lt {n : Nat} (hn : 0 < n) (more : Nat) (g : Generator) :
    (drawBelow n more g).1 < n := by
  induction more generalizing g with
  | zero => exact scaled_lt hn g.next.1
  | succ more ih =>
    unfold drawBelow
    split
    · exact scaled_lt hn g.next.1
    · exact ih g.next.2

/-- Draws a number below `n`, for an `n` from 1 to 2 to the power 64. -/
def below (n : Nat) (g : Generator) : Nat × Generator := drawBelow n stateCount g

/-- A number is drawn below its bound. -/
theorem below_lt {n : Nat} (hn : 0 < n) (g : Generator) : (g.below n).1 < n :=
  drawBelow_lt hn stateCount g

end Generator

/-! ## Sources of random numbers -/

/-- A source of random numbers, with a state of some type. -/
structure Source (γ : Type) where
  /-- Draws a number below a bound, and gives the state behind it. -/
  below : Nat → γ → Nat × γ
  /-- A number is drawn below its bound. -/
  below_lt : ∀ {n : Nat}, 0 < n → ∀ g : γ, (below n g).1 < n

/-- The generator as a source. -/
def Generator.source : Source Generator := ⟨fun n g => g.below n, fun hn g => below_lt hn g⟩

end PieceSquare
