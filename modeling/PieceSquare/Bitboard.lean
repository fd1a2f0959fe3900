import PieceSquare.Square

set_option autoImplicit false

/-! # Sets of squares as 64-bit words

A `Bitboard` is a set of squares: bit `i` of the word tells whether square `i` belongs to it.
Everything said about a bitboard is said through `contains`; each operation below has one lemma
that gives its squares. The squares of a board are listed in ascending order (`squares`), which
fixes the order in which weights are added up.
-/

namespace PieceSquare

/-- A set of squares, one bit for each. -/
abbrev Bitboard := BitVec 64

namespace Bitboard

/-- Whether a square belongs to the set. -/
def contains (b : Bitboard) (s : Square) : Bool := b.getLsbD s.val

/-- The set of all squares. -/
def full : Bitboard := BitVec.allOnes 64

/-- The set that holds one square. -/
def single (s : Square) : Bitboard := BitVec.twoPow 64 s.val

/-- The set of the squares of a list. -/
def ofSquares (l : List Square) : Bitboard := l.foldr (fun s b => single s ||| b) 0

/-- The set of the squares that satisfy a condition. -/
def ofPred (p : Square → Bool) : Bitboard := ofSquares (Square.all.filter p)

/-- The squares of the set, in ascending order. -/
def squares (b : Bitboard) : List Square := Square.all.filter b.contains

/-- The number of squares of the set. -/
def count (b : Bitboard) : Nat := Square.all.countP b.contains

/-- The lowest square of the set. -/
def lowest? (b : Bitboard) : Option Square := Square.all.find? b.contains

/-- The eight squares of one rank, as a word of eight bits. -/
def rankWord (b : Bitboard) (r : Rank) : BitVec 8 := b.extractLsb' (8 * r.val) 8

/-- The board upside down: rank 1 becomes rank 8, rank 2 becomes rank 7 and so on. -/
def flip (b : Bitboard) : Bitboard :=
  b.rankWord .one ++ b.rankWord .two ++ b.rankWord .three ++ b.rankWord .four ++
    b.rankWord .five ++ b.rankWord .six ++ b.rankWord .seven ++ b.rankWord .eight

/-! ## Membership -/

/-- Two sets with the same squares are equal. -/
theorem ext_contains {a b : Bitboard} (h : ∀ s, a.contains s = b.contains s) : a = b :=
  BitVec.eq_of_getLsbD_eq fun i hi => h ⟨i, hi⟩

@[simp] theorem contains_zero (s : Square) : contains 0 s = false := by
  simp [contains]

@[simp] theorem contains_full (s : Square) : contains full s = true := by
  rw [contains, full, BitVec.getLsbD_allOnes]
  exact decide_eq_true s.isLt

@[simp] theorem contains_single (s t : Square) : contains (single s) t = decide (s = t) := by
  simp [contains, single, Fin.ext_iff, eq_comm]

@[simp] theorem contains_or (a b : Bitboard) (s : Square) :
    contains (a ||| b) s = (contains a s || contains b s) := by
  simp [contains]

@[simp] theorem contains_ofSquares (l : List Square) (s : Square) :
    contains (ofSquares l) s = l.contains s := by
  induction l with
  | nil => exact contains_zero s
  | cons t l ih =>
      have step : ofSquares (t :: l) = single t ||| ofSquares l := rfl
      rw [step, contains_or, contains_single, ih]
      simp [eq_comm]

@[simp] theorem contains_ofPred (p : Square → Bool) (s : Square) :
    contains (ofPred p) s = p s := by
  simp [ofPred]

theorem mem_squares {b : Bitboard} {s : Square} : s ∈ b.squares ↔ b.contains s = true := by
  simp [squares]

theorem length_squares (b : Bitboard) : b.squares.length = b.count :=
  List.countP_eq_length_filter.symm

/-- The board upside down holds the reversed squares. -/
@[simp] theorem contains_flip (b : Bitboard) (s : Square) :
    b.flip.contains s = b.contains s.flip := by
  obtain ⟨i, hi⟩ := s
  have rank : i / 8 = 0 ∨ i / 8 = 1 ∨ i / 8 = 2 ∨ i / 8 = 3 ∨ i / 8 = 4 ∨ i / 8 = 5 ∨
      i / 8 = 6 ∨ i / 8 = 7 := by omega
  simp only [contains, flip, rankWord, Rank.one, Rank.two, Rank.three, Rank.four, Rank.five,
    Rank.six, Rank.seven, Rank.eight, Square.flip, Square.of, Square.file, Square.rank, Fin.rev,
    BitVec.getLsbD_append, BitVec.getLsbD_extractLsb']
  rcases rank with h | h | h | h | h | h | h | h <;>
    simp (disch := omega) only [h, if_pos, if_neg, decide_eq_true, Bool.true_and] <;>
    exact congrArg _ (by simp; omega)

@[simp] theorem flip_flip (b : Bitboard) : b.flip.flip = b :=
  ext_contains fun s => by simp

end Bitboard

end PieceSquare
