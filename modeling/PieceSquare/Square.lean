set_option autoImplicit false

/-! # Squares

A square of the board is known by its number: files run from a to h within a rank and ranks
from 1 to 8, so a1 is `0`, h1 is `7` and h8 is `63`. The board upside down (`flip`) exchanges
rank 1 with rank 8, rank 2 with rank 7 and so on, and keeps the files.
-/

namespace PieceSquare

/-- The files a to h, counted from 0. -/
abbrev File := Fin 8

/-- The ranks 1 to 8, counted from 0. -/
abbrev Rank := Fin 8

/-- A square by its number, a1 first and h8 last. -/
abbrev Square := Fin 64

/-! ## Files and ranks by name -/

namespace File

/-- The file a. -/
def a : File := ⟨0, by decide⟩

/-- The file c. -/
def c : File := ⟨2, by decide⟩

/-- The file d. -/
def d : File := ⟨3, by decide⟩

/-- The file f. -/
def f : File := ⟨5, by decide⟩

/-- The file g. -/
def g : File := ⟨6, by decide⟩

/-- The file h. -/
def h : File := ⟨7, by decide⟩

end File

namespace Rank

/-- The first rank. -/
def one : Rank := ⟨0, by decide⟩

/-- The second rank. -/
def two : Rank := ⟨1, by decide⟩

/-- The third rank. -/
def three : Rank := ⟨2, by decide⟩

/-- The fourth rank. -/
def four : Rank := ⟨3, by decide⟩

/-- The fifth rank. -/
def five : Rank := ⟨4, by decide⟩

/-- The sixth rank. -/
def six : Rank := ⟨5, by decide⟩

/-- The seventh rank. -/
def seven : Rank := ⟨6, by decide⟩

/-- The eighth rank. -/
def eight : Rank := ⟨7, by decide⟩

end Rank

/-- The letter of a file. -/
def File.letter (f : File) : Char := Char.ofNat ('a'.toNat + f.val)

/-- The digit of a rank. -/
def Rank.digit (r : Rank) : Char := Char.ofNat ('1'.toNat + r.val)

/-! ## Squares -/

namespace Square

/-- The square on a file and a rank. -/
def of (f : File) (r : Rank) : Square := ⟨8 * r.val + f.val, by omega⟩

/-- The file of a square. -/
def file (s : Square) : File := ⟨s.val % 8, by omega⟩

/-- The rank of a square. -/
def rank (s : Square) : Rank := ⟨s.val / 8, by omega⟩

/-- All squares, in ascending order. -/
def all : List Square := List.finRange 64

/-- The square of the same file on the reversed rank. -/
def flip (s : Square) : Square := of (file s) (rank s).rev

/-- The name of a square, such as `e4`. -/
def name (s : Square) : String := String.ofList [(file s).letter, (rank s).digit]

@[simp] theorem file_of (f : File) (r : Rank) : file (of f r) = f := by
  apply Fin.ext; simp only [file, of]; omega

@[simp] theorem rank_of (f : File) (r : Rank) : rank (of f r) = r := by
  apply Fin.ext; simp only [rank, of]; omega

@[simp] theorem of_file_rank (s : Square) : of (file s) (rank s) = s := by
  apply Fin.ext; simp only [file, rank, of]; omega

@[simp] theorem mem_all (s : Square) : s ∈ all := List.mem_finRange s

@[simp] theorem flip_flip (s : Square) : flip (flip s) = s := by
  simp [flip]

end Square

end PieceSquare
