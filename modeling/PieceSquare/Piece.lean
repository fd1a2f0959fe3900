set_option autoImplicit false

/-! # Colours and pieces

The two colours, the six kinds of piece in the order in which they are counted and weighed, and
a man of one colour and one kind with its letter: capital letters are White's.
-/

namespace PieceSquare

/-- The two players. -/
inductive Color where
  | white
  | black
deriving DecidableEq

/-- The other player. -/
def Color.other : Color → Color
  | .white => .black
  | .black => .white

@[simp] theorem Color.other_other (c : Color) : c.other.other = c := by cases c <;> rfl

/-- The kinds of piece. -/
inductive Kind where
  | pawn
  | knight
  | bishop
  | rook
  | queen
  | king
deriving DecidableEq

namespace Kind

/-- All kinds, from pawn to king. -/
def all : List Kind := [.pawn, .knight, .bishop, .rook, .queen, .king]

/-- The place of a kind in `all`. -/
def index : Kind → Nat
  | .pawn => 0
  | .knight => 1
  | .bishop => 2
  | .rook => 3
  | .queen => 4
  | .king => 5

/-- The small letter of a kind. -/
def letter : Kind → Char
  | .pawn => 'p'
  | .knight => 'n'
  | .bishop => 'b'
  | .rook => 'r'
  | .queen => 'q'
  | .king => 'k'

/-- The kind with a given small letter. -/
def ofLetter? (c : Char) : Option Kind := all.find? (·.letter == c)

end Kind

/-- A man: a piece of one of the players. -/
structure Man where
  /-- The player it belongs to. -/
  color : Color
  /-- What kind of piece it is. -/
  kind : Kind
deriving DecidableEq

namespace Man

/-- The letter of a man: a capital for White, small for Black. -/
def letter (m : Man) : Char :=
  match m.color with
  | .white => m.kind.letter.toUpper
  | .black => m.kind.letter

/-- The man with a given letter. -/
def ofLetter? (c : Char) : Option Man :=
  (Kind.ofLetter? c.toLower).map fun k => ⟨if c.isUpper then .white else .black, k⟩

theorem ofLetter?_letter (m : Man) : ofLetter? m.letter = some m := by
  obtain ⟨c, k⟩ := m
  cases c <;> cases k <;> decide

end Man

end PieceSquare
