import PieceSquare.Board.Attack
import PieceSquare.Text.Integer

set_option autoImplicit false

/-! # The notation of boards

A board is written in the Forsyth-Edwards notation: six fields, with one space between two of
them, for the men, the side to move, the castling rights, the en passant square and the two
clocks. `Fen.read` takes the fields from left to right and stops at the first one that is wrong;
`FenFault` says which. It also rejects boards that no game could reach for simple reasons: too
many men or pawns, a missing king, a pawn on a last rank, a player in check who is not to move,
three checks at once, a castling right without its king and rook, an en passant square without
its pawn.

Some spellings are accepted that `Fen.write` never produces: missing ranks at the top of the
board are empty, several digits may stand for one gap, castling letters may come in any order or
not at all, and numbers may have a plus sign or leading zeros.
-/

namespace PieceSquare

/-- The part of a board's text that is wrong. -/
inductive FenFault where
  | board
  | sideToMove
  | castlingRights
  | enPassant
  | halfmoveClock
  | moveNumber
  | missingField
  | tooManyFields
deriving DecidableEq

/-- The name of a fault. -/
def FenFault.name : FenFault → String
  | .board => "InvalidBoard"
  | .sideToMove => "InvalidSideToMove"
  | .castlingRights => "InvalidCastlingRights"
  | .enPassant => "InvalidEnPassant"
  | .halfmoveClock => "InvalidHalfMoveClock"
  | .moveNumber => "InvalidFullmoveNumber"
  | .missingField => "MissingField"
  | .tooManyFields => "TooManyFields"

namespace Fen

/-! ## Men -/

/-- The squares that one character of a rank stands for: a digit is a gap, a letter a man. -/
def readCell (c : Char) : Option (List (Option Man)) :=
  if c.isDigit then some (List.replicate (digitValue c) none)
  else (Man.ofLetter? c).map fun m => [some m]

/-- Reads the eight squares of a rank. -/
def readRank (text : List Char) : Option (List (Option Man)) := do
  let cells ← text.mapM readCell
  let row := cells.flatten
  if row.length = 8 then some row else none

/-- The men of a list of ranks, the first rank first. Ranks that are not in the list are empty. -/
def placementOfRows (rows : List (List (Option Man))) : Placement :=
  Vector.ofFn fun (s : Square) => ((rows[s.rank.val]?.getD [])[s.file.val]?).join

/-- Reads the men, from the last rank down to the first. -/
def readMen (text : List Char) : Option Placement := do
  let rows ← (text.splitOn '/').reverse.mapM readRank
  if rows.length ≤ 8 then some (placementOfRows rows) else none

/-- The text of a gap of `n` squares. -/
def writeGap (n : Nat) : List Char := if n = 0 then [] else natDigits n

/-- The text of the squares of a rank, behind a gap of `n` squares. -/
def writeRow : Nat → List (Option Man) → List Char
  | n, [] => writeGap n
  | n, none :: row => writeRow (n + 1) row
  | n, some m :: row => writeGap n ++ m.letter :: writeRow 0 row

/-- The squares of a rank, from file a to file h. -/
def row (men : Placement) (r : Rank) : List (Option Man) :=
  (List.finRange 8).map fun f => men.man? (.of f r)

/-- The text of the men, from the last rank down to the first. -/
def writeMen (men : Placement) : List Char :=
  ['/'].intercalate ((List.finRange 8).reverse.map fun r => writeRow 0 (row men r))

/-- Whether a player has one king, at most sixteen men and at most eight pawns, none of them on
the first or the last rank. -/
def sideOk (men : Placement) (c : Color) : Bool :=
  let pawns := men.squaresOf ⟨c, .pawn⟩
  decide ((men.squaresOfColor c).count ≤ 16) &&
    decide ((men.squaresOf ⟨c, .king⟩).count = 1) &&
    decide (pawns.count ≤ 8) &&
    pawns.squares.all fun s => s.rank != .one && s.rank != .eight

/-- Whether the men are possible with a given side to move. -/
def menOk (men : Placement) (turn : Color) : Bool :=
  sideOk men .white && sideOk men .black && (men.checkers turn.other).isEmpty &&
    decide ((men.checkers turn).length < 3)

/-! ## The other fields -/

/-- Reads the side to move. -/
def readTurn : List Char → Option Color
  | ['w'] => some .white
  | ['b'] => some .black
  | _ => none

/-- The letter of the side to move. -/
def writeTurn : Color → Char
  | .white => 'w'
  | .black => 'b'

/-- Adds the right that a small letter stands for, unless it is there already. -/
def addRight (r : Rights) : Char → Option Rights
  | 'k' => if r.short.isNone then some { r with short := some .h } else none
  | 'q' => if r.long.isNone then some { r with long := some .a } else none
  | _ => none

/-- Reads the castling rights of White and Black. Capital letters are White's. -/
def readRights : List Char → Rights × Rights → Option (Rights × Rights)
  | [], r => some r
  | c :: cs, (white, black) =>
    if c.isUpper then
      (addRight white c.toLower).bind fun white => readRights cs (white, black)
    else
      (addRight black c.toLower).bind fun black => readRights cs (white, black)

/-- Whether the king of a player stands on its back rank, with one of its rooks at each file of a
right, on the proper side of the king. -/
def rightsOk (men : Placement) (c : Color) (r : Rights) : Bool :=
  let fits (f : File) (outside : File → Bool) : Bool :=
    match men.king? c with
    | none => false
    | some k =>
      decide (k.rank = c.backRank) && outside k.file &&
        decide (men.man? (.of f c.backRank) = some ⟨c, .rook⟩)
  (r.long.all fun f => fits f fun king => decide (f < king)) &&
    (r.short.all fun f => fits f fun king => decide (king < f))

/-- The letters of the castling rights, White's first and the king's side first. -/
def writeRights (white black : Rights) : List Char :=
  let letter (right : Option File) (c : Char) : List Char := if right.isSome then [c] else []
  let letters := letter white.short 'K' ++ letter white.long 'Q' ++
    letter black.short 'k' ++ letter black.long 'q'
  if letters.isEmpty then ['-'] else letters

/-- Reads a square. -/
def readSquare : List Char → Option Square
  | [f, r] => do
    let file ← (List.finRange 8).find? (File.letter · == f)
    let rank ← (List.finRange 8).find? (Rank.digit · == r)
    return .of file rank
  | _ => none

/-- Whether a pawn of the side that has just moved can have advanced two squares on a file: it
stands there, the two squares behind it are empty, and no check but its own can have been there
before. -/
def enPassantOk (men : Placement) (turn : Color) (f : File) : Bool :=
  let mover := turn.other
  let on (r : Rank) : Square := .of f (mover.ownRank r)
  decide (men.man? (on .four) = some ⟨mover, .pawn⟩) &&
    men.isEmptyAt (on .three) && men.isEmptyAt (on .two) &&
    match men.king? turn with
    | none => true
    | some k => (men.checkers turn).all fun c =>
      c == on .four || (Square.between c k).contains (on .two)

/-- Reads the file of the pawn that has just advanced two squares. -/
def readEnPassant (turn : Color) : List Char → Option (Option File)
  | ['-'] => some none
  | text => do
    let s ← readSquare text
    if s.rank = turn.other.ownRank .three then some (some s.file) else none

/-- Reads the number of moves without a capture or pawn move. -/
def readHalfmoves (text : List Char) : Option Clock :=
  match readNatural 100 text with
  | .ok n => if h : n < 101 then some ⟨n, h⟩ else none
  | .error _ => none

/-- Reads the number of the current move. -/
def readMoveNumber (text : List Char) : Option Nat :=
  match readNatural 65535 text with
  | .ok n => if n = 0 then none else some n
  | .error _ => none

/-! ## Whole boards -/

/-- The next field and those behind it. -/
def nextField : List (List Char) → Except FenFault (List Char × List (List Char))
  | [] => .error .missingField
  | field :: rest => .ok (field, rest)

/-- What was read, or the fault for a field that could not be read. -/
def orFault {α : Type} (fault : FenFault) : Option α → Except FenFault α
  | some x => .ok x
  | none => .error fault

/-- Demands a condition. -/
def demand (condition : Bool) (fault : FenFault) : Except FenFault Unit :=
  if condition then .ok () else .error fault

/-- Reads a board from its fields. -/
def ofFields (fields : List (List Char)) : Except FenFault Board := do
  let (field, fields) ← nextField fields
  let men ← orFault .board (readMen field)
  let (field, fields) ← nextField fields
  let turn ← orFault .sideToMove (readTurn field)
  demand (menOk men turn) .board
  let (field, fields) ← nextField fields
  let (white, black) ← orFault .castlingRights
    (readRights (if field = ['-'] then [] else field) (.none, .none))
  demand (rightsOk men .white white && rightsOk men .black black) .castlingRights
  let (field, fields) ← nextField fields
  let enPassant ← orFault .enPassant (readEnPassant turn field)
  demand (enPassant.all (enPassantOk men turn)) .enPassant
  let (field, fields) ← nextField fields
  let halfmoves ← orFault .halfmoveClock (readHalfmoves field)
  let (field, fields) ← nextField fields
  let moveNumber ← orFault .moveNumber (readMoveNumber field)
  demand fields.isEmpty .tooManyFields
  return {
    men, turn, whiteRights := white, blackRights := black, enPassant, halfmoves, moveNumber }

/-- Reads a board. -/
def read (text : List Char) : Except FenFault Board := ofFields (text.splitOn ' ')

/-- The fields of a board. -/
def fields (b : Board) : List (List Char) :=
  [writeMen b.men, [writeTurn b.turn], writeRights b.whiteRights b.blackRights,
    match b.enPassantSquare with
    | none => ['-']
    | some s => s.name.toList,
    natDigits b.halfmoves.val, natDigits b.moveNumber]

/-- Writes a board. -/
def write (b : Board) : String := String.ofList ([' '].intercalate (fields b))

end Fen

end PieceSquare
