import PieceSquare.Board

set_option autoImplicit false

/-! # Lines and attacks

A ray is the list of the squares met on the way from a square to the edge of the board. Rooks and
bishops see along their rays up to the first man, queens along both kinds of ray, and the other
pieces by fixed steps. The men that give check to a king (`checkers`) and the men that must not
leave the line to their king (`pins`) are found by looking outwards from the king.
-/

namespace PieceSquare

/-- A step on the board: so many files to the right and so many ranks upwards. -/
structure Step where
  /-- Files to the right; negative to the left. -/
  files : Int
  /-- Ranks upwards; negative downwards. -/
  ranks : Int

namespace Step

/-- The steps of a rook. -/
def straight : List Step := [⟨1, 0⟩, ⟨0, 1⟩, ⟨-1, 0⟩, ⟨0, -1⟩]

/-- The steps of a bishop. -/
def diagonal : List Step := [⟨1, 1⟩, ⟨-1, 1⟩, ⟨-1, -1⟩, ⟨1, -1⟩]

/-- The steps of a king, which are those of a queen. -/
def around : List Step := straight ++ diagonal

/-- The leaps of a knight. -/
def leaps : List Step :=
  [⟨1, 2⟩, ⟨2, 1⟩, ⟨2, -1⟩, ⟨1, -2⟩, ⟨-1, -2⟩, ⟨-2, -1⟩, ⟨-2, 1⟩, ⟨-1, 2⟩]

/-- Whether a step goes along a file or a rank. -/
def isStraight (d : Step) : Bool := d.files == 0 || d.ranks == 0

/-- The step straight ahead for the pawns of a player. -/
def ahead : Color → Step
  | .white => ⟨0, 1⟩
  | .black => ⟨0, -1⟩

/-- The steps by which the pawns of a player capture. -/
def pawnCaptures (c : Color) : List Step := [⟨-1, (ahead c).ranks⟩, ⟨1, (ahead c).ranks⟩]

end Step

namespace Square

/-- The square one step away, if it is on the board. -/
def step? (s : Square) (d : Step) : Option Square :=
  let f := (file s).val + d.files
  let r := (rank s).val + d.ranks
  if h : (0 ≤ f ∧ f < 8) ∧ (0 ≤ r ∧ r < 8) then
    some (of ⟨f.toNat, by omega⟩ ⟨r.toNat, by omega⟩)
  else
    none

/-- The squares reached by up to `n` equal steps, in order. -/
def walk (d : Step) : Nat → Square → List Square
  | 0, _ => []
  | n + 1, s =>
    match step? s d with
    | none => []
    | some t => t :: walk d n t

/-- The squares from a square, itself left out, to the edge of the board. -/
def ray (s : Square) (d : Step) : List Square := walk d 7 s

/-- The squares strictly between two squares of one line; none for other squares. -/
def between (s t : Square) : List Square :=
  match (Step.around.map (ray s)).find? (·.contains t) with
  | none => []
  | some line => line.takeWhile (· != t)

end Square

/-- Whether a kind of piece slides in the direction of a step. -/
def Kind.slides (k : Kind) (d : Step) : Bool :=
  match k with
  | .queen => true
  | .rook => d.isStraight
  | .bishop => !d.isStraight
  | _ => false

namespace Placement

/-- The first man on a list of squares, with its square. -/
def firstMan? (men : Placement) (line : List Square) : Option (Square × Man) :=
  line.findSome? fun s => (men.man? s).map fun m => (s, m)

/-- The squares that a sliding piece sees on a ray: up to the first man, that man's square
included. -/
def visible (men : Placement) (line : List Square) : List Square :=
  line.takeWhile men.isEmptyAt ++ ((men.firstMan? line).map (·.1)).toList

/-- Whether a given man stands one of the given steps away from a square. -/
def reachedBy (men : Placement) (s : Square) (steps : List Step) (man : Man) : List Square :=
  (steps.filterMap (Square.step? s)).filter fun t => decide (men.man? t = some man)

/-- The squares of a player's sliding pieces that attack a square. -/
def sliders (men : Placement) (enemy : Color) (s : Square) : List Square :=
  Step.around.filterMap fun d =>
    match men.firstMan? (s.ray d) with
    | none => none
    | some (t, m) => if m.color = enemy && m.kind.slides d then some t else none

/-- The squares of a player's pieces other than the king that attack a square. -/
def attackers (men : Placement) (enemy : Color) (s : Square) : List Square :=
  men.sliders enemy s ++ men.reachedBy s Step.leaps ⟨enemy, .knight⟩ ++
    men.reachedBy s (Step.pawnCaptures enemy.other) ⟨enemy, .pawn⟩

/-- Whether a player attacks a square, with the king as with any other piece. -/
def isAttacked (men : Placement) (enemy : Color) (s : Square) : Bool :=
  !(men.attackers enemy s).isEmpty || !(men.reachedBy s Step.around ⟨enemy, .king⟩).isEmpty

/-- The squares of the men that give check to the king of a colour. -/
def checkers (men : Placement) (c : Color) : List Square :=
  match men.king? c with
  | none => []
  | some k => men.attackers c.other k

/-- The men of a colour that stand alone between their king and a sliding enemy. Each comes with
the line from the king to that enemy, the enemy's square included. -/
def pins (men : Placement) (c : Color) : List (Square × List Square) :=
  match men.king? c with
  | none => []
  | some k => Step.around.filterMap fun d =>
    let line := k.ray d
    match men.firstMan? line with
    | none => none
    | some (s, m) =>
      if m.color = c then
        match men.firstMan? (s.ray d) with
        | some (t, e) =>
          if e.color = c.other && e.kind.slides d then
            some (s, line.takeWhile (· != t) ++ [t])
          else none
        | none => none
      else none

end Placement

end PieceSquare
