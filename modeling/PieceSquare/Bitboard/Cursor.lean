import PieceSquare.Bitboard

set_option autoImplicit false

/-! # Stepping through a set of squares

A `Cursor` hands out the squares of a bitboard one at a time, lowest first. All it keeps is the
set of the squares still to come, so a copy of a cursor continues on its own and the number of
squares to come is known at every moment. Taking a square clears the lowest bit of the word,
which is what `w &&& (w - 1)` does to a word `w`.

Several cursors can be used side by side (`Cursors`), and each can be copied in the middle of its
enumeration.
-/

namespace PieceSquare.Bitboard

/-- A position in the enumeration of a set of squares: the squares still to come. -/
structure Cursor where
  /-- The squares still to come. -/
  left : Bitboard
deriving DecidableEq

namespace Cursor

/-- The next square, if one is left, and the cursor behind it. -/
def next (c : Cursor) : Option Square × Cursor :=
  match c.left.lowest? with
  | none => (none, c)
  | some s => (some s, ⟨c.left &&& (c.left - 1)⟩)

/-- The number of squares still to come. -/
def remaining (c : Cursor) : Nat := c.left.count

/-- The least and the greatest number of squares still to come: both are known. -/
def bounds (c : Cursor) : Nat × Nat := (c.remaining, c.remaining)

/-- The squares of up to `n` further steps. -/
def take : Nat → Cursor → List Square
  | 0, _ => []
  | n + 1, c =>
    match c.next with
    | (none, _) => []
    | (some s, c') => s :: take n c'

/-- All squares still to come. -/
def rest (c : Cursor) : List Square := c.take c.remaining

/-- The cursor after `n` steps. -/
def advance : Nat → Cursor → Cursor
  | 0, c => c
  | n + 1, c => advance n c.next.2

/-! ## Cursors side by side -/

/-- What can be asked of a cursor. -/
inductive Request where
  /-- The next square, which is taken. -/
  | next
  /-- The number of squares still to come. -/
  | remaining
  /-- The least and the greatest number of squares still to come. -/
  | bounds
  /-- The set of the squares still to come. -/
  | left
  /-- All squares still to come, collected by a copy of the cursor. -/
  | rest
  /-- To put a copy of the cursor in the place of another one. -/
  | copyTo (target : Nat)

/-- What a cursor can answer. -/
inductive Answer where
  /-- A square, if there is one. -/
  | square (s : Option Square)
  /-- A number of squares. -/
  | number (n : Nat)
  /-- A least and a greatest number of squares. -/
  | bounds (least greatest : Nat)
  /-- A set of squares. -/
  | set (b : Bitboard)
  /-- A list of squares. -/
  | squares (l : List Square)
  /-- The request has been carried out. -/
  | done
deriving DecidableEq

end Cursor

/-- Cursors by their numbers. -/
abbrev Cursors := Nat → Cursor

namespace Cursors

open Cursor (Request Answer)

/-- Cursors that are all at the beginning of one set. -/
def fresh (b : Bitboard) : Cursors := fun _ => ⟨b⟩

/-- Puts a cursor in the place of the one with a number. -/
def put (cs : Cursors) (number : Nat) (c : Cursor) : Cursors :=
  fun other => if other = number then c else cs other

/-- The answer to a request that concerns the cursor with a number, and the cursors after it. -/
def step (cs : Cursors) (number : Nat) : Request → Answer × Cursors
  | .next => (.square (cs number).next.1, cs.put number (cs number).next.2)
  | .remaining => (.number (cs number).remaining, cs)
  | .bounds => (.bounds (cs number).bounds.1 (cs number).bounds.2, cs)
  | .left => (.set (cs number).left, cs)
  | .rest => (.squares (cs number).rest, cs)
  | .copyTo target => (.done, cs.put target (cs number))

/-- The answers to a list of requests, and the cursors after them. -/
def run : Cursors → List (Nat × Request) → List Answer × Cursors
  | cs, [] => ([], cs)
  | cs, (number, r) :: rs =>
    let (answer, cs) := cs.step number r
    let (answers, cs) := cs.run rs
    (answer :: answers, cs)

end Cursors

end PieceSquare.Bitboard
