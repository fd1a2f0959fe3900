import PieceSquare.Bitboard.Cursor
import PieceSquare.Proofs.Bitboard.Squares

set_option autoImplicit false

/-! # Cursors enumerate their set

All that a cursor can show is the set that it began with and how often it has been asked for the next
square. After `k` such requests it stands `behind` the `k` lowest squares: the next request hands out
the square after them (`next_behind`), and whatever else is asked is answered from those that are left
(`Cursors.step_behind`). A copy stands where the cursor stood that it was made from, and goes on by
itself. So a run of requests, to any number of cursors and their copies, is answered from the squares
in ascending order alone (`Cursors.run_enumerates`).
-/

namespace PieceSquare.Bitboard

namespace Cursor

/-! ## One step -/

theorem next_of_left_eq_zero {c : Cursor} (h : c.left = 0) : c.next = (none, c) := by
  rw [next, lowest?_eq_head?, h, squares_zero]
  rfl

theorem next_of_isLowest {c : Cursor} {s : Square} (h : c.left.IsLowest s) :
    c.next = (some s, ⟨c.left &&& (c.left - 1)⟩) := by
  rw [next, h.lowest?_eq]

/-- A step hands out the number of trailing zeros of the word, which then loses its lowest bit. -/
theorem next_eq (c : Cursor) : c.next = if h : c.left = 0 then (none, c)
    else (some ⟨c.left.ctz.toNat, ctz_lt h⟩, ⟨c.left &&& (c.left - 1)⟩) := by
  split_ifs with h
  · exact next_of_left_eq_zero h
  · exact next_of_isLowest (isLowest_ctz h)

/-- A step takes the head off the squares still to come, or does nothing if there are none. -/
theorem next_cases (c : Cursor) :
    c.left.squares = [] ∧ c.next = (none, c) ∨
      ∃ s c', c.left.squares = s :: c'.left.squares ∧ c.next = (some s, c') := by
  by_cases h : c.left = 0
  · exact .inl ⟨by rw [h, squares_zero], next_of_left_eq_zero h⟩
  · have hlow := isLowest_ctz h
    exact .inr ⟨_, ⟨c.left &&& (c.left - 1)⟩, hlow.squares_eq, next_of_isLowest hlow⟩

theorem take_eq (n : Nat) (c : Cursor) : c.take n = c.left.squares.take n := by
  induction n generalizing c with
  | zero => rfl
  | succ n ih =>
      rw [take]
      rcases c.next_cases with ⟨hsquares, hnext⟩ | ⟨s, c', hsquares, hnext⟩
      · rw [hsquares, hnext, List.take_nil]
      · rw [hsquares, hnext, List.take_succ_cons, ← ih]

/-- A copy collects exactly the squares still to come. -/
theorem rest_eq (c : Cursor) : c.rest = c.left.squares := by
  rw [rest, take_eq, remaining, ← length_squares, List.take_length]

/-! ## Behind the lowest squares -/

/-- The cursor over a set from which the `k` lowest squares have been handed out. -/
def behind (b : Bitboard) (k : Nat) : Cursor := ⟨b.without (b.squares.take k)⟩

theorem behind_zero (b : Bitboard) : behind b 0 = ⟨b⟩ := by
  rw [behind, List.take_zero, without_nil]

theorem squares_behind (b : Bitboard) (k : Nat) : (behind b k).left.squares = b.squares.drop k :=
  squares_without_take b k

theorem remaining_behind (b : Bitboard) (k : Nat) :
    (behind b k).remaining = b.squares.length - k := by
  rw [remaining, ← length_squares, squares_behind, List.length_drop]

theorem next_behind (b : Bitboard) (k : Nat) :
    (behind b k).next = (b.squares[k]?, behind b (k + 1)) := by
  have hdrop := squares_behind b k
  rcases (behind b k).next_cases with ⟨hsquares, hnext⟩ | ⟨s, c', hsquares, hnext⟩
  · -- All squares have been handed out, and the cursor stays where it is.
    rw [hsquares] at hdrop
    have hle : b.squares.length ≤ k := List.drop_eq_nil_iff.mp hdrop.symm
    have hstays : behind b (k + 1) = behind b k := by
      rw [behind, behind, List.take_of_length_le hle,
        List.take_of_length_le (Nat.le_succ_of_le hle)]
    rw [hnext, List.getElem?_eq_none hle, hstays]
  · rw [hsquares] at hdrop
    have hhead : b.squares[k]? = some s := by
      rw [← List.head?_drop, ← hdrop]
      rfl
    have htail : c'.left.squares = (behind b (k + 1)).left.squares := by
      rw [squares_behind, ← List.tail_drop, ← hdrop]
      rfl
    have hleft : c' = behind b (k + 1) := congrArg Cursor.mk (squares_injective htail)
    rw [hnext, hhead, hleft]

/-! ## What is expected of a cursor -/

/-- How often cursors have been asked for the next square after a request. A copy counts as asked as
often as the cursor that it is made from. -/
def Request.after (calls : Nat → Nat) (number : Nat) : Request → Nat → Nat
  | next => fun other => if other = number then calls number + 1 else calls other
  | copyTo target => fun other => if other = target then calls number else calls other
  | _ => calls

/-- The answer of a cursor that has been asked for the next square `k` times, given the set that it
began with and the squares of this set in ascending order. -/
def Request.expected (b : Bitboard) (l : List Square) (k : Nat) : Request → Answer
  | next => .square l[k]?
  | remaining => .number (l.length - k)
  | bounds => .bounds (l.length - k) (l.length - k)
  | left => .set (b.without (l.take k))
  | rest => .squares (l.drop k)
  | copyTo _ => .done

end Cursor

namespace Cursors

open Cursor (Request behind)

/-- How often each cursor has been asked for the next square after some steps, given how often it has
been before. -/
def callsAfter (calls : Nat → Nat) (steps : List (Nat × Request)) : Nat → Nat :=
  steps.foldl (fun calls step => step.2.after calls step.1) calls

/-! ## Runs -/

theorem put_behind (b : Bitboard) (calls : Nat → Nat) (target k : Nat) :
    put (fun other => behind b (calls other)) target (behind b k) =
      fun other => behind b (if other = target then k else calls other) := by
  funext other
  rw [put]
  split_ifs <;> rfl

/-- A step answers as expected, and leaves each cursor behind the squares it has been asked for. -/
theorem step_behind (b : Bitboard) (calls : Nat → Nat) (number : Nat) (r : Request) :
    step (fun other => behind b (calls other)) number r =
      (r.expected b b.squares (calls number),
        fun other => behind b (r.after calls number other)) := by
  cases r with
  | next =>
      rw [step, Cursor.next_behind, put_behind]
      rfl
  | remaining =>
      rw [step, Cursor.remaining_behind]
      rfl
  | bounds =>
      rw [step, Cursor.bounds, Cursor.remaining_behind]
      rfl
  | left => rfl
  | rest =>
      rw [step, Cursor.rest_eq, Cursor.squares_behind]
      rfl
  | copyTo target =>
      rw [step, put_behind]
      rfl

/-- A run answers each step by how often the earlier steps have asked its cursor for the next
square. -/
theorem run_behind (b : Bitboard) (calls : Nat → Nat) (steps : List (Nat × Request)) :
    run (fun other => behind b (calls other)) steps =
      (steps.zipIdx.map fun (step, k) =>
          step.2.expected b b.squares (callsAfter calls (steps.take k) step.1),
        fun other => behind b (callsAfter calls steps other)) := by
  induction steps generalizing calls with
  | nil => rfl
  | cons step steps ih =>
      obtain ⟨number, r⟩ := step
      simp only [run]
      rw [step_behind, ih, List.zipIdx_cons, List.map_cons, Nat.zero_add, List.zipIdx_succ,
        List.map_map]
      rfl

/-! ## The enumeration of a set -/

/-- A list holds the squares of a set in ascending order, each once: as many as the word has ones. -/
structure Enumerates (b : Bitboard) (l : List Square) : Prop where
  ascending : l.Pairwise (· < ·)
  mem_iff : ∀ s, s ∈ l ↔ b.contains s = true
  length_eq : l.length = b.cpop.toNat

theorem enumerates_squares (b : Bitboard) : Enumerates b b.squares :=
  ⟨b.pairwise_squares, fun _ => mem_squares, by rw [length_squares, toNat_cpop]⟩

/-- Cursors enumerate their set, whatever is asked of them and of their copies and in whatever order:
each request is answered from the ascending list of the squares and the number of squares that its
cursor has been asked for before. The word of a cursor that hands out a square loses its lowest bit,
and the number of the square is that of the trailing zeros. Upside down, the same squares are
enumerated with their ranks reversed, in ascending order again. -/
theorem run_enumerates (b : Bitboard) : ∃ l, Enumerates b l ∧
    (∀ steps, ((fresh b).run steps).1 = steps.zipIdx.map fun (step, k) =>
      step.2.expected b l (callsAfter (fun _ => 0) (steps.take k) step.1)) ∧
    (∀ c : Cursor, c.next = if h : c.left = 0 then (none, c)
      else (some ⟨c.left.ctz.toNat, ctz_lt h⟩, ⟨c.left &&& (c.left - 1)⟩)) ∧
    Enumerates b.flip (Cursor.mk b.flip).rest ∧
    (Cursor.mk b.flip).rest.Perm (l.map Square.flip) := by
  have hrest : (Cursor.mk b.flip).rest = b.flip.squares := Cursor.rest_eq _
  have hfresh : fresh b = fun _ => behind b 0 := by
    funext number
    rw [fresh, Cursor.behind_zero]
  refine ⟨b.squares, enumerates_squares b, fun steps => ?_, Cursor.next_eq, ?_, ?_⟩
  · rw [hfresh, run_behind]
  · rw [hrest]
    exact enumerates_squares _
  · rw [hrest]
    exact perm_squares_flip b

-- A copy made after the first square goes on by itself.
example : ((fresh 0x8000000000000101).run
    [(0, .next), (0, .copyTo 1), (0, .next), (1, .rest), (0, .remaining), (1, .next)]).1 =
    [.square (some 0), .done, .square (some 8), .squares [8, 63], .number 1, .square (some 8)] := by
  decide +kernel

end Cursors

end PieceSquare.Bitboard
