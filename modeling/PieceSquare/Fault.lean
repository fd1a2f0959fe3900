set_option autoImplicit false

/-! # Misuse of a list

What goes wrong when a caller hands over too short a list of planes, or asks for a sample or a
move that does not exist. Such a request has no answer: it ends with one of the two faults below.
-/

namespace PieceSquare

/-- The two ways in which a request can go past the end of what it was given. -/
inductive Fault where
  /-- An evaluation needs twelve piece planes, but only `got` planes were given. -/
  | tooFewPlanes (got : Nat)
  /-- The place `index` was asked for in a list of `length` entries. -/
  | outOfRange (length index : Nat)
deriving DecidableEq

/-- The text of a fault. -/
def Fault.message : Fault → String
  | .tooFewPlanes got => s!"need 12 piece planes, got {got}"
  | .outOfRange length index =>
    s!"index out of bounds: the len is {length} but the index is {index}"

/-- The entry of a list at a place, or the fault that names the list's length and the place. -/
def entry {α : Type} (xs : List α) (i : Nat) : Except Fault α :=
  match xs[i]? with
  | some x => .ok x
  | none => .error (.outOfRange xs.length i)

theorem entry_of_lt {α : Type} {xs : List α} {i : Nat} (h : i < xs.length) :
    entry xs i = .ok xs[i] := by
  simp [entry, h]

theorem entry_of_le {α : Type} {xs : List α} {i : Nat} (h : xs.length ≤ i) :
    entry xs i = .error (.outOfRange xs.length i) := by
  simp [entry, h]

end PieceSquare
