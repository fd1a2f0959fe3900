import PieceSquare.Encoding
import PieceSquare.Proofs.Fallible

set_option autoImplicit false

/-! # What it takes to read a board

A board is read from its six fields in one pass that stops at the first fault. `Fen.Reads` says what
each field must be and what is demanded of the board as a whole, and `Fen.ofFields_eq_ok_iff` says
that nothing else matters.
-/

namespace PieceSquare

namespace Fen

theorem nextField_eq_ok_iff {fields : List (List Char)} {r : List Char × List (List Char)} :
    nextField fields = .ok r ↔ fields = r.1 :: r.2 := by
  cases fields with
  | nil => simp [nextField]
  | cons field rest => simp [nextField, Prod.ext_iff, eq_comm]

theorem orFault_eq_ok_iff {α : Type} {fault : FenFault} {o : Option α} {a : α} :
    orFault fault o = .ok a ↔ o = some a := by
  cases o <;> simp [orFault]

theorem demand_eq_ok_iff {condition : Bool} {fault : FenFault} {u : Unit} :
    demand condition fault = .ok u ↔ condition = true := by
  cases condition <;> simp [demand]

/-- Six fields tell the parts of a board, and the board is one that can be read. -/
structure Reads (men turn rights enPassant halfmoves moveNumber : List Char) (b : Board) :
    Prop where
  men : readMen men = some b.men
  turn : readTurn turn = some b.turn
  menOk : menOk b.men b.turn = true
  rights : readRights (if rights = ['-'] then [] else rights) (.none, .none) =
    some (b.whiteRights, b.blackRights)
  rightsOk : (rightsOk b.men .white b.whiteRights && rightsOk b.men .black b.blackRights) = true
  enPassant : readEnPassant b.turn enPassant = some b.enPassant
  enPassantOk : b.enPassant.all (enPassantOk b.men b.turn) = true
  halfmoves : readHalfmoves halfmoves = some b.halfmoves
  moveNumber : readMoveNumber moveNumber = some b.moveNumber

/-- A board is read from exactly six fields, each of which tells its part. -/
theorem ofFields_eq_ok_iff {fields : List (List Char)} {b : Board} :
    ofFields fields = .ok b ↔ ∃ men turn rights enPassant halfmoves moveNumber,
      fields = [men, turn, rights, enPassant, halfmoves, moveNumber] ∧
        Reads men turn rights enPassant halfmoves moveNumber b := by
  constructor
  · -- Each step of the pass names the field that it takes and what it reads from it.
    intro h
    simp only [ofFields, bind_eq_ok_iff, nextField_eq_ok_iff, orFault_eq_ok_iff,
      demand_eq_ok_iff, Prod.exists] at h
    obtain ⟨_, _, rfl, men, hmen, _, _, rfl, turn, hturn, -, hmenOk, _, _, rfl, white, black,
      hrights, -, hrightsOk, _, _, rfl, ep, hep, -, hepOk, _, _, rfl, half, hhalf, _, _, rfl,
      number, hnumber, -, hend, h⟩ := h
    cases h
    rw [List.isEmpty_iff] at hend
    subst hend
    exact ⟨_, _, _, _, _, _, rfl, hmen, hturn, hmenOk, hrights, hrightsOk, hep, hepOk, hhalf,
      hnumber⟩
  · rintro ⟨men, turn, rights, enPassant, halfmoves, moveNumber, rfl, h⟩
    simp only [ofFields, bind_eq_ok_iff, nextField_eq_ok_iff, orFault_eq_ok_iff,
      demand_eq_ok_iff, Prod.exists]
    exact ⟨_, _, rfl, _, h.men, _, _, rfl, _, h.turn, (), h.menOk, _, _, rfl, _, _, h.rights, (),
      h.rightsOk, _, _, rfl, _, h.enPassant, (), h.enPassantOk, _, _, rfl, _, h.halfmoves, _, _,
      rfl, _, h.moveNumber, (), rfl, rfl⟩

end Fen

/-! ## The files of castling rights -/

/-- Rights with rooks in the corners: on file a for the queen's side, on file h for the king's. -/
structure Rights.OnCorners (r : Rights) : Prop where
  long : ∀ f, r.long = some f → f = .a
  short : ∀ f, r.short = some f → f = .h

theorem Rights.onCorners_none : Rights.none.OnCorners where
  long := fun _ h => by cases h
  short := fun _ h => by cases h

namespace Fen

theorem onCorners_addRight {r r' : Rights} {c : Char} (hr : r.OnCorners)
    (h : addRight r c = some r') : r'.OnCorners := by
  unfold addRight at h
  split at h
  · split_ifs at h
    cases h
    refine ⟨hr.long, fun f hf => ?_⟩
    cases hf
    rfl
  · split_ifs at h
    cases h
    refine ⟨fun f hf => ?_, hr.short⟩
    cases hf
    rfl
  · cases h

/-- Every right that is read is on a corner. -/
theorem onCorners_readRights (text : List Char) {white black white' black' : Rights}
    (hw : white.OnCorners) (hb : black.OnCorners)
    (h : readRights text (white, black) = some (white', black')) :
    white'.OnCorners ∧ black'.OnCorners := by
  induction text generalizing white black with
  | nil =>
      cases h
      exact ⟨hw, hb⟩
  | cons c text ih =>
      unfold readRights at h
      split_ifs at h
      · obtain ⟨r, hr, h⟩ := Option.bind_eq_some_iff.mp h
        exact ih (onCorners_addRight hw hr) hb h
      · obtain ⟨r, hr, h⟩ := Option.bind_eq_some_iff.mp h
        exact ih hw (onCorners_addRight hb hr) h

end Fen

/-! ## Whole texts -/

theorem Board.ofText_eq_ok_iff {text : String} {b : Board} :
    Board.ofText text = .ok b ↔ Fen.read (trim text.toList) = .ok b := by
  rw [Board.ofText, mapError_eq_ok_iff]

/-- On every board that is read from a text the rights are on the corners. -/
theorem onCorners_of_ofText {text : String} {b : Board} (h : Board.ofText text = .ok b)
    (c : Color) : (b.rights c).OnCorners := by
  obtain ⟨men, turn, rights, enPassant, halfmoves, moveNumber, -, hb⟩ :=
    Fen.ofFields_eq_ok_iff.mp (Board.ofText_eq_ok_iff.mp h)
  obtain ⟨hw, hbl⟩ :=
    Fen.onCorners_readRights _ Rights.onCorners_none Rights.onCorners_none hb.rights
  cases c with
  | white => exact hw
  | black => exact hbl

namespace Fen

/-- What is demanded of a board beyond the spelling of its fields. -/
structure Possible (b : Board) : Prop where
  men : menOk b.men b.turn = true
  corners : ∀ c : Color, (b.rights c).OnCorners
  rights : ∀ c : Color, rightsOk b.men c (b.rights c) = true
  enPassant : b.enPassant.all (enPassantOk b.men b.turn) = true
  moveNumber : 0 < b.moveNumber ∧ b.moveNumber ≤ 65535

theorem readDigits_le {limit n m : Nat} {text : List Char} (hn : n ≤ limit)
    (h : readDigits limit n text = .ok m) : m ≤ limit := by
  induction text generalizing n with
  | nil =>
      cases h
      exact hn
  | cons c text ih =>
      unfold readDigits at h
      dsimp only at h
      split_ifs at h with hdigit hle
      exact ih hle h

theorem readNatural_le {limit n : Nat} {text : List Char} (h : readNatural limit text = .ok n) :
    n ≤ limit := by
  unfold readNatural at h
  split at h
  · cases h
  · exact readDigits_le (Nat.zero_le _) h
  · exact readDigits_le (Nat.zero_le _) h
  · exact readDigits_le (Nat.zero_le _) h

theorem readMoveNumber_bounds {text : List Char} {n : Nat} (h : readMoveNumber text = some n) :
    0 < n ∧ n ≤ 65535 := by
  unfold readMoveNumber at h
  cases hn : readNatural 65535 text with
  | error fault =>
      rw [hn] at h
      cases h
  | ok m =>
      simp only [hn] at h
      split_ifs at h with hzero
      cases h
      exact ⟨Nat.pos_of_ne_zero hzero, readNatural_le hn⟩

/-- Every board that is read from a text is possible. -/
theorem possible_of_ofText {text : String} {b : Board} (h : Board.ofText text = .ok b) :
    Possible b := by
  obtain ⟨men, turn, rights, enPassant, halfmoves, moveNumber, -, hb⟩ :=
    ofFields_eq_ok_iff.mp (Board.ofText_eq_ok_iff.mp h)
  have hrights := Bool.and_eq_true_iff.mp hb.rightsOk
  constructor
  case men => exact hb.menOk
  case corners => exact onCorners_of_ofText h
  case rights =>
    intro c
    cases c with
    | white => exact hrights.1
    | black => exact hrights.2
  case enPassant => exact hb.enPassantOk
  case moveNumber => exact readMoveNumber_bounds hb.moveNumber

end Fen

end PieceSquare
