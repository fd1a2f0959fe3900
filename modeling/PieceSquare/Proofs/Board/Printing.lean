import PieceSquare.Proofs.Board.Fen
import PieceSquare.Proofs.Text.Blank
import PieceSquare.Proofs.Text.Integer

set_option autoImplicit false

/-! # Boards that are written and read again

Every board that can be read is read again from its own text (`Fen.ofText_write`). The text that it
was read from may have been spelled in many ways, but `Fen.write` knows only one of them, so it is
enough to look at that one.

Each field is read back by itself, and the six are kept apart because none has a space in it. What a
reader demands of the board as a whole needs no proof here: it was demanded when the board was read
for the first time, and it depends on the board alone (`Fen.Possible`).
-/

namespace PieceSquare

namespace Fen

/-! ## Men -/

theorem readCell_letter (m : Man) : readCell m.letter = some [some m] := by
  have hdigit : m.letter.isDigit = false := by
    obtain ⟨c, k⟩ := m
    cases c <;> cases k <;> decide
  rw [readCell, hdigit, Man.ofLetter?_letter]
  rfl

theorem isAlphanum_letter (m : Man) : m.letter.isAlphanum = true := by
  obtain ⟨c, k⟩ := m
  cases c <;> cases k <;> decide

theorem isAlphanum_of_mem_natDigits {n : Nat} {c : Char} (h : c ∈ natDigits n) :
    c.isAlphanum = true := by
  rw [Char.isAlphanum, isDigit_of_mem_natDigits h, Bool.or_true]

/-- The cells of a text stand for a list of squares. -/
def ReadsCells (text : List Char) (squares : List (Option Man)) : Prop :=
  ∃ cells, text.mapM readCell = some cells ∧ cells.flatten = squares

theorem readsCells_nil : ReadsCells [] [] := ⟨[], rfl, rfl⟩

theorem ReadsCells.append {text text' : List Char} {squares squares' : List (Option Man)}
    (h : ReadsCells text squares) (h' : ReadsCells text' squares') :
    ReadsCells (text ++ text') (squares ++ squares') := by
  obtain ⟨cells, hcells, rfl⟩ := h
  obtain ⟨cells', hcells', rfl⟩ := h'
  refine ⟨cells ++ cells', ?_, List.flatten_append⟩
  rw [List.mapM_append, hcells, hcells']
  rfl

theorem readsCells_letter (m : Man) : ReadsCells [m.letter] [some m] := by
  refine ⟨[[some m]], ?_, rfl⟩
  rw [List.mapM_cons, readCell_letter]
  rfl

/-- A gap of up to nine squares has one digit. -/
theorem readsCells_writeGap {n : Nat} (h : n ≤ 9) :
    ReadsCells (writeGap n) (List.replicate n none) := by
  unfold writeGap
  split
  case isTrue hzero =>
    subst hzero
    exact readsCells_nil
  case isFalse hpos =>
    have hdigits : natDigits n = [n.digitChar] := Nat.toDigits_of_lt_base (by omega)
    have hcell : readCell n.digitChar = some (List.replicate n none) := by
      have hvalue : digitValue n.digitChar = n := Nat.toNat_digitChar_sub_48_of_lt_ten (by omega)
      rw [readCell, Nat.isDigit_digitChar, if_pos (by simp; omega), hvalue]
    refine ⟨[List.replicate n none], ?_, by simp⟩
    rw [hdigits, List.mapM_cons, hcell]
    rfl

/-- A row is read behind the gap that is still open when the row begins. -/
theorem readsCells_writeRow (row : List (Option Man)) {n : Nat} (h : n + row.length ≤ 8) :
    ReadsCells (writeRow n row) (List.replicate n none ++ row) := by
  induction row generalizing n with
  | nil =>
      rw [List.append_nil]
      exact readsCells_writeGap (by simpa using Nat.le_succ_of_le h)
  | cons man row ih =>
      rw [List.length_cons] at h
      cases man with
      | none =>
          have hrow := ih (n := n + 1) (by omega)
          rwa [List.replicate_succ', List.append_assoc] at hrow
      | some m =>
          have hgap := readsCells_writeGap (n := n) (by omega)
          have hrow := ih (n := 0) (by omega)
          exact hgap.append ((readsCells_letter m).append hrow)

theorem readRank_writeRow {row : List (Option Man)} (h : row.length = 8) :
    readRank (writeRow 0 row) = some row := by
  obtain ⟨cells, hcells, hrow⟩ := readsCells_writeRow row (n := 0) (by omega)
  rw [List.replicate_zero, List.nil_append] at hrow
  rw [readRank, hcells]
  show (if cells.flatten.length = 8 then some cells.flatten else none) = some row
  rw [hrow, if_pos h]

theorem isAlphanum_of_mem_writeRow (row : List (Option Man)) {n : Nat} {c : Char}
    (h : c ∈ writeRow n row) : c.isAlphanum = true := by
  have hgap : ∀ k, c ∈ writeGap k → c.isAlphanum = true := by
    intro k hk
    unfold writeGap at hk
    split at hk
    · cases hk
    · exact isAlphanum_of_mem_natDigits hk
  induction row generalizing n with
  | nil => exact hgap n h
  | cons man row ih =>
      cases man with
      | none => exact ih h
      | some m =>
          rcases List.mem_append.mp h with hmem | hmem
          · exact hgap n hmem
          · rcases List.mem_cons.mp hmem with rfl | hmem
            · exact isAlphanum_letter m
            · exact ih hmem

theorem length_row (men : Placement) (r : Rank) : (row men r).length = 8 := by
  rw [row, List.length_map, List.length_finRange]

theorem getElem?_map_finRange {α : Type} {n : Nat} (f : Fin n → α) (i : Fin n) :
    ((List.finRange n).map f)[i.val]? = some (f i) := by
  simp

/-- The ranks of a board hold its men. -/
theorem placementOfRows_row (men : Placement) :
    placementOfRows ((List.finRange 8).map (row men)) = men := by
  have hman : ∀ s : Square,
      (placementOfRows ((List.finRange 8).map (row men))).man? s = men.man? s := by
    intro s
    rw [Placement.man?, placementOfRows, Vector.get_ofFn, getElem?_map_finRange, Option.getD_some,
      row, getElem?_map_finRange, Square.of_file_rank, Option.join_some]
  exact Vector.ext fun i hi => hman ⟨i, hi⟩

theorem readMen_writeMen (men : Placement) : readMen (writeMen men) = some men := by
  have hne : ((List.finRange 8).reverse.map fun r => writeRow 0 (row men r)) ≠ [] := by
    rw [ne_eq, List.map_eq_nil_iff]
    decide
  have hslash : ∀ l ∈ (List.finRange 8).reverse.map fun r => writeRow 0 (row men r), '/' ∉ l := by
    intro l hl hmem
    obtain ⟨r, -, rfl⟩ := List.mem_map.mp hl
    exact absurd (isAlphanum_of_mem_writeRow _ hmem) (by decide)
  have hrank : (readRank ∘ fun r => writeRow 0 (row men r)) = fun r => pure (row men r) :=
    funext fun r => readRank_writeRow (length_row men r)
  rw [readMen, writeMen, List.splitOn_intercalate '/' hslash hne, ← List.map_reverse,
    List.reverse_reverse, List.mapM_map, hrank, List.mapM_pure, pure_bind, placementOfRows_row,
    if_pos (by simp)]

theorem writeMen_ne_nil (men : Placement) : writeMen men ≠ [] := by
  intro h
  have hread := readMen_writeMen men
  rw [h] at hread
  cases hread

theorem mem_of_mem_intercalate {c sep : Char} {texts : List (List Char)}
    (h : c ∈ [sep].intercalate texts) : c = sep ∨ ∃ text ∈ texts, c ∈ text := by
  induction texts with
  | nil => cases h
  | cons text texts ih =>
      cases texts with
      | nil =>
          rw [List.intercalate_singleton] at h
          exact .inr ⟨text, List.mem_cons_self, h⟩
      | cons text' texts =>
          rw [List.intercalate_cons_cons, List.mem_append, List.mem_append,
            List.mem_singleton] at h
          rcases h with (h | h) | h
          · exact .inr ⟨text, List.mem_cons_self, h⟩
          · exact .inl h
          · rcases ih h with h | ⟨t, ht, h⟩
            · exact .inl h
            · exact .inr ⟨t, List.mem_cons_of_mem _ ht, h⟩

theorem eq_or_isAlphanum_of_mem_writeMen {men : Placement} {c : Char} (h : c ∈ writeMen men) :
    c = '/' ∨ c.isAlphanum = true := by
  rcases mem_of_mem_intercalate h with h | ⟨text, htext, h⟩
  · exact .inl h
  · obtain ⟨r, -, rfl⟩ := List.mem_map.mp htext
    exact .inr (isAlphanum_of_mem_writeRow _ h)

/-! ## The other fields -/

theorem readTurn_writeTurn (c : Color) : readTurn [writeTurn c] = some c := by
  cases c <;> rfl

/-- The rights that a text can give to a player. -/
def cornerRights : List Rights :=
  [⟨none, none⟩, ⟨none, some .h⟩, ⟨some .a, none⟩, ⟨some .a, some .h⟩]

theorem mem_cornerRights {r : Rights} (h : r.OnCorners) : r ∈ cornerRights := by
  obtain ⟨long, short⟩ := r
  cases long with
  | none =>
      cases short with
      | none => decide
      | some f =>
          obtain rfl := h.short f rfl
          decide
  | some f =>
      obtain rfl := h.long f rfl
      cases short with
      | none => decide
      | some g =>
          obtain rfl := h.short g rfl
          decide

theorem readRights_writeRights : ∀ white ∈ cornerRights, ∀ black ∈ cornerRights,
    readRights (if writeRights white black = ['-'] then [] else writeRights white black)
      (.none, .none) = some (white, black) := by
  decide

theorem space_not_mem_writeRights : ∀ white ∈ cornerRights, ∀ black ∈ cornerRights,
    ' ' ∉ writeRights white black := by
  decide

/-- The field of the en passant square. -/
theorem exists_enPassantField (b : Board) :
    ∃ text, fields b = [writeMen b.men, [writeTurn b.turn], writeRights b.whiteRights b.blackRights,
        text, natDigits b.halfmoves.val, natDigits b.moveNumber] ∧
      readEnPassant b.turn text = some b.enPassant ∧ ' ' ∉ text := by
  refine ⟨_, rfl, ?_⟩
  unfold Board.enPassantSquare
  cases b.enPassant with
  | none =>
      show readEnPassant b.turn ['-'] = some none ∧ ' ' ∉ ['-']
      exact ⟨rfl, by decide⟩
  | some f =>
      show readEnPassant b.turn (Square.name (.of f (b.turn.other.ownRank .three))).toList = _ ∧
        ' ' ∉ (Square.name (.of f (b.turn.other.ownRank .three))).toList
      rw [Square.name, String.toList_ofList, Square.file_of, Square.rank_of]
      revert f
      cases b.turn <;> decide

theorem readHalfmoves_natDigits (n : Clock) : readHalfmoves (natDigits n.val) = some n := by
  unfold readHalfmoves
  rw [readNatural_natDigits (by omega)]
  exact dif_pos n.isLt

theorem readMoveNumber_natDigits {n : Nat} (h : 0 < n ∧ n ≤ 65535) :
    readMoveNumber (natDigits n) = some n := by
  unfold readMoveNumber
  rw [readNatural_natDigits h.2]
  exact if_neg (Nat.ne_of_gt h.1)

/-! ## Whole boards -/

theorem space_not_mem_of_mem_fields {b : Board} (h : Possible b) :
    ∀ field ∈ fields b, ' ' ∉ field := by
  obtain ⟨text, hfields, -, htext⟩ := exists_enPassantField b
  have hdigits : ∀ n, ' ' ∉ natDigits n := fun n hmem =>
    absurd (isDigit_of_mem_natDigits hmem) (by decide)
  rw [hfields]
  simp only [List.forall_mem_cons]
  refine ⟨?_, ?_, ?_, htext, hdigits _, hdigits _, by simp⟩
  · intro hmem
    exact absurd (eq_or_isAlphanum_of_mem_writeMen hmem) (by decide)
  · cases b.turn <;> decide
  · exact space_not_mem_writeRights _ (mem_cornerRights (h.corners .white)) _
      (mem_cornerRights (h.corners .black))

/-- The fields of a possible board are read as that board. -/
theorem ofFields_fields {b : Board} (h : Possible b) : ofFields (fields b) = .ok b := by
  obtain ⟨text, hfields, hep, -⟩ := exists_enPassantField b
  rw [hfields, ofFields_eq_ok_iff]
  refine ⟨_, _, _, _, _, _, rfl, ?_⟩
  constructor
  case men => exact readMen_writeMen b.men
  case turn => exact readTurn_writeTurn b.turn
  case menOk => exact h.men
  case rights =>
    exact readRights_writeRights _ (mem_cornerRights (h.corners .white)) _
      (mem_cornerRights (h.corners .black))
  case rightsOk => exact Bool.and_eq_true_iff.mpr ⟨h.rights .white, h.rights .black⟩
  case enPassant => exact hep
  case enPassantOk => exact h.enPassant
  case halfmoves => exact readHalfmoves_natDigits b.halfmoves
  case moveNumber => exact readMoveNumber_natDigits h.moveNumber

theorem toList_write (b : Board) : (write b).toList = [' '].intercalate (fields b) :=
  String.toList_ofList

/-- There is no blank at the ends of a text: it begins with the men and ends with a number. -/
theorem trim_write (b : Board) : trim (write b).toList = (write b).toList := by
  obtain ⟨text, hfields, -⟩ := exists_enPassantField b
  rw [toList_write, hfields]
  simp only [List.intercalate_cons_cons, List.intercalate_singleton, List.append_assoc]
  refine trim_eq_self ?_ ?_
  · intro c hc
    rw [List.head?_append_of_ne_nil _ (writeMen_ne_nil b.men)] at hc
    rcases eq_or_isAlphanum_of_mem_writeMen (List.mem_of_head? hc) with rfl | halpha
    · decide
    · exact isBlank_of_isAlphanum halpha
  · intro c hc
    simp only [← List.append_assoc] at hc
    rw [List.getLast?_append_of_ne_nil _ (natDigits_ne_nil b.moveNumber)] at hc
    exact isBlank_of_isAlphanum (isAlphanum_of_mem_natDigits (List.mem_of_getLast? hc))

/-- A possible board is read from its own text. -/
theorem ofText_write {b : Board} (h : Possible b) : Board.ofText (write b) = .ok b := by
  rw [Board.ofText_eq_ok_iff, trim_write, toList_write, read,
    List.splitOn_intercalate ' ' (space_not_mem_of_mem_fields h) (by simp [fields]),
    ofFields_fields h]

end Fen

/-- Whatever the spelling that a board is read from, it is read from its own text as well, with all
that belongs to it, so that it is written in the same way again. In every format the two texts have
the same planes, or the same fault. -/
theorem ofText_write_of_ofText {text : String} {b : Board} (h : Board.ofText text = .ok b) :
    Board.ofText (Fen.write b) = .ok b ∧
      (∀ b', Board.ofText (Fen.write b) = .ok b' → b' = b ∧ Fen.write b' = Fen.write b) ∧
      ∀ f, encodeText (Fen.write b) f = encodeText text f := by
  have hagain : Board.ofText (Fen.write b) = .ok b := Fen.ofText_write (Fen.possible_of_ofText h)
  refine ⟨hagain, fun b' hb' => ?_, fun f => ?_⟩
  · rw [hagain] at hb'
    cases hb'
    exact ⟨rfl, rfl⟩
  · rw [encodeText, encodeText, hagain, h]

/-- An unusual spelling of the position after White's pawn has advanced from e2 to e4. -/
def loosePawnText : String :=
  "\trnbqkbnr/pppppppp/8/44/4P3/08/PPPP01PPP/RNBQKBNR b qQkK e3 +00 0001 "

/-- The usual spelling of the same position. -/
def pawnText : String := "rnbqkbnr/pppppppp/8/8/4P3/8/PPPP1PPP/RNBQKBNR b KQkq e3 0 1"

theorem ofText_write_of_ofText_loosePawnText :
    ∃ b, Board.ofText loosePawnText = .ok b ∧ Fen.write b = pawnText ∧
      Board.ofText pawnText = .ok b ∧ ∀ f, encodeText pawnText f = encodeText loosePawnText f := by
  have hread : (Board.ofText loosePawnText).toOption.map Fen.write = some pawnText := by
    decide +kernel
  cases h : Board.ofText loosePawnText with
  | error fault =>
      rw [h] at hread
      cases hread
  | ok b =>
      rw [h] at hread
      have hwrite : Fen.write b = pawnText := Option.some.inj hread
      obtain ⟨hagain, -, hplanes⟩ := ofText_write_of_ofText h
      rw [hwrite] at hagain hplanes
      exact ⟨b, rfl, hwrite, hagain, hplanes⟩

end PieceSquare
