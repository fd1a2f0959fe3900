import PieceSquare.Proofs.Fallible
import PieceSquare.Proofs.Text.Blank
import PieceSquare.Proofs.Text.Utf8

set_option autoImplicit false

/-! # Positions in a file

A file is divided into lines by its newlines (`HasLines`), and each line is read on its own: its bytes
have to be those of a text, and what is left of the text without the blanks at its ends is a position
unless it is empty or a comment. The first line that is no text is the fault of the file, whether or
not it would have been a comment (`decodeLines_eq_error_iff`).

As the lines of two files with a newline in between are those of the one and then those of the other,
so are the positions (`positionsInFile_append`). A position that has been read has neither a newline
nor blanks at its ends, so it is read again from a line of its own (`positionsInFile_written`).
-/

namespace PieceSquare

/-! ## Lines -/

/-- The byte that divides lines. -/
def newline : UInt8 := 10

/-- The lines of a file are what there is between its newlines. -/
structure HasLines (bytes : List UInt8) (lines : List (List UInt8)) : Prop where
  nonempty : lines ≠ []
  newline_not_mem : ∀ line ∈ lines, newline ∉ line
  joined : [newline].intercalate lines = bytes

theorem not_mem_of_mem_splitOn {α : Type} [DecidableEq α] (a : α) (xs : List α) :
    ∀ piece ∈ xs.splitOn a, a ∉ piece := by
  induction xs with
  | nil => simp
  | cons x xs ih =>
      obtain ⟨first, rest, hxs⟩ := List.exists_cons_of_ne_nil (List.splitOn_ne_nil a xs)
      rw [hxs, List.forall_mem_cons] at ih
      obtain ⟨hfirst, hrest⟩ := ih
      rw [List.splitOn_cons_eq_if_modifyHead, hxs]
      by_cases hx : x = a
      · rw [if_pos (beq_iff_eq.mpr hx), List.forall_mem_cons, List.forall_mem_cons]
        exact ⟨List.not_mem_nil, hfirst, hrest⟩
      · rw [if_neg fun heq => hx (beq_iff_eq.mp heq), List.modifyHead_cons, List.forall_mem_cons]
        exact ⟨List.not_mem_cons_of_ne_of_not_mem (Ne.symm hx) hfirst, hrest⟩

theorem hasLines_iff {bytes : List UInt8} {lines : List (List UInt8)} :
    HasLines bytes lines ↔ lines = bytes.splitOn newline := by
  constructor
  · intro h
    rw [← h.joined, List.splitOn_intercalate newline h.newline_not_mem h.nonempty]
  · rintro rfl
    constructor
    case nonempty => exact List.splitOn_ne_nil newline bytes
    case newline_not_mem => exact not_mem_of_mem_splitOn newline bytes
    case joined => exact List.intercalate_splitOn newline

/-! ## Texts on lines -/

/-- Lines are decoded if each is a text. -/
theorem decodeLines_eq_ok_iff {start : Nat} {lines : List (List UInt8)} {texts : List String} :
    decodeLines start lines = .ok texts ↔
      List.Forall₂ (fun line text => utf8 text = line) lines texts := by
  induction lines generalizing start texts with
  | nil =>
      rw [decodeLines, List.forall₂_nil_left_iff]
      constructor
      · rintro ⟨⟩
        rfl
      · rintro rfl
        rfl
  | cons line lines ih =>
      rw [decodeLines, List.forall₂_cons_left_iff]
      cases hline : decodeText line with
      | none =>
          constructor
          · rintro ⟨⟩
          · rintro ⟨text, -, htext, -⟩
            exact absurd ⟨text, htext⟩ (decodeText_eq_none_iff.mp hline)
      | some text =>
          have htext : utf8 text = line := decodeText_eq_some_iff.mp hline
          rw [map_eq_ok_iff]
          constructor
          · rintro ⟨rest, hrest, rfl⟩
            exact ⟨text, rest, htext, ih.mp hrest, rfl⟩
          · rintro ⟨text', rest, htext', hrest, rfl⟩
            have htexts : text' = text :=
              Option.some.inj ((decodeText_eq_some_iff.mpr htext').symm.trans hline)
            exact ⟨rest, ih.mpr hrest, by rw [htexts]⟩

/-- The first line that is no text is the fault. -/
theorem decodeLines_eq_error_iff {start n : Nat} {lines : List (List UInt8)} :
    decodeLines start lines = .error n ↔ ∃ before line after, lines = before ++ line :: after ∧
      (∀ other ∈ before, IsUtf8 other) ∧ ¬ IsUtf8 line ∧ n = before.length + start := by
  induction lines generalizing start with
  | nil =>
      constructor
      · rintro ⟨⟩
      · rintro ⟨before, line, after, hlines, -⟩
        cases before <;> cases hlines
  | cons first lines ih =>
      rw [decodeLines]
      cases hfirst : decodeText first with
      | none =>
          have hnot : ¬ IsUtf8 first := decodeText_eq_none_iff.mp hfirst
          constructor
          · rintro ⟨⟩
            exact ⟨[], first, lines, rfl, by simp, hnot, (Nat.zero_add _).symm⟩
          · rintro ⟨before, line, after, hlines, hbefore, -, rfl⟩
            cases before with
            | nil => rw [List.length_nil, Nat.zero_add]
            | cons other before =>
                cases hlines
                exact absurd (hbefore first List.mem_cons_self) hnot
      | some text =>
          have htext : IsUtf8 first := ⟨text, decodeText_eq_some_iff.mp hfirst⟩
          rw [map_eq_error_iff, ih]
          constructor
          · rintro ⟨before, line, after, rfl, hbefore, hline, rfl⟩
            refine ⟨first :: before, line, after, rfl, ?_, hline, ?_⟩
            · exact List.forall_mem_cons.mpr ⟨htext, hbefore⟩
            · rw [List.length_cons]
              omega
          · rintro ⟨before, line, after, hlines, hbefore, hline, rfl⟩
            cases before with
            | nil =>
                cases hlines
                exact absurd htext hline
            | cons other before =>
                cases hlines
                refine ⟨before, line, after, rfl, (List.forall_mem_cons.mp hbefore).2, hline, ?_⟩
                rw [List.length_cons]
                omega

/-! ## Positions on lines -/

/-- What is read of a text: all but the blanks at its ends. -/
def trimText (text : String) : String := String.ofList (trim text.toList)

/-- Whether the text that is left of a line is a position: it is not empty, and it is no comment,
which begins with a number sign. -/
def IsPosition (text : String) : Prop := text ≠ "" ∧ text.toList.head? ≠ some '#'

instance : DecidablePred IsPosition := fun _ => inferInstanceAs (Decidable (_ ∧ _))

/-- The bytes of a line are those of a text, of which the given text is left without the blanks at
its ends. -/
def ShowsText (line : List UInt8) (text : String) : Prop :=
  ∃ whole, utf8 whole = line ∧ Trimmed whole.toList text.toList

/-- A member of a list is related to some member of the other one. -/
theorem exists_related_of_mem {α β : Type} {R : α → β → Prop} {xs : List α} {ys : List β}
    (h : List.Forall₂ R xs ys) {x : α} (hx : x ∈ xs) : ∃ y ∈ ys, R x y := by
  induction h with
  | nil => cases hx
  | cons hR _ ih =>
      rcases List.mem_cons.mp hx with rfl | hx
      · exact ⟨_, List.mem_cons_self, hR⟩
      · obtain ⟨y, hy, hR⟩ := ih hx
        exact ⟨y, List.mem_cons_of_mem _ hy, hR⟩

theorem trimmed_toList_iff {whole text : String} :
    Trimmed whole.toList text.toList ↔ text = trimText whole := by
  rw [trimmed_iff, trimText, ← String.toList_inj, String.toList_ofList]

theorem positionOnLine_eq (line : String) :
    positionOnLine line = Option.guard (fun text => IsPosition text) (trimText line) := by
  rw [positionOnLine, Option.guard, trimText]
  cases htrim : trim line.toList with
  | nil => rfl
  | cons c text =>
      have hposition : IsPosition (String.ofList (c :: text)) ↔ c ≠ '#' := by
        simp [IsPosition]
      by_cases hc : c = '#'
      · rw [if_neg fun h => hposition.mp (of_decide_eq_true h) hc, hc]
        rfl
      · rw [if_pos (decide_eq_true (hposition.mpr hc))]
        split
        · contradiction
        · simp_all
        · simp_all

theorem filterMap_positionOnLine (wholes : List String) : wholes.filterMap positionOnLine =
    (wholes.map trimText).filter fun text => IsPosition text := by
  rw [funext positionOnLine_eq, ← List.filterMap_eq_filter, List.filterMap_map]
  rfl

/-- Lines show texts if these are left of the texts that the lines are decoded as. -/
theorem forall₂_showsText_iff {lines : List (List UInt8)} {texts : List String} :
    List.Forall₂ ShowsText lines texts ↔ ∃ wholes,
      List.Forall₂ (fun line whole => utf8 whole = line) lines wholes ∧
        texts = wholes.map trimText := by
  constructor
  · intro h
    induction h with
    | nil => exact ⟨[], .nil, rfl⟩
    | cons hshows _ ih =>
        obtain ⟨whole, hwhole, htrimmed⟩ := hshows
        obtain ⟨wholes, hwholes, rfl⟩ := ih
        refine ⟨whole :: wholes, .cons hwhole hwholes, ?_⟩
        rw [List.map_cons, trimmed_toList_iff.mp htrimmed]
  · rintro ⟨wholes, hwholes, rfl⟩
    rw [List.forall₂_map_right_iff]
    exact hwholes.imp fun line whole hwhole => ⟨whole, hwhole, trimmed_toList_iff.mpr rfl⟩

/-- The positions in a file are those on its lines, in order. -/
theorem positionsInFile_eq_ok_iff {bytes : List UInt8} {positions : List String} :
    positionsInFile bytes = .ok positions ↔ ∃ texts,
      List.Forall₂ ShowsText (bytes.splitOn newline) texts ∧
        positions = texts.filter fun text => IsPosition text := by
  rw [positionsInFile, map_eq_ok_iff]
  constructor
  · rintro ⟨wholes, hwholes, rfl⟩
    refine ⟨wholes.map trimText, forall₂_showsText_iff.mpr ⟨wholes, ?_, rfl⟩, ?_⟩
    · exact decodeLines_eq_ok_iff.mp hwholes
    · exact filterMap_positionOnLine wholes
  · rintro ⟨texts, htexts, rfl⟩
    obtain ⟨wholes, hwholes, rfl⟩ := forall₂_showsText_iff.mp htexts
    exact ⟨wholes, decodeLines_eq_ok_iff.mpr hwholes, filterMap_positionOnLine wholes⟩

theorem positionsInFile_eq_error_iff {bytes : List UInt8} {n : Nat} :
    positionsInFile bytes = .error n ↔ ∃ before line after,
      bytes.splitOn newline = before ++ line :: after ∧ (∀ other ∈ before, IsUtf8 other) ∧
        ¬ IsUtf8 line ∧ n = before.length + 1 := by
  rw [positionsInFile, map_eq_error_iff]
  exact decodeLines_eq_error_iff

example : positionsInFile "\r\n# start\r\n  8/8 w\u00a0\r\n8/8 b".toUTF8.toList =
    .ok ["8/8 w", "8/8 b"] := by cbv

/-- The second comment is no text, and it comes before the line that is none either. -/
example : positionsInFile [0x23, 0x0a, 0x23, 0xff, 0x0a, 0xff] = .error 2 := by cbv

/-- Reading fails if some line is no text, even one that would be passed over. -/
theorem exists_positionsInFile_eq_error_iff {bytes : List UInt8} :
    (∃ n, positionsInFile bytes = .error n) ↔
      ∃ line ∈ bytes.splitOn newline, ¬ IsUtf8 line := by
  constructor
  · rintro ⟨n, h⟩
    obtain ⟨before, line, after, hlines, -, hline, -⟩ := positionsInFile_eq_error_iff.mp h
    exact ⟨line, by rw [hlines]; simp, hline⟩
  · rintro ⟨line, hmem, hline⟩
    cases hread : positionsInFile bytes with
    | error n => exact ⟨n, rfl⟩
    | ok positions =>
        obtain ⟨texts, htexts, -⟩ := positionsInFile_eq_ok_iff.mp hread
        obtain ⟨text, -, whole, hwhole, -⟩ := exists_related_of_mem htexts hmem
        exact absurd ⟨whole, hwhole⟩ hline

/-! ## Two files with a newline in between -/

theorem positionsInFile_append {a b : List UInt8} {ps qs : List String}
    (ha : positionsInFile a = .ok ps) (hb : positionsInFile b = .ok qs) :
    positionsInFile (a ++ newline :: b) = .ok (ps ++ qs) := by
  obtain ⟨texts, htexts, rfl⟩ := positionsInFile_eq_ok_iff.mp ha
  obtain ⟨texts', htexts', rfl⟩ := positionsInFile_eq_ok_iff.mp hb
  rw [positionsInFile_eq_ok_iff]
  refine ⟨texts ++ texts', ?_, (List.filter_append _ _).symm⟩
  rw [List.splitOn_append_cons_self]
  exact List.rel_append htexts htexts'

/-! ## Positions on lines of their own -/

/-- Whether a text can be read from a line of its own. -/
structure IsPositionLine (text : String) : Prop where
  oneLine : '\n' ∉ text.toList
  trimmed : Trimmed text.toList text.toList
  position : IsPosition text

/-- What has been read can be read again from a line of its own. -/
theorem isPositionLine_of_mem {bytes : List UInt8} {positions : List String}
    (h : positionsInFile bytes = .ok positions) {text : String} (hmem : text ∈ positions) :
    IsPositionLine text := by
  obtain ⟨texts, htexts, rfl⟩ := positionsInFile_eq_ok_iff.mp h
  obtain ⟨hmem, hposition⟩ := List.mem_filter.mp hmem
  obtain ⟨line, hline, whole, rfl, htrimmed⟩ := exists_related_of_mem htexts.flip hmem
  constructor
  case oneLine =>
    -- A newline in the position would be one in the line.
    intro hnewline
    refine not_mem_of_mem_splitOn newline bytes _ hline (newline_mem_utf8_iff.mpr ?_)
    obtain ⟨front, back, happend, -⟩ := htrimmed.blanks
    rw [happend]
    exact List.mem_append_left back (List.mem_append_right front hnewline)
  case trimmed =>
    refine ⟨⟨[], [], by simp, ?_, ?_⟩, htrimmed.head, htrimmed.last⟩
    · exact fun _ hc => absurd hc List.not_mem_nil
    · exact fun _ hc => absurd hc List.not_mem_nil
  case position => exact of_decide_eq_true hposition

theorem utf8_newline : utf8 "\n" = [newline] := by
  rw [utf8_eq_flatMap]
  decide

theorem utf8_intercalate (texts : List String) :
    utf8 ("\n".intercalate texts) = [newline].intercalate (texts.map utf8) := by
  induction texts with
  | nil => rw [utf8_eq_flatMap]; rfl
  | cons text texts ih =>
      cases texts with
      | nil => simp
      | cons next texts =>
          rw [String.intercalate_cons_cons, utf8_append, utf8_append, ih, utf8_newline]
          simp

theorem positionsInFile_nil : positionsInFile [] = .ok [] := by
  rw [positionsInFile_eq_ok_iff]
  exact ⟨[""], .cons ⟨"", utf8_eq_flatMap "", trimmed_toList_iff.mpr rfl⟩ .nil, by decide⟩

theorem positionsInFile_intercalate {positions : List String}
    (h : ∀ text ∈ positions, IsPositionLine text) :
    positionsInFile (utf8 ("\n".intercalate positions)) = .ok positions := by
  rw [utf8_intercalate]
  cases positions with
  | nil => exact positionsInFile_nil
  | cons first rest =>
      have hnewline : ∀ line ∈ (first :: rest).map utf8, newline ∉ line := by
        intro line hline
        obtain ⟨text, htext, rfl⟩ := List.mem_map.mp hline
        exact fun hmem => (h text htext).oneLine (newline_mem_utf8_iff.mp hmem)
      rw [positionsInFile_eq_ok_iff, List.splitOn_intercalate newline hnewline (by simp)]
      refine ⟨first :: rest, ?_, (List.filter_eq_self.mpr fun text htext => ?_).symm⟩
      · rw [List.forall₂_map_left_iff, List.forall₂_same]
        exact fun text htext => ⟨text, rfl, (h text htext).trimmed⟩
      · exact decide_eq_true (h text htext).position

/-- Positions that are written one on each line are read again, with or without a newline behind the
last one. -/
theorem positionsInFile_written {positions : List String}
    (h : ∀ text ∈ positions, IsPositionLine text) {ending : String}
    (hending : ending = "" ∨ ending = "\n") :
    positionsInFile (utf8 ("\n".intercalate positions ++ ending)) = .ok positions := by
  rcases hending with rfl | rfl
  · rw [String.append_empty]
    exact positionsInFile_intercalate h
  · -- The last line of the file is empty.
    have hlast := positionsInFile_append (positionsInFile_intercalate h) positionsInFile_nil
    rwa [List.append_nil, ← utf8_newline, ← utf8_append] at hlast

/-! ## Files -/

theorem toList_append_newline (a b : ByteArray) :
    (a ++ "\n".toUTF8 ++ b).toList = a.toList ++ newline :: b.toList := by
  rw [toList_append, toList_append, ← utf8, utf8_newline, List.append_assoc]
  rfl

theorem readPositions_eq {files : Files} {path : String} {content : ByteArray}
    (h : files path = .ok content) : readPositions files path =
      (positionsInFile content.toList).mapError fun n => .reading path n .notText := by
  rw [readPositions, h]

theorem readPositions_eq_ok_iff {files : Files} {path : String} {content : ByteArray}
    (h : files path = .ok content) {positions : List String} :
    readPositions files path = .ok positions ↔ positionsInFile content.toList = .ok positions := by
  rw [readPositions_eq h, mapError_eq_ok_iff]

theorem readPositions_eq_error_iff {files : Files} {path : String} {content : ByteArray}
    (h : files path = .ok content) {fault : PositionsFault} :
    readPositions files path = .error fault ↔ ∃ n, positionsInFile content.toList = .error n ∧
      fault = .reading path n .notText := by
  rw [readPositions_eq h, mapError_eq_error_iff]

/-- The text of the fault names the file and the line. -/
theorem message_reading (path : String) (n : Nat) :
    (PositionsFault.reading path n .notText).message =
      s!"read {path} line {n}: stream did not contain valid UTF-8" := by
  have hcause : ": " ++ "stream did not contain valid UTF-8" =
      ": stream did not contain valid UTF-8" := by decide
  show (s!"read {path} line {n}" ++ ": ") ++ "stream did not contain valid UTF-8" = _
  rw [String.append_assoc, hcause]
  rfl

/-- What the reading of positions is to do, for all files and whatever the bytes in them. -/
structure ReadsLines (read : Files → String → Except PositionsFault (List String)) : Prop where
  lines : ∀ bytes, ∃! lines, HasLines bytes lines
  fails_iff : ∀ files path content lines, files path = .ok content →
    HasLines content.toList lines →
      ((∃ fault, read files path = .error fault) ↔ ∃ line ∈ lines, ¬ IsUtf8 line)
  error_iff : ∀ files path content lines, files path = .ok content →
    HasLines content.toList lines → ∀ fault, read files path = .error fault ↔
      ∃ before line after, lines = before ++ line :: after ∧ (∀ other ∈ before, IsUtf8 other) ∧
        ¬ IsUtf8 line ∧ fault = .reading path (before.length + 1) .notText
  message : ∀ path n, (PositionsFault.reading path n .notText).message =
    s!"read {path} line {n}: stream did not contain valid UTF-8"
  ok_iff : ∀ files path content lines, files path = .ok content →
    HasLines content.toList lines → ∀ positions, read files path = .ok positions ↔
      ∃ texts, List.Forall₂ ShowsText lines texts ∧
        positions = texts.filter fun text => IsPosition text
  append : ∀ files pathA pathB path a b, files pathA = .ok a → files pathB = .ok b →
    files path = .ok (a ++ "\n".toUTF8 ++ b) → ∀ ps qs, read files pathA = .ok ps →
      read files pathB = .ok qs → read files path = .ok (ps ++ qs)
  written : ∀ files path content positions, files path = .ok content →
    read files path = .ok positions → ∀ files' path' ending, ending = "" ∨ ending = "\n" →
      files' path' = .ok ("\n".intercalate positions ++ ending).toUTF8 →
        read files' path' = .ok positions

theorem readPositions_readsLines : ReadsLines readPositions := by
  constructor
  case lines =>
    intro bytes
    exact ⟨_, hasLines_iff.mpr rfl, fun lines h => hasLines_iff.mp h⟩
  case fails_iff =>
    intro files path content lines hcontent hlines
    rw [hasLines_iff.mp hlines, ← exists_positionsInFile_eq_error_iff]
    simp only [readPositions_eq_error_iff hcontent]
    constructor
    · rintro ⟨fault, n, hn, -⟩
      exact ⟨n, hn⟩
    · rintro ⟨n, hn⟩
      exact ⟨_, n, hn, rfl⟩
  case error_iff =>
    intro files path content lines hcontent hlines fault
    rw [hasLines_iff.mp hlines, readPositions_eq_error_iff hcontent]
    simp only [positionsInFile_eq_error_iff]
    constructor
    · rintro ⟨_, ⟨before, line, after, happend, hbefore, hline, rfl⟩, rfl⟩
      exact ⟨before, line, after, happend, hbefore, hline, rfl⟩
    · rintro ⟨before, line, after, happend, hbefore, hline, rfl⟩
      exact ⟨_, ⟨before, line, after, happend, hbefore, hline, rfl⟩, rfl⟩
  case message =>
    exact message_reading
  case ok_iff =>
    intro files path content lines hcontent hlines positions
    rw [hasLines_iff.mp hlines, readPositions_eq_ok_iff hcontent, positionsInFile_eq_ok_iff]
  case append =>
    intro files pathA pathB path a b ha hb hpath ps qs hps hqs
    rw [readPositions_eq_ok_iff ha] at hps
    rw [readPositions_eq_ok_iff hb] at hqs
    rw [readPositions_eq_ok_iff hpath, toList_append_newline]
    exact positionsInFile_append hps hqs
  case written =>
    intro files path content positions hcontent hpositions files' path' ending hending hpath'
    rw [readPositions_eq_ok_iff hcontent] at hpositions
    rw [readPositions_eq_ok_iff hpath']
    exact positionsInFile_written (fun text => isPositionLine_of_mem hpositions) hending

end PieceSquare
