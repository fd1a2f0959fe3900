import PieceSquare.CommandLine.Run
import PieceSquare.Proofs.Board.Printing
import PieceSquare.Proofs.Decimal.Shortest
import PieceSquare.Proofs.Json.Objects

set_option autoImplicit false

/-! # Records of the output

The output of a run is made of records, one for each report (`IsRecord`). In the form for programs a
record is a single line whatever characters the position is made of, and its lexemes are those of one
object that repeats the position and gives each number as one lexeme (`Report.all_json`), which is a
number or the word for one that is not finite (`isNumber_numberLexeme`). In the form for readers it is
a header that ends with the position, and a line for each top move. The first line of a record does not
begin with a blank and its other lines do (`length_filter_opensRecord`), so the records can be told
from each other in the output as well as counted.
-/

namespace PieceSquare

open Json (writeString)

/-! ## Texts without line breaks -/

theorem newline_not_mem_escapedChar (c : Char) : '\n' ∉ Json.escapedChar c := by
  intro hmem
  cases Lexeme.escape c with
  | letter l hl hc h =>
      rw [h, List.mem_pair] at hmem
      rcases hmem with hmem | rfl
      · exact absurd hmem (by decide)
      · cases hc
  | control hc h =>
      have hdigit : ∀ n : Fin 16, Nat.digitChar n ≠ '\n' := by decide
      have hhigh := hdigit ⟨c.toNat / 16, by omega⟩
      have hlow := hdigit ⟨c.toNat % 16, by omega⟩
      rw [h] at hmem
      simp [hhigh.symm, hlow.symm] at hmem
  | self hquote hbackslash hc h =>
      rw [h, List.mem_singleton] at hmem
      exact hc (hmem ▸ by decide)

theorem newline_not_mem_writeString (s : String) : '\n' ∉ writeString s := by
  simp [writeString, newline_not_mem_escapedChar]

theorem newline_not_mem_natDigits (n : Nat) : '\n' ∉ natDigits n :=
  not_mem_natDigits (by decide) n

theorem Digits.newline_not_mem (ds : Digits) : '\n' ∉ ds.1 := fun h =>
  absurd (ds.2.2 _ h) (by decide)

theorem Numeral.newline_not_mem_text (t : Numeral) : '\n' ∉ t.text := by
  have hfraction : '\n' ∉ t.fractionText := by
    unfold Numeral.fractionText
    cases t.fraction with
    | none => simp
    | some ds => simpa using ds.newline_not_mem
  have hpower : '\n' ∉ t.powerText := by
    unfold Numeral.powerText
    cases t.power with
    | none => simp
    | some power =>
        obtain ⟨down, ds⟩ := power
        cases down <;> simpa using ds.newline_not_mem
  simp [Numeral.text, t.whole.newline_not_mem, hfraction, hpower]

theorem newline_not_mem_shortestText32 (x : Float32) : '\n' ∉ shortestText32 x := by
  unfold shortestText32
  cases Binary.ofFloat32? x with
  | none => decide
  | some b =>
      obtain ⟨t, ht⟩ := b.exists_numeral_shortestText .single
      simp only [ht]
      split <;> simpa using t.newline_not_mem_text

theorem newline_not_mem_pointed (places units : Nat) : '\n' ∉ pointed places units := by
  have hdigits : '\n' ∉ paddedDigits (places + 1) units := by
    simp [paddedDigits, newline_not_mem_natDigits, List.mem_replicate]
  unfold pointed
  dsimp only
  split
  · exact hdigits
  · rw [List.mem_append, List.mem_cons]
    rintro (hmem | hmem | hmem)
    · exact hdigits (List.mem_of_mem_take hmem)
    · exact absurd hmem (by decide)
    · exact hdigits (List.mem_of_mem_drop hmem)

theorem newline_not_mem_fixedText (plus : List Char) (h : '\n' ∉ plus) (places : Nat)
    (x : Float32) : '\n' ∉ (fixedText plus places x).toList := by
  have hsign (negative : Bool) : '\n' ∉ signText negative plus := by
    cases negative with
    | true => simp [signText]
    | false => exact h
  unfold fixedText
  split
  · next b _ =>
      rw [String.toList_ofList, List.mem_append, not_or]
      exact ⟨hsign b.negative, newline_not_mem_pointed places _⟩
  · split
    · decide
    · rw [String.toList_ofList]
      simp [hsign]

theorem newline_not_mem_intercalate {texts : List (List Char)} (h : ∀ text ∈ texts, '\n' ∉ text) :
    '\n' ∉ [','].intercalate texts := by
  intro hmem
  rcases Fen.mem_of_mem_intercalate hmem with hmem | ⟨text, htext, hmem⟩
  · exact absurd hmem (by decide)
  · exact h text htext hmem

theorem toList_pushn (s : String) (c : Char) (n : Nat) :
    (s.pushn c n).toList = s.toList ++ List.replicate n c := by
  rw [String.pushn_eq_repeat_push]
  induction n with
  | zero => exact (List.append_nil _).symm
  | succ n ih =>
      show ((Nat.repeat (fun s => s.push c) n s).push c).toList = _
      rw [String.toList_push, ih, List.append_assoc, ← List.replicate_succ']

namespace Report

open Lexeme (EndsNumber endsNumber_cons)
open Json (all_comma all_colon all_openList all_closeList all_openObject all_closeObject)

/-! ## Texts of several lexemes -/

/-- Whether a text is made of certain lexemes, wherever it stands. -/
def LexesTo (text : List Char) (lexemes : List Lexeme) : Prop :=
  ∀ rest, EndsNumber rest → Lexeme.all (text ++ rest) = lexemes ++ Lexeme.all rest

theorem lexesTo_writeString (s : String) : LexesTo (writeString s) [.text (.ok s) none] :=
  fun rest _ => Lexeme.all_writeString s rest

theorem lexesTo_shortestText32 (x : Float32) : LexesTo (shortestText32 x) [numberLexeme x] :=
  fun _ h => all_shortestText32 x h

theorem lexesTo_natDigits {n : Nat} (h : n < signedLimit) :
    LexesTo (natDigits n) [.number (.ok (.integer n)) none] := fun rest hrest =>
  Lexeme.all_writeInteger (n := n) (by omega) (by omega) hrest

/-- The lexemes of some parts with commas between them. -/
def separated (parts : List (List Lexeme)) : List Lexeme := [Lexeme.comma].intercalate parts

/-- The lexemes of a list with given elements. -/
def listLexemes (elements : List (List Lexeme)) : List Lexeme :=
  .openList :: (separated elements ++ [.closeList])

/-- The lexemes of an object with given members. -/
def objectLexemes (members : List (List Lexeme)) : List Lexeme :=
  .openObject :: (separated members ++ [.closeObject])

/-- The lexemes of the member of an object. -/
def memberLexemes (name : String) (value : List Lexeme) : List Lexeme :=
  .text (.ok name) none :: .colon :: value

/-- Parts end at the commas between them, also those that end with a number. -/
theorem lexesTo_separated {texts : List (List Char)} {parts : List (List Lexeme)}
    (h : List.Forall₂ LexesTo texts parts) : LexesTo ([','].intercalate texts) (separated parts) := by
  induction h with
  | nil => exact fun rest _ => rfl
  | cons htext htexts ih =>
      -- The last part has no comma behind it, and so it needs what follows to end it.
      cases htexts with
      | nil =>
          rw [separated, List.intercalate_singleton, List.intercalate_singleton]
          exact htext
      | cons htext' htexts' =>
          intro rest hrest
          rw [separated, List.intercalate_cons_cons, List.intercalate_cons_cons, List.append_assoc,
            List.append_assoc, List.singleton_append, htext _ (endsNumber_cons (by simp) _),
            all_comma, ih rest hrest]
          simp [separated]

theorem lexesTo_listJson {texts : List (List Char)} {parts : List (List Lexeme)}
    (h : List.Forall₂ LexesTo texts parts) : LexesTo (listJson texts) (listLexemes parts) := by
  intro rest _
  rw [listJson, List.cons_append, all_openList, List.append_assoc, List.singleton_append,
    lexesTo_separated h _ (endsNumber_cons (by simp) rest), all_closeList]
  simp [listLexemes]

theorem lexesTo_objectJson {texts : List (List Char)} {parts : List (List Lexeme)}
    (h : List.Forall₂ LexesTo texts parts) : LexesTo (objectJson texts) (objectLexemes parts) := by
  intro rest _
  rw [objectJson, List.cons_append, all_openObject, List.append_assoc, List.singleton_append,
    lexesTo_separated h _ (endsNumber_cons (by simp) rest), all_closeObject]
  simp [objectLexemes]

theorem lexesTo_memberJson (name : String) {text : List Char} {lexemes : List Lexeme}
    (h : LexesTo text lexemes) : LexesTo (memberJson name text) (memberLexemes name lexemes) := by
  intro rest hrest
  rw [memberJson, List.append_assoc, Lexeme.all_writeString, List.cons_append, all_colon,
    h rest hrest]
  rfl

/-! ## Reports as objects -/

/-- The lexemes of a move: a list of its number and the logarithm. -/
def moveLexemes (move : Fin policySize × Float32) : List Lexeme :=
  listLexemes [[.number (.ok (.integer move.1.val)) none], [numberLexeme move.2]]

/-- The members of the object that stands for a report. -/
def members (r : Report) : List (List Lexeme) :=
  [memberLexemes "fen" [.text (.ok r.fen) none], memberLexemes "value" [numberLexeme r.value],
    memberLexemes "draw" [numberLexeme r.draw],
    memberLexemes "moves_left" [numberLexeme r.movesLeft]] ++
  if r.topMoves.isEmpty then []
  else [memberLexemes "top_policy" (listLexemes (r.topMoves.map moveLexemes))]

theorem lexesTo_moveJson (move : Fin policySize × Float32) :
    LexesTo (moveJson move) (moveLexemes move) := by
  have hlimit : move.1.val < signedLimit := lt_trans move.1.isLt (by decide)
  exact lexesTo_listJson
    (.cons (lexesTo_natDigits hlimit) (.cons (lexesTo_shortestText32 move.2) .nil))

theorem lexesTo_memberTexts (r : Report) : List.Forall₂ LexesTo r.memberTexts r.members := by
  have hnumber (name : String) (x : Float32) :
      LexesTo (memberJson name (shortestText32 x)) (memberLexemes name [numberLexeme x]) :=
    lexesTo_memberJson name (lexesTo_shortestText32 x)
  have hmoves : List.Forall₂ LexesTo (r.topMoves.map moveJson) (r.topMoves.map moveLexemes) := by
    rw [List.forall₂_map_left_iff, List.forall₂_map_right_iff, List.forall₂_same]
    exact fun move _ => lexesTo_moveJson move
  refine List.rel_append ?_ ?_
  · exact .cons (lexesTo_memberJson "fen" (lexesTo_writeString r.fen))
      (.cons (hnumber "value" r.value)
        (.cons (hnumber "draw" r.draw) (.cons (hnumber "moves_left" r.movesLeft) .nil)))
  · split
    · exact .nil
    · exact .cons (lexesTo_memberJson "top_policy" (lexesTo_listJson hmoves)) .nil

/-- The lexemes of a report are those of one object. -/
theorem all_json (r : Report) : Lexeme.all r.json.toList = objectLexemes r.members := by
  have hall := lexesTo_objectJson (lexesTo_memberTexts r) [] (by rintro c ⟨⟩)
  rw [List.append_nil, Lexeme.all, List.append_nil] at hall
  rw [json, String.toList_ofList]
  exact hall

/-! ## Line breaks in records -/

theorem newline_not_mem_listJson {elements : List (List Char)}
    (h : ∀ text ∈ elements, '\n' ∉ text) : '\n' ∉ listJson elements := by
  simp [listJson, newline_not_mem_intercalate h]

theorem newline_not_mem_memberJson (name : String) {value : List Char} (h : '\n' ∉ value) :
    '\n' ∉ memberJson name value := by
  simp [memberJson, newline_not_mem_writeString, h]

theorem newline_not_mem_moveJson (move : Fin policySize × Float32) : '\n' ∉ moveJson move :=
  newline_not_mem_listJson
    (by simp [newline_not_mem_natDigits, newline_not_mem_shortestText32])

theorem newline_not_mem_memberTexts (r : Report) : ∀ text ∈ r.memberTexts, '\n' ∉ text := by
  have hnumber (name : String) (x : Float32) : '\n' ∉ memberJson name (shortestText32 x) :=
    newline_not_mem_memberJson name (newline_not_mem_shortestText32 x)
  have hmoves : '\n' ∉ listJson (r.topMoves.map moveJson) :=
    newline_not_mem_listJson (List.forall_mem_map.mpr fun move _ => newline_not_mem_moveJson move)
  intro text htext
  rcases List.mem_append.mp htext with htext | htext
  · simp only [List.mem_cons, List.not_mem_nil, or_false] at htext
    rcases htext with rfl | rfl | rfl | rfl
    · exact newline_not_mem_memberJson "fen" (newline_not_mem_writeString r.fen)
    · exact hnumber "value" r.value
    · exact hnumber "draw" r.draw
    · exact hnumber "moves_left" r.movesLeft
  · split at htext
    · cases htext
    · rw [List.mem_singleton.mp htext]
      exact newline_not_mem_memberJson "top_policy" hmoves

/-- An object is written on one line, whatever the position is. -/
theorem newline_not_mem_json (r : Report) : '\n' ∉ r.json.toList := by
  rw [json, String.toList_ofList]
  simp [objectJson, newline_not_mem_intercalate r.newline_not_mem_memberTexts]

theorem newline_not_mem_moveLine (move : Fin policySize × Float32) :
    '\n' ∉ (moveLine move).toList := by
  have hnumber := newline_not_mem_fixedText [] (by simp) 5 move.2
  have hmove : '\n' ∉ (padLeft 4 (toString move.1.val)).toList := by
    show '\n' ∉ ("".pushn ' ' _ ++ Nat.repr move.1.val).toList
    rw [String.toList_append, toList_pushn, Nat.repr, String.toList_ofList, String.toList_ofList,
      List.mem_append, List.mem_append, not_or, not_or]
    exact ⟨⟨by decide, by simp [List.mem_replicate]⟩, newline_not_mem_natDigits move.1.val⟩
  show '\n' ∉ ("    move " ++ padLeft 4 (toString move.1.val) ++ "  logit " ++
    fixedText [] 5 move.2).toList
  simp only [String.toList_append, List.mem_append, not_or]
  exact ⟨⟨⟨by decide, hmove⟩, by decide⟩, hnumber⟩

/-- The line for a position is broken only where its text is. -/
theorem newline_not_mem_header {r : Report} (h : '\n' ∉ r.fen.toList) :
    '\n' ∉ (fixedText ['+'] 5 r.value ++ "  d=" ++ fixedText [] 3 r.draw ++ " m=" ++
      fixedText [] 1 r.movesLeft ++ "  " ++ r.fen).toList := by
  have hvalue := newline_not_mem_fixedText ['+'] (by decide) 5 r.value
  have hdraw := newline_not_mem_fixedText [] (by simp) 3 r.draw
  have hleft := newline_not_mem_fixedText [] (by simp) 1 r.movesLeft
  simp [h, hvalue, hdraw, hleft]

end Report

/-! ## Records -/

/-- The lines of a record, in the form for programs or in the one for readers. -/
inductive IsRecord : Bool → Report → List String → Prop where
  | json (r : Report) (line : String) (hbreak : '\n' ∉ line.toList)
    (hopen : line.toList.head? = some '\x7b')
    (hlexemes : Lexeme.all line.toList = Report.objectLexemes r.members) : IsRecord true r [line]
  | text (r : Report) (head : String) (moves : List String)
    (hbreak : '\n' ∉ r.fen.toList → ∀ line ∈ head :: moves, '\n' ∉ line.toList)
    (hhead : head = fixedText ['+'] 5 r.value ++ "  d=" ++ fixedText [] 3 r.draw ++ " m=" ++
      fixedText [] 1 r.movesLeft ++ "  " ++ r.fen)
    (hmoves : moves = r.topMoves.map fun move => "    move " ++
      Report.padLeft 4 (toString move.1.val) ++ "  logit " ++ fixedText [] 5 move.2) :
    IsRecord false r (head :: moves)

open CommandLine (Arguments reportLines)

theorem isRecord_reportLines (a : Arguments) (r : Report) :
    IsRecord a.json r (reportLines a r) := by
  unfold reportLines
  cases a.json with
  | true =>
      have hopen : r.json.toList.head? = some '\x7b' := by
        rw [Report.json, String.toList_ofList]
        rfl
      exact .json r r.json r.newline_not_mem_json hopen r.all_json
  | false =>
      refine .text r _ _ (fun h => ?_) rfl rfl
      refine List.forall_mem_cons.mpr ⟨Report.newline_not_mem_header h, ?_⟩
      exact List.forall_mem_map.mpr fun move _ => Report.newline_not_mem_moveLine move

variable {json : Bool} {r : Report} {lines : List String}

/-- In the form for programs a record is one line. -/
theorem IsRecord.exists_line (h : IsRecord true r lines) : ∃ line, lines = [line] := by
  cases h with
  | json _ line hbreak hopen hlexemes => exact ⟨line, rfl⟩

/-- In the form for readers a record is a header and a line for each top move. -/
theorem IsRecord.exists_head (h : IsRecord false r lines) :
    ∃ head moves, lines = head :: moves ∧ moves.length = r.topMoves.length := by
  cases h with
  | text _ head moves hbreak hhead hmoves =>
      exact ⟨head, moves, rfl, by rw [hmoves, List.length_map]⟩

/-! ## Records next to each other -/

/-- Whether a line is the first one of a record: it does not begin with a blank. -/
def opensRecord (line : String) : Bool := line.toList.head? != some ' '

theorem exists_head_fixedText (places : Nat) (x : Float32) :
    ∃ c cs, (fixedText ['+'] places x).toList = c :: cs ∧ c ≠ ' ' := by
  unfold fixedText
  split
  · next b _ =>
      rw [String.toList_ofList]
      cases b.negative with
      | true => exact ⟨'-', _, rfl, by decide⟩
      | false => exact ⟨'+', _, rfl, by decide⟩
  · split
    · exact ⟨'N', _, rfl, by decide⟩
    · rw [String.toList_ofList]
      cases decide (x < 0) with
      | true => exact ⟨'-', _, rfl, by decide⟩
      | false => exact ⟨'+', _, rfl, by decide⟩

/-- A record opens with its first line and never again. -/
theorem IsRecord.length_filter_opensRecord (h : IsRecord json r lines) :
    (lines.filter opensRecord).length = 1 := by
  cases h with
  | json _ line hbreak hopen hlexemes =>
      have hopens : opensRecord line = true := by simp [opensRecord, hopen]
      rw [List.filter_cons_of_pos hopens]
      rfl
  | text _ head moves hbreak hhead hmoves =>
      -- The header begins with the sign of the value or with the first letter of a word.
      have hopens : opensRecord head = true := by
        obtain ⟨c, cs, hvalue, hc⟩ := exists_head_fixedText 5 r.value
        simp [opensRecord, hhead, hvalue, hc]
      have hnone : moves.filter opensRecord = [] := by
        rw [List.filter_eq_nil_iff, hmoves, List.forall_mem_map]
        intro move _
        simp [opensRecord]
      rw [List.filter_cons_of_pos hopens, hnone]
      rfl

/-- There are as many records in the output as lines that open one. -/
theorem length_filter_opensRecord {rs : List Report} {records : List (List String)}
    (h : List.Forall₂ (IsRecord json) rs records) :
    (records.flatten.filter opensRecord).length = rs.length := by
  induction h with
  | nil => rfl
  | cons hrecord _ ih =>
      rw [List.flatten_cons, List.filter_append, List.length_append, ih,
        hrecord.length_filter_opensRecord, List.length_cons, Nat.add_comm]

end PieceSquare
