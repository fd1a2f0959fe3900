import PieceSquare.Options
import PieceSquare.Proofs.Binary64.Overflow
import PieceSquare.Proofs.Text.Blank
import PieceSquare.Proofs.Text.Integer

set_option autoImplicit false

/-! # Items of options

What the value of an item is taken for when its text is a decimal integer: that integer if it has 64
bits, else the binary64 number that the text stands for, and the text itself where that number would
be infinite. And what a set of options is that is written as one item.
-/

namespace PieceSquare

open Json (writeInteger)

/-! ## Decimal integers as numbers -/

theorem toLower_of_isDigit {c : Char} (h : c.isDigit = true) : c.toLower = c := by
  refine dif_neg fun hupper => ?_
  simp only [Char.isDigit, Bool.and_eq_true, decide_eq_true_eq, UInt32.le_iff_toNat_le] at h
  have hge : (65 : UInt32).toNat ≤ c.val.toNat := UInt32.le_iff_toNat_le.mp hupper.1
  have hle : c.val.toNat ≤ 57 := h.2
  have hnum : (65 : UInt32).toNat = 65 := rfl
  omega

theorem map_toLower_natDigits (n : Nat) : (natDigits n).map Char.toLower = natDigits n := by
  calc (natDigits n).map Char.toLower = (natDigits n).map id :=
        List.map_congr_left fun _ h => toLower_of_isDigit (isDigit_of_mem_natDigits h)
    _ = natDigits n := List.map_id _

theorem readUnsigned_natDigits (n : Nat) : readUnsigned (natDigits n) = some (nearestDouble n 0) := by
  have hvalue : digitsValue (natDigits n) = n := Nat.ofDigitChars_ten_toDigits
  have hwhole : (natDigits n).takeWhile Char.isDigit = natDigits n :=
    List.takeWhile_eq_self_iff.mpr fun _ => isDigit_of_mem_natDigits
  have hrest : (natDigits n).dropWhile Char.isDigit = [] :=
    List.dropWhile_eq_nil_iff.mpr fun _ => isDigit_of_mem_natDigits
  have hword {c : Char} (hc : c.isDigit = false) (text : List Char) :=
    natDigits_ne_cons hc n text
  have hne := natDigits_ne_nil n
  simp only [readUnsigned, map_toLower_natDigits, hwhole, hrest]
  rw [if_neg (by simp [hword]), if_neg (hword (by decide) _), if_neg (by simp [hne])]
  simp [readExponent, hvalue]

/-- The binary64 number that the decimal text of an integer stands for. -/
def decimalDouble (n : Int) : Float :=
  if n < 0 then -nearestDouble n.natAbs 0 else nearestDouble n.natAbs 0

theorem readDouble?_writeInteger (n : Int) :
    readDouble? (writeInteger n) = some (decimalDouble n) := by
  unfold writeInteger decimalDouble
  split_ifs with hneg
  · simp only [readDouble?, readUnsigned_natDigits, Option.map_some]
  · have hminus := natDigits_ne_cons (c := '-') (by decide) n.natAbs
    have hplus := natDigits_ne_cons (c := '+') (by decide) n.natAbs
    unfold readDouble?
    split
    · next heq => exact absurd heq (hminus _)
    · next heq => exact absurd heq (hplus _)
    · exact readUnsigned_natDigits _

theorem isFinite_nearestDouble {m : Nat} (hm : 2 ^ 53 ≤ m) :
    (nearestDouble m 0).isFinite = true ↔ m < Binary64.overflow := by
  have hsmall : ¬ (m = 0 ∨ ((natDigits m).length : Int) + 0 < -400) := by omega
  simp only [nearestDouble, hsmall, ↓reduceIte]
  split_ifs with hlong
  · -- A number of more than 400 digits is known to be too large without a look at it.
    refine iff_of_false (by decide +kernel) fun hlt => ?_
    have hbound : Binary64.overflow ≤ 10 ^ 400 := by decide +kernel
    have hlength : (natDigits m).length ≤ 400 :=
      Nat.toDigits_length 10 m 400 (by decide) (hlt.trans_le hbound)
    omega
  · exact Binary64.isFinite_ofScientific hm

theorem isFinite_decimalDouble {n : Int} (hn : 2 ^ 53 ≤ n.natAbs) :
    (decimalDouble n).isFinite = true ↔ n.natAbs < Binary64.overflow := by
  rw [← isFinite_nearestDouble hn]
  unfold decimalDouble
  split_ifs
  · rw [Binary64.isFinite_neg]
  · rfl

/-! ## Decimal integers as values -/

theorem dropWhile_quote {text : List Char} (h : text.head? ≠ some '\x22') :
    text.dropWhile (· == '\x22') = text := by
  cases text with
  | nil => rfl
  | cons c text =>
      have hc : c ≠ '\x22' := fun heq => h (congrArg some heq)
      exact List.dropWhile_cons_of_neg (by simpa using hc)

/-- Text without quotes has none to lose. -/
theorem withoutQuotes_eq_self {text : List Char} (h : '\x22' ∉ text) :
    Options.withoutQuotes text = text := by
  have hhead : text.head? ≠ some '\x22' := fun heq => h (List.mem_of_head? heq)
  have hlast : text.reverse.head? ≠ some '\x22' := fun heq =>
    h (List.mem_reverse.mp (List.mem_of_head? heq))
  rw [Options.withoutQuotes, dropWhile_quote hhead, dropWhile_quote hlast, List.reverse_reverse]

theorem wordValue_writeInteger (n : Int) :
    Options.wordValue (writeInteger n) = .string (toString n) := by
  have hword {c : Char} (hminus : c ≠ '-') (hdigit : c.isDigit = false) (text : List Char) :
      writeInteger n ≠ c :: text := fun heq =>
    not_mem_writeInteger hminus hdigit n (heq ▸ List.mem_cons_self)
  have hquotes := withoutQuotes_eq_self (not_mem_writeInteger (by decide) (by decide) n)
  rw [Options.wordValue, if_neg (hword (by decide) (by decide) _),
    if_neg (hword (by decide) (by decide) _), hquotes, ← toList_toString, String.ofList_toList]

/-- What a decimal integer is taken for. Beyond 64 bits it is a number as long as there is a finite
one for it, and then its own text. -/
theorem inferValue_writeInteger (n : Int) : Options.inferValue (writeInteger n) =
    if -signedLimit ≤ n ∧ n < signedLimit then .integer n
    else if n.natAbs < Binary64.overflow then .float (decimalDouble n)
    else .string (toString n) := by
  have hlimit : signedLimit = 2 ^ 63 := rfl
  rw [Options.inferValue, readInt64?_writeInteger]
  split_ifs with hrange hfinite
  · show Json.integer (Int64.ofInt n).toInt = _
    rw [Int64.toInt_ofInt_of_le (by omega) (by omega)]
  · have hfin := (isFinite_decimalDouble (by omega)).mpr hfinite
    simp only [readDouble?_writeInteger, hfin, ↓reduceIte]
  · have hinf : ¬ (decimalDouble n).isFinite = true := fun h =>
      hfinite ((isFinite_decimalDouble (by omega)).mp h)
    simp only [readDouble?_writeInteger, hinf, wordValue_writeInteger]
    rfl

/-- An integer of 64 bits is taken for itself. -/
theorem inferValue_toInt (n : Int64) :
    Options.inferValue (writeInteger n.toInt) = .integer n.toInt := by
  rw [inferValue_writeInteger, if_pos (toInt_bounds n)]

/-! ## A single item -/

namespace Options

theorem bne_of_not_mem {c : Char} {text : List Char} (h : c ∉ text) :
    ∀ d ∈ text, (d != c) = true := by
  intro d hd
  rw [bne_iff_ne]
  rintro rfl
  exact h hd

theorem takeWhile_bne_append {c : Char} {before : List Char} (h : c ∉ before) (after : List Char) :
    (before ++ c :: after).takeWhile (· != c) = before := by
  rw [List.takeWhile_append_of_pos (bne_of_not_mem h)]
  simp

theorem dropWhile_bne_append {c : Char} {before : List Char} (h : c ∉ before) (after : List Char) :
    (before ++ c :: after).dropWhile (· != c) = c :: after := by
  rw [List.dropWhile_append_of_pos (bne_of_not_mem h)]
  simp

/-- An item is split at its first equals sign. -/
theorem readItem_append {name : List Char} (hequals : '=' ∉ name) (value : List Char) :
    readItem (name ++ '=' :: value) =
      if (trim name).isEmpty then .error (.noName (String.ofList (name ++ '=' :: value)))
      else .ok (String.ofList (trim name), inferValue (trim value)) := by
  simp only [readItem, takeWhile_bne_append hequals, dropWhile_bne_append hequals]

theorem readItem_eq_ok {name value : List Char} (hequals : '=' ∉ name) (hname : trim name ≠ []) :
    readItem (name ++ '=' :: value) = .ok (String.ofList (trim name), inferValue (trim value)) := by
  rw [readItem_append hequals, if_neg (by simpa using hname)]

/-- A text without a comma is one item. -/
theorem items_eq_singleton {text : String} (hcomma : ',' ∉ text.toList)
    (htext : trim text.toList ≠ []) : items text = [trim text.toList] := by
  have hsplit : List.splitOn ',' ([','].intercalate [text.toList]) = [text.toList] :=
    List.splitOn_intercalate ',' (by simpa using hcomma) (by simp)
  rw [List.intercalate_singleton] at hsplit
  rw [items, hsplit]
  simp [htext]

/-- A text that is one item without blanks is read as a single option. -/
theorem parse_singleton {text : String} {name value : List Char}
    (htext : text.toList = name ++ '=' :: value) (hname : name ≠ []) (hequals : '=' ∉ name)
    (hcomma : ∀ c ∈ name ++ value, c ≠ ',') (hblank : ∀ c ∈ name ++ value, isBlank c = false) :
    parse text = .ok (ofPairs [(String.ofList name, inferValue value)]) := by
  have hname' : trim name = name :=
    trim_of_forall fun c hc => hblank c (List.mem_append_left value hc)
  have hvalue' : trim value = value :=
    trim_of_forall fun c hc => hblank c (List.mem_append_right name hc)
  have hsplit (c : Char) : c ∈ text.toList → c = '=' ∨ c ∈ name ++ value := by
    rw [htext, List.mem_append, List.mem_cons, List.mem_append]
    tauto
  have htrim : trim text.toList = text.toList := by
    refine trim_of_forall fun c hc => ?_
    rcases hsplit c hc with rfl | hc
    · decide
    · exact hblank c hc
  have hitems : items text = [text.toList] := by
    rw [← htrim]
    refine items_eq_singleton (fun hc => ?_) (by rw [htrim, htext]; simp)
    rcases hsplit ',' hc with h | hc
    · exact absurd h (by decide)
    · exact hcomma ',' hc rfl
  have hread : readItem (name ++ '=' :: value) = .ok (String.ofList name, inferValue value) := by
    have h := @readItem_eq_ok name value hequals (by rwa [hname'])
    rwa [hname', hvalue'] at h
  rw [← htext] at hread
  rw [parse, hitems, List.mapM_cons, hread]
  rfl

theorem get?_ofPairs_singleton (name : String) (value : Json) :
    (ofPairs [(name, value)]).members.get? name = some value := by
  show Members.get? (Members.insert name value []) name = _
  rw [Members.get?_insert, if_pos rfl]

end Options

end PieceSquare
