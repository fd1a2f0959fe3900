import PieceSquare.Proofs.Evaluator.Construction
import PieceSquare.Proofs.Json.Objects
import PieceSquare.Proofs.Options.Reading

set_option autoImplicit false

/-! # Options as items and as JSON

Options can be given as items or as a JSON object, and the two readers agree on integers of 64 bits,
truth values and strings: the same pairs, written in the one way or the other, give the same options,
in which each name has the value of its last pair (`parse_itemsText_eq_ofJson_objectText`). A string
is written among items between double quotes. They protect it, as no number and no truth value has a
quote in it and as no blank inside of them stands at an end of the item.
-/

namespace PieceSquare

/-- A value that can be given to an option in both ways. -/
inductive Scalar where
  | integer (n : Int64)
  | truth (b : Bool)
  | text (s : String)

namespace Scalar

/-- The value as it is written behind the equals sign of an item. -/
def itemText : Scalar → List Char
  | integer n => (toString n.toInt).toList
  | truth true => ['t', 'r', 'u', 'e']
  | truth false => ['f', 'a', 'l', 's', 'e']
  | text s => '\x22' :: (s.toList ++ ['\x22'])

/-- The value in JSON. -/
def toJson : Scalar → Json
  | integer n => .integer n.toInt
  | truth b => .bool b
  | text s => .string s

/-- Whether an option has this value, read at the type of the value. -/
def IsFound (o : Options) (name : String) : Scalar → Prop
  | integer n => o.get Json.asInt64 name = .ok (some n)
  | truth b => o.get Json.asBool name = .ok (some b)
  | text s => o.get Json.asString name = .ok (some s)

/-- Whether the value can be written in an item: a string may hold no comma, as commas end items, and
it may neither begin nor end with a quote, as these are taken off. -/
def IsWritable : Scalar → Prop
  | text s => ',' ∉ s.toList ∧ s.toList.head? ≠ some '\x22' ∧ s.toList.getLast? ≠ some '\x22'
  | _ => True

instance (value : Scalar) : Decidable value.IsWritable :=
  match value with
  | integer _ => inferInstanceAs (Decidable True)
  | truth _ => inferInstanceAs (Decidable True)
  | text s => inferInstanceAs (Decidable
      (',' ∉ s.toList ∧ s.toList.head? ≠ some '\x22' ∧ s.toList.getLast? ≠ some '\x22'))

end Scalar

namespace Options

/-- Whether a name and a value can be written as an item. -/
structure IsWritable (pair : String × Scalar) : Prop where
  name_ne : pair.1 ≠ ""
  comma : ',' ∉ pair.1.toList
  equals : '=' ∉ pair.1.toList
  blank_head : ∀ c ∈ pair.1.toList.head?, isBlank c = false
  blank_last : ∀ c ∈ pair.1.toList.getLast?, isBlank c = false
  value : pair.2.IsWritable

instance (pair : String × Scalar) : Decidable (IsWritable pair) :=
  decidable_of_iff (pair.1 ≠ "" ∧ ',' ∉ pair.1.toList ∧ '=' ∉ pair.1.toList ∧
    pair.1.toList.head?.any isBlank = false ∧ pair.1.toList.getLast?.any isBlank = false ∧
    pair.2.IsWritable)
  ⟨fun ⟨hname, hcomma, hequals, hhead, hlast, hvalue⟩ => ⟨hname, hcomma, hequals,
      (Option.any_eq_false _ _).mp hhead, (Option.any_eq_false _ _).mp hlast, hvalue⟩,
    fun h => ⟨h.name_ne, h.comma, h.equals, (Option.any_eq_false _ _).mpr h.blank_head,
      (Option.any_eq_false _ _).mpr h.blank_last, h.value⟩⟩

/-- A name and a value as an item. -/
def item (pair : String × Scalar) : List Char := pair.1.toList ++ '=' :: pair.2.itemText

/-- Pairs as a text of items. -/
def itemsText (pairs : List (String × Scalar)) : String :=
  String.ofList ([','].intercalate (pairs.map item))

/-- Pairs as members, in the same order. -/
def asMembers (pairs : List (String × Scalar)) : List (String × Json) :=
  pairs.map fun (name, value) => (name, value.toJson)

/-- Pairs as the text of a JSON object. -/
def objectText (pairs : List (String × Scalar)) : String := (Json.object (asMembers pairs)).text

/-! ## Values in items -/

/-- A quoted text loses only the quotes around it. -/
theorem withoutQuotes_quoted {text : List Char} (hhead : text.head? ≠ some '\x22')
    (hlast : text.getLast? ≠ some '\x22') :
    withoutQuotes ('\x22' :: (text ++ ['\x22'])) = text := by
  have hfront : ('\x22' :: (text ++ ['\x22'])).dropWhile (· == '\x22') =
      if text = [] then [] else text ++ ['\x22'] := by
    rw [List.dropWhile_cons_of_pos (by decide)]
    split_ifs with hempty
    · rw [hempty]
      rfl
    · exact dropWhile_quote (by rwa [List.head?_append_of_ne_nil _ hempty])
  rw [withoutQuotes, hfront]
  split_ifs with hempty
  · exact hempty.symm
  · rw [List.reverse_append, List.reverse_singleton, List.singleton_append,
      List.dropWhile_cons_of_pos (by decide), dropWhile_quote (by rwa [List.head?_reverse]),
      List.reverse_reverse]

/-- No number begins with a quote. -/
theorem readInt64?_quote {text : List Char} (h : text ≠ []) : readInt64? ('\x22' :: text) = none := by
  cases text with
  | nil => exact absurd rfl h
  | cons c text => rfl

theorem readDouble?_quote (text : List Char) : readDouble? ('\x22' :: text) = none := by
  have hlower : Char.toLower '\x22' = '\x22' := by decide
  have htake : ('\x22' :: text).takeWhile Char.isDigit = [] :=
    List.takeWhile_cons_of_neg (by decide)
  have hdrop : ('\x22' :: text).dropWhile Char.isDigit = '\x22' :: text :=
    List.dropWhile_cons_of_neg (by decide)
  show readUnsigned ('\x22' :: text) = none
  simp only [readUnsigned, List.map_cons, hlower, htake, hdrop]
  simp

theorem inferValue_quoted {text : List Char} (hhead : text.head? ≠ some '\x22')
    (hlast : text.getLast? ≠ some '\x22') :
    inferValue ('\x22' :: (text ++ ['\x22'])) = .string (String.ofList text) := by
  rw [inferValue, readInt64?_quote (by simp), readDouble?_quote]
  show wordValue ('\x22' :: (text ++ ['\x22'])) = _
  rw [wordValue, if_neg (by simp), if_neg (by simp), withoutQuotes_quoted hhead hlast]

/-- Each value is inferred from what is written for it. -/
theorem inferValue_itemText {value : Scalar} (h : value.IsWritable) :
    inferValue value.itemText = value.toJson := by
  cases value with
  | integer n =>
      rw [Scalar.itemText, toList_toString, inferValue_toInt]
      rfl
  | truth b => cases b <;> rfl
  | text s =>
      rw [Scalar.itemText, inferValue_quoted h.2.1 h.2.2, String.ofList_toList]
      rfl

theorem trim_itemText (value : Scalar) : trim value.itemText = value.itemText := by
  cases value with
  | integer n =>
      refine trim_of_forall fun c hc => ?_
      rw [Scalar.itemText, toList_toString] at hc
      exact isBlank_of_mem_writeInteger hc
  | truth b => cases b <;> decide
  | text s =>
      rw [Scalar.itemText]
      refine trim_eq_self ?_ ?_
      · rintro c ⟨⟩
        decide
      · intro c hc
        rw [← List.cons_append, List.getLast?_concat] at hc
        cases hc
        decide

theorem comma_not_mem_itemText {value : Scalar} (h : value.IsWritable) : ',' ∉ value.itemText := by
  cases value with
  | integer n =>
      rw [Scalar.itemText, toList_toString]
      exact not_mem_writeInteger (by decide) (by decide) _
  | truth b => cases b <;> decide
  | text s =>
      intro hmem
      rcases List.mem_cons.mp hmem with heq | hmem
      · exact absurd heq (by decide)
      · rcases List.mem_append.mp hmem with hmem | hmem
        · exact h.1 hmem
        · exact absurd (List.mem_singleton.mp hmem) (by decide)

/-! ## Items -/

theorem IsWritable.trim_name {pair : String × Scalar} (h : IsWritable pair) :
    trim pair.1.toList = pair.1.toList :=
  trim_eq_self h.blank_head h.blank_last

theorem divides_item {pair : String × Scalar} (h : IsWritable pair) :
    Divides (item pair) pair.1.toList pair.2.itemText :=
  ⟨rfl, h.equals⟩

theorem readItem_trim_item {pair : String × Scalar} (h : IsWritable pair) :
    readItem (trim (item pair)) = .ok (pair.1, pair.2.toJson) := by
  have hname : ¬ (trim pair.1.toList).isEmpty = true := by
    rw [h.trim_name, List.isEmpty_iff]
    exact fun hempty => h.name_ne (String.toList_eq_nil_iff.mp hempty)
  rw [(divides_item h).readItem_trim, if_neg hname, h.trim_name, trim_itemText,
    inferValue_itemText h.value, String.ofList_toList]

theorem comma_not_mem_item {pair : String × Scalar} (h : IsWritable pair) : ',' ∉ item pair := by
  intro hmem
  rcases List.mem_append.mp hmem with hmem | hmem
  · exact h.comma hmem
  · rcases List.mem_cons.mp hmem with heq | hmem
    · exact absurd heq (by decide)
    · exact comma_not_mem_itemText h.value hmem

theorem pieces_itemsText {pairs : List (String × Scalar)} (h : ∀ pair ∈ pairs, IsWritable pair)
    (hne : pairs ≠ []) : pieces (itemsText pairs) = pairs.map item := by
  rw [pieces, itemsText, String.toList_ofList]
  refine List.splitOn_intercalate ',' (fun piece hpiece => ?_) (by simpa using hne)
  obtain ⟨pair, hpair, rfl⟩ := List.mem_map.mp hpiece
  exact comma_not_mem_item (h pair hpair)

theorem parse_itemsText {pairs : List (String × Scalar)} (h : ∀ pair ∈ pairs, IsWritable pair) :
    parse (itemsText pairs) = .ok (ofPairs (asMembers pairs)) := by
  by_cases hne : pairs = []
  · subst hne
    rfl
  · have htext : (pairs.map item).filter hasText = pairs.map item := by
      refine List.filter_eq_self.mpr fun piece hpiece => ?_
      obtain ⟨pair, hpair, rfl⟩ := List.mem_map.mp hpiece
      exact hasText_iff.mpr (divides_item (h pair hpair)).not_isBlankText
    have hread : (pairs.map item).mapM (readItem ∘ trim) = .ok (asMembers pairs) := by
      refine mapM_eq_ok_of_forall₂ ?_
      rw [asMembers, List.forall₂_map_left_iff, List.forall₂_map_right_iff, List.forall₂_same]
      exact fun pair hpair => readItem_trim_item (h pair hpair)
    rw [parse_eq_mapM, pieces_itemsText h hne, htext, hread]
    rfl

/-! ## JSON -/

theorem isAtom_toJson (value : Scalar) : value.toJson.IsAtom := by
  cases value with
  | integer n => exact Json.isAtom_integer (toInt_bounds n).1 (toInt_bounds n).2
  | truth b => exact Json.isAtom_bool b
  | text s => exact Json.isAtom_string s

theorem ofJson_objectText (pairs : List (String × Scalar)) :
    ofJson (objectText pairs) = .ok (ofPairs (asMembers pairs)) := by
  have hatoms : ∀ member ∈ asMembers pairs, member.2.IsAtom := by
    intro member hmember
    obtain ⟨pair, -, rfl⟩ := List.mem_map.mp hmember
    exact isAtom_toJson pair.2
  rw [ofJson, objectText, Json.readMembers_text_object hatoms]
  rfl

/-! ## Both ways -/

/-- What is found in options is what is read from the value in JSON. -/
theorem isFound_of_get? {o : Options} {name : String} {value : Scalar}
    (h : o.members.get? name = some value.toJson) : value.IsFound o name := by
  cases value with
  | integer n =>
      show o.get Json.asInt64 name = _
      have hread : (Json.integer n.toInt).asInt64 = .ok n := Json.asInt64_eq_ok_iff.mpr rfl
      simp only [get, h, Scalar.toJson, hread]
      rfl
  | truth b =>
      show o.get Json.asBool name = _
      simp only [get, h]
      rfl
  | text s =>
      show o.get Json.asString name = _
      simp only [get, h]
      rfl

/-- Pairs written as items and as a JSON object give the same options, and each name is found with
the value of its last pair. -/
theorem parse_itemsText_eq_ofJson_objectText {pairs : List (String × Scalar)}
    (h : ∀ pair ∈ pairs, IsWritable pair) :
    ∃ o, parse (itemsText pairs) = .ok o ∧ ofJson (objectText pairs) = .ok o ∧
      ∀ before name value after, pairs = before ++ (name, value) :: after →
        (∀ pair ∈ after, pair.1 ≠ name) → value.IsFound o name := by
  refine ⟨ofPairs (asMembers pairs), parse_itemsText h, ofJson_objectText pairs, ?_⟩
  rintro before name value after rfl hafter
  refine isFound_of_get? (Members.get?_ofPairs_eq_some_iff.mpr
    ⟨asMembers before, asMembers after, by simp [asMembers], fun member hmember => ?_⟩)
  obtain ⟨pair, hpair, rfl⟩ := List.mem_map.mp hmember
  exact hafter pair hpair

/-- Values of all kinds, one name given two of them, and strings that look like something else. -/
def assortedPairs : List (String × Scalar) :=
  [("mode", .integer (-9223372036854775808)), ("a b", .text " x=\"1\" y "), ("n", .text "12"),
    ("on", .truth true), ("mode", .integer 2)]

theorem parse_itemsText_eq_ofJson_objectText_assorted :
    (∀ pair ∈ assortedPairs, IsWritable pair) ∧
      ∃ o, parse "mode=-9223372036854775808,a b=\" x=\"1\" y \",n=\"12\",on=true,mode=2" = .ok o ∧
        ofJson ("\x7b\"mode\":-9223372036854775808,\"a b\":\" x=\\\"1\\\" y \"," ++
          "\"n\":\"12\",\"on\":true,\"mode\":2\x7d") = .ok o ∧
        o.get Json.asInt64 "mode" = .ok (some 2) ∧ o.get Json.asString "n" = .ok (some "12") := by
  have h : ∀ pair ∈ assortedPairs, IsWritable pair := by decide +kernel
  have hitemsText : itemsText assortedPairs =
      "mode=-9223372036854775808,a b=\" x=\"1\" y \",n=\"12\",on=true,mode=2" := by decide +kernel
  have hobjectText : objectText assortedPairs =
      "\x7b\"mode\":-9223372036854775808,\"a b\":\" x=\\\"1\\\" y \"," ++
        "\"n\":\"12\",\"on\":true,\"mode\":2\x7d" := by decide +kernel
  obtain ⟨o, hitems, hjson, hfound⟩ := parse_itemsText_eq_ofJson_objectText h
  rw [hitemsText] at hitems
  rw [hobjectText] at hjson
  have hmode : (Scalar.integer 2).IsFound o "mode" :=
    hfound (assortedPairs.take 4) _ _ [] rfl (by simp)
  have hnumber : (Scalar.text "12").IsFound o "n" :=
    hfound (assortedPairs.take 2) _ _ (assortedPairs.drop 3) rfl (by decide)
  exact ⟨h, o, hitems, hjson, hmode, hnumber⟩

end Options

end PieceSquare
