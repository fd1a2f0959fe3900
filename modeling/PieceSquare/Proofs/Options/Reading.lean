import PieceSquare.Proofs.Fallible
import PieceSquare.Proofs.Options.Items
import PieceSquare.Proofs.Options.Members

set_option autoImplicit false

/-! # The reading of options from items

A text of options is cut into pieces at its commas. A piece of blanks does not count; any other piece
has to be an item, a name and a value divided by the first equals sign, with something else than
blanks for a name. The first piece that is neither is the fault of the text
(`parse_eq_error_iff`), and otherwise the last piece with a name gives the name its value
(`get?_eq_some_iff_of_parse`). As the pieces of two texts with a comma in between are those of the
one and then those of the other, the options of the first are overridden by those of the second
(`parse_append_comma`).
-/

namespace PieceSquare

namespace Options

/-- The pieces of a text between its commas. -/
def pieces (text : String) : List (List Char) := text.toList.splitOn ','

/-- What stands in front of the first equals sign of a piece, and what stands behind it. -/
structure Divides (piece before after : List Char) : Prop where
  append : piece = before ++ '=' :: after
  first : '=' ∉ before

/-- Whether a piece is an item: there is something else than blanks in front of its first equals
sign. -/
def IsItem (piece : List Char) : Prop :=
  ∃ before after, Divides piece before after ∧ ¬ IsBlankText before

/-- The value that a piece gives a name. Blanks around the two do not count. -/
def Assigns (piece : List Char) (name : String) (value : Json) : Prop :=
  ∃ before after, Divides piece before after ∧ name = String.ofList (trim before) ∧
    value = inferValue (trim after)

/-- The fault of a piece that is neither blank nor an item. It repeats the piece without the blanks
around it. -/
inductive Faulty (piece : List Char) : OptionsFault → Prop where
  | noValue (hpiece : ¬ IsBlankText piece) (hequals : '=' ∉ piece) :
    Faulty piece (.noValue (String.ofList (trim piece)))
  | noName {before after : List Char} (hdivides : Divides piece before after)
    (hbefore : IsBlankText before) : Faulty piece (.noName (String.ofList (trim piece)))

/-! ## A single piece -/

/-- A piece is divided in one way only. -/
theorem Divides.unique {piece before after before' after' : List Char}
    (h : Divides piece before after) (h' : Divides piece before' after') :
    before = before' ∧ after = after' := by
  have htake {before after : List Char} (h : Divides piece before after) :
      piece.takeWhile (· != '=') = before := by
    rw [h.append, takeWhile_bne_append h.first]
  obtain rfl : before = before' := (htake h).symm.trans (htake h')
  have hafter := List.append_cancel_left (h.append.symm.trans h'.append)
  exact ⟨rfl, List.tail_eq_of_cons_eq hafter⟩

theorem isBlank_equals : isBlank '=' = false := by decide

theorem exists_divides {piece : List Char} (h : '=' ∈ piece) :
    ∃ before after, Divides piece before after := by
  obtain ⟨before, after, happend, hfirst⟩ := List.eq_append_cons_of_mem h
  exact ⟨before, after, happend, hfirst⟩

theorem Divides.not_isBlankText {piece before after : List Char} (h : Divides piece before after) :
    ¬ IsBlankText piece := by
  intro hblank
  have hequals := hblank '=' (h.append ▸ List.mem_append_right before List.mem_cons_self)
  rw [isBlank_equals] at hequals
  cases hequals

theorem readItem_of_not_mem {item : List Char} (h : '=' ∉ item) :
    readItem item = .error (.noValue (String.ofList item)) := by
  have hdrop : item.dropWhile (· != '=') = [] :=
    List.dropWhile_eq_nil_iff.mpr (bne_of_not_mem h)
  simp only [readItem, hdrop]

theorem mem_of_mem_trim {c : Char} {text : List Char} (h : c ∈ trim text) : c ∈ text :=
  (List.dropWhile_sublist isBlank).mem (List.mem_reverse.mp
    ((List.dropWhile_sublist isBlank).mem (List.mem_reverse.mp h)))

/-- A piece is read without regard to the blanks around it, its name and its value. -/
theorem Divides.readItem_trim {piece before after : List Char} (h : Divides piece before after) :
    readItem (trim piece) =
      if (trim before).isEmpty then .error (.noName (String.ofList (trim piece)))
      else .ok (String.ofList (trim before), inferValue (trim after)) := by
  have hfirst : '=' ∉ before.dropWhile isBlank := fun hmem =>
    h.first ((List.dropWhile_sublist isBlank).mem hmem)
  have htrim : trim piece = before.dropWhile isBlank ++ '=' :: trimEnd after := by
    rw [h.append, trim_append_cons isBlank_equals]
  rw [htrim, readItem_append hfirst, trim_dropWhile, trim_trimEnd]

/-- Only an item is read, as the name and the value that it assigns. -/
theorem readItem_trim_eq_ok_iff {piece : List Char} {name : String} {value : Json} :
    readItem (trim piece) = .ok (name, value) ↔ IsItem piece ∧ Assigns piece name value := by
  constructor
  · intro h
    by_cases hequals : '=' ∈ piece
    · obtain ⟨before, after, hdivides⟩ := exists_divides hequals
      rw [hdivides.readItem_trim] at h
      split_ifs at h with hempty
      obtain ⟨hname, hvalue⟩ := Prod.mk.inj (Except.ok.inj h)
      have hbefore : ¬ IsBlankText before := fun hblank =>
        hempty (isEmpty_trim_iff.mpr hblank)
      exact ⟨⟨before, after, hdivides, hbefore⟩, before, after, hdivides, hname.symm, hvalue.symm⟩
    · rw [readItem_of_not_mem fun hmem => hequals (mem_of_mem_trim hmem)] at h
      cases h
  · rintro ⟨⟨before, after, hdivides, hbefore⟩, before', after', hdivides', rfl, rfl⟩
    obtain ⟨rfl, rfl⟩ := hdivides.unique hdivides'
    rw [hdivides.readItem_trim, if_neg fun hempty => hbefore (isEmpty_trim_iff.mp hempty)]

theorem readItem_trim_eq_error_iff {piece : List Char} (hpiece : ¬ IsBlankText piece)
    {fault : OptionsFault} : readItem (trim piece) = .error fault ↔ Faulty piece fault := by
  constructor
  · intro h
    by_cases hequals : '=' ∈ piece
    · obtain ⟨before, after, hdivides⟩ := exists_divides hequals
      rw [hdivides.readItem_trim] at h
      split_ifs at h with hempty
      cases h
      exact .noName hdivides (isEmpty_trim_iff.mp hempty)
    · rw [readItem_of_not_mem fun hmem => hequals (mem_of_mem_trim hmem)] at h
      cases h
      exact .noValue hpiece hequals
  · rintro (⟨-, hequals⟩ | ⟨hdivides, hbefore⟩)
    · exact readItem_of_not_mem fun hmem => hequals (mem_of_mem_trim hmem)
    · rw [hdivides.readItem_trim, if_pos (isEmpty_trim_iff.mpr hbefore)]

theorem exists_readItem_trim_iff {piece : List Char} :
    (∃ pair, readItem (trim piece) = .ok pair) ↔ IsItem piece := by
  constructor
  · rintro ⟨⟨name, value⟩, h⟩
    exact (readItem_trim_eq_ok_iff.mp h).1
  · rintro ⟨before, after, hdivides, hbefore⟩
    exact ⟨_, readItem_trim_eq_ok_iff.mpr ⟨⟨before, after, hdivides, hbefore⟩,
      before, after, hdivides, rfl, rfl⟩⟩

theorem Faulty.not_isBlankText {piece : List Char} {fault : OptionsFault}
    (h : Faulty piece fault) : ¬ IsBlankText piece := by
  cases h with
  | noValue hpiece => exact hpiece
  | noName hdivides => exact hdivides.not_isBlankText

/-- A fault repeats the piece without the blanks around it. -/
theorem Faulty.exists_message {piece : List Char} {fault : OptionsFault} (h : Faulty piece fault) :
    ∃ reason, fault.message = reason ++ " in '" ++ String.ofList (trim piece) ++ "'" := by
  cases h with
  | noValue => exact ⟨"expected key=value", rfl⟩
  | noName => exact ⟨"empty key", rfl⟩

/-! ## All pieces -/

/-- Whether a piece has something else than blanks. -/
def hasText (piece : List Char) : Bool := !(trim piece).isEmpty

theorem hasText_iff {piece : List Char} : hasText piece = true ↔ ¬ IsBlankText piece := by
  rw [hasText, Bool.not_eq_true', ← isEmpty_trim_iff, Bool.not_eq_true]

theorem items_eq_map (text : String) : items text = ((pieces text).filter hasText).map trim := by
  rw [items, List.filter_map]
  rfl

theorem parse_eq_mapM (text : String) : parse text =
    (((pieces text).filter hasText).mapM (readItem ∘ trim)).map ofPairs := by
  rw [parse, items_eq_map, List.mapM_map]

/-- A text is read if each of its pieces is blank or an item. -/
theorem exists_parse_eq_ok_iff {text : String} :
    (∃ o, parse text = .ok o) ↔ ∀ piece ∈ pieces text, IsBlankText piece ∨ IsItem piece := by
  have hmap : (∃ o, parse text = .ok o) ↔
      ∃ pairs, ((pieces text).filter hasText).mapM (readItem ∘ trim) = .ok pairs := by
    simp only [parse_eq_mapM, map_eq_ok_iff]
    constructor
    · rintro ⟨_, pairs, h, -⟩
      exact ⟨pairs, h⟩
    · rintro ⟨pairs, h⟩
      exact ⟨_, pairs, h, rfl⟩
  rw [hmap, exists_mapM_eq_ok_iff]
  constructor
  · intro h piece hpiece
    by_cases hblank : IsBlankText piece
    · exact .inl hblank
    · exact .inr (exists_readItem_trim_iff.mp
        (h piece (List.mem_filter.mpr ⟨hpiece, hasText_iff.mpr hblank⟩)))
  · intro h piece hpiece
    obtain ⟨hmem, htext⟩ := List.mem_filter.mp hpiece
    exact exists_readItem_trim_iff.mpr ((h piece hmem).resolve_left (hasText_iff.mp htext))

/-- The first piece that is neither blank nor an item is the fault of a text. -/
theorem parse_eq_error_iff {text : String} {fault : OptionsFault} :
    parse text = .error fault ↔ ∃ before piece after, pieces text = before ++ piece :: after ∧
      (∀ other ∈ before, IsBlankText other ∨ IsItem other) ∧ Faulty piece fault := by
  rw [parse_eq_mapM, map_eq_error_iff, mapM_eq_error_iff]
  constructor
  · rintro ⟨before, piece, after, hfilter, hbefore, hpiece⟩
    obtain ⟨front, back, hpieces, hfront, hback⟩ := List.filter_eq_append_iff.mp hfilter
    obtain ⟨blanks, rest, rfl, hblanks, htext, -⟩ := List.filter_eq_cons_iff.mp hback
    refine ⟨front ++ blanks, piece, rest, by rw [hpieces, List.append_assoc], ?_, ?_⟩
    · intro other hother
      by_cases hblank : IsBlankText other
      · exact .inl hblank
      · rcases List.mem_append.mp hother with hmem | hmem
        · have hmem' : other ∈ before :=
            hfront ▸ List.mem_filter.mpr ⟨hmem, hasText_iff.mpr hblank⟩
          exact .inr (exists_readItem_trim_iff.mp (hbefore other hmem'))
        · exact absurd (hasText_iff.mpr hblank) (hblanks other hmem)
    · exact (readItem_trim_eq_error_iff (hasText_iff.mp htext)).mp hpiece
  · rintro ⟨before, piece, after, hpieces, hbefore, hfaulty⟩
    have hpiece : ¬ IsBlankText piece := hfaulty.not_isBlankText
    refine ⟨before.filter hasText, piece, after.filter hasText, ?_, fun other hother => ?_,
      (readItem_trim_eq_error_iff hpiece).mpr hfaulty⟩
    · rw [hpieces, List.filter_append, List.filter_cons_of_pos (hasText_iff.mpr hpiece)]
    · obtain ⟨hmem, htext⟩ := List.mem_filter.mp hother
      exact exists_readItem_trim_iff.mpr
        ((hbefore other hmem).resolve_left (hasText_iff.mp htext))

/-! ## The options of a text -/

/-- What a piece adds to the options, if anything. -/
def pair? (piece : List Char) : Option (String × Json) := (readItem (trim piece)).toOption

theorem pair?_eq_some_iff {piece : List Char} {name : String} {value : Json} :
    pair? piece = some (name, value) ↔ IsItem piece ∧ Assigns piece name value := by
  rw [← readItem_trim_eq_ok_iff, pair?]
  cases readItem (trim piece) with
  | error fault => exact iff_of_false (by rintro ⟨⟩) (by rintro ⟨⟩)
  | ok pair => exact Iff.of_eq (by simp [Except.toOption])

theorem pair?_of_isBlankText {piece : List Char} (h : IsBlankText piece) : pair? piece = none := by
  rw [pair?, trim_eq_nil_iff.mpr h]
  rfl

theorem filterMap_pair?_of_forall₂ {readable : List (List Char)} {pairs : List (String × Json)}
    (h : List.Forall₂ (fun piece pair => readItem (trim piece) = .ok pair) readable pairs) :
    readable.filterMap pair? = pairs := by
  induction h with
  | nil => rfl
  | cons hpair _ ih =>
      have hfirst : pair? _ = some _ := congrArg Except.toOption hpair
      rw [List.filterMap_cons_some hfirst, ih]

theorem eq_ofPairs_of_parse {text : String} {o : Options} (h : parse text = .ok o) :
    o = ofPairs ((pieces text).filterMap pair?) := by
  have hskip : ((pieces text).filter hasText).filterMap pair? = (pieces text).filterMap pair? := by
    rw [List.filterMap_filter]
    refine List.filterMap_congr fun piece _ => ?_
    by_cases hblank : IsBlankText piece
    · rw [pair?_of_isBlankText hblank, ite_self]
    · rw [if_pos (hasText_iff.mpr hblank)]
  obtain ⟨pairs, hpairs, rfl⟩ := map_eq_ok_iff.mp (parse_eq_mapM text ▸ h)
  rw [← hskip, filterMap_pair?_of_forall₂ (mapM_eq_ok_iff.mp hpairs)]

/-- In a text that is read, each piece that assigns a value is an item. -/
theorem pair?_eq_some_iff_of_parse {text : String} {o : Options} (h : parse text = .ok o)
    {piece : List Char} (hpiece : piece ∈ pieces text) {name : String} {value : Json} :
    pair? piece = some (name, value) ↔ Assigns piece name value := by
  rw [pair?_eq_some_iff, and_iff_right_iff_imp]
  rintro ⟨before, after, hdivides, -⟩
  exact (exists_parse_eq_ok_iff.mp ⟨o, h⟩ piece hpiece).resolve_left hdivides.not_isBlankText

/-- The last piece with a name gives the name its value. -/
theorem get?_eq_some_iff_of_parse {text : String} {o : Options} (h : parse text = .ok o)
    {name : String} {value : Json} : o.members.get? name = some value ↔
      ∃ before piece after, pieces text = before ++ piece :: after ∧ Assigns piece name value ∧
        ∀ other ∈ after, ∀ value', ¬ Assigns other name value' := by
  have hassigns {piece : List Char} (hpiece : piece ∈ pieces text) {name : String} {value : Json} :
      pair? piece = some (name, value) ↔ Assigns piece name value :=
    pair?_eq_some_iff_of_parse h hpiece
  rw [eq_ofPairs_of_parse h]
  show Members.get? (Members.ofPairs _) name = some value ↔ _
  rw [Members.get?_ofPairs_eq_some_iff]
  constructor
  · rintro ⟨before, after, hpairs, hafter⟩
    obtain ⟨front, back, hpieces, -, hback⟩ := List.filterMap_eq_append_iff.mp hpairs
    obtain ⟨skipped, piece, rest, rfl, -, hpiece, rfl⟩ := List.filterMap_eq_cons_iff.mp hback
    refine ⟨front ++ skipped, piece, rest, by rw [hpieces, List.append_assoc],
      (hassigns (by simp [hpieces])).mp hpiece, fun other hother value' hvalue' => ?_⟩
    have hpair := (hassigns (by simp [hpieces, hother])).mpr hvalue'
    exact hafter _ (List.mem_filterMap.mpr ⟨other, hother, hpair⟩) rfl
  · rintro ⟨before, piece, after, hpieces, hpiece, hafter⟩
    refine ⟨before.filterMap pair?, after.filterMap pair?, ?_, fun pair hpair => ?_⟩
    · rw [hpieces, List.filterMap_append,
        List.filterMap_cons_some ((hassigns (by simp [hpieces])).mpr hpiece)]
    · rintro rfl
      obtain ⟨other, hother, hsome⟩ := List.mem_filterMap.mp hpair
      exact hafter other hother pair.2 ((hassigns (by simp [hpieces, hother])).mp hsome)

theorem get?_eq_none_iff_of_parse {text : String} {o : Options} (h : parse text = .ok o)
    {name : String} : o.members.get? name = none ↔
      ∀ piece ∈ pieces text, ∀ value, ¬ Assigns piece name value := by
  rw [eq_ofPairs_of_parse h]
  show Members.get? (Members.ofPairs _) name = none ↔ _
  rw [Members.get?_ofPairs_eq_none_iff]
  constructor
  · intro hnone piece hpiece value hvalue
    have hpair := (pair?_eq_some_iff_of_parse h hpiece).mpr hvalue
    exact hnone _ (List.mem_filterMap.mpr ⟨piece, hpiece, hpair⟩) rfl
  · rintro hnone pair hpair rfl
    obtain ⟨piece, hpiece, hsome⟩ := List.mem_filterMap.mp hpair
    exact hnone piece hpiece pair.2 ((pair?_eq_some_iff_of_parse h hpiece).mp hsome)

/-! ## Two texts with a comma in between -/

/-- Options with the values of others, where these have one, in place of their own. -/
def overriddenBy (o o' : Options) : Options := ofPairs (o.members ++ o'.members)

theorem overriddenBy_ofPairs (pairs pairs' : List (String × Json)) :
    (ofPairs pairs).overriddenBy (ofPairs pairs') = ofPairs (pairs ++ pairs') :=
  congrArg Options.mk (Members.ofPairs_append_ofPairs pairs pairs')

theorem pieces_append (a b : String) : pieces (a ++ "," ++ b) = pieces a ++ pieces b := by
  have hlist : (a ++ "," ++ b).toList = a.toList ++ ',' :: b.toList := by
    rw [String.toList_append, String.toList_append, List.append_assoc]
    rfl
  rw [pieces, hlist, List.splitOn_append_cons_self]
  rfl

theorem parse_append_comma (a b : String) : parse (a ++ "," ++ b) = do
    let first ← parse a
    let second ← parse b
    return first.overriddenBy second := by
  rw [parse_eq_mapM, pieces_append, List.filter_append, List.mapM_append, parse_eq_mapM a,
    parse_eq_mapM b]
  cases ((pieces a).filter hasText).mapM (readItem ∘ trim) with
  | error fault => rfl
  | ok pairs =>
      cases ((pieces b).filter hasText).mapM (readItem ∘ trim) with
      | error fault => rfl
      | ok pairs' => exact congrArg Except.ok (overriddenBy_ofPairs pairs pairs').symm

theorem get?_overriddenBy {o o' : Options} (h : o.members.Ordered) (h' : o'.members.Ordered)
    (name : String) : (o.overriddenBy o').members.get? name =
      (o'.members.get? name).or (o.members.get? name) := by
  show Members.get? (Members.ofPairs (o.members ++ o'.members)) name = _
  rw [Members.get?_ofPairs_append, Members.ofPairs_of_ordered h, Members.ofPairs_of_ordered h']

theorem ordered_of_parse {text : String} {o : Options} (h : parse text = .ok o) :
    o.members.Ordered := by
  rw [eq_ofPairs_of_parse h]
  exact Members.ordered_ofPairs _

/-- What the reading of options from items is to do, for all texts: it goes through the pieces of a
text as if each stood alone, stops at the first one that is neither blank nor an item, and leaves
each name with the last value that it is given. -/
structure ReadsItems (read : String → Except OptionsFault Options) : Prop where
  append : ∀ a b, read (a ++ "," ++ b) = do
    let first ← read a
    let second ← read b
    return first.overriddenBy second
  overrides : ∀ a b o o', read a = .ok o → read b = .ok o' → ∀ name,
    (o.overriddenBy o').members.get? name = (o'.members.get? name).or (o.members.get? name)
  ok_iff : ∀ text, (∃ o, read text = .ok o) ↔
    ∀ piece ∈ pieces text, IsBlankText piece ∨ IsItem piece
  error_iff : ∀ text fault, read text = .error fault ↔ ∃ before piece after,
    pieces text = before ++ piece :: after ∧
      (∀ other ∈ before, IsBlankText other ∨ IsItem other) ∧ Faulty piece fault
  quotes : ∀ piece fault, Faulty piece fault →
    ∃ reason, fault.message = reason ++ " in '" ++ String.ofList (trim piece) ++ "'"
  some_iff : ∀ text o, read text = .ok o → ∀ name value, o.members.get? name = some value ↔
    ∃ before piece after, pieces text = before ++ piece :: after ∧ Assigns piece name value ∧
      ∀ other ∈ after, ∀ value', ¬ Assigns other name value'
  none_iff : ∀ text o, read text = .ok o → ∀ name, o.members.get? name = none ↔
    ∀ piece ∈ pieces text, ∀ value, ¬ Assigns piece name value

theorem parse_readsItems : ReadsItems parse := by
  constructor
  case append => exact parse_append_comma
  case overrides =>
    intro a b o o' ho ho' name
    exact get?_overriddenBy (ordered_of_parse ho) (ordered_of_parse ho') name
  case ok_iff => exact fun text => exists_parse_eq_ok_iff
  case error_iff => exact fun text fault => parse_eq_error_iff
  case quotes => exact fun piece fault h => h.exists_message
  case some_iff => exact fun text o h name value => get?_eq_some_iff_of_parse h
  case none_iff => exact fun text o h name => get?_eq_none_iff_of_parse h

end Options

end PieceSquare
