import PieceSquare.Json.Typed
import PieceSquare.Proofs.Json.Lexemes

set_option autoImplicit false

/-! # Written objects are read back

An object with members of one lexeme each is read from its text as the members put in one after
another, so that of several members with one name the last counts (`readMembers_text_object`). The
reader goes round once for each member: name, colon, value, and the comma or brace behind it.
-/

namespace PieceSquare.Json

open Lexeme (EndsNumber)

/-- Whether a value is written as one lexeme, wherever it stands in a text. -/
def IsAtom (j : Json) : Prop :=
  ∃ lexeme, (∀ depth, begin? depth lexeme = .ok (.behind j)) ∧
    ∀ rest, EndsNumber rest → Lexeme.all (j.write ++ rest) = lexeme :: Lexeme.all rest

theorem isAtom_bool (b : Bool) : IsAtom (.bool b) :=
  ⟨.word (.bool b), fun _ => rfl, fun rest _ => Lexeme.all_writeBool b rest⟩

theorem isAtom_string (s : String) : IsAtom (.string s) :=
  ⟨.text (.ok s) none, fun _ => rfl, fun rest _ => Lexeme.all_writeString s rest⟩

theorem isAtom_integer {n : Int} (hlo : -signedLimit ≤ n) (hhi : n < signedLimit) :
    IsAtom (.integer n) :=
  ⟨.number (.ok (.integer n)) none, fun _ => rfl, fun _ h => Lexeme.all_writeInteger hlo hhi h⟩

/-- Behind the value of a member there is a comma or a brace. -/
theorem endsNumber_writeMembers (members : List (String × Json)) :
    EndsNumber (writeMembers members) := by
  cases members with
  | nil => exact Lexeme.endsNumber_cons (.inr (.inr rfl)) []
  | cons member members => exact Lexeme.endsNumber_cons (.inl rfl) _

theorem all_comma (rest : List Char) : Lexeme.all (',' :: rest) = .comma :: Lexeme.all rest :=
  Lexeme.all_cons_of_scan (by decide) rfl

theorem all_colon (rest : List Char) : Lexeme.all (':' :: rest) = .colon :: Lexeme.all rest :=
  Lexeme.all_cons_of_scan (by decide) rfl

theorem all_openList (rest : List Char) : Lexeme.all ('[' :: rest) = .openList :: Lexeme.all rest :=
  Lexeme.all_cons_of_scan (by decide) rfl

theorem all_closeList (rest : List Char) :
    Lexeme.all (']' :: rest) = .closeList :: Lexeme.all rest :=
  Lexeme.all_cons_of_scan (by decide) rfl

theorem all_openObject (rest : List Char) :
    Lexeme.all ('\x7b' :: rest) = .openObject :: Lexeme.all rest :=
  Lexeme.all_cons_of_scan (by decide) rfl

theorem all_closeObject (rest : List Char) :
    Lexeme.all ('\x7d' :: rest) = .closeObject :: Lexeme.all rest :=
  Lexeme.all_cons_of_scan (by decide) rfl

/-- A member is its name, a colon and its value. -/
theorem exists_all_member (name : String) {value : Json} (h : IsAtom value)
    (members : List (String × Json)) : ∃ lexeme, (∀ depth, begin? depth lexeme = .ok (.behind value)) ∧
      Lexeme.all (writeString name ++ ':' :: (value.write ++ writeMembers members)) =
        .text (.ok name) none :: .colon :: lexeme :: Lexeme.all (writeMembers members) := by
  obtain ⟨lexeme, hbegin, hall⟩ := h
  refine ⟨lexeme, hbegin, ?_⟩
  rw [Lexeme.all_writeString, all_colon, hall _ (endsNumber_writeMembers members)]

/-- Behind a member the reader takes in one further member after another. -/
theorem run_writeMembers {members : List (String × Json)} (h : ∀ member ∈ members, IsAtom member.2)
    (before : Members) (name : String) (value : Json) :
    run [.object before name] (.behind value) (Lexeme.all (writeMembers members)) =
      .ok (.object (((name, value) :: members).foldl
        (fun (taken : Members) (name, value) => taken.insert name value) before)) := by
  induction members generalizing before name value with
  | nil =>
      have hall : Lexeme.all (writeMembers []) = [.closeObject] := by
        rw [writeMembers, all_closeObject, Lexeme.all]
      rw [hall]
      rfl
  | cons member members ih =>
      obtain ⟨name', value'⟩ := member
      obtain ⟨hvalue, hmembers⟩ := List.forall_mem_cons.mp h
      obtain ⟨lexeme, hbegin, hall⟩ := exists_all_member name' hvalue members
      rw [writeMembers, all_comma, hall]
      show (do run [.object (before.insert name value) name'] (← begin? 1 lexeme) _) = _
      rw [hbegin]
      exact ih hmembers _ _ _

/-- An object of members of one lexeme each is read from its text. -/
theorem readMembers_text_object {members : List (String × Json)}
    (h : ∀ member ∈ members, IsAtom member.2) :
    readMembers (object members).text = .ok (.ofPairs members) := by
  rw [readMembers, text, String.toList_ofList]
  cases members with
  | nil =>
      have hall : Lexeme.all (object []).write = [.openObject, .closeObject] := by
        rw [write, all_openObject, all_closeObject, Lexeme.all]
      rw [hall]
      rfl
  | cons member members =>
      obtain ⟨name, value⟩ := member
      obtain ⟨hvalue, hmembers⟩ := List.forall_mem_cons.mp h
      obtain ⟨lexeme, hbegin, hall⟩ := exists_all_member name hvalue members
      have hrun := run_writeMembers hmembers [] name value
      rw [write, all_openObject, hall]
      have hfirst : run [] .value (.openObject :: .text (.ok name) none :: .colon :: lexeme ::
          Lexeme.all (writeMembers members)) =
            .ok (.object (Members.ofPairs ((name, value) :: members))) := by
        show (do run [.object [] name] (← begin? 1 lexeme) _) = _
        rw [hbegin]
        exact hrun
      simp only [hfirst]

end PieceSquare.Json
