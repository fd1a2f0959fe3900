import PieceSquare.Format
import PieceSquare.Json.Choice
import PieceSquare.Json.Passing
import PieceSquare.Json.Printer

set_option autoImplicit false

/-! # Capabilities in JSON

Capabilities are written as an object with three members, always in the same order. They are read
from an object whose members stand in any order and may have others between them, or from a list
of the three values. A member that occurs twice is a fault, and so is one that is missing.
-/

namespace PieceSquare

/-! ## Writing -/

/-- A format as a JSON value: its name, together with its number if the name does not settle it. -/
def InputFormat.toJson : InputFormat → Json
  | .other code => .object [("Other", .integer code.toInt)]
  | f => .string f.name

/-- Capabilities as a JSON value. -/
def Capabilities.toJson (c : Capabilities) : Json :=
  .object [("input_format", c.input.toJson), ("output_format", .string c.output.name),
    ("moves_left", .string c.movesLeft.name)]

/-! ## Choices -/

/-- The input formats by their names. -/
def InputFormat.choice : Choice InputFormat :=
  ⟨InputFormat.named.map fun f => (f.name, f), some ("Other", .other)⟩

/-- The forms of an estimated outcome by their names. -/
def OutputFormat.choice : Choice OutputFormat :=
  ⟨OutputFormat.all.map fun f => (f.name, f), Option.none⟩

/-- The ways to estimate the moves left by their names. -/
def MovesLeftFormat.choice : Choice MovesLeftFormat :=
  ⟨MovesLeftFormat.all.map fun f => (f.name, f), Option.none⟩

namespace Capabilities

/-! ## Reading from an object -/

/-- The members of capabilities. -/
inductive Field where
  | input
  | output
  | movesLeft
deriving DecidableEq

namespace Field

/-- All members, in order. -/
def all : List Field := [input, output, movesLeft]

/-- The name of a member. -/
def name : Field → String
  | input => "input_format"
  | output => "output_format"
  | movesLeft => "moves_left"

/-- The member with a name. -/
def ofName? (name : String) : Option Field := all.find? (·.name == name)

end Field

/-- The members that have been read so far. -/
structure Draft where
  /-- The format of the input planes. -/
  input : Option InputFormat
  /-- The form of the estimated outcome. -/
  output : Option OutputFormat
  /-- The way in which the number of moves left is estimated. -/
  movesLeft : Option MovesLeftFormat

namespace Draft

/-- No member has been read. -/
def empty : Draft := ⟨none, none, none⟩

/-- Whether a member has been read. -/
def has (d : Draft) : Field → Bool
  | .input => d.input.isSome
  | .output => d.output.isSome
  | .movesLeft => d.movesLeft.isSome

/-- The capabilities, if all members have been read. -/
def complete (d : Draft) : Except ReadFault Capabilities :=
  match d with
  | ⟨none, _, _⟩ => .error (.shape (.missingField Field.input.name))
  | ⟨some _, none, _⟩ => .error (.shape (.missingField Field.output.name))
  | ⟨some _, some _, none⟩ => .error (.shape (.missingField Field.movesLeft.name))
  | ⟨some input, some output, some movesLeft⟩ => .ok ⟨input, output, movesLeft⟩

/-- Reads the value of a member. -/
def readValue (d : Draft) (field : Field) (ls : List Lexeme) :
    Except ReadFault (Draft × List Lexeme) :=
  match field with
  | .input => do
    let (value, ls) ← InputFormat.choice.read ls
    return ({ d with input := some value }, ls)
  | .output => do
    let (value, ls) ← OutputFormat.choice.read ls
    return ({ d with output := some value }, ls)
  | .movesLeft => do
    let (value, ls) ← MovesLeftFormat.choice.read ls
    return ({ d with movesLeft := some value }, ls)

/-- Reads a member from behind its name. -/
def readMember (d : Draft) (name : String) (ls : List Lexeme) :
    Except ReadFault (Draft × List Lexeme) :=
  match Field.ofName? name with
  | none => do return (d, ← (Lexeme.pass (← Lexeme.behindColon ls)).mapError .json)
  | some field =>
    if d.has field then .error (.shape (.duplicateField field.name))
    else do d.readValue field (← Lexeme.behindColon ls)

/-- The name of the next member and what stands behind it, or what stands behind the end of the
object. -/
def nextName (first : Bool) : List Lexeme → Except JsonFault (Option String × List Lexeme)
  | [] => .error .endInObject
  | .closeObject :: ls => .ok (none, ls)
  | l :: ls =>
    match first, l, ls with
    | true, .text name _, ls => name.map fun name => (some name, ls)
    | true, _, _ => .error .keyNotString
    | false, .comma, [] => .error .endInValue
    | false, .comma, .text name _ :: ls => name.map fun name => (some name, ls)
    | false, .comma, .closeObject :: _ => .error .trailingComma
    | false, .comma, _ => .error .keyNotString
    | false, _, _ => .error .expectedObjectSeparator

theorem readValue_length {d e : Draft} {field : Field} {ls rest : List Lexeme}
    (h : d.readValue field ls = .ok (e, rest)) : rest.length ≤ ls.length := by
  cases field
  all_goals
    obtain ⟨⟨_, more⟩, read, eq⟩ := Except.exists_of_bind_ok h
    exact (Prod.mk.inj (Except.ok.inj eq)).2 ▸ Choice.read_length read

theorem readMember_length {d e : Draft} {name : String} {ls rest : List Lexeme}
    (h : d.readMember name ls = .ok (e, rest)) : rest.length ≤ ls.length := by
  unfold readMember at h
  split at h
  · obtain ⟨more, colon, h⟩ := Except.exists_of_bind_ok h
    obtain ⟨last, pass, eq⟩ := Except.exists_of_bind_ok h
    obtain ⟨-, rfl⟩ := Prod.mk.inj (Except.ok.inj eq)
    refine Nat.le_trans ?_ (Lexeme.behindColon_length colon)
    cases passed : Lexeme.pass more with
    | error => rw [passed] at pass; cases pass
    | ok => rw [passed] at pass; cases pass; exact Lexeme.passRest_length passed
  · split at h
    · cases h
    · obtain ⟨more, colon, h⟩ := Except.exists_of_bind_ok h
      exact Nat.le_trans (readValue_length h) (Lexeme.behindColon_length colon)

theorem nextName_length {first : Bool} {name : String} {ls rest : List Lexeme}
    (h : nextName first ls = .ok (some name, rest)) : rest.length < ls.length := by
  have name_length {content : Except JsonFault String} {ls : List Lexeme}
      (h : (content.map fun name => (some name, ls)) = .ok (some name, rest)) : rest = ls := by
    cases content <;> simp_all [Except.map]
  unfold nextName at h
  split at h
  · cases h
  · cases h
  · split at h
    case h_1 => exact name_length h ▸ Nat.lt_succ_self _
    case h_4 => exact name_length h ▸ Nat.lt_succ_of_lt (Nat.lt_succ_self _)
    all_goals cases h

/-- Reads further members and the end of the object. -/
def readMembers (first : Bool) (d : Draft) (ls : List Lexeme) :
    Except ReadFault (Draft × List Lexeme) :=
  match next : nextName first ls with
  | .error fault => .error (.json fault)
  | .ok (none, rest) => .ok (d, rest)
  | .ok (some name, behind) =>
    match member : d.readMember name behind with
    | .error fault => .error fault
    | .ok (e, rest) =>
      have : rest.length < ls.length :=
        Nat.lt_of_le_of_lt (readMember_length member) (nextName_length next)
      e.readMembers false rest
termination_by ls.length

end Draft

/-! ## Reading from a list -/

/-- Where an element of a list begins that comes after `before` others. -/
def beginElement (before : Nat) (ls : List Lexeme) : Except ReadFault (List Lexeme) :=
  match ls with
  | [] => .error (.json .endInList)
  | .closeList :: _ =>
    .error (.shape (.length before .capabilities Field.all.length))
  | _ =>
    if before = 0 then .ok ls
    else
      match ls with
      | [.comma] => .error (.json .endInValue)
      | .comma :: .closeList :: _ => .error (.json .trailingComma)
      | .comma :: ls => .ok ls
      | _ => .error (.json .expectedListSeparator)

/-- What stands behind the end of a list. -/
def behindList : List Lexeme → Except JsonFault (List Lexeme)
  | [] => .error .endInList
  | .closeList :: ls => .ok ls
  | .comma :: .closeList :: _ => .error .trailingComma
  | _ => .error .trailingCharacters

/-- Reads the elements of a list, from behind its opening bracket. -/
def readElements (ls : List Lexeme) : Except ReadFault (Capabilities × List Lexeme) := do
  let (input, ls) ← InputFormat.choice.read (← beginElement 0 ls)
  let (output, ls) ← OutputFormat.choice.read (← beginElement 1 ls)
  let (movesLeft, ls) ← MovesLeftFormat.choice.read (← beginElement 2 ls)
  return (⟨input, output, movesLeft⟩, ← (behindList ls).mapError .json)

/-! ## Reading -/

/-- Reads capabilities that stand in front of other lexemes. -/
def readLexemes : List Lexeme → Except ReadFault (Capabilities × List Lexeme)
  | [] => .error (.json .endInValue)
  | .openList :: ls => readElements ls
  | .openObject :: ls => do
    let (draft, ls) ← Draft.empty.readMembers true ls
    return (← draft.complete, ls)
  | l :: _ => .error (l.unwanted .capabilities)

/-- Reads capabilities from a text that holds nothing else. -/
def ofJson (text : String) : Except ReadFault Capabilities :=
  match readLexemes (Lexeme.all text.toList) with
  | .ok (c, []) => .ok c
  | .ok (_, _ :: _) => .error (.json .trailingCharacters)
  | .error fault => .error fault

end Capabilities

end PieceSquare
