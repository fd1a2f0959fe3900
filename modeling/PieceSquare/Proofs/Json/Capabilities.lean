import PieceSquare.Format.Json
import PieceSquare.Proofs.Evaluator.Construction
import PieceSquare.Proofs.Json.Objects

set_option autoImplicit false

/-! # Written capabilities are read back

The text of capabilities is read as these capabilities and no others, so different capabilities have
different texts (`standsFor_text`). The input format is one lexeme, its name, or an object of one
member with a number of 64 bits; in both forms it is read from its lexemes whatever stands behind them
(`InputFormat.read_lexemes`). The reader then goes round once for each of the three members.

Nothing on the way looks at the number of a format, so `other 1` stays apart from the format whose
number is 1.
-/

namespace PieceSquare

open Json (writeString all_colon all_comma all_openObject all_closeObject)

/-! ## Choices -/

theorem Alternative.readPayload_numbered {α : Type} (f : Int64 → α) (n : Int64)
    (ls : List Lexeme) :
    (Alternative.numbered f).readPayload (.number (.ok (.integer n.toInt)) none :: ls) =
      .ok (f n, ls) := by
  have hread : (Json.integer n.toInt).asInt64 = .ok n := Json.asInt64_eq_ok_iff.mpr rfl
  rw [readPayload, Lexeme.readInt64, hread]
  rfl

namespace Choice

variable {α : Type} {c : Choice α} {name : String}

/-- An alternative without a number is read from its name. -/
theorem read_name {a : α} (h : c.ofName name = .ok (.plain a)) (ls : List Lexeme) :
    c.read (.text (.ok name) none :: ls) = .ok (a, ls) := by
  rw [read, h]

/-- An alternative with a number is read from an object of one member. -/
theorem read_member {f : Int64 → α} (h : c.ofName name = .ok (.numbered f)) (n : Int64)
    (ls : List Lexeme) :
    c.read (.openObject :: .text (.ok name) none :: .colon ::
      .number (.ok (.integer n.toInt)) none :: .closeObject :: ls) = .ok (f n, ls) := by
  show (do
    let a ← c.ofName name
    let read ← a.readPayload (.number (.ok (.integer n.toInt)) none :: .closeObject :: ls)
    return (read.1, ← Lexeme.behindOnlyMember read.2)) = _
  rw [h, ok_bind, Alternative.readPayload_numbered]
  rfl

end Choice

/-! ## Formats -/

/-- The lexemes of a written input format. -/
def InputFormat.lexemes : InputFormat → List Lexeme
  | .other code => [.openObject, .text (.ok "Other") none, .colon,
      .number (.ok (.integer code.toInt)) none, .closeObject]
  | f => [.text (.ok f.name) none]

theorem InputFormat.all_write (f : InputFormat) (rest : List Char) :
    Lexeme.all (f.toJson.write ++ rest) = f.lexemes ++ Lexeme.all rest := by
  cases f with
  | other code =>
      have hends : Lexeme.EndsNumber ('\x7d' :: rest) :=
        Lexeme.endsNumber_cons (.inr (.inr rfl)) rest
      have hwrite : (InputFormat.other code).toJson.write ++ rest =
          '\x7b' :: (writeString "Other" ++ ':' ::
            (Json.writeInteger code.toInt ++ '\x7d' :: rest)) := by
        simp [toJson, Json.write, Json.writeMembers]
      obtain ⟨hlo, hhi⟩ := toInt_bounds code
      rw [hwrite, all_openObject, Lexeme.all_writeString, all_colon,
        Lexeme.all_writeInteger hlo hhi hends, all_closeObject]
      rfl
  | _ => exact Lexeme.all_writeString _ rest

theorem InputFormat.read_lexemes (f : InputFormat) (ls : List Lexeme) :
    InputFormat.choice.read (f.lexemes ++ ls) = .ok (f, ls) := by
  cases f with
  | other code => exact Choice.read_member rfl code ls
  | _ => exact Choice.read_name rfl ls

theorem OutputFormat.read_name (f : OutputFormat) (ls : List Lexeme) :
    OutputFormat.choice.read (.text (.ok f.name) none :: ls) = .ok (f, ls) := by
  cases f <;> exact Choice.read_name rfl ls

theorem MovesLeftFormat.read_name (f : MovesLeftFormat) (ls : List Lexeme) :
    MovesLeftFormat.choice.read (.text (.ok f.name) Option.none :: ls) = .ok (f, ls) := by
  cases f <;> exact Choice.read_name rfl ls

namespace Capabilities

/-! ## Members -/

namespace Draft

theorem readValue_input (d : Draft) (f : InputFormat) (ls : List Lexeme) :
    d.readValue .input (f.lexemes ++ ls) = .ok ({ d with input := some f }, ls) := by
  rw [readValue, f.read_lexemes]
  rfl

theorem readValue_output (d : Draft) (f : OutputFormat) (ls : List Lexeme) :
    d.readValue .output (.text (.ok f.name) none :: ls) =
      .ok ({ d with output := some f }, ls) := by
  rw [readValue, f.read_name]
  rfl

theorem readValue_movesLeft (d : Draft) (f : MovesLeftFormat) (ls : List Lexeme) :
    d.readValue .movesLeft (.text (.ok f.name) none :: ls) =
      .ok ({ d with movesLeft := some f }, ls) := by
  rw [readValue, f.read_name]
  rfl

variable {d e : Draft} {field : Field} {ls rest : List Lexeme}

/-- From behind its name, a member that has not been read yet is read by its value. -/
theorem readMember_name (h : d.has field = false) (ls : List Lexeme) :
    d.readMember field.name (.colon :: ls) = d.readValue field ls := by
  have hname : Field.ofName? field.name = some field := by cases field <;> rfl
  rw [readMember, hname]
  show (if d.has field = true then _ else d.readValue field ls) = _
  rw [h, if_neg (by decide)]

/-- The reader goes round once for each member. -/
theorem readMembers_of_nextName {first : Bool} {name : String} {behind : List Lexeme}
    (hnext : nextName first ls = .ok (some name, behind))
    (hmember : d.readMember name behind = .ok (e, rest)) :
    d.readMembers first ls = e.readMembers false rest := by
  rw [readMembers]
  split
  case h_3 heq =>
    rw [hnext] at heq
    cases heq
    split
    case h_2 heq =>
      rw [hmember] at heq
      cases heq
      rfl
    case h_1 heq =>
      rw [hmember] at heq
      cases heq
  all_goals
    next heq =>
      rw [hnext] at heq
      cases heq

theorem readMembers_first (h : d.has field = false)
    (hvalue : d.readValue field ls = .ok (e, rest)) :
    d.readMembers true (.text (.ok field.name) none :: .colon :: ls) =
      e.readMembers false rest :=
  readMembers_of_nextName rfl ((readMember_name h ls).trans hvalue)

theorem readMembers_further (h : d.has field = false)
    (hvalue : d.readValue field ls = .ok (e, rest)) :
    d.readMembers false (.comma :: .text (.ok field.name) none :: .colon :: ls) =
      e.readMembers false rest :=
  readMembers_of_nextName rfl ((readMember_name h ls).trans hvalue)

theorem readMembers_closeObject (first : Bool) (d : Draft) (ls : List Lexeme) :
    d.readMembers first (.closeObject :: ls) = .ok (d, ls) := by
  rw [readMembers]
  rfl

end Draft

/-! ## Objects -/

/-- The lexemes of written capabilities, from behind the opening brace. -/
def memberLexemes (c : Capabilities) : List Lexeme :=
  .text (.ok Field.input.name) none :: .colon :: (c.input.lexemes ++
    .comma :: .text (.ok Field.output.name) none :: .colon :: .text (.ok c.output.name) none ::
    .comma :: .text (.ok Field.movesLeft.name) none :: .colon ::
      .text (.ok c.movesLeft.name) none :: [.closeObject])

theorem all_text (c : Capabilities) :
    Lexeme.all c.toJson.text.toList = .openObject :: c.memberLexemes := by
  have hwrite : c.toJson.write = '\x7b' :: (writeString Field.input.name ++ ':' ::
      (c.input.toJson.write ++ ',' :: (writeString Field.output.name ++ ':' ::
        (writeString c.output.name ++ ',' :: (writeString Field.movesLeft.name ++ ':' ::
          (writeString c.movesLeft.name ++ ['\x7d'])))))) := by
    simp [toJson, Json.write, Json.writeMembers, Field.name]
  rw [Json.text, String.toList_ofList, hwrite, all_openObject, Lexeme.all_writeString, all_colon,
    InputFormat.all_write, all_comma, Lexeme.all_writeString, all_colon, Lexeme.all_writeString,
    all_comma, Lexeme.all_writeString, all_colon, Lexeme.all_writeString, all_closeObject,
    Lexeme.all, memberLexemes]

theorem readMembers_memberLexemes (c : Capabilities) :
    Draft.empty.readMembers true c.memberLexemes =
      .ok (⟨some c.input, some c.output, some c.movesLeft⟩, []) := by
  rw [memberLexemes, Draft.readMembers_first rfl (Draft.readValue_input _ _ _),
    Draft.readMembers_further rfl (Draft.readValue_output _ _ _),
    Draft.readMembers_further rfl (Draft.readValue_movesLeft _ _ _),
    Draft.readMembers_closeObject]

theorem ofJson_text (c : Capabilities) : ofJson c.toJson.text = .ok c := by
  have hread : readLexemes (.openObject :: c.memberLexemes) = .ok (c, []) := by
    show (do
      let read ← Draft.empty.readMembers true c.memberLexemes
      return (← read.1.complete, read.2)) = _
    rw [readMembers_memberLexemes]
    rfl
  rw [ofJson, all_text, hread]

/-! ## Texts -/

/-- A text stands for capabilities: these are read from it and no others, a format without a name of
its own is not read as one that has a name nor the other way round, and no other capabilities are
written in this way. -/
structure StandsFor (text : String) (c : Capabilities) : Prop where
  read_iff : ∀ d, ofJson text = .ok d ↔ d = c
  named_iff : ∀ d, ofJson text = .ok d →
    (d.input ∈ InputFormat.named ↔ c.input ∈ InputFormat.named)
  written_iff : ∀ d : Capabilities, d.toJson.text = text ↔ d = c

/-- Capabilities of any format, also of one that is known by its number alone, survive being written
and read. -/
theorem standsFor_text (c : Capabilities) : StandsFor c.toJson.text c := by
  have hread (d : Capabilities) (h : ofJson c.toJson.text = .ok d) : d = c :=
    Except.ok.inj (h.symm.trans (ofJson_text c))
  constructor
  case read_iff =>
    intro d
    constructor
    · exact hread d
    · rintro rfl
      exact ofJson_text d
  case named_iff =>
    intro d h
    rw [hread d h]
  case written_iff =>
    intro d
    constructor
    · intro h
      exact hread d (h ▸ ofJson_text d)
    · rintro rfl
      rfl

/-- The number 1 is that of a format with a name, which is not written here. -/
example : (Capabilities.mk (.other 1) .wdl .v1).toJson.text =
    "\x7b\"input_format\":\x7b\"Other\":1\x7d,\"output_format\":\"Wdl\",\"moves_left\":\"V1\"\x7d" := by
  decide +kernel

end Capabilities

end PieceSquare
