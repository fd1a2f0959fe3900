import PieceSquare.Json.Typed

set_option autoImplicit false

/-! # Choices in JSON

A choice between alternatives is written by the name of the alternative. An alternative that comes
with a number is written as an object with one member, the name with the number as its value. An
alternative without a number may be written in this way, too, with `null` in place of the number.

The lexemes of a choice are read one by one, and a reader hands on the lexemes behind it.
-/

namespace PieceSquare

/-- The alternatives of a choice. -/
structure Choice (α : Type) where
  /-- The alternatives without a number, by their names. -/
  plain : List (String × α)
  /-- The alternative that comes with a number, if there is one. -/
  numbered? : Option (String × (Int64 → α))

/-- What a name stands for. -/
inductive Alternative (α : Type) where
  | plain (a : α)
  | numbered (ofNumber : Int64 → α)

namespace Choice

variable {α : Type}

/-- The names of the alternatives. -/
def names (c : Choice α) : List String :=
  c.plain.map (·.1) ++ c.numbered?.toList.map (·.1)

/-- The alternatives by their names. -/
def alternatives (c : Choice α) : List (String × Alternative α) :=
  c.plain.map (fun (name, a) => (name, .plain a)) ++
    c.numbered?.toList.map (fun (name, f) => (name, .numbered f))

/-- The alternative with a given name. -/
def ofName (c : Choice α) (name : String) : Except ReadFault (Alternative α) :=
  match c.alternatives.lookup name with
  | some a => .ok a
  | none => .error (.shape (.unknownVariant name c.names))

end Choice

namespace Lexeme

/-- What stands behind the colon of a member. -/
def behindColon : List Lexeme → Except ReadFault (List Lexeme)
  | [] => .error (.json .endInObject)
  | colon :: ls => .ok ls
  | _ => .error (.json .expectedColon)

/-- What stands behind the end of an object that has only one member. -/
def behindOnlyMember : List Lexeme → Except ReadFault (List Lexeme)
  | [] => .error (.json .endInObject)
  | closeObject :: ls => .ok ls
  | _ => .error (.json .expectedValue)

/-- Reads the word `null`. -/
def readNull : List Lexeme → Except ReadFault (Unit × List Lexeme)
  | [] => .error (.json .endInValue)
  | word .null :: ls => .ok ((), ls)
  | l :: _ => .error (l.unwanted .unit)

/-- Reads a signed integer of 64 bits. -/
def readInt64 : List Lexeme → Except ReadFault (Int64 × List Lexeme)
  | [] => .error (.json .endInValue)
  | number (.ok value) _ :: ls =>
    match value.asInt64 with
    | .ok n => .ok (n, ls)
    | .error mismatch => .error (.shape mismatch)
  | l :: _ => .error (l.unwanted .int64)

/-- Reads the name of the only member of an object, which may not be empty. -/
def readName : List Lexeme → Except ReadFault (String × List Lexeme)
  | [] => .error (.json .endInObject)
  | text (.ok name) _ :: ls => .ok (name, ls)
  | text (.error fault) _ :: _ => .error (.json fault)
  | closeObject :: _ => .error (.json .expectedValue)
  | _ => .error (.json .keyNotString)

theorem behindColon_length {ls rest : List Lexeme} (h : behindColon ls = .ok rest) :
    rest.length ≤ ls.length := by
  unfold behindColon at h
  split at h <;> simp_all

theorem behindOnlyMember_length {ls rest : List Lexeme} (h : behindOnlyMember ls = .ok rest) :
    rest.length ≤ ls.length := by
  unfold behindOnlyMember at h
  split at h <;> simp_all

theorem readNull_length {ls rest : List Lexeme} (h : readNull ls = .ok ((), rest)) :
    rest.length ≤ ls.length := by
  unfold readNull at h
  split at h <;> simp_all

theorem readInt64_length {n : Int64} {ls rest : List Lexeme} (h : readInt64 ls = .ok (n, rest)) :
    rest.length ≤ ls.length := by
  unfold readInt64 at h
  split at h <;> try split at h
  all_goals simp_all; try omega

theorem readName_length {name : String} {ls rest : List Lexeme}
    (h : readName ls = .ok (name, rest)) : rest.length ≤ ls.length := by
  unfold readName at h
  split at h <;> simp_all

end Lexeme

/-- The value behind a successful first step of a reader that goes on. -/
theorem Except.exists_of_bind_ok {ε α β : Type} {x : Except ε α} {f : α → Except ε β} {b : β}
    (h : x >>= f = .ok b) : ∃ a, x = .ok a ∧ f a = .ok b := by
  cases x with
  | error => cases h
  | ok a => exact ⟨a, rfl, h⟩

namespace Alternative

variable {α : Type}

/-- Reads what an alternative comes with, as the value of a member. -/
def readPayload (a : Alternative α) (ls : List Lexeme) : Except ReadFault (α × List Lexeme) :=
  match a with
  | plain a => do return (a, (← Lexeme.readNull ls).2)
  | numbered ofNumber => do
    let (n, ls) ← Lexeme.readInt64 ls
    return (ofNumber n, ls)

theorem readPayload_length {a : Alternative α} {value : α} {ls rest : List Lexeme}
    (h : a.readPayload ls = .ok (value, rest)) : rest.length ≤ ls.length := by
  cases a with
  | plain a =>
      obtain ⟨⟨_, more⟩, h, eq⟩ := Except.exists_of_bind_ok h
      exact (Prod.mk.inj (Except.ok.inj eq)).2 ▸ Lexeme.readNull_length h
  | numbered f =>
      obtain ⟨⟨_, more⟩, h, eq⟩ := Except.exists_of_bind_ok h
      exact (Prod.mk.inj (Except.ok.inj eq)).2 ▸ Lexeme.readInt64_length h

end Alternative

namespace Choice

variable {α : Type}

/-- Reads a choice that is written as an object, from behind its opening brace. -/
def readMember (c : Choice α) (ls : List Lexeme) : Except ReadFault (α × List Lexeme) := do
  let (name, ls) ← Lexeme.readName ls
  let a ← c.ofName name
  let (value, ls) ← a.readPayload (← Lexeme.behindColon ls)
  return (value, ← Lexeme.behindOnlyMember ls)

/-- Reads a choice. -/
def read (c : Choice α) : List Lexeme → Except ReadFault (α × List Lexeme)
  | [] => .error (.json .endInValue)
  | .text (.error fault) _ :: _ => .error (.json fault)
  | .text (.ok name) _ :: ls =>
    match c.ofName name with
    | .ok (.plain a) => .ok (a, ls)
    | .ok (.numbered _) => .error (.shape (.kind .unitVariant .numberedVariant))
    | .error fault => .error fault
  | .openObject :: ls => c.readMember ls
  | _ => .error (.json .expectedValue)

theorem readMember_length {c : Choice α} {a : α} {ls rest : List Lexeme}
    (h : c.readMember ls = .ok (a, rest)) : rest.length ≤ ls.length := by
  obtain ⟨⟨name, ls₁⟩, h₁, h⟩ := Except.exists_of_bind_ok h
  obtain ⟨alternative, _, h⟩ := Except.exists_of_bind_ok h
  obtain ⟨ls₂, h₂, h⟩ := Except.exists_of_bind_ok h
  obtain ⟨⟨value, ls₃⟩, h₃, h⟩ := Except.exists_of_bind_ok h
  obtain ⟨ls₄, h₄, eq⟩ := Except.exists_of_bind_ok h
  obtain ⟨-, rfl⟩ := Prod.mk.inj (Except.ok.inj eq)
  calc ls₄.length
    _ ≤ ls₃.length := Lexeme.behindOnlyMember_length h₄
    _ ≤ ls₂.length := Alternative.readPayload_length h₃
    _ ≤ ls₁.length := Lexeme.behindColon_length h₂
    _ ≤ ls.length := Lexeme.readName_length h₁

theorem read_length {c : Choice α} {a : α} {ls rest : List Lexeme}
    (h : c.read ls = .ok (a, rest)) : rest.length ≤ ls.length := by
  unfold read at h
  split at h
  case h_4 => exact Nat.le_succ_of_le (readMember_length h)
  case h_3 => split at h <;> simp_all
  all_goals cases h

end Choice

end PieceSquare
