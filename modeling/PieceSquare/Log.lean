import PieceSquare.Decimal.Fixed
import PieceSquare.Format

set_option autoImplicit false

/-! # Log records

What is worth a note while evaluators are made and used. An action is a value together with the
records it leaves, in order (`Logged`); the records of an action that fails are kept.
-/

namespace PieceSquare

/-- How much a record matters. -/
inductive Level where
  | trace
  | debug
  | info
  | warn
deriving DecidableEq

/-- The name of a level. -/
def Level.name : Level → String
  | .trace => "TRACE"
  | .debug => "DEBUG"
  | .info => "INFO"
  | .warn => "WARN"

/-- What a record tells. -/
inductive Record where
  /-- A weights file has been read. -/
  | loadedWeights (path : String) (bytes : Nat)
  /-- The name of a backend has been registered before. -/
  | replacing (name : String)
  /-- A backend is about to be created. -/
  | creating (name : String)
  /-- The weights are of no use to the evaluator. -/
  | ignoringWeights (path : String)
  /-- The evaluator has been created. -/
  | ready (format : InputFormat)
  /-- A position has been evaluated. -/
  | evaluated (sample : Nat) (value : Float32)
  /-- A batch is complete. -/
  | complete (samples : Nat)
deriving DecidableEq

namespace Record

/-- How much a record matters. -/
def level : Record → Level
  | loadedWeights .. => .info
  | replacing .. => .warn
  | creating .. => .info
  | ignoringWeights .. => .debug
  | ready .. => .info
  | evaluated .. => .trace
  | complete .. => .debug

/-- What a record says. -/
def message : Record → String
  | loadedWeights path bytes => s!"Loaded weights {path} ({bytes} bytes)"
  | replacing name => s!"Backend '{name}' registered twice; replacing"
  | creating name => s!"Creating backend [{name}]..."
  | ignoringWeights path => s!"trivial: ignoring weights {path}"
  | ready format => s!"trivial backend ready, input format {format.text}"
  | evaluated sample value => s!"trivial: sample {sample} value {fixedText [] 5 value}"
  | complete samples => s!"trivial: batch of {samples} already evaluated"

/-- A record as a line of a log. -/
def text (r : Record) : String := r.level.name ++ " " ++ r.message

end Record

/-- A value with the records left on the way to it. -/
structure Logged (α : Type) where
  /-- The value. -/
  value : α
  /-- The records, in order. -/
  records : List Record

namespace Logged

/-- Leaves a record. -/
def note (r : Record) : Logged Unit := ⟨(), [r]⟩

instance : Monad Logged where
  pure x := ⟨x, []⟩
  bind x f := ⟨(f x.value).value, x.records ++ (f x.value).records⟩

variable {α β : Type}

@[simp] theorem value_pure (a : α) : (pure a : Logged α).value = a := rfl

@[simp] theorem records_pure (a : α) : (pure a : Logged α).records = [] := rfl

@[simp] theorem value_bind (x : Logged α) (f : α → Logged β) :
    (x >>= f).value = (f x.value).value := rfl

@[simp] theorem records_bind (x : Logged α) (f : α → Logged β) :
    (x >>= f).records = x.records ++ (f x.value).records := rfl

/-- Records are joined in order, so it does not matter how actions are grouped. -/
instance : LawfulMonad Logged :=
  LawfulMonad.mk' Logged
    (fun x => congrArg (Logged.mk x.value) (List.append_nil x.records))
    (fun _ _ => rfl)
    (fun x f g => congrArg (Logged.mk (g (f x.value).value).value)
      (List.append_assoc x.records (f x.value).records (g (f x.value).value).records))

end Logged

end PieceSquare
