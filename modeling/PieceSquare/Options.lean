import PieceSquare.Decimal.Reading
import PieceSquare.Json.Typed
import PieceSquare.Text.Blank

set_option autoImplicit false

/-! # Options

Named values that configure an evaluator. They are written as `name=value` items with commas in
between, or as a JSON object. An item's value is an integer, a number or a truth value if it looks
like one, and a string otherwise; blanks around items, names and values do not count, and neither
do empty items. When a name occurs twice, its last value counts.
-/

namespace PieceSquare

/-- What is wrong with the text of a set of options. -/
inductive OptionsFault where
  /-- An item has no equals sign. -/
  | noValue (item : String)
  /-- An item has no name. -/
  | noName (item : String)
  /-- The text is no JSON object. -/
  | json (fault : ReadFault)
  /-- An evaluator does not like the options, for a reason of its own. -/
  | rejected (reason : String)

/-- The text of a fault. -/
def OptionsFault.message : OptionsFault → String
  | .noValue item => s!"expected key=value in '{item}'"
  | .noName item => s!"empty key in '{item}'"
  | .json fault => fault.message
  | .rejected reason => reason

/-- Why an option cannot be read at the wanted type. -/
structure InvalidOption where
  /-- The name of the option. -/
  name : String
  /-- What is wrong with its value. -/
  reason : Mismatch

/-- Named values. -/
structure Options where
  /-- The values by name. -/
  members : Members

namespace Options

/-- No options. -/
def empty : Options := ⟨[]⟩

/-- Whether there are no options. -/
def isEmpty (o : Options) : Bool := o.members.isEmpty

/-- Gives an option a value. -/
def set (o : Options) (name : String) (value : Json) : Options := ⟨o.members.insert name value⟩

/-- The options of a list of pairs. Of several pairs with one name the last counts. -/
def ofPairs (pairs : List (String × Json)) : Options := ⟨.ofPairs pairs⟩

/-- Whether two sets of options are equal. -/
def same (a b : Options) : Bool := Json.sameMembers a.members b.members

/-! ## Reading -/

/-- The text without the double quotes at its two ends. -/
def withoutQuotes (text : List Char) : List Char :=
  ((text.dropWhile (· == '\x22')).reverse.dropWhile (· == '\x22')).reverse

/-- The value of a text that is no number. -/
def wordValue (text : List Char) : Json :=
  if text = ['t', 'r', 'u', 'e'] then .bool true
  else if text = ['f', 'a', 'l', 's', 'e'] then .bool false
  else .string (String.ofList (withoutQuotes text))

/-- The value that a text looks like: an integer of 64 bits, another finite number, a truth value
or a string. -/
def inferValue (text : List Char) : Json :=
  match readInt64? text with
  | some n => .integer n.toInt
  | none =>
    match readDouble? text with
    | some x => if x.isFinite then .float x else wordValue text
    | none => wordValue text

/-- Reads an item that has no blanks at its ends. -/
def readItem (item : List Char) : Except OptionsFault (String × Json) :=
  match item.dropWhile (· != '=') with
  | [] => .error (.noValue (String.ofList item))
  | _ :: value =>
    let name := trim (item.takeWhile (· != '='))
    if name.isEmpty then .error (.noName (String.ofList item))
    else .ok (String.ofList name, inferValue (trim value))

/-- The items of a text, without blanks at their ends and without empty ones. -/
def items (text : String) : List (List Char) :=
  ((text.toList.splitOn ',').map trim).filter (!·.isEmpty)

/-- Reads options from items. The first item that is wrong counts. -/
def parse (text : String) : Except OptionsFault Options :=
  ((items text).mapM readItem).map ofPairs

/-- Reads options from a JSON object. -/
def ofJson (text : String) : Except OptionsFault Options :=
  match readMembers text with
  | .ok members => .ok ⟨members⟩
  | .error fault => .error (.json fault)

/-! ## Looking up -/

/-- The value of an option at the type that a reader wants, if the option is there. -/
def get {α : Type} (o : Options) (read : Json → Except Mismatch α) (name : String) :
    Except InvalidOption (Option α) :=
  match o.members.get? name with
  | none => .ok none
  | some j => (read j).map some |>.mapError fun reason => ⟨name, reason⟩

/-- The value of an option, or a default if the option is not there. -/
def getD {α : Type} (o : Options) (read : Json → Except Mismatch α) (name : String) (default : α) :
    Except InvalidOption α :=
  (o.get read name).map (·.getD default)

end Options

end PieceSquare
