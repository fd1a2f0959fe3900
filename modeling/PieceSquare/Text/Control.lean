set_option autoImplicit false

/-! # Text without control sequences

A terminal obeys the control characters in a text, and the sequences that an escape character
begins: control sequences such as colours, device strings, commands to the operating system. None
of them belongs into a text that is written to a file. `withoutControls` leaves them out.

The characters that lay a text out (tab, line feed, form feed, carriage return) are kept. A
terminal obeys them also in the middle of a control sequence. What stands behind one of them there
is kept as plain text, until a character is left out; with it the sequence goes on.
-/

namespace PieceSquare

/-- Where a terminal is in a sequence, from its escape character on. -/
inductive ControlSequence where
  /-- Directly behind the escape character, which the next character gives its meaning. -/
  | escape
  /-- Behind an escape character and intermediate characters; one more character is to come. -/
  | intermediate
  /-- In a control sequence, which ends with a letter or a character near the letters. -/
  | control
  /-- At the beginning of a device string. -/
  | device
  /-- In the parameters of a device string. -/
  | deviceParameters
  /-- In the intermediate characters of a device string. -/
  | deviceIntermediate
  /-- In the content of a device string or of a private string, which ends with the byte 9c. -/
  | content
  /-- In a command to the operating system, which ends with a bell. -/
  | command
deriving DecidableEq

namespace ControlSequence

/-- Whether a terminal obeys layout characters in the middle of the sequence. -/
def allowsLayout : ControlSequence → Bool
  | escape | intermediate | control => true
  | _ => false

/-- What an escape character and one more character begin, if it is a sequence of more than these
two. -/
def ofIntroducer? : Char → Option ControlSequence
  | '[' => some control
  | ']' => some command
  | 'P' => some device
  | 'X' | '^' | '_' => some content
  | _ => none

/-- Where a terminal is behind a further character of the sequence, unless the sequence ends
there. -/
def next? (s : ControlSequence) (c : Char) : Option ControlSequence :=
  let n := c.toNat
  let skipped := n < 0x20 || 0x7f ≤ n
  match s with
  | escape => if skipped then s else if n < 0x30 then intermediate else ofIntroducer? c
  | intermediate => if skipped || n < 0x30 then s else none
  | control => if skipped || n < 0x40 then s else none
  | device =>
    if skipped then s
    else if n < 0x30 then deviceIntermediate
    else if n < 0x40 then deviceParameters
    else content
  | deviceParameters =>
    if skipped || (0x30 ≤ n && n < 0x3c) then s
    else if n < 0x30 then deviceIntermediate
    else content
  | deviceIntermediate => if skipped || n < 0x30 then s else content
  | content => if (String.utf8EncodeChar c).contains 0x9c then none else s
  | command => if c == '\x07' then none else s

end ControlSequence

/-- Where a terminal is in a text. -/
inductive TerminalState where
  /-- In plain text. -/
  | plain
  /-- In a sequence. -/
  | inside (s : ControlSequence)
  /-- In plain text that a layout character has begun in the middle of a sequence. -/
  | between (s : ControlSequence)
deriving DecidableEq

/-- Whether a character lays a text out. -/
def isLayout (c : Char) : Bool := c == '\t' || c == '\n' || c == '\x0c' || c == '\r'

/-- Whether a character is kept in plain text. -/
def isPlain (c : Char) : Bool := isLayout c || (' ' ≤ c && c != '\x7f')

namespace TerminalState

/-- Reads a character: says whether it is kept, and where the terminal is behind it. -/
def read (t : TerminalState) (c : Char) : Bool × TerminalState :=
  match c, t with
  | '\x1b', _ => (false, inside .escape)
  | '\x18', _ => (false, plain)
  | '\x1a', _ => (false, plain)
  | c, plain => (isPlain c, plain)
  | c, inside s =>
    if isLayout c && s.allowsLayout then (true, between s)
    else (false, ((s.next? c).map inside).getD plain)
  | c, between s =>
    if !isPlain c then (false, inside s)
    else if c < '\x80' then (true, between s)
    else (true, plain)

/-- The characters that are kept of a text. -/
def keep (t : TerminalState) : List Char → List Char
  | [] => []
  | c :: cs =>
    let (kept, t) := t.read c
    if kept then c :: t.keep cs else t.keep cs

end TerminalState

/-- A text without control characters, layout apart, and control sequences. -/
def withoutControls (text : String) : String :=
  String.ofList (TerminalState.plain.keep text.toList)

end PieceSquare
