import PieceSquare.Json.Number

set_option autoImplicit false

/-! # The lexemes of JSON

A text is cut into lexemes: brackets, separators, words, numbers and strings. Nothing is rejected
here. A lexeme that breaks a rule carries its fault, and the fault counts only if a reader comes
to that lexeme and wants its value. Some rules bind only a reader that wants the value of a string
or a number, not one that passes over it: surrogates have to be paired, and a number has to be in
range. So each string and number says both what its value is and whether it can be passed over.
Behind a lexeme that cannot be passed over there is none.
-/

namespace PieceSquare

/-- A lexeme of JSON. -/
inductive Lexeme where
  | openList
  | closeList
  | openObject
  | closeObject
  | comma
  | colon
  /-- One of the words `null`, `true` and `false`. -/
  | word (value : Json)
  /-- A number: its value, and the fault that a reader meets that passes over it. -/
  | number (value : Except JsonFault Json) (passing : Option JsonFault)
  /-- A string: its content, and the fault that a reader meets that passes over it. -/
  | text (content : Except JsonFault String) (passing : Option JsonFault)
  /-- What cannot begin a value. -/
  | stray (fault : JsonFault)

namespace Lexeme

/-! ## Strings -/

/-- The value of a hexadecimal digit. -/
def hexDigit? (c : Char) : Option Nat :=
  if c.isDigit then some (c.toNat - '0'.toNat)
  else if 'a' ≤ c ∧ c ≤ 'f' then some (c.toNat - 'a'.toNat + 10)
  else if 'A' ≤ c ∧ c ≤ 'F' then some (c.toNat - 'A'.toNat + 10)
  else none

/-- The number written with four hexadecimal digits. -/
def hexValue? (a b c d : Char) : Option Nat := do
  return ((← hexDigit? a) * 16 + (← hexDigit? b)) * 256 + (← hexDigit? c) * 16 + (← hexDigit? d)

/-- What is wrong with a hexadecimal escape: the text ends within four bytes, or it goes on with
something that is no digit. -/
def hexFault (rest : List Char) : JsonFault :=
  if (rest.foldl (fun n c => n + c.utf8Size) 0) < 4 then .endInString else .invalidEscape

/-- The character that an escape of one letter stands for. -/
def escaped? : Char → Option Char
  | '\x22' => some '\x22'
  | '\x5c' => some '\x5c'
  | '/' => some '/'
  | 'b' => some '\x08'
  | 'f' => some '\x0c'
  | 'n' => some '\n'
  | 'r' => some '\r'
  | 't' => some '\t'
  | _ => none

/-- Whether a 16-bit unit is the first of a surrogate pair. -/
def isLeading (n : Nat) : Bool := 0xd800 ≤ n && n ≤ 0xdbff

/-- Whether a 16-bit unit is the second of a surrogate pair. -/
def isTrailing (n : Nat) : Bool := 0xdc00 ≤ n && n ≤ 0xdfff

/-- The character of a surrogate pair. -/
def pairChar (leading trailing : Nat) : Char :=
  .ofNat (0x10000 + (leading - 0xd800) * 0x400 + (trailing - 0xdc00))

/-- The content of a string, read from behind its opening quote. -/
def content : List Char → Except JsonFault (List Char)
  | [] => .error .endInString
  | '\x22' :: _ => .ok []
  | '\x5c' :: 'u' :: a :: b :: c :: d :: cs =>
    match hexValue? a b c d with
    | none => .error (hexFault (a :: b :: c :: d :: cs))
    | some n =>
      if isTrailing n then
        .error .loneSurrogate
      else if isLeading n then
        match cs with
        | '\x5c' :: 'u' :: e :: f :: g :: h :: cs =>
          match hexValue? e f g h with
          | none => .error (hexFault (e :: f :: g :: h :: cs))
          | some m =>
            if isTrailing m then (content cs).map (pairChar n m :: ·) else .error .loneSurrogate
        | '\x5c' :: 'u' :: cs => .error (hexFault cs)
        | ['\x5c'] => .error .endInString
        | [] => .error .endInString
        | _ => .error .unpairedSurrogateEnd
      else
        (content cs).map (.ofNat n :: ·)
  | '\x5c' :: 'u' :: cs => .error (hexFault cs)
  | '\x5c' :: c :: cs =>
    match escaped? c with
    | some e => (content cs).map (e :: ·)
    | none => .error .invalidEscape
  | ['\x5c'] => .error .endInString
  | c :: cs =>
    if c < ' ' then .error .controlCharacter else (content cs).map (c :: ·)

/-- What stands behind a string, for a reader that passes over it. -/
def behindText : List Char → Except JsonFault (List Char)
  | [] => .error .endInString
  | '\x22' :: cs => .ok cs
  | '\x5c' :: 'u' :: a :: b :: c :: d :: cs =>
    match hexValue? a b c d with
    | none => .error (hexFault (a :: b :: c :: d :: cs))
    | some _ => behindText cs
  | '\x5c' :: 'u' :: cs => .error (hexFault cs)
  | '\x5c' :: c :: cs => if (escaped? c).isSome then behindText cs else .error .invalidEscape
  | ['\x5c'] => .error .endInString
  | c :: cs => if c < ' ' then .error .controlCharacter else behindText cs

theorem behindText_length {cs rest : List Char} (h : behindText cs = .ok rest) :
    rest.length < cs.length := by
  fun_induction behindText cs <;> simp_all <;> omega

/-! ## Words and numbers -/

/-- What stands behind a word, given the letters of it that are still to come. -/
def behindWord : List Char → List Char → Except JsonFault (List Char)
  | [], cs => .ok cs
  | _ :: _, [] => .error .endInValue
  | w :: ws, c :: cs => if w = c then behindWord ws cs else .error .expectedWord

theorem behindWord_length {ws cs rest : List Char} (h : behindWord ws cs = .ok rest) :
    rest.length ≤ cs.length := by
  fun_induction behindWord ws cs <;> simp_all; omega

/-- A number cut off from a text: the number, and what stands behind it unless it breaks a rule
that also binds a reader who passes over it. -/
abbrev NumberScan := Lexeme × Option (List Char)

/-- A number in which a digit is missing in front of `rest`. -/
def missingDigit (rest : List Char) : NumberScan :=
  (number (.error (if rest.isEmpty then .endInValue else .invalidNumber)) (some .invalidNumber),
    none)

/-- A number with all its parts. -/
def complete (negative : Bool) (parts : JsonNumber.Parts) (rest : List Char) : NumberScan :=
  (number (parts.value negative) none, some rest)

/-- The sign of an exponent, and what stands behind it. -/
def exponentSign : List Char → Bool × List Char
  | '-' :: cs => (true, cs)
  | '+' :: cs => (false, cs)
  | cs => (false, cs)

/-- Cuts off an exponent, if there is one, and completes the number. -/
def scanExponent (negative : Bool) (whole : List Char) (fraction : Option (List Char)) :
    List Char → NumberScan
  | [] => complete negative ⟨whole, fraction, none⟩ []
  | mark :: cs =>
    if mark = 'e' ∨ mark = 'E' then
      let (down, cs) := exponentSign cs
      let digits := cs.takeWhile Char.isDigit
      let rest := cs.dropWhile Char.isDigit
      let n : Int := digits.foldl (fun n c => 10 * n + digitValue c) (0 : Nat)
      if digits.isEmpty then missingDigit rest
      else complete negative ⟨whole, fraction, some (if down then -n else n)⟩ rest
    else
      complete negative ⟨whole, fraction, none⟩ (mark :: cs)

/-- Cuts off the fraction and the exponent of a number, if there are any, and completes it. -/
def scanFraction (negative : Bool) (whole : List Char) : List Char → NumberScan
  | '.' :: cs =>
    let fraction := cs.takeWhile Char.isDigit
    let rest := cs.dropWhile Char.isDigit
    if fraction.isEmpty then missingDigit rest
    else scanExponent negative whole (some fraction) rest
  | cs => scanExponent negative whole none cs

/-- Cuts off a number, from behind its sign. Its whole part has no leading zero. -/
def scanNumber (negative : Bool) (cs : List Char) : NumberScan :=
  let whole := cs.takeWhile Char.isDigit
  let rest := cs.dropWhile Char.isDigit
  if whole.isEmpty then missingDigit rest
  else if whole.head? == some '0' && 1 < whole.length then
    (number (.error .invalidNumber) (some .invalidNumber), none)
  else scanFraction negative whole rest

theorem length_dropWhile_le {α : Type} (p : α → Bool) (xs : List α) :
    (xs.dropWhile p).length ≤ xs.length :=
  (List.dropWhile_sublist p).length_le

theorem exponentSign_length (cs : List Char) : (exponentSign cs).2.length ≤ cs.length := by
  unfold exponentSign
  split <;> simp

theorem scanExponent_length {negative : Bool} {whole cs rest : List Char}
    {fraction : Option (List Char)}
    (h : (scanExponent negative whole fraction cs).2 = some rest) : rest.length ≤ cs.length := by
  cases cs with
  | nil => simp_all [scanExponent, complete]
  | cons mark cs =>
      have sign := exponentSign_length cs
      have drop := length_dropWhile_le Char.isDigit (exponentSign cs).2
      simp only [scanExponent] at h
      split at h
      · split at h
        · simp [missingDigit] at h
        · simp only [complete, Option.some.injEq] at h
          simp only [← h, List.length_cons]
          omega
      · simp_all [complete]

theorem scanFraction_length {negative : Bool} {whole cs rest : List Char}
    (h : (scanFraction negative whole cs).2 = some rest) : rest.length ≤ cs.length := by
  unfold scanFraction at h
  split at h
  · next cs =>
    have drop := length_dropWhile_le Char.isDigit cs
    dsimp only at h
    split at h
    · simp [missingDigit] at h
    · have := scanExponent_length h
      simp only [List.length_cons]
      omega
  · exact scanExponent_length h

theorem scanNumber_length {negative : Bool} {cs rest : List Char}
    (h : (scanNumber negative cs).2 = some rest) : rest.length < cs.length := by
  cases cs with
  | nil => simp [scanNumber, missingDigit] at h
  | cons c cs =>
      have drop := length_dropWhile_le Char.isDigit cs
      simp only [scanNumber] at h
      by_cases digit : c.isDigit = true
      · simp only [digit, List.takeWhile_cons, List.dropWhile_cons, if_true, List.isEmpty_cons,
          Bool.false_eq_true, if_false] at h
        split at h
        · simp at h
        · have := scanFraction_length h
          simp only [List.length_cons]
          omega
      · simp [digit, missingDigit] at h

/-! ## Texts -/

/-- Whether a character may stand between lexemes. -/
def isSpace (c : Char) : Bool := c == ' ' || c == '\t' || c == '\n' || c == '\r'

/-- A word, given the letters behind the first one. -/
def scanWord (value : Json) (letters cs : List Char) : Lexeme × Option (List Char) :=
  match behindWord letters cs with
  | .ok rest => (word value, some rest)
  | .error fault => (stray fault, none)

/-- A string, from behind its opening quote. -/
def scanText (cs : List Char) : Lexeme × Option (List Char) :=
  let value := (content cs).map String.ofList
  match behindText cs with
  | .ok rest => (text value none, some rest)
  | .error fault => (text value (some fault), none)

/-- The lexeme that begins with a character, and what stands behind it if it can be passed
over. -/
def scan (c : Char) (cs : List Char) : Lexeme × Option (List Char) :=
  match c with
  | '[' => (openList, some cs)
  | ']' => (closeList, some cs)
  | '\x7b' => (openObject, some cs)
  | '\x7d' => (closeObject, some cs)
  | ',' => (comma, some cs)
  | ':' => (colon, some cs)
  | '\x22' => scanText cs
  | 'n' => scanWord .null ['u', 'l', 'l'] cs
  | 't' => scanWord (.bool true) ['r', 'u', 'e'] cs
  | 'f' => scanWord (.bool false) ['a', 'l', 's', 'e'] cs
  | '-' => scanNumber true cs
  | c => if c.isDigit then scanNumber false (c :: cs) else (stray .expectedValue, none)

theorem scan_length {c : Char} {cs rest : List Char} (h : (scan c cs).2 = some rest) :
    rest.length ≤ cs.length := by
  have word (value : Json) (letters : List Char)
      (h : (scanWord value letters cs).2 = some rest) : rest.length ≤ cs.length := by
    unfold scanWord at h
    split at h
    · next ok => exact Option.some.inj h ▸ behindWord_length ok
    · cases h
  unfold scan at h
  split at h <;> try exact Option.some.inj h ▸ Nat.le_refl _
  · unfold scanText at h
    dsimp only at h
    split at h
    · next ok => exact Option.some.inj h ▸ Nat.le_of_lt (behindText_length ok)
    · cases h
  · exact word _ _ h
  · exact word _ _ h
  · exact word _ _ h
  · exact Nat.le_of_lt (scanNumber_length h)
  · split at h
    · exact Nat.le_of_lt_succ (scanNumber_length h)
    · cases h

/-- The lexemes of a text. -/
def all : List Char → List Lexeme
  | [] => []
  | c :: cs =>
    if isSpace c then
      all cs
    else
      match h : scan c cs with
      | (lexeme, none) => [lexeme]
      | (lexeme, some rest) =>
        have : rest.length ≤ cs.length := scan_length (by rw [h])
        lexeme :: all rest
termination_by cs => cs.length

end Lexeme

end PieceSquare
