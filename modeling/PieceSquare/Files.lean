import PieceSquare.Text.Blank

set_option autoImplicit false

/-! # Files

What a program sees of the files it is asked to read: their bytes, or why there are none. `Folder`
is a directory that holds some files and nothing else; paths are resolved in it as they are in a
file system.
-/

namespace PieceSquare

/-- Why a file cannot be read. -/
inductive FileFault where
  | notFound
  | isDirectory
  | notDirectory
  | permissionDenied
  /-- A name is longer than the system takes. -/
  | nameTooLong
  /-- A path holds a zero byte. -/
  | zeroByte
  /-- A line of the file is not UTF-8. -/
  | notText
  /-- Some other reason, in the words of the system. -/
  | other (reason : String)
deriving DecidableEq

/-- The text of a fault. -/
def FileFault.message : FileFault → String
  | .notFound => "No such file or directory (os error 2)"
  | .isDirectory => "Is a directory (os error 21)"
  | .notDirectory => "Not a directory (os error 20)"
  | .permissionDenied => "Permission denied (os error 13)"
  | .nameTooLong => "File name too long (os error 36)"
  | .zeroByte => "file name contained an unexpected NUL byte"
  | .notText => "stream did not contain valid UTF-8"
  | .other reason => reason

/-- What is found at each path. -/
abbrev Files := String → Except FileFault ByteArray

/-- A directory with some files in it and no other directory. -/
structure Folder where
  /-- The files by their names. -/
  entries : List (String × ByteArray)

namespace Folder

/-- The number of bytes that a name may have. -/
def maxName : Nat := 255

/-- The number of bytes that a path may have. -/
def maxPath : Nat := 4095

/-- The file of a name, which must not be taken for a directory. -/
def file (folder : Folder) (name : String) (asDirectory : Bool) : Except FileFault ByteArray :=
  if maxName < name.utf8ByteSize then .error .nameTooLong
  else
    match folder.entries.lookup name with
    | none => .error .notFound
    | some bytes => if asDirectory then .error .notDirectory else .ok bytes

/-- What is found when one goes along the parts of a path, from the directory or from any other
one. The names in other directories are not known. -/
def follow (folder : Folder) (parts : List (List Char)) : Except FileFault ByteArray :=
  let steps := parts.filter fun part => !part.isEmpty && part != ['.']
  let place := if steps.head? == some ['.', '.'] then ⟨[]⟩ else folder
  match steps.dropWhile (· == ['.', '.']) with
  | [] => .error .isDirectory
  | name :: further =>
    place.file (String.ofList name) (!further.isEmpty || parts.getLast? != some name)

/-- What is found at a path, for a program that runs in the directory. Nothing is known of the
directory at the root but that it is one. -/
def read (folder : Folder) (path : String) : Except FileFault ByteArray :=
  if path.toList.contains '\x00' then .error .zeroByte
  else if maxPath < path.utf8ByteSize then .error .nameTooLong
  else
    match path.toList.splitOn '/' with
    | [[]] => .error .notFound
    | [] :: parts => follow ⟨[]⟩ parts
    | parts => folder.follow parts

end Folder

/-! ## Lines -/

/-- The text of some bytes, if they are UTF-8. -/
def decodeText (bytes : List UInt8) : Option String := String.fromUTF8? ⟨bytes.toArray⟩

/-- The lines of a file as texts, or the number of the first line that is not UTF-8. Lines are
counted from 1. -/
def decodeLines : Nat → List (List UInt8) → Except Nat (List String)
  | _, [] => .ok []
  | n, line :: lines =>
    match decodeText line with
    | none => .error n
    | some text => (decodeLines (n + 1) lines).map (text :: ·)

/-- The position on a line, if there is one: blank lines hold none, nor do comments, which begin
with a number sign. -/
def positionOnLine (line : String) : Option String :=
  match trim line.toList with
  | [] => none
  | '#' :: _ => none
  | text => some (String.ofList text)

/-- The positions in a file, one for each line, or the number of the first line that is not
UTF-8. -/
def positionsInFile (bytes : List UInt8) : Except Nat (List String) :=
  (decodeLines 1 (bytes.splitOn 10)).map (·.filterMap positionOnLine)

/-- Why a list of positions cannot be read from a file. -/
inductive PositionsFault where
  /-- The file cannot be opened. -/
  | opening (path : String) (fault : FileFault)
  /-- A line cannot be read. -/
  | reading (path : String) (line : Nat) (fault : FileFault)
deriving DecidableEq

namespace PositionsFault

/-- What could not be done. -/
def context : PositionsFault → String
  | opening path _ => s!"open positions file: {path}"
  | reading path line _ => s!"read {path} line {line}"

/-- Why it could not be done. -/
def cause : PositionsFault → FileFault
  | opening _ fault => fault
  | reading _ _ fault => fault

/-- The text of a fault. -/
def message (fault : PositionsFault) : String := fault.context ++ ": " ++ fault.cause.message

end PositionsFault

/-- Reads the positions from the file at a path. A directory can be opened, but it has no first
line. -/
def readPositions (files : Files) (path : String) : Except PositionsFault (List String) :=
  match files path with
  | .error .isDirectory => .error (.reading path 1 .isDirectory)
  | .error fault => .error (.opening path fault)
  | .ok bytes => (positionsInFile bytes.toList).mapError fun n => .reading path n .notText

end PieceSquare
