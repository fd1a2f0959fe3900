import PieceSquare.CommandLine.Run

set_option autoImplicit false

/-! # The program

Reads the files that the command line names, runs the program and writes what it leaves behind.
-/

namespace PieceSquare.Main

/-- Whether a system error is the one with a number. Some calls report it with a minus sign. -/
def isCode (code number : UInt32) : Bool := code == number || code == 0 - number

/-- The fault that a failed reading of a file stands for. -/
def fileFault : IO.Error → FileFault
  | .noFileOrDirectory .. => .notFound
  | .inappropriateType _ code _ => if isCode code 20 then .notDirectory else .isDirectory
  | .permissionDenied .. => .permissionDenied
  | e => .other (toString e)

/-- What is found at a path. -/
def readFile (path : String) : IO (Except FileFault ByteArray) := do
  try
    return .ok (← IO.FS.readBinFile path)
  catch e =>
    return .error (fileFault e)

/-- The paths that a command line names. -/
def namedPaths (words : List String) : List String :=
  match CommandLine.Command.read words with
  | .ok (.run a) => a.weights.toList ++ a.positions.toList
  | _ => []

/-- The files with the given contents and no others. -/
def filesOf (contents : List (String × Except FileFault ByteArray)) : Files :=
  fun path => (contents.lookup path).getD (.error .notFound)

end PieceSquare.Main

/-- Runs the program and returns its exit code. -/
def main (words : List String) : IO UInt32 := do
  let contents ← (PieceSquare.Main.namedPaths words).mapM fun path =>
    return (path, ← PieceSquare.Main.readFile path)
  let outcome := PieceSquare.CommandLine.run (PieceSquare.Main.filesOf contents) words
  outcome.output.forM IO.println
  outcome.errors.forM IO.eprintln
  return outcome.code.toUInt32
