import PieceSquare.Files
import PieceSquare.Log

set_option autoImplicit false

/-! # Weights files

The bytes of a file with weights, and the path it was read from. What the bytes mean is up to the
backend that they are handed to.
-/

namespace PieceSquare

/-- The content of a file with weights. -/
structure WeightsFile where
  /-- The path of the file. -/
  path : String
  /-- Its bytes. -/
  data : ByteArray

/-- Why a weights file cannot be read. -/
structure WeightsFault where
  /-- The path of the file. -/
  path : String
  /-- What is wrong with it. -/
  cause : FileFault
deriving DecidableEq

namespace WeightsFault

/-- What could not be done. -/
def context (fault : WeightsFault) : String := s!"read weights file: {fault.path}"

/-- The text of a fault. -/
def message (fault : WeightsFault) : String := fault.context ++ ": " ++ fault.cause.message

end WeightsFault

/-- Reads a weights file. -/
def WeightsFile.load (files : Files) (path : String) : ExceptT WeightsFault Logged WeightsFile :=
  match files path with
  | .error fault => throw ⟨path, fault⟩
  | .ok data => do
    Logged.note (.loadedWeights path data.size)
    return ⟨path, data⟩

end PieceSquare
