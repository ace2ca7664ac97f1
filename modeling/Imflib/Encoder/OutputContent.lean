import Imflib.Encoder.OutputFiles
import Imflib.Encoder.Termination

/-! What the files of a run of `imfenc` hold in the end. -/

namespace Imflib.Encoder

open FileSystem

variable {rateText : RationalNumber → List Char} {options : ProgramOptions} {source : Source}
  {before disk after : FileSystem OutputFile} {state : RunState} {count : Nat} {phase : Phase}

section Files

variable {path other : String} {content : OutputFile}

end Files

section Frames

variable {video : VideoSource}

end Frames

section Muxes

variable {video : VideoSource}

end Muxes

section Run

end Run

end Imflib.Encoder
