/-!
# Symbolication.Frame.Basic

Frames: what is known of a call at an address. A lookup answers with a list of
them, the innermost first, and more than one means inlined calls.
-/

namespace Symbolication

/-- A call at an address. Names that are unknown are empty. -/
structure Frame where
  /-- The name of the function as the binary reports it. -/
  func : String := ""
  file : String := ""
  /-- The source line, zero if unknown. -/
  line : Int := 0
deriving DecidableEq, Repr

/-- Whether nothing at all is known of the call. -/
def Frame.isBlank (f : Frame) : Bool :=
  f.func.isEmpty && f.file.isEmpty && f.line == 0

/-- The frames, or none if nothing is known of any of them. -/
def dropBlankStack (frames : List Frame) : List Frame :=
  if frames.all Frame.isBlank then [] else frames

end Symbolication
