import FramedCall.Framing
import FramedCall.Tagging

/-!
# Conventions

What both ends of a pipe have to agree on. Framing and envelope are chosen independently of one
another.
-/

namespace FramedCall

/-- The conventions that both ends of a pipe follow. -/
structure Conventions where
  /-- How frames are told apart, in both directions. -/
  framing : Framing
  /-- How outcomes are wrapped. -/
  envelope : Envelope
deriving DecidableEq, Repr

/-- The conventions of a pipe for which none are chosen. -/
def Conventions.standard : Conventions := ⟨.standard, .standard⟩

end FramedCall
