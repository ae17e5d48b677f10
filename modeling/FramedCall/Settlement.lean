import FramedCall.Conventions
import FramedCall.Payload

/-!
# Settlements

A settlement is what the outcome of one request leaves to be written: a frame for the main output, a
message for the failure log, or neither. `Conventions.settle` makes the settlement of an outcome.
-/

namespace FramedCall

open Json (Value)

/-- What one request leaves to be written. -/
structure Settlement where
  /-- The number of the request, counted from zero. -/
  seq : Nat
  /-- The frame for the main output. -/
  frame : Option Frame
  /-- The message for the failure log. -/
  diagnostic : Option String
deriving DecidableEq, Repr

namespace Conventions

/-- The frame of a value. -/
def frame (c : Conventions) (v : Value) : Except CallError Frame :=
  Frame.ofPayload c.framing (Payload.encode v)

/-- The settlement of a failed request. Where failures have no frame, the message is logged. -/
def settleFailure (c : Conventions) (seq : Nat) (message : String) : Settlement :=
  match c.envelope.wrapFailure message with
  | none => ⟨seq, none, some message⟩
  | some v =>
    match c.frame v with
    | .ok f => ⟨seq, some f, none⟩
    | .error _ => ⟨seq, none, some message⟩

/-- The settlement of an outcome. A success that cannot be framed is a failure of its request. -/
def settle (c : Conventions) (seq : Nat) (outcome : Except CallError Value) : Settlement :=
  match outcome with
  | .ok v =>
    match c.frame (c.envelope.wrapSuccess v) with
    | .ok f => ⟨seq, some f, none⟩
    | .error e => c.settleFailure seq e.message
  | .error e => c.settleFailure seq e.message

end Conventions
end FramedCall
