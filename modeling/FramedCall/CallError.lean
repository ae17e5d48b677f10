import FramedCall.Json.Mismatch
import FramedCall.Json.Printer

/-!
# Errors

Everything that can go wrong between the two ends of a pipe, with the wording of each error. Only a
broken stream is fatal; every other error costs one request.
-/

namespace FramedCall

/-- Why a call, a request or a whole stream failed. -/
inductive CallError where
  /-- One of the streams failed. -/
  | io (cause : String)
  /-- A value could not be converted. -/
  | json (cause : String)
  /-- The bytes cannot be cut into frames; no later frame boundary can be found. -/
  | frameSync (cause : String)
  /-- The payload of a frame is not one JSON value. It is kept as text. -/
  | decode (text : String)
  /-- No command has this name. -/
  | unknownCommand (name : String)
  /-- The request is not a pair of a name and an argument. -/
  | malformedCommand (cause : String)
  /-- The handler failed or crashed, or its input or output could not be converted. -/
  | handler (message : String)
  /-- The server was put together inconsistently. -/
  | config (cause : String)
  /-- The other side answered with a failure. -/
  | remote (message : String)
  /-- The other side broke the agreed conventions. -/
  | protocol (cause : String)
  /-- The stream ended before the awaited frame. -/
  | connectionClosed
deriving DecidableEq, Repr

namespace CallError

/-- The wording of an error. -/
def message : CallError → String
  | .io cause => s!"I/O error: {cause}"
  | .json cause => s!"JSON error: {cause}"
  | .frameSync cause => s!"frame sync error: {cause}"
  | .decode _ => "invalid JSON"
  | .unknownCommand name => s!"unknown command: {name}"
  | .malformedCommand cause => s!"malformed command: {cause}"
  | .handler message => message
  | .config cause => s!"configuration error: {cause}"
  | .remote message => s!"remote error: {message}"
  | .protocol cause => s!"protocol error: {cause}"
  | .connectionClosed => "connection closed"

/-- Whether the error ends the stream instead of one request. -/
def isFatal : CallError → Bool
  | .frameSync _ | .io _ => true
  | _ => false

/-- The error of a failed conversion. -/
def ofMismatch (m : Json.Mismatch) : CallError :=
  .json m.message

end CallError

/-- A conversion as part of a call. -/
def converted {α : Type} (r : Except Json.Mismatch α) : Except CallError α :=
  r.mapError .ofMismatch

end FramedCall
