import FramedCall.Stream.Sink

/-!
# The failure log

The stream for failures that have no frame of their own: one line for each message, flushed at
once. A log may be switched off; messages are then dropped.
-/

namespace FramedCall

/-- What stands in front of every message. -/
def FailureLog.mark : String := "error: "

/-- The line of a message. -/
def FailureLog.line (message : String) : String :=
  mark ++ message ++ "\n"

/-- The stream for failures, if there is one. -/
structure FailureLog where
  /-- Where lines go. -/
  sink : Option Sink

namespace FailureLog

/-- The log that keeps nothing. -/
def disabled : FailureLog := ⟨none⟩

/-- Whether lines go anywhere. -/
def isEnabled (l : FailureLog) : Bool :=
  l.sink.isSome

/-- A log as it is shown. -/
def description (l : FailureLog) : String :=
  s!"Diagnostics \x7b enabled: {l.isEnabled} \x7d"

/-- The bytes written so far. -/
def taken (l : FailureLog) : Bytes :=
  match l.sink with
  | some s => s.taken
  | none => []

/-- Writes the line of a message and flushes. -/
def add (l : FailureLog) (message : String) : Except String Unit × FailureLog :=
  match l.sink with
  | none => (.ok (), l)
  | some s =>
    let (result, s') := Sink.device.writeAll "write zero" s [Text.encode (line message)]
    (result, ⟨some s'⟩)

/-- Adds some messages, whatever becomes of each. -/
def addAll (l : FailureLog) (messages : List String) : FailureLog :=
  messages.foldl (fun l message => (l.add message).2) l

end FailureLog
end FramedCall
