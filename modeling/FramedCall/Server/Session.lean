import FramedCall.Server.Schedule

/-!
# Sessions

A session serves one stream event by event: after each event everything goes on that can, and then
one looks at what was written.
-/

namespace FramedCall

/-- What happens to a session. -/
inductive SessionEvent where
  /-- Something arrives. -/
  | arrival (a : Arrival)
  /-- A gate is opened. -/
  | release (key : String)

/-- What one sees behind an event. -/
structure Observation where
  /-- What the event has added to the main output. -/
  out : Bytes
  /-- What the event has added to the failure log. -/
  log : Bytes
  /-- What serving has ended in. -/
  result : Option (Except CallError Unit)

/-- Serves a stream on which nothing has arrived. The first turn is taken behind the first event. -/
def Server.serve (s : Server) (out : Sink) (log : FailureLog) : Schedule :=
  .start (.start s out log) none

namespace Schedule

/-- The failure log so far. -/
def logged (s : Schedule) : Bytes :=
  s.serving.outbox.log.taken

/-- The schedule behind an event. -/
def after (s : Schedule) : SessionEvent → Schedule
  | .arrival a => (s.arrive a).settle
  | .release key => (s.release key).settle

/-- What one sees behind each of some events. -/
def observe (s : Schedule) : List SessionEvent → List Observation
  | [] => []
  | e :: es =>
    let s' := s.after e
    ⟨s'.output.drop s.output.length, s'.logged.drop s.logged.length, s'.serving.result?⟩ ::
      observe s' es

end Schedule
end FramedCall
