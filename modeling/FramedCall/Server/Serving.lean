import FramedCall.Payload
import FramedCall.Server

/-!
# Serving a stream

The intake reads bytes, takes frames out of them, numbers the frames from zero and sees to each: an
undecodable one is settled by the intake itself, which goes on once that settlement is in the queue
of the outbox; a decodable one is put in flight, to be answered by its handler. Whatever is settled
has to find a place in the queue.

`Serving.step?` is one action of any of these parties. It says which actions are possible, not which
comes next: any interleaving of the intake, the handlers, their sends and the outbox is a sequence of
actions. Reads are actions that bring their bytes along, so that a stream may arrive in any pieces.
-/

namespace FramedCall

open Json (Value)

/-- A request whose handler has not ended. -/
structure Request where
  /-- Its number. -/
  seq : Nat
  /-- The key of the gate that its handler waits for, if it waits. -/
  gate : Option String
  /-- What it ends in. -/
  result : Except CallError Value

/-- What the intake is doing. -/
inductive Intake where
  /-- It waits for bytes. -/
  | reading
  /-- It takes frames out of what it has read. -/
  | draining
  /-- It waits until the settlement of this frame is in the queue. -/
  | sending (seq : Nat)
  /-- It has ended. -/
  | ended (result : Except CallError Unit)

/-- Whether the intake has ended. -/
def Intake.isEnded : Intake → Bool
  | .ended _ => true
  | .reading | .draining | .sending _ => false

/-- The intake once the settlement of a frame has left. -/
def Intake.resumed (seq : Nat) : Intake → Intake
  | .sending n => if n = seq then .draining else .sending n
  | i => i

/-- A stream that is being served. -/
structure Serving where
  /-- The server. -/
  server : Server
  /-- The bytes read that do not make up a frame yet. -/
  frames : Deframer
  /-- How many frames have been taken out. -/
  extracted : Nat
  /-- What the intake is doing. -/
  intake : Intake
  /-- The requests whose handlers have not ended. -/
  inFlight : List Request
  /-- The settlements that are not in the queue yet. -/
  waiting : List Settlement
  /-- The outbox with its queue. -/
  outbox : Outbox

namespace Serving

/-- Nothing has been read. -/
def start (server : Server) (out : Sink) (log : FailureLog) : Serving where
  server := server
  frames := .empty server.settings.conventions.framing server.settings.maxPayload
  extracted := 0
  intake := .reading
  inFlight := []
  waiting := []
  outbox := .start server.settings.queueCapacity server.settings.order out log

/-- What can happen while a stream is served. -/
inductive Action where
  /-- The intake reads some bytes. -/
  | read (data : Bytes)
  /-- The intake fails to read. -/
  | readFailed (cause : String)
  /-- The intake meets the end of the stream. -/
  | eof
  /-- The intake takes the next frame out, or finds none. -/
  | extract
  /-- The handler of a request ends. -/
  | settle (seq : Nat)
  /-- A settlement enters the queue. -/
  | send (seq : Nat)
  /-- A settlement finds the queue closed and is lost. -/
  | lose (seq : Nat)
  /-- The outbox takes a settlement from the queue. -/
  | receive
  /-- The outbox writes what is ready. -/
  | flush
  /-- The outbox ends, because nobody is left who could send. -/
  | finish
  /-- The outbox ends, because the main output is broken. -/
  | breakOff

/-- The settlement of a frame with the given outcome. -/
def settlement (s : Serving) (seq : Nat) (outcome : Except CallError Value) : Settlement :=
  s.server.settings.conventions.settle seq outcome

/-- Sees to a frame: it is settled here if it cannot be decoded, and put in flight otherwise. -/
def accept (s : Serving) (payload : Bytes) : Serving :=
  let seq := s.extracted
  let s' := { s with extracted := seq + 1 }
  match Payload.decode payload with
  | .ok request =>
    let (gate, result) := s.server.router.reply request
    { s' with inFlight := s.inFlight ++ [⟨seq, gate, result⟩] }
  | .error e =>
    { s' with waiting := s.waiting ++ [s.settlement seq (.error e)], intake := .sending seq }

/-- The next frame, or what the intake does when there is none: a violation ends it, and so does an
outbox that has ended. -/
def extract (s : Serving) : Serving :=
  match s.frames.next with
  | .ok (some payload, frames) => { s with frames }.accept payload
  | .ok (none, frames) =>
    { s with frames, intake := if s.outbox.isClosed then .ended (.ok ()) else .reading }
  | .error v => { s with intake := .ended (.error v.error) }

/-- A settlement has left for the queue, or is lost; the intake goes on if it was waiting for
that. -/
def depart (s : Serving) (seq : Nat) : Serving :=
  { s with waiting := s.waiting.filter (·.seq ≠ seq), intake := s.intake.resumed seq }

/-- Whether nobody is left who could send a settlement. -/
def isSettled (s : Serving) : Bool :=
  s.intake.isEnded && s.inFlight.isEmpty && s.waiting.isEmpty

/-- How much there is to see to: the bytes that do not make up a frame yet, by their weight, the
requests in flight and the settlements that are not written yet. -/
def pending (s : Serving) : Nat :=
  s.frames.weight + s.inFlight.length + s.waiting.length + s.outbox.pending

/-- The request in flight with a number. -/
def request? (s : Serving) (seq : Nat) : Option Request :=
  s.inFlight.find? (·.seq = seq)

/-- The waiting settlement of a frame. -/
def waitingFor? (s : Serving) (seq : Nat) : Option Settlement :=
  s.waiting.find? (·.seq = seq)

/-- An action on the outbox. -/
def outboxStep? (s : Serving) (a : Outbox.Action) : Option Serving :=
  (s.outbox.step? a).map fun outbox => { s with outbox }

/-- An action that only a reading intake takes. -/
def whileReading (s : Serving) (next : Serving) : Option Serving :=
  match s.intake with
  | .reading => some next
  | .draining | .sending _ | .ended _ => none

/-- One action, where it is possible. -/
def step? (s : Serving) : Action → Option Serving
  | .read data =>
    if 0 < data.length ∧ data.length ≤ s.server.readSize then
      s.whileReading { s with frames := s.frames.extend data, intake := .draining }
    else none
  | .readFailed cause => s.whileReading { s with intake := .ended (.error (.io cause)) }
  | .eof => s.whileReading { s with frames := s.frames.finish.2, intake := .ended (.ok ()) }
  | .extract =>
    match s.intake with
    | .draining => some s.extract
    | .reading | .sending _ | .ended _ => none
  | .settle seq =>
    (s.request? seq).map fun r =>
      { s with
        inFlight := s.inFlight.filter (·.seq ≠ seq)
        waiting := s.waiting ++ [s.settlement seq r.result] }
  | .send seq => do
    let c ← s.waitingFor? seq
    let s' ← s.outboxStep? (.enqueue c)
    return s'.depart seq
  | .lose seq => do
    let _ ← s.waitingFor? seq
    if s.outbox.isClosed then some (s.depart seq) else none
  | .receive => s.outboxStep? .receive
  | .flush => s.outboxStep? .flush
  | .finish => if s.isSettled then s.outboxStep? .finish else none
  | .breakOff => s.outboxStep? .breakOff

/-- What serving the stream ends in, once it has ended: the failure of the intake, or else what the
outbox ended in. -/
def result? (s : Serving) : Option (Except CallError Unit) :=
  match s.intake, s.outbox.ended with
  | .ended (.error e), some _ => some (.error e)
  | .ended (.ok ()), some r => some r
  | _, _ => none

end Serving
end FramedCall
