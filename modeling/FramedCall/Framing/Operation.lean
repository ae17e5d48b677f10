import FramedCall.Framing.Routine

/-!
# Operations on a deframer

All that can be done with a deframer, one operation after another, with what each answers and what the
deframer then shows of itself. Operations go on behind an error as well.
-/

namespace FramedCall.Deframer

/-- What can be asked of a deframer. -/
inductive Operation where
  /-- Bytes are appended. -/
  | extend (data : Bytes)
  /-- Bytes are appended, and all payloads that are complete are taken out. -/
  | push (data : Bytes)
  /-- The next payload is taken out, if it is complete. -/
  | next
  /-- The stream has ended. -/
  | finish
  /-- A new stream begins. -/
  | clear
deriving DecidableEq, Repr

/-- What an operation answers. -/
inductive Answer where
  /-- Nothing. -/
  | done
  /-- The payload that was complete, if there was one. -/
  | payload (r : Except CallError (Option Bytes))
  /-- The payloads that were complete. -/
  | payloads (r : Except CallError (List Bytes))
  /-- The number of bytes that were dropped. -/
  | dropped (n : Nat)
  /-- None, because bytes were asked for that are not there. -/
  | crashed

/-- What a deframer shows of itself. -/
structure View where
  /-- The number of bytes held. -/
  size : Nat
  /-- Whether there are none. -/
  isEmpty : Bool
  /-- The length of the payload that is awaited. -/
  awaited : Option Nat
deriving DecidableEq, Repr

/-- What the deframer shows. -/
def view (b : Deframer) : View :=
  ⟨b.size, b.buffered.isEmpty, b.awaited⟩

/-- The answer that a routine gives, and the deframer behind it. -/
def Routine.perform {α : Type} (m : Routine α) (answer : Except CallError α → Answer) (b : Deframer) :
    Answer × Deframer :=
  match m.run b with
  | .ok a b' => (answer (.ok a), b')
  | .error (.violation v) b' => (answer (.error v.error), b')
  | .error .outOfRange b' => (.crashed, b')

/-- One operation. -/
def perform (b : Deframer) : Operation → Answer × Deframer
  | .extend data => (.done, b.extend data)
  | .push data => (Routine.push data).perform .payloads b
  | .next => Routine.attempt.perform .payload b
  | .finish => (.dropped b.finish.1, b.finish.2)
  | .clear => (.done, b.clear)

/-- Operations one after another, each with its answer and what the deframer shows behind it. -/
def performAll (b : Deframer) : List Operation → List (Answer × View) × Deframer
  | [] => ([], b)
  | op :: ops =>
    let (answer, b') := b.perform op
    let (answers, b'') := b'.performAll ops
    ((answer, b'.view) :: answers, b'')

end FramedCall.Deframer
