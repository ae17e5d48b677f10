import FramedCall.FailureLog
import FramedCall.Outbox.Batch
import FramedCall.Outbox.Sequencer

/-!
# The outbox

Nothing but the outbox touches the main output. Settlements wait for it in a bounded queue; it takes
up to `Outbox.maxBatch` of them at a time, puts them in order, and of those that can now be written
it logs first all failures and then writes all frames, flushing behind the last. A failure of the
log is passed over; a failure of the main output ends the outbox. So does a main output that breaks
while the outbox still waits for what it has written to be taken.

`Outbox.step?` is one action on the outbox or of its own; which actions follow one another is left
open. `Outbox.batch` and `Outbox.close` are the two ways in which it goes on by itself.
-/

namespace FramedCall

/-- A queue of settlements on their way to the main output and the failure log. -/
structure Outbox where
  /-- How many settlements the queue holds. -/
  capacity : Nat
  /-- The settlements in the queue, the oldest first. -/
  queue : List Settlement
  /-- The settlements that wait for earlier ones. -/
  sequencer : Sequencer
  /-- The settlements of this batch that can be written. -/
  ready : List Settlement
  /-- How many settlements this batch has taken from the queue. -/
  received : Nat
  /-- The main output. -/
  out : Sink
  /-- The log. -/
  log : FailureLog
  /-- The settlements whose messages and frames have been written, the oldest first. -/
  written : List Settlement
  /-- How the outbox has ended. -/
  ended : Option (Except CallError Unit)

namespace Outbox

/-- The most settlements that are taken from the queue before some are written. -/
def maxBatch : Nat := 64

/-- The capacity of a queue for which none is chosen. -/
def standardCapacity : Nat := 1024

/-- An outbox that has written nothing. Its queue holds at least one settlement. -/
def start (capacity : Nat) (order : DeliveryOrder) (out : Sink) (log : FailureLog) : Outbox :=
  ⟨max capacity 1, [], .start order, [], 0, out, log, [], none⟩

/-- Whether the queue takes no more settlements, because the outbox has ended. -/
def isClosed (o : Outbox) : Bool :=
  o.ended.isSome

/-- Whether the queue holds all it can. -/
def isFull (o : Outbox) : Bool :=
  o.capacity ≤ o.queue.length

/-- How many settlements have come and are not written yet. -/
def pending (o : Outbox) : Nat :=
  o.queue.length + o.sequencer.held.length + o.ready.length

/-- The outbox once the main output has failed. What is still queued is lost. -/
def fail (o : Outbox) (cause : String) : Outbox :=
  { o with queue := [], ended := some (.error (.io cause)) }

/-! ### Writing what is ready -/

/-- Writes what is ready. The outbox ends when the main output fails. -/
def flush (o : Outbox) : Outbox :=
  let log := o.log.addAll (o.ready.filterMap (·.diagnostic))
  let (result, out) := writeFrames Sink.device o.out (o.ready.filterMap (·.frame))
  let o' : Outbox := { o with ready := [], received := 0, out, log }
  match result with
  | .ok () => { o' with written := o.written ++ o.ready }
  | .error cause => o'.fail cause

/-! ### Actions -/

/-- What can happen to an outbox. -/
inductive Action where
  /-- A settlement enters the queue. -/
  | enqueue (c : Settlement)
  /-- The oldest settlement is taken from the queue. -/
  | receive
  /-- What the settlements taken have made ready is written. -/
  | flush
  /-- All is taken and no more can come: what is held is written, and the outbox ends. -/
  | finish
  /-- The main output is broken: the outbox ends before it has written all. -/
  | breakOff

/-- One action, where it is possible. -/
def step? (o : Outbox) : Action → Option Outbox
  | .enqueue c =>
    if o.ended.isNone ∧ o.queue.length < o.capacity then some { o with queue := o.queue ++ [c] }
    else none
  | .receive =>
    match o.ended, o.queue with
    | none, c :: queue =>
      if o.received < maxBatch then
        let (released, sequencer) := o.sequencer.add c
        some { o with queue, sequencer, ready := o.ready ++ released, received := o.received + 1 }
      else none
    | _, _ => none
  | .flush => if o.ended.isNone ∧ 0 < o.received then some o.flush else none
  | .finish =>
    if o.ended.isNone ∧ o.queue.isEmpty ∧ o.received = 0 then
      let (released, sequencer) := o.sequencer.giveUp
      let o' := { o with sequencer, ready := released }.flush
      some { o' with ended := some (o'.ended.getD (.ok ())) }
    else none
  | .breakOff => if o.ended.isNone then o.out.broken.map o.fail else none

/-! ### Going on by itself -/

/-- Takes settlements from the queue as long as there are some and the batch has room, `n` at
most. -/
def receiveUpTo : Nat → Outbox → Outbox
  | 0, o => o
  | n + 1, o =>
    match o.step? .receive with
    | some o' => receiveUpTo n o'
    | none => o

/-- Takes a batch from the queue and writes what it makes ready. -/
def batch (o : Outbox) : Outbox :=
  let o' := receiveUpTo maxBatch o
  (o'.step? .flush).getD o'

/-- Goes on until the queue is empty. -/
def empty (o : Outbox) : Outbox :=
  (List.range o.queue.length).foldl (fun o _ => o.batch) o

/-- No more settlements come: goes on until the queue is empty, and ends. -/
def close (o : Outbox) : Outbox :=
  (o.empty.step? .finish).getD o.empty

end Outbox
end FramedCall
