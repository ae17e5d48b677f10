import FramedCall.Outbox

/-!
# One sender

A sender that hands settlements to an outbox, one after another. The two take turns: the sender
goes on until the queue is full or it has nothing more to send, the outbox until the queue is empty.
-/

namespace FramedCall

/-- An outbox and the only handle on its queue. -/
structure Sender where
  /-- The outbox. -/
  outbox : Outbox
  /-- Whether the handle is still held. -/
  held : Bool

namespace Sender

/-- A sender to an outbox. -/
def start (o : Outbox) : Sender := ⟨o, true⟩

/-- The outbox goes on until the queue is empty. -/
def yield (s : Sender) : Sender :=
  { s with outbox := s.outbox.empty }

/-- Puts a settlement into the queue, once there is room for it. -/
def send (s : Sender) (c : Settlement) : Except CallError Unit × Sender :=
  let s' := if s.outbox.isFull then s.yield else s
  match s'.outbox.step? (.enqueue c) with
  | some outbox => (.ok (), { s' with outbox })
  | none => (.error .connectionClosed, s')

/-- Sends settlements one after another; what cannot be made into one is passed over with its
error. -/
def sendEach (s : Sender) : List (Except CallError Settlement) → List (Except CallError Unit) × Sender
  | [] => ([], s)
  | c :: cs =>
    let (r, s') := match c with
      | .ok c => s.send c
      | .error e => (.error e, s)
    let (rs, s'') := s'.sendEach cs
    (r :: rs, s'')

/-- Sends settlements and lets the outbox go on. Who has given the handle up sends nothing. -/
def sendAll (s : Sender) (cs : List (Except CallError Settlement)) :
    List (Except CallError Unit) × Sender :=
  if s.held then
    let (rs, s') := s.sendEach cs
    (rs, s'.yield)
  else ([], s)

/-- Gives the handle up; the outbox writes what is left and ends. -/
def close (s : Sender) : Sender :=
  ⟨s.outbox.close, false⟩

/-- Whether the handle says that the outbox has ended. -/
def isClosed? (s : Sender) : Option Bool :=
  if s.held then some s.outbox.isClosed else none

end Sender
end FramedCall
