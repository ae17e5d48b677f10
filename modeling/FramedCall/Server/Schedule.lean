import FramedCall.Server.Serving
import FramedCall.Stream.Source

/-!
# Serving on one thread

The parties of a served stream as tasks that take turns, first come first served. A task keeps its
turn until it has to wait: the intake for bytes, the outbox for settlements or for its reader, a
handler for its gate, a settlement for a place in the queue. Places are given away in the order in
which they were asked for, and one who is given a place has to await another turn to use it. A
request takes three turns: its handler is started, runs, and hands its outcome over.

The main output may lead into a pipe. What the outbox has written is delivered as far as the pipe
has room for it, and the outbox waits with the rest until a reader makes room.

No turn lasts for ever: it is good for `Schedule.turnLength` operations on the queue and the pipe.
Turns make up rounds of `Schedule.roundLength`, fewer if nobody is left who can go on, and a task
that has used its turn up goes on in the next round.

All that happens to the stream in a turn happens through `Serving.step?`, so that a run of the
schedule is one of the interleavings that `Serving` allows. `Schedule.settle` goes on until every
task waits, `Schedule.settleUntil` only until the end of a round behind which something is seen.
-/

namespace FramedCall

/-- Whose turn it is. -/
inductive Task where
  /-- The intake's. -/
  | intake
  /-- The outbox's. -/
  | outbox
  /-- A request's, to have its handler started. -/
  | start (seq : Nat)
  /-- A handler's. -/
  | run (seq : Nat)
  /-- A settlement's, to ask for a place in the queue. -/
  | offer (seq : Nat)
  /-- A settlement's, to take the place it was given. -/
  | enter (seq : Nat)
deriving DecidableEq, Repr

/-- What the outbox waits for. -/
inductive OutboxNeed where
  /-- More settlements, or the end of them. -/
  | settlements
  /-- A reader who takes what has been written. -/
  | reader
deriving DecidableEq, Repr

/-- A served stream with the tasks that serve it. -/
structure Schedule where
  /-- The stream. -/
  serving : Serving
  /-- What has arrived and has not been read. -/
  source : Source
  /-- How far the main output gets before the outbox has to wait for a reader, if it leads into a
  pipe. -/
  reach : Option Nat
  /-- How many bytes of the main output the pipe has taken. -/
  delivered : Nat
  /-- The gates that are open. -/
  opened : List String
  /-- The task that keeps its turn. -/
  holder : Option Task
  /-- How many more operations on the queue and the pipe the turn is good for. -/
  credit : Nat
  /-- The tasks that can go on in this round, the next one first. -/
  tasks : List Task
  /-- How many more turns the round has. -/
  turnsLeft : Nat
  /-- The tasks that have used their turns up and can go on in the next round. -/
  resting : List Task
  /-- The requests whose handlers wait for a gate, with its key, in the order of their turns. -/
  gated : List (String × Nat)
  /-- The settlements that wait for a place in the queue, in the order in which they asked. -/
  asking : List Nat
  /-- How many places have been given away and not been taken. -/
  promised : Nat
  /-- What the outbox waits for, if it waits. -/
  outboxNeeds : Option OutboxNeed

namespace Schedule

/-- How many operations on the queue and the pipe a turn is good for. -/
def turnLength : Nat := 128

/-- The most turns of one round. -/
def roundLength : Nat := 61

/-- Nothing has arrived and nobody has had a turn. -/
def start (s : Serving) (reach : Option Nat) : Schedule where
  serving := s
  source := .empty
  reach := reach
  delivered := 0
  opened := []
  holder := none
  credit := 0
  tasks := [.intake, .outbox]
  turnsLeft := roundLength
  resting := []
  gated := []
  asking := []
  promised := 0
  outboxNeeds := none

/-- Something happens to the stream, if it is possible. -/
def act (s : Schedule) (a : Serving.Action) : Schedule :=
  { s with serving := (s.serving.step? a).getD s.serving }

/-- Tasks that can go on once their turn comes. -/
def wake (s : Schedule) (ts : List Task) : Schedule :=
  { s with tasks := s.tasks ++ ts }

/-- A task that keeps its turn. -/
def keepTurn (s : Schedule) (t : Task) : Schedule :=
  { s with holder := some t }

/-- A task that has used its turn up. -/
def rest (s : Schedule) (t : Task) : Schedule :=
  { s with resting := s.resting ++ [t] }

/-- One operation on the queue or the pipe is done. -/
def spend (s : Schedule) : Schedule :=
  { s with credit := s.credit - 1 }

/-- Whether bytes come and go through a pipe. -/
def isPiped (s : Schedule) : Bool :=
  s.reach.isSome

/-- Bytes have come or gone, which counts if it was through a pipe. -/
def spendOnPipe (s : Schedule) : Schedule :=
  if s.isPiped then s.spend else s

/-- The outbox can go on if this is what it waits for. -/
def wakeOutbox (s : Schedule) (need : OutboxNeed) : Schedule :=
  if s.outboxNeeds = some need then { s with outboxNeeds := none }.wake [.outbox] else s

/-- Whether a place in the queue is neither taken nor given away. -/
def hasRoom (s : Schedule) : Bool :=
  s.serving.outbox.queue.length + s.promised < s.serving.outbox.capacity

/-- The main output so far. -/
def output (s : Schedule) : Bytes :=
  s.serving.outbox.out.taken

/-- Whether the outbox has written more than the pipe has taken. -/
def isBehind (s : Schedule) : Bool :=
  s.isPiped && s.delivered < s.output.length

/-! ### Turns -/

/-- The intake keeps the turn if it was waiting for its own settlement to leave. -/
def resumeIntake (before s : Schedule) : Schedule :=
  match before.serving.intake, s.serving.intake with
  | .sending _, .draining => s.keepTurn .intake
  | _, _ => s

/-- A settlement enters the queue. -/
def enter (s : Schedule) (seq : Nat) : Schedule :=
  resumeIntake s ((s.act (.send seq)).spend.wakeOutbox .settlements)

/-- A settlement is lost. -/
def lose (s : Schedule) (seq : Nat) : Schedule :=
  resumeIntake s (s.act (.lose seq)).spend

/-- A settlement asks for a place in the queue. -/
def offer (s : Schedule) (seq : Nat) : Schedule :=
  if s.credit = 0 then s.rest (.offer seq)
  else if s.serving.outbox.isClosed then s.lose seq
  else if s.hasRoom then s.enter seq
  else { s with asking := s.asking ++ [seq] }

/-- A settlement that was given a place takes it. -/
def enterPromised (s : Schedule) (seq : Nat) : Schedule :=
  let s' := { s with promised := s.promised - 1 }
  if s'.serving.outbox.isClosed then s'.lose seq else s'.enter seq

/-- The intake reads what has arrived. -/
def intakeReads (s : Schedule) : Schedule :=
  if s.isPiped && s.credit = 0 then s.rest .intake
  else
    let (result, source) := s.source.read s.serving.server.readSize
    let s' := { s with source }
    match result with
    | .pending => s'
    | .bytes data => (s'.act (.read data)).spendOnPipe.keepTurn .intake
    | .failure cause => s'.act (.readFailed cause)
    | .eof => s'.act .eof

/-- The intake takes a frame out. A request that is put in flight gets turns of its own. -/
def intakeExtracts (s : Schedule) : Schedule :=
  let s' := s.act .extract
  match s'.serving.intake with
  | .draining => (s'.wake [.start s.serving.extracted]).keepTurn .intake
  | .reading => s'.keepTurn .intake
  | .sending seq => s'.offer seq
  | .ended _ => s'

/-- The intake goes on. -/
def intakeTurn (s : Schedule) : Schedule :=
  match s.serving.intake with
  | .reading => s.intakeReads
  | .draining => s.intakeExtracts
  | .sending _ | .ended _ => s

/-- Places that have become free are given to those who asked first. -/
def givePlaces (s : Schedule) (n : Nat) : Schedule :=
  let lucky := s.asking.take n
  { s with asking := s.asking.drop n, promised := s.promised + lucky.length }.wake
    (lucky.map .enter)

/-- The outbox has ended: nobody who asks will get a place. -/
def refuse (s : Schedule) : Schedule :=
  { s with asking := [] }.wake (s.asking.map .offer)

/-- The outbox takes some settlements from the queue, and their places become free. -/
def outboxReceives (s : Schedule) (n : Nat) : Schedule :=
  ((List.range n).foldl (fun s _ => s.act .receive) s).givePlaces n

/-- The outbox has written: it keeps the turn, unless it has ended. -/
def outboxWrote (s : Schedule) : Schedule :=
  if s.serving.outbox.isClosed then s.refuse else s.keepTurn .outbox

/-- The outbox takes a batch from the queue and writes it. -/
def outboxWrites (s : Schedule) : Schedule :=
  ((s.spend.outboxReceives (min Outbox.maxBatch s.serving.outbox.queue.length)).act
    .flush).outboxWrote

/-- The pipe takes as much as it has room for. The outbox waits for the reader if that is nothing,
and ends if nobody will read any more. -/
def outboxDelivers (s : Schedule) : Schedule :=
  let delivered := s.output.length.min (s.reach.getD 0)
  if s.serving.outbox.out.broken.isSome then (s.act .breakOff).outboxWrote
  else if delivered ≤ s.delivered then { s with outboxNeeds := some .reader }
  else { s with delivered }.spendOnPipe.keepTurn .outbox

/-- The outbox goes on, or waits, or ends. -/
def outboxTurn (s : Schedule) : Schedule :=
  if s.serving.outbox.isClosed then s
  else if s.credit = 0 then s.rest .outbox
  else if s.isBehind then s.outboxDelivers
  else if s.serving.outbox.queue.isEmpty then
    if s.serving.isSettled then s.act .finish else { s with outboxNeeds := some .settlements }
  else s.outboxWrites

/-- The handler of a request runs, unless its gate is closed. -/
def runTurn (s : Schedule) (seq : Nat) : Schedule :=
  let key? := (s.serving.request? seq).bind (·.gate)
  match key?.filter (!s.opened.contains ·) with
  | some key => { s with gated := s.gated ++ [(key, seq)] }
  | none => (s.act (.settle seq)).wake [.offer seq]

/-- A task goes on. -/
def go (s : Schedule) : Task → Schedule
  | .intake => s.intakeTurn
  | .outbox => s.outboxTurn
  | .start seq => s.wake [.run seq]
  | .run seq => s.runTurn seq
  | .offer seq => s.offer seq
  | .enter seq => s.enterPromised seq

/-- A task goes on, and the outbox is woken when nobody is left who could send. -/
def advance (s : Schedule) (t : Task) : Schedule :=
  let s' := s.go t
  if s'.serving.isSettled && !s'.serving.outbox.isClosed then s'.wakeOutbox .settlements else s'

/-- A new round, in which those who rested can go on. -/
def newRound (s : Schedule) : Schedule :=
  { s with tasks := s.tasks ++ s.resting, resting := [], turnsLeft := roundLength }

/-- The holder of the turn goes on; if there is none, the next task has a new turn, and if the round
is over a new one begins. -/
def advanceNext (s : Schedule) : Schedule :=
  match s.holder, s.tasks, s.turnsLeft with
  | some t, _, _ => { s with holder := none }.advance t
  | none, t :: tasks, turnsLeft + 1 =>
    { s with tasks, turnsLeft, credit := turnLength }.advance t
  | none, _, _ => s.newRound

/-! ### Going on until every task waits -/

/-- Whether every task waits. -/
def isIdle (s : Schedule) : Bool :=
  s.holder.isNone && s.tasks.isEmpty && s.resting.isEmpty

/-- Whether the round is over. -/
def isRoundOver (s : Schedule) : Bool :=
  s.holder.isNone && (s.tasks.isEmpty || s.turnsLeft = 0)

/-- Goes on, in `n` steps at most, until every task waits or `seen` holds behind a round. -/
def advanceUpTo (seen : Schedule → Bool) : Nat → Schedule → Schedule
  | 0, s => s
  | n + 1, s =>
    if s.isIdle then s
    else if s.isRoundOver && seen s then s.newRound
    else advanceUpTo seen n s.advanceNext

/-- More steps than can be taken. Each byte, each arrival, each request and each settlement is good
for a few. -/
def patience (s : Schedule) : Nat :=
  24 * (s.source.size + s.source.arrivals.length + s.serving.frames.size +
    s.serving.inFlight.length + s.serving.waiting.length + s.serving.outbox.queue.length +
    s.tasks.length + 1)

/-- Goes on from a new round until every task waits or `seen` holds behind a round. -/
def settleUntil (seen : Schedule → Bool) (s : Schedule) : Schedule :=
  advanceUpTo seen s.patience s.newRound

/-- Goes on from a new round until every task waits. -/
def settle (s : Schedule) : Schedule :=
  s.settleUntil fun _ => false

/-! ### What comes from outside -/

/-- The intake can go on if it waits for bytes. -/
def wakeIntake (s : Schedule) : Schedule :=
  match s.serving.intake with
  | .reading => if s.tasks.contains .intake then s else s.wake [.intake]
  | .draining | .sending _ | .ended _ => s

/-- Something arrives on the stream. -/
def arrive (s : Schedule) (a : Arrival) : Schedule :=
  { s with source := s.source.arrive a }.wakeIntake

/-- Bytes come into the pipe that leads to the stream. -/
def pour (s : Schedule) (data : Bytes) : Schedule :=
  { s with source := s.source.pour data }.wakeIntake

/-- The reader of the main output has made room in the pipe. -/
def reachTo (s : Schedule) (reach : Nat) : Schedule :=
  { s with reach := some reach }.wakeOutbox .reader

/-- Nobody will read the main output any more. -/
def hangUp (s : Schedule) (cause : String) : Schedule :=
  let out := { s.serving.outbox.out with broken := some cause }
  let serving := { s.serving with outbox := { s.serving.outbox with out } }
  { s with serving }.wakeOutbox .reader

/-- A gate is opened. -/
def release (s : Schedule) (key : String) : Schedule :=
  let freed := s.gated.filterMap fun (k, seq) => if k = key then some (Task.run seq) else none
  let gated := s.gated.filter (·.1 ≠ key)
  { s with opened := s.opened ++ [key], gated }.wake freed

end Schedule
end FramedCall
