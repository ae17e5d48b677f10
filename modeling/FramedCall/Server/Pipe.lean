import FramedCall.Server.Backlog
import FramedCall.Stream.Channel

/-!
# A server at the other end of a pipe

The channel that leads to a serving server. The pipe holds so many bytes in each direction; a writer
who offers more has to wait until the reader has taken some. That goes for the outbox of the server
as well, and as long as it waits settlements pile up in front of it, until in the end the intake
waits too and what the client writes stays in the pipe.

The two ends share one thread. The server goes on only while the client waits, because the pipe is
full and the client writes, or because it is empty and the client reads; what can be done at once is
done before the server has another turn. A client who waits looks behind each round of the server
whether the wait is over (`ServerPipe.await`).

When the client closes its end nobody reads any more. The server goes through what has been written
to it, and its outbox fails with the next thing that it writes.
-/

namespace FramedCall

/-- A server with the pipe that leads to it. -/
structure ServerPipe where
  /-- The server at work. -/
  schedule : Schedule
  /-- How many bytes the pipe holds in each direction. -/
  capacity : Nat
  /-- How many bytes of the server's output have been read. -/
  taken : Nat
  /-- What a write says when nobody reads any more. -/
  brokenPipe : String

namespace ServerPipe

/-- The capacity of a pipe for which none is chosen, 64 KiB. -/
def standardCapacity : Nat := 65536

/-- What a write to a pipe inside the process says when nobody reads any more. -/
def broken : String := "broken pipe"

/-- A pipe to a server that starts serving. It holds at least one byte. -/
def start (server : Server) (capacity : Nat) (brokenPipe : String) : ServerPipe where
  schedule := .start (.start server .unlimited .disabled) (some (max capacity 1))
  capacity := max capacity 1
  taken := 0
  brokenPipe := brokenPipe

/-- The server's output that has not been read. -/
def unreadOutput (p : ServerPipe) : Bytes :=
  p.schedule.output.drop p.taken

/-- What can be read without waiting. -/
def available (p : ServerPipe) : Bytes :=
  p.unreadOutput.take (p.schedule.delivered - p.taken)

/-- Whether the server has ended and all its output is in the pipe. -/
def isGone (p : ServerPipe) : Bool :=
  p.schedule.serving.result?.isSome && !p.schedule.isBehind

/-- The client waits for something, and the server goes on until it is there or does not come. -/
def await (p : ServerPipe) (seen : ServerPipe → Bool) : ServerPipe :=
  { p with schedule := p.schedule.settleUntil fun schedule => seen { p with schedule } }

/-! ### Writing -/

/-- How many bytes the pipe can take from the client. -/
def room (p : ServerPipe) : Nat :=
  p.capacity - p.schedule.source.size

/-- Whether the client need not wait to write. -/
def isWritable (p : ServerPipe) : Bool :=
  p.isGone || p.room != 0

/-- What the client writes comes into the pipe, as much as there is room for. -/
def put (p : ServerPipe) (ss : List Bytes) : Except Refusal Nat × ServerPipe :=
  if p.isGone then (.error (.failed p.brokenPipe), p)
  else if p.room = 0 then (.error .full, p)
  else
    let data := ss.flatten.take p.room
    (.ok data.length, { p with schedule := p.schedule.pour data })

/-- The client writes, and waits first if there is no room. -/
def write (p : ServerPipe) (ss : List Bytes) : Except Refusal Nat × ServerPipe :=
  if p.isWritable then p.put ss else (p.await isWritable).put ss

/-! ### Reading -/

/-- Whether the client need not wait to read. -/
def isReadable (p : ServerPipe) : Bool :=
  p.isGone || !p.available.isEmpty

/-- How much the server still has to see to, and how much it has written that has not been read. -/
def unread (p : ServerPipe) : Nat × Nat :=
  (p.schedule.backlog, p.unreadOutput.length)

/-- The client takes some of what is in the pipe, and there is room for more. -/
def take (p : ServerPipe) (n : Nat) : ReadResult × ServerPipe :=
  let data := p.available.take n
  let taken := p.taken + data.length
  (.bytes data, { p with taken, schedule := p.schedule.reachTo (taken + p.capacity) })

/-- The client takes what there is. The output ends when the server is gone. -/
def takeAny (p : ServerPipe) (n : Nat) : ReadResult × ServerPipe :=
  if !p.available.isEmpty then p.take n
  else if p.isGone then (.eof, p)
  else (.pending, p)

/-- The client reads, and waits first if there is nothing in the pipe. -/
def read (p : ServerPipe) (n : Nat) : ReadResult × ServerPipe :=
  if p.isReadable then p.takeAny n else (p.await isReadable).takeAny n

/-- Taking something leaves less to be read. -/
theorem unread_take_lt {p : ServerPipe} {n : Nat} (hn : 0 < n) (hp : p.available.isEmpty = false) :
    (p.take n).2.unread.1 = p.unread.1 ∧ (p.take n).2.unread.2 < p.unread.2 := by
  have h : p.available.length ≠ 0 := by
    intro h0
    simp [List.eq_nil_of_length_eq_zero h0] at hp
  refine ⟨Schedule.backlog_reachTo _ _, ?_⟩
  simp only [unread, take, available, unreadOutput, Schedule.output_reachTo, List.length_drop,
    List.length_take] at h ⊢
  omega

/-- Bytes that a client is given are fewer to be read, and the server has as much to see to as
before. -/
theorem unread_takeAny_lt {p p' : ServerPipe} {n : Nat} {data : Bytes} (hn : 0 < n)
    (h : p.takeAny n = (.bytes data, p')) : p'.unread.1 = p.unread.1 ∧ p'.unread.2 < p.unread.2 := by
  unfold takeAny at h
  split at h
  · next ha =>
    obtain rfl : p' = (p.take n).2 := by rw [h]
    exact unread_take_lt hn (by simpa using ha)
  · split at h <;> simp at h

/-- While the server goes on there is less for it to see to, or nothing new to be read. -/
theorem unread_await (p : ServerPipe) (seen : ServerPipe → Bool) :
    (p.await seen).unread.1 < p.unread.1 ∨
      (p.await seen).unread.1 ≤ p.unread.1 ∧ (p.await seen).unread.2 = p.unread.2 := by
  have h := p.schedule.wanesTo_settleUntil fun schedule => seen { p with schedule }
  rcases h.same_or_lt with he | hlt
  · exact .inr ⟨h.le, congrArg (fun out : Bytes => (out.drop p.taken).length) he⟩
  · exact .inl hlt

/-- Each read that gives bytes lowers what is left: the server has less to see to, or as much and
less is to be read. -/
theorem unread_read_lt {p p' : ServerPipe} {n : Nat} {data : Bytes} (hn : 0 < n)
    (h : p.read n = (.bytes data, p')) : Prod.Lex (· < ·) (· < ·) p'.unread p.unread := by
  rw [Prod.lex_def]
  unfold read at h
  split at h
  · exact .inr (unread_takeAny_lt hn h)
  · have := unread_takeAny_lt hn h
    have := p.unread_await isReadable
    omega

/-! ### The end -/

/-- The client ends its requests. -/
def endInput (p : ServerPipe) : ServerPipe :=
  { p with schedule := p.schedule.arrive .eof }

/-- The client reads no more. -/
def hangUp (p : ServerPipe) : ServerPipe :=
  { p with schedule := p.schedule.hangUp p.brokenPipe }

/-- The server goes on as long as it can. -/
def settle (p : ServerPipe) : ServerPipe :=
  { p with schedule := p.schedule.settle }

/-- The client ends its requests and reads no more. -/
def close (p : ServerPipe) : Except String Unit × ServerPipe :=
  (.ok (), p.endInput.hangUp.settle)

/-- What serving has ended in. -/
def end? (p : ServerPipe) : Option (Except CallError Unit) :=
  p.schedule.serving.result?

/-- The pipe as a channel. -/
def channel : Channel ServerPipe where
  device := { write := write, flush := fun p => (.ok (), p) }
  read := read
  close := close
  unread := unread
  unread_read_lt := unread_read_lt

end ServerPipe
end FramedCall
