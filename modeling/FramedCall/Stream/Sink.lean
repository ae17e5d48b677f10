import FramedCall.Stream.Device

/-!
# Sinks

A sink keeps the bytes it takes. It may be limited: in the size of one write, in the bytes it takes
before writes fail, in the bytes it takes before writes take nothing, and in whether flushing or
closing works. A write that crosses a limit takes the part that fits. A sink breaks when nobody is
left at its other end; it takes nothing then.
-/

namespace FramedCall

/-- A stream that keeps what is written to it. -/
structure Sink where
  /-- The most that one write takes. -/
  maxWrite : Option Nat
  /-- How many bytes are taken before writes fail. -/
  failAfter : Option Nat
  /-- How many bytes are taken before writes take nothing. -/
  zeroAfter : Option Nat
  /-- Whether flushing fails. -/
  flushFails : Bool
  /-- Whether closing fails. -/
  closeFails : Bool
  /-- The bytes taken. -/
  taken : Bytes
  /-- What a write says, once the sink is broken. -/
  broken : Option String := none

namespace Sink

/-- A sink without limits. -/
def unlimited : Sink := ⟨none, none, none, false, false, [], none⟩

/-- Whether the bytes taken have reached a limit. -/
def reached (s : Sink) (limit : Option Nat) : Bool :=
  limit.any (· ≤ s.taken.length)

/-- `n` or what is left of a limit, whichever is less. -/
def clip (s : Sink) (limit : Option Nat) (n : Nat) : Nat :=
  match limit with
  | none => n
  | some l => min n (l - s.taken.length)

/-- Takes what fits of the slices. Limits count only when something is offered, and so does a
break. -/
def write (s : Sink) (ss : List Bytes) : Except String Nat × Sink :=
  let offered := ss.flatten
  if offered.isEmpty then (.ok 0, s)
  else if let some cause := s.broken then (.error cause, s)
  else if s.reached s.failAfter then (.error "sink failed", s)
  else if s.reached s.zeroAfter then (.ok 0, s)
  else
    let n := s.clip s.failAfter (s.clip s.zeroAfter
      (min offered.length (s.maxWrite.getD offered.length)))
    (.ok n, { s with taken := s.taken ++ offered.take n })

/-- Flushes. -/
def flush (s : Sink) : Except String Unit × Sink :=
  (if s.flushFails then .error "flush failed" else .ok (), s)

/-- Closes. -/
def close (s : Sink) : Except String Unit :=
  if s.closeFails then .error "shutdown failed" else .ok ()

/-- A sink as a device. -/
def device : Device Sink String := ⟨write, flush⟩

end Sink
end FramedCall
