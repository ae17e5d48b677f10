import FramedCall.Framing
import FramedCall.Stream.Device

/-!
# Batches

Frames are written in as few writes as a device allows: each write offers, slice by slice, all that is
left of a batch. How much that is, is one count of the bytes taken so far; the slices are cut anew from
the parts of the frames for every write (`cuts`).
-/

namespace FramedCall.Outbox

/-- The parts in which something stands behind the first `skip` bytes, each with the place in it where
that begins. The parts follow one another from byte `offset` on. -/
def cuts (skip : Nat) : Nat → List Bytes → List (Bytes × Nat)
  | _, [] => []
  | offset, part :: parts =>
    let stop := offset + part.length
    if !part.isEmpty && skip < stop then (part, skip - offset) :: cuts skip stop parts
    else cuts skip stop parts

/-- The slices of a batch behind its first `skip` bytes. -/
def remaining (frames : List Frame) (skip : Nat) : List Bytes :=
  (cuts skip 0 (frames.flatMap Frame.parts)).map fun (part, start) => part.drop start

/-- The number of bytes of a batch. -/
def batchSize : List Frame → Nat
  | [] => 0
  | f :: fs => f.size + batchSize fs

variable {σ : Type}

/-- Writes a batch from byte `written` on. The error is the cause of the failure. -/
def writeFrom (d : Device σ String) (frames : List Frame) (s : σ) (written : Nat) :
    Except String Unit × σ :=
  if _hleft : written < batchSize frames then
    let slices := remaining frames written
    if slices.isEmpty then (.ok (), s)
    else
      match d.write s slices with
      | (.error cause, s') => (.error cause, s')
      | (.ok n, s') =>
        if _hn : n = 0 then (.error "write_vectored returned 0", s')
        else writeFrom d frames s' (written + n)
  else (.ok (), s)
termination_by batchSize frames - written

/-- Writes frames as one batch and flushes behind them; nothing if there is none. -/
def writeFrames (d : Device σ String) (s : σ) (frames : List Frame) : Except String Unit × σ :=
  if frames.isEmpty then (.ok (), s)
  else
    match writeFrom d frames s 0 with
    | (.error cause, s') => (.error cause, s')
    | (.ok (), s') => d.flush s'

end FramedCall.Outbox
