import FramedCall.Stream.Sink
import FramedCall.Stream.Source

/-!
# Channels

A channel carries bytes in both directions: a device to write to, and reads. A write may be refused
because the other end has to read first. Whatever a read gives is no longer there to be read, so
reading comes to an end when nothing is written.
-/

namespace FramedCall

/-- Why a channel does not take what is written to it. -/
inductive Refusal where
  /-- It is full until the other end reads. -/
  | full
  /-- The write failed. -/
  | failed (cause : String)
deriving DecidableEq, Repr

/-- The operations of a two-way stream over states `σ`. -/
structure Channel (σ : Type) where
  /-- The way out. -/
  device : Device σ Refusal
  /-- Reads at most so many bytes. -/
  read : σ → Nat → ReadResult × σ
  /-- Closes the way out. -/
  close : σ → Except String Unit × σ
  /-- How much the other end still has to see to before it can write no more, and how much it has
  written that can be read. -/
  unread : σ → Nat × Nat
  /-- Reading lowers what can be read. -/
  unread_read_lt : ∀ {s s' : σ} {n : Nat} {data : Bytes},
    0 < n → read s n = (.bytes data, s') → Prod.Lex (· < ·) (· < ·) (unread s') (unread s)

namespace Source

/-- The number of bytes and of arrivals that can be read. -/
def weight (s : Source) : Nat :=
  s.size + s.arrivals.length

/-- A source weighs less behind a read that gives bytes. -/
theorem weight_read_lt {s s' : Source} {n : Nat} {data : Bytes} (hn : 0 < n)
    (h : s.read n = (.bytes data, s')) : s'.weight < s.weight := by
  obtain ⟨as⟩ := s
  match as with
  | [] => simp [read] at h
  | .failure _ :: _ => simp [read] at h
  | .eof :: _ => simp [read] at h
  | .chunk d :: as =>
    simp only [read, Prod.mk.injEq, ReadResult.bytes.injEq] at h
    obtain ⟨-, rfl⟩ := h
    split
    · simp only [weight, size, List.map_cons, List.foldr_cons, List.length_cons]
      omega
    · simp only [weight, size, List.map_cons, List.foldr_cons, List.length_cons, List.length_drop]
      omega

end Source

/-- A channel made of a source and a sink that have nothing to do with one another. -/
def Channel.plain : Channel (Source × Sink) where
  device :=
    { write := fun (source, sink) ss =>
        let (r, sink') := sink.write ss
        (r.mapError .failed, source, sink')
      flush := fun (source, sink) =>
        let (r, sink') := sink.flush
        (r.mapError .failed, source, sink') }
  read := fun (source, sink) n =>
    let (r, source') := source.read n
    (r, source', sink)
  close := fun (source, sink) => (sink.close, source, sink)
  unread := fun (source, _) => (0, source.weight)
  unread_read_lt := fun {s s' n data} hn h => by
    obtain ⟨hr, hs⟩ := Prod.mk.inj h
    subst hs
    exact .right 0 (Source.weight_read_lt hn (Prod.ext hr rfl))

end FramedCall
