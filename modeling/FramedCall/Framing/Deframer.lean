import FramedCall.Framing.Length

/-!
# The deframer

Bytes arrive in pieces of any size and leave as whole payloads. `Deframer.next` takes one payload
out, `Deframer.push` appends bytes and takes out all that are complete. A violation leaves the
deframer as it was, so that the same violation is met again; only `clear` and `finish` start over.

Bytes that have been searched for a delimiter are not searched again: `searched` counts them.
-/

namespace FramedCall

open Framing (Violation Length.check Length.parse)

/-- The bytes of a stream that do not make up a whole frame yet. -/
structure Deframer where
  /-- How frames are told apart. -/
  framing : Framing
  /-- The size of the largest accepted payload. -/
  limit : Nat
  /-- The bytes held. -/
  buffered : Bytes
  /-- The length of the payload that is awaited, once its length has been taken out. -/
  awaited : Option Nat
  /-- How many bytes at the front are known not to be a delimiter. -/
  searched : Nat
deriving DecidableEq, Repr

namespace Deframer

/-- The limit of a buffer for which none is chosen, 64 MiB. -/
def standardLimit : Nat := 67108864

/-- A buffer at the start of a stream. -/
def empty (framing : Framing) (limit : Nat) : Deframer :=
  ⟨framing, limit, [], none, 0⟩

/-- The number of bytes held. -/
def size (b : Deframer) : Nat :=
  b.buffered.length

/-- Appends bytes and takes nothing out. -/
def extend (b : Deframer) (data : Bytes) : Deframer :=
  { b with buffered := b.buffered ++ data }

/-- The buffer at the start of a new stream. -/
def clear (b : Deframer) : Deframer :=
  empty b.framing b.limit

/-- The stream has ended: drops what is held and tells how many bytes that were. -/
def finish (b : Deframer) : Nat × Deframer :=
  (b.size, b.clear)

/-! ### Taking one payload out -/

/-- The place of a delimiter, searched for behind the bytes that have been searched. -/
def find (b : Deframer) (delimiter : UInt8) : Option Nat :=
  ((b.buffered.drop b.searched).findIdx? (· == delimiter)).map (b.searched + ·)

/-- What one attempt gives: a payload, if a whole one was there, and the buffer behind it. -/
abbrev Extraction := Option Bytes × Deframer

/-- The payload of `n` bytes, or the buffer that awaits it. -/
def takePayload (b : Deframer) (n : Nat) : Extraction :=
  if b.size < n then (none, { b with awaited := some n })
  else (some (b.buffered.take n), { b with buffered := b.buffered.drop n, awaited := none })

/-- The next payload behind its length. -/
def nextPrefixed (b : Deframer) : Except Violation Extraction :=
  match b.awaited with
  | some n => .ok (b.takePayload n)
  | none =>
    match b.find Framing.separator with
    | none => do
      Length.check b.buffered
      .ok (none, { b with searched := b.size })
    | some pos => do
      let n ← Length.parse (b.buffered.take pos)
      if b.limit < n then .error (.payloadTooLong n b.limit)
      else
        let rest : Deframer := { b with buffered := b.buffered.drop (pos + 1), searched := 0 }
        .ok (rest.takePayload n)

/-- The next line. -/
def nextLine (b : Deframer) : Except Violation Extraction :=
  let pos? := b.find Framing.terminator
  if b.limit < pos?.getD b.size then .error (.lineTooLong b.limit)
  else
    match pos? with
    | none => .ok (none, { b with searched := b.size })
    | some pos =>
      .ok (some (b.buffered.take pos),
        { b with buffered := b.buffered.drop (pos + 1), searched := 0 })

/-- The next payload, if it is complete. -/
def next (b : Deframer) : Except Violation Extraction :=
  match b.framing with
  | .lengthPrefixed => b.nextPrefixed
  | .newline => b.nextLine

/-! ### Taking all payloads out -/

/-- A size that every payload taken out lowers, the empty one too. -/
def weight (b : Deframer) : Nat :=
  2 * b.size + (if b.awaited.isSome then 1 else 0)

/-- A delimiter is found among the bytes that are held. -/
theorem find_lt {b : Deframer} {d : UInt8} {pos : Nat} (h : b.find d = some pos) :
    pos < b.size := by
  simp only [find, Option.map_eq_some_iff] at h
  obtain ⟨i, hi, rfl⟩ := h
  obtain ⟨hlt, -⟩ := List.findIdx?_eq_some_iff_getElem.mp hi
  simp only [List.length_drop] at hlt
  simp only [size]
  omega

/-- A payload taken out makes up for the length that was awaited. -/
theorem weight_takePayload {b b' : Deframer} {n : Nat} {p? : Option Bytes}
    (h : b.takePayload n = (p?, b')) : b'.weight + p?.toList.length ≤ 2 * b.size + 1 := by
  unfold takePayload at h
  split at h
  · cases h
    simp [weight, size]
  · cases h
    simp only [weight, size, List.length_drop, Option.isSome_none, Bool.false_eq_true, if_false,
      Option.toList_some, List.length_singleton]
    omega

/-- An attempt on lengths does not raise the weight, and a payload taken out lowers it. -/
theorem weight_nextPrefixed_le {b b' : Deframer} {p? : Option Bytes}
    (h : b.nextPrefixed = .ok (p?, b')) : b'.weight + p?.toList.length ≤ b.weight := by
  unfold nextPrefixed at h
  split at h
  · next n hn =>
    have := weight_takePayload (Except.ok.inj h)
    simp only [weight, hn, Option.isSome_some, if_true] at this ⊢
    omega
  · next hn =>
    split at h
    · cases hc : Length.check b.buffered with
      | error v => simp [hc, bind, Except.bind] at h
      | ok u =>
        simp only [hc, bind, Except.bind, Except.ok.injEq, Prod.mk.injEq] at h
        obtain ⟨rfl, rfl⟩ := h
        simp [weight, size]
    · next pos hpos =>
      have hlt := find_lt hpos
      cases hp : Length.parse (b.buffered.take pos) with
      | error v => simp [hp, bind, Except.bind] at h
      | ok n =>
        simp only [hp, bind, Except.bind] at h
        split at h
        · cases h
        · -- the length is taken off, and its payload, if all of it is there, with it
          have := weight_takePayload (Except.ok.inj h)
          simp only [weight, hn, size, List.length_drop, Option.isSome_none, Bool.false_eq_true,
            if_false] at this hlt ⊢
          omega

/-- An attempt on lines does not raise the weight, and a line taken out lowers it. -/
theorem weight_nextLine_le {b b' : Deframer} {p? : Option Bytes} (h : b.nextLine = .ok (p?, b')) :
    b'.weight + p?.toList.length ≤ b.weight := by
  unfold nextLine at h
  simp only at h
  split at h
  · cases h
  · split at h
    · cases h
      simp [weight, size]
    · next pos hpos =>
      have hlt := find_lt hpos
      cases h
      simp only [weight, size, List.length_drop, Option.toList_some,
        List.length_singleton] at hlt ⊢
      omega

/-- An attempt does not raise the weight, and a payload taken out lowers it. -/
theorem weight_next_le {b b' : Deframer} {p? : Option Bytes} (h : b.next = .ok (p?, b')) :
    b'.weight + p?.toList.length ≤ b.weight := by
  unfold next at h
  split at h
  · exact weight_nextPrefixed_le h
  · exact weight_nextLine_le h

/-- A payload that is taken out lowers the weight. -/
theorem weight_next {b b' : Deframer} {p : Bytes} (h : b.next = .ok (some p, b')) :
    b'.weight < b.weight := by
  have := weight_next_le h
  simp only [Option.toList_some, List.length_singleton] at this
  omega

/-- A byte that is appended weighs two. -/
theorem weight_extend (b : Deframer) (data : Bytes) :
    (b.extend data).weight = b.weight + 2 * data.length := by
  simp only [weight, size, extend, List.length_append, Nat.mul_add]
  exact Nat.add_right_comm ..

/-- Behind the end of a stream nothing is left that weighs. -/
@[simp] theorem weight_finish (b : Deframer) : b.finish.2.weight = 0 := rfl

/-- All that can be taken out: the payloads, the violation behind them if there is one, and the
buffer. -/
structure Drained where
  /-- The payloads in order. -/
  payloads : List Bytes
  /-- What stands behind them. -/
  violation : Option Violation
  /-- The buffer behind the last payload. -/
  rest : Deframer

/-- Takes payloads out until none is complete or a violation is met. -/
def drain (b : Deframer) : Drained :=
  match _h : b.next with
  | .error v => ⟨[], some v, b⟩
  | .ok (none, b') => ⟨[], none, b'⟩
  | .ok (some p, b') =>
    let d := b'.drain
    ⟨p :: d.payloads, d.violation, d.rest⟩
termination_by b.weight
decreasing_by exact weight_next _h

/-- Appends bytes and takes all complete payloads out. A violation hides the payloads in front of it
that came out in the same step. -/
def push (b : Deframer) (data : Bytes) : Except Violation (List Bytes) × Deframer :=
  let d := (b.extend data).drain
  match d.violation with
  | some v => (.error v, d.rest)
  | none => (.ok d.payloads, d.rest)

end Deframer
end FramedCall
