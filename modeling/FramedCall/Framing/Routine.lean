import FramedCall.Framing.Deframer

/-!
# Attempts in steps

`Deframer.next` says what an attempt comes to, and a violation keeps nothing of it. Here an attempt is a
routine that changes one deframer step by step: bytes leave in one step, what is awaited is noted in
another, and a fault stops the routine with all that has been changed by then. Asking for bytes that are
not there is a fault as well. Both come to the same (`Routine.run_attempt`).
-/

namespace FramedCall.Deframer

open Framing (Violation Length.check Length.parse)

/-- Why a routine stops before its end. -/
inductive Fault where
  /-- The stream breaks its framing. -/
  | violation (v : Violation)
  /-- Bytes are asked for that are not there. -/
  | outOfRange
deriving DecidableEq, Repr

/-- Changes of a deframer, one after another. Those in front of a fault stay. -/
abbrev Routine := EStateM Fault Deframer

namespace Routine

/-- Something that may be refused. -/
def accept {α : Type} (r : Except Violation α) : Routine α :=
  match r with
  | .ok a => pure a
  | .error v => throw (.violation v)

/-- The first `n` bytes, which stay. -/
def front (n : Nat) : Routine Bytes := do
  let b ← get
  if b.size < n then throw .outOfRange
  else return b.buffered.take n

/-- The first `n` bytes, which leave. -/
def splitTo (n : Nat) : Routine Bytes := do
  let bytes ← front n
  modify fun b => { b with buffered := b.buffered.drop n }
  return bytes

/-- The place of a delimiter behind the bytes that have been searched. -/
def search (delimiter : UInt8) : Routine (Option Nat) := do
  let b ← get
  if b.size < b.searched then throw .outOfRange
  else return b.find delimiter

/-- All bytes count as searched. -/
def noteSearched : Routine Unit :=
  modify fun b => { b with searched := b.size }

/-- The payload of `n` bytes that is awaited. -/
def payload (n : Nat) : Routine (Option Bytes) := do
  let b ← get
  if b.size < n then return none
  else
    let bytes ← splitTo n
    modify fun b => { b with awaited := none }
    return some bytes

/-- The next payload behind its length. -/
def prefixed : Routine (Option Bytes) := do
  let b ← get
  match b.awaited with
  | some n => payload n
  | none =>
    match ← search Framing.separator with
    | none =>
      accept (Length.check b.buffered)
      noteSearched
      return none
    | some pos =>
      let n ← accept (Length.parse (← front pos))
      if b.limit < n then throw (.violation (.payloadTooLong n b.limit))
      else
        let _ ← splitTo (pos + 1)
        modify fun b => { b with searched := 0 }
        modify fun b => { b with awaited := some n }
        payload n

/-- The next line. -/
def line : Routine (Option Bytes) := do
  let b ← get
  let pos? ← search Framing.terminator
  if b.limit < pos?.getD b.size then throw (.violation (.lineTooLong b.limit))
  else
    match pos? with
    | none =>
      noteSearched
      return none
    | some pos =>
      let bytes ← splitTo pos
      let _ ← splitTo 1
      modify fun b => { b with searched := 0 }
      return some bytes

/-- The next payload, if it is complete. -/
def attempt : Routine (Option Bytes) := do
  let b ← get
  match b.framing with
  | .lengthPrefixed => prefixed
  | .newline => line

/-! ### What an attempt comes to -/

/-- An attempt that keeps what it gives, and nothing in case of a violation. -/
def outcome (b : Deframer) (r : Except Violation Extraction) : EStateM.Result Fault Deframer (Option Bytes) :=
  match r with
  | .ok (p?, b') => .ok p? b'
  | .error v => .error (.violation v) b

/-- A result is changed, and what happens to the deframer is not. -/
@[simp] theorem run_map {α β : Type} (f : α → β) (x : Routine α) (b : Deframer) :
    (f <$> x).run b = match x.run b with
      | .ok a b' => .ok (f a) b'
      | .error e b' => .error e b' := by
  simp only [EStateM.run, Functor.map, EStateM.map]
  cases x b <;> rfl

/-- A fault leaves the deframer as it is. -/
@[simp] theorem run_throw {α : Type} (f : Fault) (b : Deframer) :
    (throw f : Routine α).run b = .error f b := rfl

/-- A result that is accepted is handed on, and a violation is a fault. -/
@[simp] theorem run_accept {α : Type} (r : Except Violation α) (b : Deframer) :
    (accept r).run b = match r with
      | .ok a => .ok a b
      | .error v => .error (.violation v) b := by
  cases r <;> rfl

/-- From then on all bytes held count as searched. -/
@[simp] theorem run_noteSearched (b : Deframer) :
    noteSearched.run b = .ok () { b with searched := b.size } := rfl

/-- Where there are enough bytes in front, looking at them is no fault. -/
theorem run_front {b : Deframer} {n : Nat} (h : n ≤ b.size) :
    (front n).run b = .ok (b.buffered.take n) b := by
  simp [front, Nat.not_lt.2 h]

/-- Where there are enough bytes in front, splitting them off is no fault. -/
theorem run_splitTo {b : Deframer} {n : Nat} (h : n ≤ b.size) :
    (splitTo n).run b = .ok (b.buffered.take n) { b with buffered := b.buffered.drop n } := by
  simp [splitTo, run_front h]

/-- Where what counts as searched is there, searching behind it is no fault, and changes nothing. -/
theorem run_search {b : Deframer} (h : b.searched ≤ b.size) (delimiter : UInt8) :
    (search delimiter).run b = .ok (b.find delimiter) b := by
  simp [search, Nat.not_lt.2 h]

/-- The payload that is awaited. -/
theorem run_payload (b : Deframer) (n : Nat) :
    (payload n).run { b with awaited := some n } = .ok (b.takePayload n).1 (b.takePayload n).2 := by
  by_cases hn : b.size < n
  · have hn' : size { b with awaited := some n } < n := hn
    simp [payload, takePayload, hn, hn']
  · have hsplit := run_splitTo (b := { b with awaited := some n }) (Nat.not_lt.1 hn)
    have hn' : ¬ size { b with awaited := some n } < n := hn
    simp [payload, takePayload, hn, hn', hsplit]

/-- Under length prefixes, where a payload is awaited. -/
theorem run_prefixed_awaited {b : Deframer} {n : Nat} (h : b.awaited = some n) :
    prefixed.run b = outcome b b.nextPrefixed := by
  have hrun := run_payload b n
  rw [← h] at hrun
  simp [prefixed, nextPrefixed, h, hrun, outcome]

/-- Under length prefixes, where the separator is missing. -/
theorem run_prefixed_incomplete {b : Deframer} (h : b.searched ≤ b.size) (ha : b.awaited = none)
    (hfind : b.find Framing.separator = none) : prefixed.run b = outcome b b.nextPrefixed := by
  rcases hc : Length.check b.buffered with v | ⟨⟩
  · have hnext : b.nextPrefixed = .error v := by
      simp [nextPrefixed, ha, hfind, hc, bind, Except.bind]
    simp [prefixed, ha, run_search h, hfind, hc, hnext, outcome]
  · have hnext : b.nextPrefixed = .ok (none, { b with searched := b.size }) := by
      simp [nextPrefixed, ha, hfind, hc, bind, Except.bind]
    simp [prefixed, ha, run_search h, hfind, hc, hnext, outcome]

/-- Under length prefixes, where the separator is there. -/
theorem run_prefixed_length {b : Deframer} (h : b.searched ≤ b.size) (ha : b.awaited = none) {pos : Nat}
    (hfind : b.find Framing.separator = some pos) : prefixed.run b = outcome b b.nextPrefixed := by
  have hlt := find_lt hfind
  have hfront := run_front (Nat.le_of_lt hlt)
  rcases hp : Length.parse (b.buffered.take pos) with v | n
  · have hnext : b.nextPrefixed = .error v := by
      simp [nextPrefixed, ha, hfind, hp, bind, Except.bind]
    simp [prefixed, ha, run_search h, hfind, hfront, hp, hnext, outcome]
  · by_cases hlimit : b.limit < n
    · have hnext : b.nextPrefixed = .error (.payloadTooLong n b.limit) := by
        simp [nextPrefixed, ha, hfind, hp, hlimit, bind, Except.bind]
      simp [prefixed, ha, run_search h, hfind, hfront, hp, hlimit, hnext, outcome]
    · let rest : Deframer := { b with buffered := b.buffered.drop (pos + 1), searched := 0 }
      have hnext : b.nextPrefixed = .ok (rest.takePayload n) := by
        simp [nextPrefixed, ha, hfind, hp, hlimit, bind, Except.bind, rest]
      have hsplit : (splitTo (pos + 1)).run b = _ := run_splitTo (Nat.succ_le_of_lt hlt)
      have hpayload := run_payload rest n
      simp only [rest, ha] at hpayload
      simp [prefixed, ha, run_search h, hfind, hfront, hp, hlimit, hnext, outcome, hsplit, rest, hpayload]

/-- Under line ends. -/
theorem run_line {b : Deframer} (h : b.searched ≤ b.size) : line.run b = outcome b b.nextLine := by
  rw [nextLine]
  rcases hfind : b.find Framing.terminator with _ | pos
  · by_cases hlimit : b.limit < b.size
    · simp [line, run_search h, hfind, hlimit, outcome]
    · simp [line, run_search h, hfind, hlimit, outcome]
  · have hlt := find_lt hfind
    by_cases hlimit : b.limit < pos
    · simp [line, run_search h, hfind, hlimit, outcome]
    · have hline := run_splitTo (Nat.le_of_lt hlt)
      have hrest : 1 ≤ size { b with buffered := b.buffered.drop pos } := by
        simp only [size, List.length_drop] at hlt ⊢
        omega
      have hend := run_splitTo hrest
      simp [line, run_search h, hfind, hlimit, outcome, hline, hend]

/-- An attempt in steps comes to the same as an attempt at once: where it succeeds it has changed what is to
be changed, and where the stream breaks its framing it has changed nothing. -/
theorem run_attempt {b : Deframer} (h : b.searched ≤ b.size) : attempt.run b = outcome b b.next := by
  rcases hf : b.framing
  · have hprefixed : prefixed.run b = outcome b b.nextPrefixed := by
      rcases ha : b.awaited with _ | n
      · rcases hfind : b.find Framing.separator with _ | pos
        · exact run_prefixed_incomplete h ha hfind
        · exact run_prefixed_length h ha hfind
      · exact run_prefixed_awaited ha
    simp [attempt, next, hf, hprefixed]
  · simp [attempt, next, hf, run_line h]

/-- An attempt in steps that succeeds comes to the same as an attempt at once. -/
theorem next_of_run {b b' : Deframer} {p? : Option Bytes} (h : attempt.run b = .ok p? b') :
    b.next = .ok (p?, b') := by
  have houtcome : attempt.run b = outcome b b.next := by
    by_cases hsearched : b.searched ≤ b.size
    · exact run_attempt hsearched
    · -- only where a payload is awaited does the place of the search not matter
      have hmissing : ∀ delimiter, (search delimiter).run b = .error .outOfRange b := by
        intro delimiter
        simp [search, Nat.not_le.1 hsearched]
      rcases hf : b.framing
      · rcases ha : b.awaited with _ | n
        · simp [attempt, hf, prefixed, ha, hmissing] at h
        · simp [attempt, next, hf, run_prefixed_awaited ha]
      · simp [attempt, hf, line, hmissing] at h
  rw [houtcome] at h
  unfold outcome at h
  split at h
  · next hnext =>
    cases h
    exact hnext
  · cases h

/-- All payloads that are complete. The ones that were taken out in front of a fault are lost. -/
def takeAll : Routine (List Bytes) := fun b =>
  match _h : attempt.run b with
  | .error f b' => .error f b'
  | .ok none b' => .ok [] b'
  | .ok (some p) b' =>
    match takeAll b' with
    | .error f b'' => .error f b''
    | .ok ps b'' => .ok (p :: ps) b''
termination_by b => b.weight
decreasing_by exact weight_next (next_of_run _h)

/-- Appends bytes and takes all complete payloads out. -/
def push (data : Bytes) : Routine (List Bytes) := do
  modify fun b => b.extend data
  takeAll

end Routine
end FramedCall.Deframer
