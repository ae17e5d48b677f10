import Mathlib.Data.List.Basic
import FramedCall.Proofs.Framing.Violations

/-!
# Searching from the front

A deframer notes how many bytes it has searched, and searches on behind them. That only saves work: a
`Rescanner` holds the same bytes without such a note and searches from the first byte at every attempt,
and under any operations, also behind an error, both have the same answers and show the same of
themselves. The main statement is `Deframer.answers_as_rescanner`.

The proof forgets the note (`Deframer.forget`). In a tidy deframer that changes nothing about an attempt
(`Deframer.next_forget`), and so nothing about any operation (`Deframer.perform_forget`).
-/

namespace FramedCall

open Framing (Violation Length.check Length.parse)

/-- The bytes of a stream that do not make up a whole frame yet, and no note of what has been searched. -/
structure Rescanner where
  /-- How frames are told apart. -/
  framing : Framing
  /-- The size of the largest accepted payload. -/
  limit : Nat
  /-- The bytes held. -/
  buffered : Bytes
  /-- The length of the payload that is awaited, once its length has been taken out. -/
  awaited : Option Nat
deriving DecidableEq, Repr

namespace Rescanner

/-- A buffer at the start of a stream. -/
def empty (framing : Framing) (limit : Nat) : Rescanner :=
  ⟨framing, limit, [], none⟩

/-- The number of bytes held. -/
def size (b : Rescanner) : Nat :=
  b.buffered.length

/-- What the buffer shows of itself. -/
def view (b : Rescanner) : Deframer.View :=
  ⟨b.size, b.buffered.isEmpty, b.awaited⟩

/-- Appends bytes and takes nothing out. -/
def extend (b : Rescanner) (data : Bytes) : Rescanner :=
  { b with buffered := b.buffered ++ data }

/-- The place of the first delimiter, searched for from the first byte. -/
def find (b : Rescanner) (delimiter : UInt8) : Option Nat :=
  b.buffered.findIdx? (· == delimiter)

/-- The payload of `n` bytes, or the buffer that awaits it. -/
def takePayload (b : Rescanner) (n : Nat) : Option Bytes × Rescanner :=
  if b.size < n then (none, { b with awaited := some n })
  else (some (b.buffered.take n), { b with buffered := b.buffered.drop n, awaited := none })

/-- The next payload behind its length. -/
def nextPrefixed (b : Rescanner) : Except Violation (Option Bytes × Rescanner) :=
  match b.awaited with
  | some n => .ok (b.takePayload n)
  | none =>
    match b.find Framing.separator with
    | none => do
      Length.check b.buffered
      .ok (none, b)
    | some pos => do
      let n ← Length.parse (b.buffered.take pos)
      if b.limit < n then .error (.payloadTooLong n b.limit)
      else .ok (takePayload { b with buffered := b.buffered.drop (pos + 1) } n)

/-- The next line. -/
def nextLine (b : Rescanner) : Except Violation (Option Bytes × Rescanner) :=
  match b.find Framing.terminator with
  | none => if b.limit < b.size then .error (.lineTooLong b.limit) else .ok (none, b)
  | some pos =>
    if b.limit < pos then .error (.lineTooLong b.limit)
    else .ok (some (b.buffered.take pos), { b with buffered := b.buffered.drop (pos + 1) })

/-- The next payload, if it is complete. -/
def next (b : Rescanner) : Except Violation (Option Bytes × Rescanner) :=
  match b.framing with
  | .lengthPrefixed => b.nextPrefixed
  | .newline => b.nextLine

end Rescanner

namespace Deframer

/-! ### One attempt -/

/-- The deframer without its note. -/
def forget (b : Deframer) : Rescanner :=
  ⟨b.framing, b.limit, b.buffered, b.awaited⟩

/-- What an attempt gives, without the note. -/
def forgetRest (e : Extraction) : Option Bytes × Rescanner :=
  (e.1, e.2.forget)

/-- Taking a payload out makes no use of the note. -/
theorem takePayload_forget (b : Deframer) (n : Nat) :
    b.forget.takePayload n = forgetRest (b.takePayload n) := by
  unfold takePayload Rescanner.takePayload
  by_cases hn : b.size < n
  · have hn' : b.forget.size < n := hn
    rw [if_pos hn, if_pos hn']
    rfl
  · have hn' : ¬ b.forget.size < n := hn
    rw [if_neg hn, if_neg hn']
    rfl

/-- Behind lengths, an attempt makes use of the note only to find the bar. -/
theorem nextPrefixed_forget {b : Deframer}
    (h : b.find Framing.separator = b.forget.find Framing.separator) :
    b.forget.nextPrefixed = b.nextPrefixed.map forgetRest := by
  unfold nextPrefixed Rescanner.nextPrefixed
  rw [← h]
  obtain ⟨framing, limit, buffered, _ | n, searched⟩ := b
  · rcases find _ Framing.separator with _ | pos
    · show (Length.check buffered).bind _ = ((Length.check buffered).bind _).map forgetRest
      rcases Length.check buffered with v | ⟨⟩
      · rfl
      · rfl
    · show (Length.parse (buffered.take pos)).bind _ =
        ((Length.parse (buffered.take pos)).bind _).map forgetRest
      rcases Length.parse (buffered.take pos) with v | n
      · rfl
      · have hpayload := takePayload_forget ⟨framing, limit, buffered.drop (pos + 1), none, 0⟩ n
        show (if limit < n then _ else _) = Except.map forgetRest (if limit < n then _ else _)
        split
        · rfl
        · exact congrArg Except.ok hpayload
  · exact congrArg Except.ok (takePayload_forget _ n)

/-- On lines, an attempt makes use of the note only to find the line feed. -/
theorem nextLine_forget {b : Deframer}
    (h : b.find Framing.terminator = b.forget.find Framing.terminator) :
    b.forget.nextLine = b.nextLine.map forgetRest := by
  unfold nextLine Rescanner.nextLine
  rw [← h]
  have hlimit : b.forget.limit = b.limit := rfl
  have hsize : b.forget.size = b.size := rfl
  rcases b.find Framing.terminator with _ | pos
  · simp only [hlimit, hsize, Option.getD_none]
    split
    · rfl
    · rfl
  · simp only [hlimit, Option.getD_some]
    split
    · rfl
    · rfl

/-- Where a search behind the note finds what one from the front finds, the note does not matter. -/
theorem next_forget_of_find {b : Deframer}
    (h : b.find b.framing.delimiter = b.forget.find b.framing.delimiter) :
    b.forget.next = b.next.map forgetRest := by
  unfold next Rescanner.next
  have hframing : b.forget.framing = b.framing := rfl
  rw [hframing]
  rcases hf : b.framing
  · rw [hf] at h
    exact nextPrefixed_forget h
  · rw [hf] at h
    exact nextLine_forget h

/-- In a tidy deframer the note does not matter. -/
theorem next_forget {b : Deframer} (hb : b.Tidy) : b.forget.next = b.next.map forgetRest :=
  next_forget_of_find (find_delimiter hb)

end Deframer

/-! ### All payloads -/

namespace Rescanner

/-- A size that every payload taken out lowers, the empty one too. -/
def weight (b : Rescanner) : Nat :=
  2 * b.size + (if b.awaited.isSome then 1 else 0)

/-- A payload that is taken out lowers the weight, as it does with a note. -/
theorem weight_next {b b' : Rescanner} {p : Bytes} (h : b.next = .ok (some p, b')) :
    b'.weight < b.weight := by
  -- the same buffer with a note that says nothing
  let noted : Deframer := ⟨b.framing, b.limit, b.buffered, b.awaited, 0⟩
  have hfind : noted.find noted.framing.delimiter = noted.forget.find noted.framing.delimiter := by
    simp [Deframer.find, find, noted, Deframer.forget]
  have hnext : b.next = noted.next.map Deframer.forgetRest := Deframer.next_forget_of_find hfind
  rw [h] at hnext
  rcases hn : noted.next with v | ⟨p?, b₁⟩
  · rw [hn] at hnext
    cases hnext
  · rw [hn] at hnext
    cases hnext
    exact Deframer.weight_next hn

/-- Takes payloads out until none is complete. The ones in front of a violation are lost. -/
def takeAll (b : Rescanner) : Except Violation (List Bytes) × Rescanner :=
  match _h : b.next with
  | .error v => (.error v, b)
  | .ok (none, b') => (.ok [], b')
  | .ok (some p, b') => (b'.takeAll.1.map (p :: ·), b'.takeAll.2)
termination_by b.weight
decreasing_by all_goals exact weight_next _h

/-- Appends bytes and takes all complete payloads out. -/
def push (b : Rescanner) (data : Bytes) : Except Violation (List Bytes) × Rescanner :=
  (b.extend data).takeAll

/-- One operation. -/
def perform (b : Rescanner) : Deframer.Operation → Deframer.Answer × Rescanner
  | .extend data => (.done, b.extend data)
  | .push data => (.payloads ((b.push data).1.mapError (·.error)), (b.push data).2)
  | .next =>
    match b.next with
    | .ok (p?, b') => (.payload (.ok p?), b')
    | .error v => (.payload (.error v.error), b)
  | .finish => (.dropped b.size, empty b.framing b.limit)
  | .clear => (.done, empty b.framing b.limit)

/-- Operations one after another, each with its answer and what the buffer shows behind it. -/
def performAll (b : Rescanner) : List Deframer.Operation → List (Deframer.Answer × Deframer.View) × Rescanner
  | [] => ([], b)
  | op :: ops =>
    let (answer, b') := b.perform op
    let (answers, b'') := b'.performAll ops
    ((answer, b'.view) :: answers, b'')

/-- A violation at the front is the answer. -/
theorem takeAll_of_error {b : Rescanner} {v : Violation} (h : b.next = .error v) :
    b.takeAll = (.error v, b) := by
  rw [takeAll]
  split <;> simp_all

/-- Where no payload is complete there are none. -/
theorem takeAll_of_none {b b' : Rescanner} (h : b.next = .ok (none, b')) : b.takeAll = (.ok [], b') := by
  rw [takeAll]
  split <;> simp_all

/-- The first payload is taken in front of the others, unless they end in a violation. -/
theorem takeAll_of_some {b b' : Rescanner} {p : Bytes} (h : b.next = .ok (some p, b')) :
    b.takeAll = (b'.takeAll.1.map (p :: ·), b'.takeAll.2) := by
  rw [takeAll]
  split <;> simp_all

end Rescanner

namespace Deframer

/-- In a tidy deframer the note does not matter for all payloads either. -/
theorem takeAll_forget {b : Deframer} (hb : b.Tidy) :
    b.forget.takeAll = (match b.drain.violation with
      | none => .ok b.drain.payloads
      | some v => .error v, b.drain.rest.forget) := by
  induction b using drain.induct with
  | case1 b v h =>
    have hnext := next_forget hb
    rw [h] at hnext
    rw [drain_of_error h]
    exact Rescanner.takeAll_of_error hnext
  | case2 b b' h =>
    have hnext := next_forget hb
    rw [h] at hnext
    rw [drain_of_none h]
    exact Rescanner.takeAll_of_none hnext
  | case3 b p b' h ih =>
    have hnext := next_forget hb
    rw [h] at hnext
    rw [drain_of_some h, Rescanner.takeAll_of_some hnext]
    show (b'.forget.takeAll.1.map _, b'.forget.takeAll.2) = _
    rw [ih (tidy_next hb h)]
    rcases hv : b'.drain.violation with _ | v
    · simp [Drained.cons, hv, Except.map]
    · simp [Drained.cons, hv, Except.map]

/-- A push gives the same without the note. -/
theorem push_forget {b : Deframer} (hb : b.Tidy) (data : Bytes) :
    b.forget.push data = ((b.push data).1, (b.push data).2.forget) := by
  have hall : b.forget.push data = _ := takeAll_forget (hb.extend data)
  rw [hall]
  rcases hv : (b.extend data).drain.violation with _ | v
  · rw [push_of_drain_none hv]
  · rw [push_of_drain_some hv]

/-! ### Any operations -/

/-- In a tidy deframer the note does not matter for any operation. -/
theorem perform_forget {b : Deframer} (hb : b.Tidy) (op : Operation) :
    b.forget.perform op = ((b.perform op).1, (b.perform op).2.forget) := by
  cases op with
  | extend data => rfl
  | push data =>
    rw [perform_push hb, Rescanner.perform, push_forget hb]
  | next =>
    rw [perform_next hb, Rescanner.perform, next_forget hb]
    rcases b.next with v | ⟨p?, b'⟩
    · rfl
    · rfl
  | finish => rfl
  | clear => rfl

/-- Operations that lead to one deframer after another lead to the same ones without their notes. -/
theorem Reached.performAll_forget {framing : Framing} {limit : Nat} {b : Deframer}
    (h : Reached framing limit b) (ops : List Operation) :
    b.forget.performAll ops = ((b.performAll ops).1, (b.performAll ops).2.forget) := by
  induction ops generalizing b with
  | nil => rfl
  | cons op ops ih =>
    have hfirst := perform_forget h.tidy op
    have hrest := ih (h.perform op)
    simp only [Rescanner.performAll, hfirst, hrest]
    rfl

/-! ### What operations keep -/

section

variable {framing : Framing} {limit : Nat} {b : Deframer} {P : Deframer → Prop}

/-- What an attempt keeps, taking all payloads out keeps. -/
theorem Reached.drain_keeps (h : Reached framing limit b) (hP : P b)
    (hnext : ∀ {b b' p?}, Reached framing limit b → P b → b.next = .ok (p?, b') → P b') :
    P b.drain.rest := by
  induction b using drain.induct with
  | case1 b v hv =>
    rw [drain_of_error hv]
    exact hP
  | case2 b b' hn =>
    rw [drain_of_none hn]
    exact hnext h hP hn
  | case3 b p b' hs ih =>
    rw [drain_of_some hs]
    exact ih (h.next hs) (hnext h hP hs)

/-- What holds of a new deframer, and is kept by bytes that are appended and by each attempt, each
operation keeps. -/
theorem Reached.perform_keeps (h : Reached framing limit b) (hP : P b)
    (hempty : P (empty framing limit)) (hextend : ∀ {b} data, P b → P (b.extend data))
    (hnext : ∀ {b b' p?}, Reached framing limit b → P b → b.next = .ok (p?, b') → P b')
    (op : Operation) : P (b.perform op).2 := by
  cases op with
  | extend data => exact hextend data hP
  | push data =>
    -- a push takes out what there is one attempt after the other, until there is a violation
    have hrest := (h.extend data).drain_keeps (hextend data hP) hnext
    rw [perform_push h.tidy]
    rcases hv : (b.extend data).drain.violation with _ | v
    · rwa [push_of_drain_none hv]
    · rwa [push_of_drain_some hv]
  | next =>
    rw [perform_next h.tidy]
    rcases hn : b.next with v | ⟨p?, b'⟩
    · exact hP
    · exact hnext h hP hn
  | finish =>
    show P b.clear
    rwa [h.clear]
  | clear =>
    show P b.clear
    rwa [h.clear]

/-- What each operation keeps holds behind any number of them; by induction on them. -/
theorem Reached.performAll_keeps (h : Reached framing limit b) (hP : P b)
    (hempty : P (empty framing limit)) (hextend : ∀ {b} data, P b → P (b.extend data))
    (hnext : ∀ {b b' p?}, Reached framing limit b → P b → b.next = .ok (p?, b') → P b')
    (ops : List Operation) : P (b.performAll ops).2 := by
  induction ops generalizing b with
  | nil => exact hP
  | cons op ops ih => exact ih (h.perform op) (h.perform_keeps hP hempty hextend hnext op)

/-- No operation on a tidy deframer asks for bytes that are not there. -/
theorem perform_ne_crashed (hb : b.Tidy) (op : Operation) : (b.perform op).1 ≠ .crashed := by
  intro hcrashed
  cases op with
  | extend data => cases hcrashed
  | push data =>
    rw [perform_push hb] at hcrashed
    cases hcrashed
  | next =>
    rw [perform_next hb] at hcrashed
    rcases hn : b.next with v | ⟨p?, b'⟩
    · rw [hn] at hcrashed
      cases hcrashed
    · rw [hn] at hcrashed
      cases hcrashed
  | finish => cases hcrashed
  | clear => cases hcrashed

end

/-- Under each framing and limit, any operations on a new deframer have the answers that they have on a
buffer that searches from the first byte each time, and show the same of it: the number of bytes held,
whether there are none, and the payload that is awaited. Behind them no more counts as searched than is
held, and there is no delimiter in it; nothing does where a payload is awaited, and that is one within the
limit. And whatever is done next, no bytes are asked for that are not there. -/
theorem answers_as_rescanner (framing : Framing) (limit : Nat) (ops : List Operation) :
    let b := ((empty framing limit).performAll ops).2
    ((empty framing limit).performAll ops).1 = ((Rescanner.empty framing limit).performAll ops).1 ∧
      b.searched ≤ b.size ∧ framing.delimiter ∉ b.buffered.take b.searched ∧
      (b.awaited.isSome → b.searched = 0) ∧ (∀ n ∈ b.awaited, n ≤ limit) ∧
      ∀ op, (b.perform op).1 ≠ .crashed := by
  intro b
  have hnew := reached_empty framing limit
  have hb : Reached framing limit b := hnew.performAll ops
  have hsame := hnew.performAll_forget ops
  -- the limit does not change, and a length above it is refused before its payload is awaited
  have hwithin : ∀ n ∈ b.awaited, n ≤ b.limit := by
    apply hnew.performAll_keeps (P := fun b => ∀ n ∈ b.awaited, n ≤ b.limit)
    · simp [empty]
    · simp [empty]
    · intro b data hP
      exact hP
    · intro b b' p? h hP hn
      exact ((attempt_of_next h.tidy hn).admits hP).2
  refine ⟨(congrArg Prod.fst hsame).symm, hb.tidy.searched_le, ?_, ?_, ?_, perform_ne_crashed hb.tidy⟩
  · intro hmem
    apply hb.tidy.searched_ne _ hmem
    rw [hb.framing_eq]
  · intro hawaited
    exact (hb.tidy.awaited hawaited).2
  · rwa [hb.limit_eq] at hwithin

/-- A length in two pieces, `1` and `2|`, is too long; behind the end of that stream a payload of three
bytes is awaited. -/
theorem answers_as_rescanner_behind_violation :
    let ops : List Operation := [.extend [49], .next, .extend [50, 124], .next, .next, .finish,
      .extend [51, 124, 97], .next]
    let answers := ((empty .lengthPrefixed 9).performAll ops).1
    let b := ((empty .lengthPrefixed 9).performAll ops).2
    answers = ((Rescanner.empty .lengthPrefixed 9).performAll ops).1 ∧
      answers.map (·.2) = [⟨1, false, none⟩, ⟨1, false, none⟩, ⟨3, false, none⟩, ⟨3, false, none⟩,
        ⟨3, false, none⟩, ⟨0, true, none⟩, ⟨3, false, none⟩, ⟨1, false, some 3⟩] ∧
      b.awaited = some 3 ∧ b.searched = 0 ∧ 3 ≤ 9 := by
  intro ops answers b
  have hawaited : b.awaited = some 3 := by rfl
  obtain ⟨hsame, -, -, hsearched, hwithin, -⟩ := answers_as_rescanner .lengthPrefixed 9 ops
  exact ⟨hsame, by rfl, hawaited, hsearched (by rw [hawaited]; rfl), hwithin 3 hawaited⟩

end Deframer
end FramedCall
