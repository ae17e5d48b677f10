import Mathlib.Data.List.Basic
import FramedCall.Framing.Operation
import FramedCall.Proofs.Framing.History

/-!
# Violations last

A deframer that is reached by any operations, some of them refused, is tidy and has the framing and the
limit that it started with (`Deframer.Reached`); so no operation on it asks for bytes that are not there.
Where the stream breaks its framing the deframer stays as it was (`Deframer.perform_next`), and it does so
again with any bytes behind it (`Deframer.Stuck`). Only a new stream helps, and that is as good as a new
deframer: the main statement is `Deframer.violation_lasts_until_cleared`.
-/

namespace FramedCall.Deframer

open Framing (Violation)

/-! ### What operations come to -/

section TakeAll

variable {b b' : Deframer}

/-- A fault of the first attempt ends all. -/
theorem run_takeAll_of_fault {f : Fault} (h : Routine.attempt.run b = .error f b') :
    Routine.takeAll.run b = .error f b' := by
  rw [EStateM.run, Routine.takeAll]
  split <;> simp_all

/-- Where no payload is complete there is one attempt. -/
theorem run_takeAll_of_none (h : Routine.attempt.run b = .ok none b') :
    Routine.takeAll.run b = .ok [] b' := by
  rw [EStateM.run, Routine.takeAll]
  split <;> simp_all

/-- Behind a payload attempts go on, and what they come to has that payload in front. -/
theorem run_takeAll_of_some {p : Bytes} (h : Routine.attempt.run b = .ok (some p) b') :
    Routine.takeAll.run b = match Routine.takeAll.run b' with
      | .error f b'' => .error f b''
      | .ok ps b'' => .ok (p :: ps) b'' := by
  rw [EStateM.run, Routine.takeAll]
  split
  · next hf => cases h.symm.trans hf
  · next hn => cases h.symm.trans hn
  · next hs =>
    cases h.symm.trans hs
    rfl

/-- Taking payloads out in steps comes to the same as taking them out at once. -/
theorem run_takeAll (hb : b.Tidy) :
    Routine.takeAll.run b = match b.drain.violation with
      | none => .ok b.drain.payloads b.drain.rest
      | some v => .error (.violation v) b.drain.rest := by
  have hrun := Routine.run_attempt hb.searched_le
  induction b using drain.induct with
  | case1 b v h =>
    rw [h] at hrun
    rw [drain_of_error h]
    exact run_takeAll_of_fault hrun
  | case2 b b' h =>
    rw [h] at hrun
    rw [drain_of_none h]
    exact run_takeAll_of_none hrun
  | case3 b p b' h ih =>
    have hb' := tidy_next hb h
    rw [h] at hrun
    rw [drain_of_some h, run_takeAll_of_some hrun, ih hb' (Routine.run_attempt hb'.searched_le)]
    rcases hv : b'.drain.violation with _ | v <;> simp [Drained.cons, hv]

end TakeAll

/-- The next payload, or the violation and the deframer as it was. -/
theorem perform_next {b : Deframer} (hb : b.Tidy) :
    b.perform .next = match b.next with
      | .ok (p?, b') => (.payload (.ok p?), b')
      | .error v => (.payload (.error v.error), b) := by
  rw [perform, Routine.perform, Routine.run_attempt hb.searched_le]
  rcases b.next with v | ⟨p?, b'⟩ <;> rfl

/-- All payloads, or the violation behind them. -/
theorem perform_push {b : Deframer} (hb : b.Tidy) (data : Bytes) :
    b.perform (.push data) =
      (.payloads ((b.push data).1.mapError Violation.error), (b.push data).2) := by
  have hrun : (Routine.push data).run b = Routine.takeAll.run (b.extend data) := by
    simp [Routine.push]
  rw [perform, Routine.perform, hrun, run_takeAll (hb.extend data)]
  rcases hv : (b.extend data).drain.violation with _ | v
  · rw [push_of_drain_none hv]
    rfl
  · rw [push_of_drain_some hv]
    rfl

/-! ### Deframers that are reached -/

/-- What operations leave of a deframer with a given framing and limit. -/
structure Reached (framing : Framing) (limit : Nat) (b : Deframer) : Prop where
  /-- What counts as searched has been searched. -/
  tidy : b.Tidy
  /-- The framing is the one it started with. -/
  framing_eq : b.framing = framing
  /-- So is the limit. -/
  limit_eq : b.limit = limit

section Reached

variable {framing : Framing} {limit : Nat} {b b' : Deframer}

/-- A new deframer has been reached. -/
theorem reached_empty (framing : Framing) (limit : Nat) : Reached framing limit (empty framing limit) :=
  ⟨tidy_empty framing limit, rfl, rfl⟩

/-- A deframer that has been reached is one with more bytes, too. -/
theorem Reached.extend (h : Reached framing limit b) (data : Bytes) :
    Reached framing limit (b.extend data) :=
  ⟨h.tidy.extend data, h.framing_eq, h.limit_eq⟩

/-- So it is behind an attempt that meets no violation. -/
theorem Reached.next (h : Reached framing limit b) {p? : Option Bytes} (hnext : b.next = .ok (p?, b')) :
    Reached framing limit b' := by
  obtain ⟨hframing, hlimit⟩ := (attempt_of_next h.tidy hnext).unchanged
  exact ⟨tidy_next h.tidy hnext, hframing.trans h.framing_eq, hlimit.trans h.limit_eq⟩

/-- Taking all payloads out, up to a violation if there is one. -/
theorem Reached.drain (h : Reached framing limit b) : Reached framing limit b.drain.rest := by
  induction b using drain.induct with
  | case1 b v hnext =>
    rw [drain_of_error hnext]
    exact h
  | case2 b b' hnext =>
    rw [drain_of_none hnext]
    exact h.next hnext
  | case3 b p b' hnext ih =>
    rw [drain_of_some hnext]
    exact ih (h.next hnext)

/-- So it is behind a push, refused or not. -/
theorem Reached.push (h : Reached framing limit b) (data : Bytes) :
    Reached framing limit (b.push data).2 := by
  have hrest := (h.extend data).drain
  rcases hv : (b.extend data).drain.violation with _ | v
  · rw [push_of_drain_none hv]
    exact hrest
  · rw [push_of_drain_some hv]
    exact hrest

/-- A new stream is as good as a new deframer. -/
theorem Reached.clear (h : Reached framing limit b) : b.clear = empty framing limit := by
  rw [Deframer.clear, h.framing_eq, h.limit_eq]

/-- One operation. -/
theorem Reached.perform (h : Reached framing limit b) (op : Operation) :
    Reached framing limit (b.perform op).2 := by
  cases op with
  | extend data => exact h.extend data
  | push data =>
    rw [perform_push h.tidy]
    exact h.push data
  | next =>
    rw [perform_next h.tidy]
    rcases hnext : b.next with v | ⟨p?, b'⟩
    · exact h
    · exact h.next hnext
  | finish =>
    show Reached framing limit b.clear
    rw [h.clear]
    exact reached_empty framing limit
  | clear =>
    show Reached framing limit b.clear
    rw [h.clear]
    exact reached_empty framing limit

/-- Any operations. -/
theorem Reached.performAll (h : Reached framing limit b) (ops : List Operation) :
    Reached framing limit (b.performAll ops).2 := by
  induction ops generalizing b with
  | nil => exact h
  | cons op ops ih => exact ih (h.perform op)

end Reached

/-! ### Streams that are broken -/

/-- The stream has broken its framing at the front of what is held. -/
def Stuck (b : Deframer) : Prop :=
  b.Tidy ∧ ∃ v, b.next = .error v

/-- The operations that neither end a stream nor begin one. -/
def Operation.goesOn : Operation → Bool
  | .extend _ | .push _ | .next => true
  | .finish | .clear => false

section Stuck

variable {b : Deframer}

/-- With more bytes at its end a broken stream is still broken. -/
theorem Stuck.extend (h : b.Stuck) (data : Bytes) : (b.extend data).Stuck := by
  obtain ⟨htidy, v, hv⟩ := h
  exact ⟨htidy.extend data, next_extend_error htidy hv data⟩

/-- The next payload is refused, and nothing changes. -/
theorem Stuck.perform_next (h : b.Stuck) :
    ∃ message, b.perform .next = (.payload (.error (.frameSync message)), b) := by
  obtain ⟨htidy, v, hv⟩ := h
  refine ⟨v.message, ?_⟩
  rw [Deframer.perform_next htidy, hv]
  rfl

/-- All payloads are refused, and nothing changes but for the bytes that have come. -/
theorem Stuck.perform_push (h : b.Stuck) (data : Bytes) :
    ∃ message, b.perform (.push data) = (.payloads (.error (.frameSync message)), b.extend data) := by
  obtain ⟨-, v, hv⟩ := h.extend data
  have hdrain := drain_of_error hv
  refine ⟨v.message, ?_⟩
  rw [Deframer.perform_push h.1, push_of_drain_some (by rw [hdrain]), hdrain]
  rfl

/-- An operation that goes on does not help. -/
theorem Stuck.perform (h : b.Stuck) {op : Operation} (hop : op.goesOn = true) : (b.perform op).2.Stuck := by
  cases op with
  | extend data => exact h.extend data
  | push data =>
    obtain ⟨message, hpush⟩ := h.perform_push data
    rw [hpush]
    exact h.extend data
  | next =>
    obtain ⟨message, hnext⟩ := h.perform_next
    rw [hnext]
    exact h
  | finish => cases hop
  | clear => cases hop

/-- Nor do any number of them. -/
theorem Stuck.performAll (h : b.Stuck) {ops : List Operation} (hops : ∀ op ∈ ops, op.goesOn = true) :
    (b.performAll ops).2.Stuck := by
  induction ops generalizing b with
  | nil => exact h
  | cons op ops ih =>
    have hfirst := h.perform (hops op List.mem_cons_self)
    exact ih hfirst fun op' hop' => hops op' (List.mem_cons_of_mem op hop')

end Stuck

/-- Under each framing and limit, behind any operations: an attempt that is refused leaves the deframer as
it was, with the bytes held, their number and the payload that is awaited. From then on each attempt and
each push is refused as a stream out of step, with whatever bytes in between, and gives no payload. The end
of the stream tells how many bytes were held, and behind it, or behind the beginning of a new stream, all
operations have the answers and show the deframer that they have and show on a new one. -/
theorem violation_lasts_until_cleared (framing : Framing) (limit : Nat) (before : List Operation) :
    let fresh := empty framing limit
    let b := (fresh.performAll before).2
    (∀ cause b', b.perform .next = (.payload (.error cause), b') → b' = b ∧
      ∀ between, (∀ op ∈ between, op.goesOn = true) →
        let b₁ := (b.performAll between).2
        (∃ message, (b₁.perform .next).1 = .payload (.error (.frameSync message))) ∧
        ∀ data, ∃ message, (b₁.perform (.push data)).1 = .payloads (.error (.frameSync message))) ∧
      (b.perform .finish).1 = .dropped b.size ∧
      ∀ op ∈ [Operation.finish, Operation.clear], ∀ later,
        (b.perform op).2.performAll later = fresh.performAll later := by
  intro fresh b
  have hb : Reached framing limit b := (reached_empty framing limit).performAll before
  refine ⟨?_, rfl, ?_⟩
  · intro cause b' hnext
    rw [perform_next hb.tidy] at hnext
    rcases hv : b.next with v | ⟨p?, b''⟩
    · rw [hv] at hnext
      cases hnext
      refine ⟨rfl, ?_⟩
      intro between hbetween b₁
      -- stuck is about what the next attempt says, which bytes that come behind do not change
      have hstuck : b₁.Stuck := Stuck.performAll ⟨hb.tidy, v, hv⟩ hbetween
      refine ⟨?_, ?_⟩
      · obtain ⟨message, hmessage⟩ := hstuck.perform_next
        exact ⟨message, by rw [hmessage]⟩
      · intro data
        obtain ⟨message, hmessage⟩ := hstuck.perform_push data
        exact ⟨message, by rw [hmessage]⟩
    · rw [hv] at hnext
      cases hnext
  · intro op hop later
    have hnew : (b.perform op).2 = fresh := by
      rcases List.mem_cons.1 hop with rfl | hop
      · exact hb.clear
      · obtain rfl := List.mem_singleton.1 hop
        exact hb.clear
    rw [hnew]

/-- The stream `1|a2x`, of which the first payload is taken out, with the separator that is missing behind
it, and a new stream. -/
theorem violation_lasts_until_cleared_late_separator :
    let fresh := empty .lengthPrefixed 9
    let b := (fresh.performAll [.extend [49, 124, 97, 50, 120], .next]).2
    let b₁ := (b.performAll [.extend [124], .next, .push [97, 98, 49, 124, 99]]).2
    let later : List Operation := [.push [49, 124, 97], .extend [50], .next]
    b.perform .next = (.payload (.error (.frameSync "invalid byte 0x78 in length prefix")), b) ∧
      (∃ message, (b₁.perform (.push [10])).1 = .payloads (.error (.frameSync message))) ∧
      (b.perform .finish).1 = .dropped 2 ∧
      (b.perform .finish).2.performAll later = fresh.performAll later := by
  intro fresh b b₁ later
  have hrefused : b.perform .next =
      (.payload (.error (.frameSync "invalid byte 0x78 in length prefix")), b) := by rfl
  obtain ⟨hlasts, hdropped, hcleared⟩ := violation_lasts_until_cleared .lengthPrefixed 9
    [.extend [49, 124, 97, 50, 120], .next]
  obtain ⟨-, hbetween⟩ := hlasts _ _ hrefused
  have hpush := (hbetween [.extend [124], .next, .push [97, 98, 49, 124, 99]] (by decide)).2 [10]
  exact ⟨hrefused, hpush, hdropped, hcleared .finish (by decide) later⟩

end FramedCall.Deframer
