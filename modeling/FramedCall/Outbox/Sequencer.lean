import FramedCall.Settlement
import FramedCall.Keyed

/-!
# The order of responses

Responses are written in the order of their requests, or as they come. In the first case a
settlement that comes early is held until every one before it has come. `Sequencer.add` says which
settlements a new one releases; `Sequencer.giveUp` no longer waits for the missing ones.
-/

namespace FramedCall

/-- The order in which responses are written. -/
inductive DeliveryOrder where
  /-- In the order of the requests. -/
  | ordered
  /-- As handlers settle. -/
  | unordered
deriving DecidableEq, Repr, Inhabited

namespace DeliveryOrder

/-- The order of a pipe for which none is chosen. -/
def standard : DeliveryOrder := .ordered

/-- The name of an order. -/
def name : DeliveryOrder → String
  | .ordered => "ordered"
  | .unordered => "unordered"

/-- The order with the given name. -/
def named (s : String) : Except CallError DeliveryOrder :=
  if s = ordered.name then .ok .ordered
  else if s = unordered.name then .ok .unordered
  else .error (.config s!"unknown response order: {s}")

end DeliveryOrder

/-- The settlements that wait for earlier ones. -/
structure Sequencer where
  /-- The order in which settlements are released. -/
  order : DeliveryOrder
  /-- The request whose settlement is released next. -/
  next : Nat
  /-- The settlements that came early, by request. -/
  held : List (Nat × Settlement)
deriving DecidableEq, Repr

namespace Sequencer

/-- Nothing has come yet. -/
def start (order : DeliveryOrder) : Sequencer := ⟨order, 0, []⟩

/-- The held settlements from `next` on without a gap, the request behind them, and those still
held. Held settlements below `next` stay where they are. -/
def release (next : Nat) : List (Nat × Settlement) →
    List Settlement × Nat × List (Nat × Settlement)
  | [] => ([], next, [])
  | (seq, c) :: held =>
    if seq = next then
      let (out, next', held') := release (next + 1) held
      (c :: out, next', held')
    else if seq < next then
      let (out, next', held') := release next held
      (out, next', (seq, c) :: held')
    else ([], next, (seq, c) :: held)

/-- One more settlement: those that can now be written, in order, and those still held. A held one
of the same request is replaced. -/
def add (s : Sequencer) (c : Settlement) : List Settlement × Sequencer :=
  match s.order with
  | .unordered => ([c], s)
  | .ordered =>
    if c.seq = s.next then
      let (out, next, held) := release (s.next + 1) s.held
      (c :: out, { s with next, held })
    else ([], { s with held := Keyed.insert c.seq c s.held })

/-- No more settlements come: all that are held, in the order of their requests. -/
def giveUp (s : Sequencer) : List Settlement × Sequencer :=
  (s.held.map (·.2), { s with held := [] })

/-- Held settlements are released or stay held. -/
theorem length_release (next : Nat) (held : List (Nat × Settlement)) :
    (release next held).1.length + (release next held).2.2.length = held.length := by
  induction held generalizing next with
  | nil => rfl
  | cons e held ih =>
    obtain ⟨seq, c⟩ := e
    simp only [release]
    split
    · have := ih (next + 1)
      generalize release (next + 1) held = r at this ⊢
      obtain ⟨out, next', held'⟩ := r
      simp only [List.length_cons] at this ⊢
      omega
    · split
      · have := ih next
        generalize release next held = r at this ⊢
        obtain ⟨out, next', held'⟩ := r
        simp only [List.length_cons] at this ⊢
        omega
      · simp

/-- What a new settlement releases and what is still held are no more than what was held and the new
one. -/
theorem length_add_le (s : Sequencer) (c : Settlement) :
    (s.add c).1.length + (s.add c).2.held.length ≤ s.held.length + 1 := by
  unfold add
  split
  · simp only [List.length_singleton]
    omega
  · split
    · have := length_release (s.next + 1) s.held
      generalize release (s.next + 1) s.held = r at this ⊢
      obtain ⟨out, next', held'⟩ := r
      simp only [List.length_cons] at this ⊢
      omega
    · simpa using Keyed.length_insert_le c.seq c s.held

end Sequencer
end FramedCall
