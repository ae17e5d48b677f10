import Mathlib.Data.List.Basic
import FramedCall.Client.Operation
import FramedCall.Proofs.Client.Receiving

/-!
# Requests and responses in pairs

A client is asked for one operation after another. Each of them that gets to read takes one frame, the
next one, and no other operation takes any, so the number of those that have read says which frame is
next (`Client.Expects.after`). What an operation comes to then depends on that frame alone
(`Client.Operation.outcome`), and not on what became of those before it. The main statement is
`Client.takes_frame_in_turn`.
-/

namespace FramedCall

open Json (Value Mismatch)

namespace Client

variable {α σ : Type}

namespace Operation

/-! ### What an operation writes and takes -/

/-- The request that an operation writes, if it is one that writes, or why its input cannot be
written. -/
def outgoing : {α : Type} → Operation α → Except CallError (Option Value)
  | _, .send input | _, .exchange input | _, .call _ input => (converted input).map some
  | _, .receive => .ok none
  | _, .command _ name argument => (converted argument).map fun v => some (.array [.string name, v])

/-- The request that an operation writes, if it comes to that. -/
def request? (op : Operation α) : Option Value :=
  op.outgoing.toOption.join

/-- Whether an operation gets to read. -/
def reads : {α : Type} → Operation α → Bool
  | _, .send _ => false
  | _, .receive => true
  | _, .exchange input | _, .call _ input | _, .command _ _ input => input.isOk

/-- What an operation that gets to read makes of what taking a frame gives. -/
def answer (envelope : Envelope) : {α : Type} → Operation α → Awaited Bytes → Awaited α
  | _, .send _, _ => .settled (.ok ())
  | _, .receive, taken => taken.andThen Payload.decode
  | _, .exchange _, taken => (taken.andThen Payload.decode).andThen envelope.unwrap
  | _, .call convert _, taken | _, .command convert _ _, taken =>
    ((taken.andThen Payload.decode).andThen envelope.unwrap).andThen fun response =>
      response.result.bind fun v => converted (convert v)

/-- What an operation comes to. An input that cannot be written is all there is to it. -/
def outcome (envelope : Envelope) (op : Operation α) (taken : Awaited Bytes) : Awaited α :=
  match op.outgoing with
  | .error e => .settled (.error e)
  | .ok _ => op.answer envelope taken

/-- An operation whose input cannot be written leaves the client as it is. -/
theorem perform_of_outgoing_error {op : Operation α} {e : CallError} (h : op.outgoing = .error e)
    (ch : Channel σ) (c : Client σ) : op.perform ch c = (.settled (.error e), c) := by
  cases op with
  | receive => cases h
  | send input | exchange input | call _ input | command _ _ input =>
    cases input with
    | error m =>
      cases h
      rfl
    | ok v => cases h

end Operation

/-! ### One operation -/

/-- What requests put on the wire. -/
def wire (conventions : Conventions) (requests : List Value) : Bytes :=
  requests.flatMap fun v => (conventions.framing.around (Payload.encode v)).bytes

/-- A single request is one frame on the wire. -/
theorem wire_singleton (conventions : Conventions) (v : Value) :
    wire conventions [v] = (conventions.framing.around (Payload.encode v)).bytes :=
  List.flatMap_singleton ..

section Step

variable {ended : Bool} {c : Client (Source × Sink)} {ps : List Bytes}

/-- A request is written, and no frame is taken. -/
theorem Expects.request (h : c.Expects ended ps) (hsink : c.stream.2.IsReliable) (v : Value) :
    ∃ c', c.request .plain v = (.settled (.ok ()), c') ∧
      c.Leaves ended ps (wire c.conventions [v]) c' :=
  ⟨_, request_plain c hsink v, ⟨h.tidy, h.idle, h.arrives⟩, rfl, by rw [wire_singleton]⟩

/-- A response is taken out of the next frame. -/
theorem Expects.receive (h : c.Expects ended ps) :
    ∃ c', c.receive .plain = ((turn ended ps.head?).andThen Payload.decode, c') ∧
      c.Leaves ended ps.tail [] c' := by
  obtain ⟨c', htaken, hleaves⟩ := h.takeFrame
  exact ⟨c', by rw [Client.receive, htaken], hleaves⟩

/-- An exchange writes its request, and its response is in the next frame. -/
theorem Expects.exchange (h : c.Expects ended ps) (hsink : c.stream.2.IsReliable) (v : Value) :
    ∃ c', c.exchange .plain v =
        (((turn ended ps.head?).andThen Payload.decode).andThen c.conventions.envelope.unwrap, c') ∧
      c.Leaves ended ps.tail (wire c.conventions [v]) c' := by
  obtain ⟨c₁, hwritten, hleaves₁⟩ := h.request hsink v
  obtain ⟨c₂, htaken, hleaves₂⟩ := hleaves₁.expects.receive
  have hleaves := hleaves₁.trans hleaves₂
  rw [List.append_nil] at hleaves
  exact ⟨c₂, by rw [Client.exchange, hwritten]; simp only [htaken], hleaves⟩

/-- A call is an exchange whose response is converted. -/
theorem Expects.call (h : c.Expects ended ps) (hsink : c.stream.2.IsReliable)
    (convert : Value → Except Mismatch α) (v : Value) :
    ∃ c', c.call .plain convert v =
        ((((turn ended ps.head?).andThen Payload.decode).andThen c.conventions.envelope.unwrap).andThen
          fun response => response.result.bind fun w => converted (convert w), c') ∧
      c.Leaves ended ps.tail (wire c.conventions [v]) c' := by
  obtain ⟨c', hexchange, hleaves⟩ := h.exchange hsink v
  exact ⟨c', by rw [Client.call, hexchange], hleaves⟩

/-- An operation writes its request, if it has one, and takes the next frame if it gets to read. -/
theorem Expects.perform (h : c.Expects ended ps) (hsink : c.stream.2.IsReliable) (op : Operation α) :
    ∃ c', op.perform .plain c = (op.outcome c.conventions.envelope (turn ended ps.head?), c') ∧
      c.Leaves ended (if op.reads then ps.tail else ps) (wire c.conventions op.request?.toList) c' := by
  cases op with
  | send input =>
    cases input with
    | error m => exact ⟨c, rfl, .refl h⟩
    | ok v => exact h.request hsink v
  | receive => exact h.receive
  | exchange input =>
    cases input with
    | error m => exact ⟨c, rfl, .refl h⟩
    | ok v => exact h.exchange hsink v
  | call convert input =>
    cases input with
    | error m => exact ⟨c, rfl, .refl h⟩
    | ok v => exact h.call hsink convert v
  | command convert name argument =>
    cases argument with
    | error m => exact ⟨c, rfl, .refl h⟩
    | ok v => exact h.call hsink convert (.array [.string name, v])

end Step

/-! ### Operations one after another -/

/-- The operations of a history that get to read have taken one frame each, and those that write have
written their requests in order. -/
theorem Expects.after {ended : Bool} {c : Client (Source × Sink)} {ps : List Bytes}
    (h : c.Expects ended ps) (hsink : c.stream.2.IsReliable) (history : List (Sigma Operation)) :
    c.Leaves ended (ps.drop (history.countP (·.2.reads)))
      (wire c.conventions (history.filterMap (·.2.request?))) (c.after .plain history) := by
  induction history generalizing c ps with
  | nil => exact .refl h
  | cons op history ih =>
    obtain ⟨c', hperform, hleaves⟩ := h.perform hsink op.2
    have hrest := ih hleaves.expects (hleaves.sink ▸ hsink.push _)
    rw [hleaves.conventions] at hrest
    have hafter : c.after .plain (op :: history) = c'.after .plain history := by
      rw [Client.after, List.foldl_cons, hperform]
      rfl
    -- one frame less is to come for each operation that reads
    have hdrop : (if op.2.reads then ps.tail else ps).drop (history.countP (·.2.reads)) =
        ps.drop ((op :: history).countP (·.2.reads)) := by
      rw [List.countP_cons]
      split
      · rw [List.drop_tail]
      · rw [Nat.add_zero]
    have hwire : wire c.conventions ((op :: history).filterMap (·.2.request?)) =
        wire c.conventions op.2.request?.toList ++ wire c.conventions (history.filterMap (·.2.request?)) := by
      rw [List.filterMap_eq_flatMap_toList, List.flatMap_cons, ← List.filterMap_eq_flatMap_toList, wire,
        List.flatMap_append]
      rfl
    rw [hafter, hwire, ← hdrop]
    exact hleaves.trans hrest

/-- Requests are written as their frames. -/
theorem exists_frames (conventions : Conventions) (requests : List Value) :
    ∃ frames : List Bytes, requests.map (fun v => conventions.framing.frame (Payload.encode v)) =
      frames.map .ok ∧ wire conventions requests = frames.flatten := by
  refine ⟨requests.map fun v => (conventions.framing.around (Payload.encode v)).bytes, ?_, rfl⟩
  rw [List.map_map]
  exact List.map_congr_left fun v _ => frame_encode conventions.framing v

/-- For every stream of bytes without a violation, in any pieces, that ends or brings no more for now, a
client that can write, and every history of operations on it. The bytes that have been written are the
frames of the requests whose inputs can be written, in order. The next operation comes to what it makes
of one frame of the stream, the one whose number is the number of operations that have got to read, or of
the end of the stream if there are not that many; an operation whose input cannot be written leaves the
client as it is. -/
theorem takes_frame_in_turn {conventions : Conventions} {sink : Sink} (hsink : sink.IsReliable)
    {pieces : List Bytes} (hviolation : (conventions.arriving pieces.flatten).violation = none)
    (ended : Bool) (history : List (Sigma Operation)) (op : Operation α) :
    let c := (start conventions (arriving pieces ended, sink)).after .plain history
    (∃ frames : List Bytes,
      (history.filterMap (·.2.request?)).map (fun v => conventions.framing.frame (Payload.encode v)) =
          frames.map .ok ∧
        c.stream.2.taken = sink.taken ++ frames.flatten) ∧
      (op.perform .plain c).1 = op.outcome conventions.envelope (turn ended
        (conventions.arriving pieces.flatten).payloads[history.countP (·.2.reads)]?) ∧
      ∀ e, op.outgoing = .error e → op.perform .plain c = (.settled (.error e), c) := by
  intro c
  have hstart : (start conventions (arriving pieces ended, sink)).Expects ended
      (conventions.arriving pieces.flatten).payloads := expects_start conventions ended sink rfl hviolation
  have hleaves := hstart.after hsink history
  have hreliable : c.stream.2.IsReliable := hleaves.sink ▸ hsink.push _
  obtain ⟨c', hperform, -⟩ := hleaves.expects.perform hreliable op
  refine ⟨?_, ?_, ?_⟩
  · obtain ⟨frames, hframes, hflatten⟩ := exists_frames conventions (history.filterMap (·.2.request?))
    refine ⟨frames, hframes, ?_⟩
    rw [← hflatten, hleaves.sink]
    rfl
  · rw [hperform, hleaves.conventions, List.head?_drop]
    rfl
  · intro e he
    exact Operation.perform_of_outgoing_error he .plain c

/-- Two lines and a part of a third, behind a request, an input that cannot be written and a first
response. -/
theorem takes_frame_in_turn_second :
    let conventions : Conventions := ⟨.newline, .raw⟩
    let pieces : List Bytes := [[55, 10, 56], [10, 57]]
    let history : List (Sigma Operation) :=
      [⟨_, .send (.ok .null)⟩, ⟨_, .exchange (.error .keyNotString)⟩, ⟨_, .receive⟩]
    let c := (start conventions (arriving pieces true, .unlimited)).after .plain history
    Sink.unlimited.IsReliable ∧ (conventions.arriving pieces.flatten).violation = none ∧
      c.stream.2.taken = [110, 117, 108, 108, 10] ∧
      ((Operation.exchange (.ok .null)).perform .plain c).1 =
        .settled (.ok (.ok (.number (.ofInt 8)))) := by
  intro conventions pieces history c
  let b : Deframer := .empty .newline Deframer.standardLimit
  have hfirst : (b.extend [55, 10, 56, 10, 57]).next = .ok (some [55], b.extend [56, 10, 57]) := rfl
  have hsecond : (b.extend [56, 10, 57]).next = .ok (some [56], b.extend [57]) := rfl
  have hthird : (b.extend [57]).next = .ok (none, { b.extend [57] with searched := 1 }) := rfl
  have hdrain : conventions.arriving pieces.flatten =
      ⟨[[55], [56]], none, { b.extend [57] with searched := 1 }⟩ := by
    show (b.extend [55, 10, 56, 10, 57]).drain = _
    rw [Deframer.drain_of_some hfirst, Deframer.drain_of_some hsecond, Deframer.drain_of_none hthird]
    rfl
  have hviolation : (conventions.arriving pieces.flatten).violation = none := by rw [hdrain]
  have hsink := Sink.isReliable_unlimited
  obtain ⟨⟨frames, hframes, htaken⟩, hnext, -⟩ :=
    takes_frame_in_turn hsink hviolation true history (.exchange (.ok .null))
  have hwritten : history.filterMap (·.2.request?) = [.null] := rfl
  have hframe : conventions.framing.frame (Payload.encode .null) = .ok [110, 117, 108, 108, 10] := by
    decide +kernel
  refine ⟨hsink, hviolation, ?_, ?_⟩
  · rw [hwritten, List.map_singleton, hframe] at hframes
    obtain rfl : frames = [[110, 117, 108, 108, 10]] :=
      List.map_injective_iff.mpr (fun _ _ h => by injection h) hframes.symm
    exact htaken
  · rw [hnext, hdrain]
    rfl

end Client
end FramedCall
