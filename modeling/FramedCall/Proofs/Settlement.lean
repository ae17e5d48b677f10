import FramedCall.Proofs.Framing.RoundTrip
import FramedCall.Proofs.Payload
import FramedCall.Settlement

/-!
# What settlements hold

A settlement has the number of its request (`Conventions.seq_settle`). Any value can be framed
(`Conventions.frame_eq`), so that each outcome has just what the conventions have for it: one frame where
outcomes are tagged (`Conventions.settle_wrapped`), and where they are not a frame for a success and a
message for the log for a failure (`Conventions.settle_raw`). `Conventions.one_frame_or_diagnostic` is for
both.
-/

namespace FramedCall.Conventions

open Json (Value)

/-- The settlement of a failure bears the number of its request. -/
theorem seq_settleFailure (c : Conventions) (seq : Nat) (message : String) :
    (c.settleFailure seq message).seq = seq := by
  unfold settleFailure
  split
  · rfl
  · split <;> rfl

/-- So does that of any outcome. -/
theorem seq_settle (c : Conventions) (seq : Nat) (outcome : Except CallError Value) :
    (c.settle seq outcome).seq = seq := by
  unfold settle
  split
  · split
    · rfl
    · exact c.seq_settleFailure seq _
  · exact c.seq_settleFailure seq _

/-- Any value can be framed. -/
theorem frame_eq (c : Conventions) (v : Value) :
    c.frame v = .ok (c.framing.around (Payload.encode v)) := by
  rw [frame, Frame.ofPayload, Payload.validate_encode]
  rfl

/-- The settlement of an outcome, where outcomes are not tagged. -/
theorem settle_raw {c : Conventions} (h : c.envelope = .raw) (seq : Nat) (outcome : Except CallError Value) :
    c.settle seq outcome = match outcome with
      | .ok v => ⟨seq, some (c.framing.around (Payload.encode v)), none⟩
      | .error e => ⟨seq, none, some e.message⟩ := by
  cases outcome with
  | ok v => simp only [settle, h, Envelope.wrapSuccess, frame_eq]
  | error e => simp only [settle, settleFailure, h, Envelope.wrapFailure]

/-- The settlement of an outcome, where outcomes are tagged. -/
theorem settle_wrapped {c : Conventions} {t : Tagging} (h : c.envelope = .tagged t) (seq : Nat)
    (outcome : Except CallError Value) :
    c.settle seq outcome = ⟨seq, some (c.framing.around (Payload.encode (match outcome with
      | .ok v => t.wrap t.ok v
      | .error e => t.wrap t.err (.string e.message)))), none⟩ := by
  cases outcome with
  | ok v => simp only [settle, h, Envelope.wrapSuccess, frame_eq]
  | error e => simp only [settle, settleFailure, h, Envelope.wrapFailure, frame_eq]

/-- The settlement of any outcome is one frame or one message. Where outcomes are tagged, with any two tags
at all, it is the frame of the value or of the wording of the error, behind its tag. Where they are not, it
is the frame of the value or, without a frame, the wording of the error. No value is refused on the way,
whatever its strings, keys and numbers are: a payload has no byte below U+0020, and so no line feed. -/
theorem one_frame_or_diagnostic (c : Conventions) (seq : Nat) (outcome : Except CallError Value) :
    c.settle seq outcome =
        (match c.envelope, outcome with
        | .tagged t, .ok v => ⟨seq, some (c.framing.around (Payload.encode (t.wrap t.ok v))), none⟩
        | .tagged t, .error e =>
          ⟨seq, some (c.framing.around (Payload.encode (t.wrap t.err (.string e.message)))), none⟩
        | .raw, .ok v => ⟨seq, some (c.framing.around (Payload.encode v)), none⟩
        | .raw, .error e => ⟨seq, none, some e.message⟩) ∧
      (∀ v b, b ∈ Payload.encode v → 0x20 ≤ b.toNat) ∧
      (∀ v, c.framing.validate (Payload.encode v) = .ok ()) ∧
      ∀ v, c.frame v = .ok (c.framing.around (Payload.encode v)) := by
  refine ⟨?_, ?_, ?_, c.frame_eq⟩
  · rcases h : c.envelope with _ | t
    · rw [settle_raw h]
      cases outcome <;> rfl
    · rw [settle_wrapped h]
      cases outcome <;> rfl
  · intro v b hb
    exact Payload.le_toNat_of_mem_encode hb
  · intro v
    exact Payload.validate_encode c.framing v

/-- A line with control characters in both tags and in the message of the error. -/
theorem one_frame_or_diagnostic_escaped :
    let t : Tagging := ⟨.pair, "\n", "\r"⟩
    let c : Conventions := ⟨.newline, .tagged t⟩
    let payload := Text.encode "[\"\\r\",\"a\\u0001\\nb\"]"
    c.settle 7 (.error (.handler "a\u0001\nb")) = ⟨7, some ⟨[], payload, [10]⟩, none⟩ ∧
      ∀ b ∈ payload, 0x20 ≤ b.toNat := by
  intro t c payload
  have hpayload : payload = Payload.encode (t.wrap t.err (.string "a\u0001\nb")) := by
    decide +kernel
  obtain ⟨hsettle, hcontrol, -⟩ := one_frame_or_diagnostic c 7 (.error (.handler "a\u0001\nb"))
  rw [hsettle, hpayload]
  exact ⟨rfl, hcontrol _⟩

end FramedCall.Conventions
