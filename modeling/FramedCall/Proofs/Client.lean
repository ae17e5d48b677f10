import Mathlib.Data.List.Basic
import FramedCall.Client
import FramedCall.Proofs.Framing.RoundTrip
import FramedCall.Proofs.Payload
import FramedCall.Proofs.Stream.Sink

/-!
# The calling side of a plain pipe

A request that is written to a reliable sink puts its frame there (`Client.request_plain`), and the
frames that are still to come (`Client.Expects`) are taken out one after another, in whatever pieces they
arrive (`Client.Expects.takeFrame`).
-/

namespace FramedCall

open Json (Value)

/-! ### Writing -/

namespace Channel

/-- One write to a plain pipe. -/
theorem write_plain (source : Source) {sink sink' : Sink} {ss : List Bytes} {r : Except String Nat}
    (hw : Sink.device.write sink ss = (r, sink')) :
    plain.device.write (source, sink) ss = (r.mapError .failed, source, sink') := by
  show ((Sink.device.write sink ss).1.mapError Refusal.failed, source,
    (Sink.device.write sink ss).2) = _
  rw [hw]

/-- Writing to a plain pipe is writing to its sink. -/
theorem writeSlices_plain (stuck : String) (source : Source) (sink : Sink) (ss : List Bytes) :
    plain.device.writeSlices (.failed stuck) (source, sink) ss =
      ((Sink.device.writeSlices stuck sink ss).1.mapError .failed, source,
        (Sink.device.writeSlices stuck sink ss).2) := by
  induction sink, ss using Device.writeSlices.induct (d := Sink.device) with
  | case1 sink =>
    simp only [Device.writeSlices]
    rfl
  | case2 sink p ps e sink' hw =>
    rw [Device.writeSlices, write_plain source hw, Device.writeSlices, hw]
    rfl
  | case3 sink p ps sink' hw =>
    rw [Device.writeSlices, write_plain source hw, Device.writeSlices, hw]
    rfl
  | case4 sink p ps n sink' hw hn ih =>
    rw [Device.writeSlices, write_plain source hw, Device.writeSlices, hw]
    simp only [Except.mapError, hn, dif_neg, not_false_eq_true]
    exact ih

/-- A reliable sink takes what is written to a plain pipe. -/
theorem writeAll_plain (stuck : String) (source : Source) {sink : Sink} (h : sink.IsReliable)
    (bs : Bytes) :
    plain.device.writeAll (.failed stuck) (source, sink) [bs] = (.ok (), source, sink.push bs) := by
  have hne : ∀ p ∈ [bs].filter (!·.isEmpty), p ≠ [] := by simp
  have hflat : ([bs].filter (!·.isEmpty)).flatten = bs := by
    rw [List.flatten_filter_not_isEmpty]
    simp
  obtain ⟨h₂, h₁⟩ := Sink.writeSlices_device stuck sink _ hne
  rw [hflat, h.takes] at h₁ h₂
  have hw : Sink.device.writeSlices stuck sink ([bs].filter (!·.isEmpty)) = (.ok (), sink.push bs) :=
    Prod.ext (h₁.2 rfl) h₂
  rw [Device.writeAll, writeSlices_plain, hw]
  show (((if (sink.push bs).flushFails then (.error "flush failed" : Except String Unit)
    else .ok ()).mapError Refusal.failed), source, sink.push bs) = _
  rw [(h.push bs).flushFails]
  rfl

end Channel

namespace Client

/-- A payload can be framed. -/
theorem frame_encode (f : Framing) (v : Value) :
    f.frame (Payload.encode v) = .ok (f.around (Payload.encode v)).bytes := by
  rw [Framing.frame, Payload.validate_encode]
  rfl

/-- A request is written as the frame of its payload. -/
theorem request_plain (c : Client (Source × Sink)) (h : c.stream.2.IsReliable) (v : Value) :
    c.request .plain v = (.settled (.ok ()), { c with stream := (c.stream.1, c.stream.2.push
      (c.conventions.framing.around (Payload.encode v)).bytes) }) := by
  obtain ⟨conventions, frames, queued, source, sink⟩ := c
  simp only [request, frame_encode]
  rw [Channel.writeAll_plain _ _ h]
  rfl

/-! ### Reading -/

section Reading

variable {σ : Type} {ch : Channel σ} {c : Client σ}

/-- A frame that was taken out earlier comes first. -/
theorem takeFrame_of_queued {p : Bytes} {ps : List Bytes} (h : c.queued = p :: ps) :
    c.takeFrame ch = (.settled (.ok p), { c with queued := ps }) := by
  obtain ⟨conventions, frames, queued, stream⟩ := c
  obtain rfl : queued = p :: ps := h
  rw [takeFrame]

/-- Where no frame is left of the reads so far, one more read decides. -/
theorem takeFrame_of_queued_nil (hqueued : c.queued = []) :
    c.takeFrame ch =
      match ch.read c.stream readSize with
      | (.pending, stream) => (.pending, { c with stream })
      | (.failure cause, stream) => (.settled (.error (.io cause)), { c with stream })
      | (.eof, stream) =>
        (.settled (.error .connectionClosed), { c with stream, frames := c.frames.finish.2 })
      | (.bytes data, stream) =>
        match c.frames.push data with
        | (.error v, frames) => (.settled (.error v.error), { c with stream, frames })
        | (.ok queued, frames) => takeFrame ch ⟨c.conventions, frames, queued, stream⟩ := by
  rw [takeFrame, hqueued]
  simp only
  split
  · next h => rw [h]
  · next h => rw [h]
  · next h => rw [h]
  · next data stream h =>
    rcases hpush : c.frames.push data with ⟨v | queued, frames⟩
    · simp only [h, hpush]
    · simp only [h, hpush]

/-- Bytes that are read are looked through for frames. -/
theorem takeFrame_of_read {data : Bytes} {stream : σ} {ps : List Bytes} {frames : Deframer}
    (hqueued : c.queued = []) (hread : ch.read c.stream readSize = (.bytes data, stream))
    (hpush : c.frames.push data = (.ok ps, frames)) :
    c.takeFrame ch = takeFrame ch ⟨c.conventions, frames, ps, stream⟩ := by
  rw [takeFrame_of_queued_nil hqueued, hread]
  simp only [hpush]

/-- A read that meets a violation ends the stream. -/
theorem takeFrame_of_violation {data : Bytes} {stream : σ} {v : Framing.Violation} {frames : Deframer}
    (hqueued : c.queued = []) (hread : ch.read c.stream readSize = (.bytes data, stream))
    (hpush : c.frames.push data = (.error v, frames)) :
    c.takeFrame ch = (.settled (.error v.error), { c with stream, frames }) := by
  rw [takeFrame_of_queued_nil hqueued, hread]
  simp only [hpush]

end Reading

/-! ### Frames that are still to come -/

/-- A source on which pieces arrive, and then the end or nothing more for now. -/
def arriving (pieces : List Bytes) (ended : Bool) : Source :=
  ⟨pieces.map .chunk ++ if ended then [.eof] else []⟩

/-- Without an end there are only the pieces. -/
theorem arriving_false (pieces : List Bytes) : arriving pieces false = ⟨pieces.map .chunk⟩ := by
  simp [arriving]

/-- One read of a source of pieces takes bytes from the front. -/
theorem read_arriving (p : Bytes) (ps : List Bytes) (ended : Bool) (sink : Sink) :
    ∃ (data : Bytes) (rest : List Bytes), Channel.plain.read (arriving (p :: ps) ended, sink) readSize =
        (.bytes data, arriving rest ended, sink) ∧ data ++ rest.flatten = (p :: ps).flatten := by
  by_cases hp : p.length ≤ readSize
  · refine ⟨p, ps, ?_, rfl⟩
    simp [Channel.plain, arriving, Source.read, hp, List.take_of_length_le hp]
  · refine ⟨p.take readSize, p.drop readSize :: ps, ?_, ?_⟩
    · simp [Channel.plain, arriving, Source.read, hp]
    · rw [List.flatten_cons, List.flatten_cons, ← List.append_assoc, List.take_append_drop]

/-- What taking the next frame gives where this one is next, or none is left. -/
def turn (ended : Bool) : Option Bytes → Awaited Bytes
  | some p => .settled (.ok p)
  | none => if ended then .settled (.error .connectionClosed) else .pending

/-- These frames are still to come: those that were taken out earlier, and those of the bytes that have
been read and will be. -/
structure Expects (ended : Bool) (c : Client (Source × Sink)) (ps : List Bytes) : Prop where
  /-- The deframer is tidy. -/
  tidy : c.frames.Tidy
  /-- It holds no whole frame. -/
  idle : c.frames.Idle
  /-- The bytes that will be read go on from those it holds, without a violation. -/
  arrives : ∃ pieces, c.stream.1 = arriving pieces ended ∧
    (c.frames.extend pieces.flatten).drain.violation = none ∧
    ps = c.queued ++ (c.frames.extend pieces.flatten).drain.payloads

/-- A client that has received nothing yet expects all frames of the stream. -/
theorem expects_start (conventions : Conventions) {pieces : List Bytes} (ended : Bool) (sink : Sink)
    {ps : List Bytes}
    (hpayloads : ((Deframer.empty conventions.framing Deframer.standardLimit).extend
      pieces.flatten).drain.payloads = ps)
    (hviolation : ((Deframer.empty conventions.framing Deframer.standardLimit).extend
      pieces.flatten).drain.violation = none) :
    (start conventions (arriving pieces ended, sink)).Expects ended ps :=
  ⟨Deframer.tidy_empty _ _, Deframer.idle_empty _ _, pieces, rfl, hviolation, hpayloads.symm⟩

/-- Where no bytes are left to be read, no frame is still to come. -/
theorem expects_nil {conventions : Conventions} {frames : Deframer} (htidy : frames.Tidy)
    (hidle : frames.Idle) (ended : Bool) (sink : Sink) :
    Expects ended ⟨conventions, frames, [], arriving [] ended, sink⟩ [] := by
  have hdrain : (frames.extend [].flatten).drain = ⟨[], none, frames⟩ := by
    rw [List.flatten_nil, Deframer.extend_nil, hidle.drain]
  exact ⟨htidy, hidle, [], rfl, by rw [hdrain], by rw [hdrain]; rfl⟩

/-- What is left of a client: it still expects these frames, and these bytes have been written. -/
structure Leaves (ended : Bool) (c : Client (Source × Sink)) (ps : List Bytes) (written : Bytes)
    (c' : Client (Source × Sink)) : Prop where
  /-- These frames are still to come. -/
  expects : c'.Expects ended ps
  /-- The conventions stay. -/
  conventions : c'.conventions = c.conventions
  /-- These bytes have been written. -/
  sink : c'.stream.2 = c.stream.2.push written

/-- A client that does nothing is left as it is. -/
theorem Leaves.refl {ended : Bool} {c : Client (Source × Sink)} {ps : List Bytes}
    (h : c.Expects ended ps) : c.Leaves ended ps [] c :=
  ⟨h, rfl, (Sink.push_nil _).symm⟩

/-- What two operations leave is what the second leaves, and both have written. -/
theorem Leaves.trans {ended : Bool} {c c' c'' : Client (Source × Sink)} {ps ps' : List Bytes}
    {written written' : Bytes} (h : c.Leaves ended ps written c') (h' : c'.Leaves ended ps' written' c'') :
    c.Leaves ended ps' (written ++ written') c'' :=
  ⟨h'.expects, h'.conventions.trans h.conventions, by rw [h'.sink, h.sink, Sink.push_push]⟩

/-- The next frame is the first of those still to come, however the bytes arrive. -/
theorem Expects.takeFrame {ended : Bool} {c : Client (Source × Sink)} {ps : List Bytes}
    (h : c.Expects ended ps) :
    ∃ c', c.takeFrame .plain = (turn ended ps.head?, c') ∧ c.Leaves ended ps.tail [] c' := by
  -- a read may complete no frame, and then the next one follows: on what the stream still has to give
  induction hw : c.stream.1.weight using Nat.strongRecOn generalizing c with
  | ind w ih =>
    obtain ⟨conventions, frames, queued, source, sink⟩ := c
    obtain ⟨htidy, hidle, pieces, hsource, hviolation, hps⟩ := h
    simp only at htidy hidle hsource hviolation hps hw
    rcases queued with _ | ⟨q, qs⟩
    · rw [List.nil_append] at hps
      rcases pieces with _ | ⟨piece, pieces⟩
      · rw [List.flatten_nil, Deframer.extend_nil, hidle.drain] at hps
        subst hps hsource
        cases ended with
        | false => exact ⟨_, takeFrame_of_queued_nil rfl, .refl (expects_nil htidy hidle false sink)⟩
        | true =>
          have hempty : Expects true
              ⟨conventions, .empty frames.framing frames.limit, [], arriving [] true, sink⟩ [] :=
            expects_nil (Deframer.tidy_empty _ _) (Deframer.idle_empty _ _) true sink
          exact ⟨_, takeFrame_of_queued_nil rfl, hempty, rfl, (Sink.push_nil sink).symm⟩
      · obtain ⟨data, rest, hread, hflat⟩ := read_arriving piece pieces ended sink
        rw [← hflat] at hviolation hps
        obtain ⟨qs, frames', hpush, htidy', hidle', hpayloads, hviolation'⟩ :=
          Deframer.push_of_extend_append htidy data rest.flatten hviolation
        subst hsource
        rw [takeFrame_of_read rfl hread hpush]
        have hlt : (arriving rest ended).weight < w := by
          rw [← hw]
          exact Source.weight_read_lt (n := readSize) (by decide) (congrArg (fun r => (r.1, r.2.1)) hread)
        have hexpects : Expects ended ⟨conventions, frames', qs, arriving rest ended, sink⟩ ps :=
          ⟨htidy', hidle', rest, rfl, hviolation', hps.trans hpayloads⟩
        obtain ⟨c', htaken, hleaves⟩ := ih _ hlt hexpects rfl
        exact ⟨c', htaken, hleaves.expects, hleaves.conventions, hleaves.sink⟩
    · subst hps
      exact ⟨_, takeFrame_of_queued rfl, ⟨htidy, hidle, pieces, hsource, hviolation, rfl⟩, rfl,
        (Sink.push_nil sink).symm⟩

/-- A call writes its request and takes out what arrives. -/
theorem exchange_plain (c : Client (Source × Sink)) (h : c.stream.2.IsReliable) (v : Value) :
    (c.exchange .plain v).1 =
      (((takeFrame .plain { c with stream := (c.stream.1, c.stream.2.push
        (c.conventions.framing.around (Payload.encode v)).bytes) }).1.andThen Payload.decode).andThen
          c.conventions.envelope.unwrap) := by
  simp only [exchange, request_plain c h, receive]

end Client
end FramedCall
