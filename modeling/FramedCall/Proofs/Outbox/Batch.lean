import FramedCall.Outbox.Batch
import FramedCall.Proofs.Stream.Recording
import FramedCall.Stream.Sink

/-!
# Batches on the wire

The slices of a batch behind its first bytes are what is left of its parts when these bytes are taken
(`remaining_eq`), wherever the cut is: within a part, or between parts and frames, with any number of empty
parts there. So a batch is written as its parts are (`writeFrames_eq`), and each write offers what has not
been taken (`offers_what_is_left`).
-/

namespace FramedCall.Outbox

open Device (dropBytes Offer)

/-! ### Cuts -/

section Cuts

variable {skip offset : Nat} {part : Bytes}

/-- An empty part is left out. -/
theorem cuts_nil (parts : List Bytes) : cuts skip offset ([] :: parts) = cuts skip offset parts := by
  simp [cuts]

/-- A part with something behind the bytes to skip. -/
theorem cuts_of_lt (hne : part ≠ []) (h : skip < offset + part.length) (parts : List Bytes) :
    cuts skip offset (part :: parts) =
      (part, skip - offset) :: cuts skip (offset + part.length) parts := by
  have hpart : part.isEmpty = false := by simpa using hne
  simp only [cuts, hpart, h, decide_true, Bool.not_false, Bool.and_true, if_true]

/-- A part of which every byte is skipped. -/
theorem cuts_of_le (h : offset + part.length ≤ skip) (parts : List Bytes) :
    cuts skip offset (part :: parts) = cuts skip (offset + part.length) parts := by
  simp only [cuts, Nat.not_lt.2 h, decide_false, Bool.and_false, Bool.false_eq_true, if_false]

/-- Behind the bytes to skip, every part that is not empty is there from its beginning. -/
theorem map_cuts_of_le (h : skip ≤ offset) (parts : List Bytes) :
    (cuts skip offset parts).map (fun (part, start) => part.drop start) = parts.filter (!·.isEmpty) := by
  induction parts generalizing offset with
  | nil => rfl
  | cons part parts ih =>
    by_cases hne : part = []
    · rw [hne, cuts_nil, ih h]
      rfl
    · have hpos := List.length_pos_iff.2 hne
      rw [cuts_of_lt hne (by omega), List.map_cons, ih (by omega), Nat.sub_eq_zero_of_le h,
        List.filter_cons_of_pos (by simpa using hne)]
      rfl

/-- What the cuts leave of parts. -/
theorem map_cuts (skip offset : Nat) (parts : List Bytes) :
    (cuts skip offset parts).map (fun (part, start) => part.drop start) =
      dropBytes (skip - offset) (parts.filter (!·.isEmpty)) := by
  induction parts generalizing offset with
  | nil => rfl
  | cons part parts ih =>
    by_cases hne : part = []
    · rw [hne, cuts_nil, ih]
      rfl
    · have hpos := List.length_pos_iff.2 hne
      rw [List.filter_cons_of_pos (by simpa using hne), dropBytes]
      by_cases hskip : skip < offset + part.length
      · -- the cut is here, and nothing behind it is skipped
        rw [cuts_of_lt hne hskip, List.map_cons, map_cuts_of_le (Nat.le_of_lt hskip), if_neg (by omega)]
      · rw [cuts_of_le (Nat.not_lt.1 hskip), ih, if_pos (by omega), Nat.sub_sub]

/-- A cut is within its part. -/
theorem start_lt_of_mem_cuts {parts : List Bytes} {start : Nat}
    (h : (part, start) ∈ cuts skip offset parts) : start < part.length := by
  induction parts generalizing offset with
  | nil => cases h
  | cons p parts ih =>
    by_cases hne : p = []
    · rw [hne, cuts_nil] at h
      exact ih h
    · by_cases hskip : skip < offset + p.length
      · rw [cuts_of_lt hne hskip] at h
        rcases List.mem_cons.1 h with h | h
        · cases h
          have hpos := List.length_pos_iff.2 hne
          omega
        · exact ih h
      · rw [cuts_of_le (Nat.not_lt.1 hskip)] at h
        exact ih h

end Cuts

/-! ### Batches -/

/-- What remains is what is left of the parts that are not empty. -/
theorem remaining_eq (frames : List Frame) (skip : Nat) :
    remaining frames skip = dropBytes skip ((frames.flatMap Frame.parts).filter (!·.isEmpty)) :=
  map_cuts skip 0 _

/-- The parts of frames are their bytes. -/
theorem flatten_parts (frames : List Frame) :
    (frames.flatMap Frame.parts).flatten = frames.flatMap Frame.bytes := by
  induction frames with
  | nil => rfl
  | cons f fs ih =>
    rw [List.flatMap_cons, List.flatten_append, ih, List.flatMap_cons]
    simp [Frame.parts, Frame.bytes]

/-- The size of a batch is the number of its bytes. -/
theorem length_flatMap_bytes (frames : List Frame) :
    (frames.flatMap Frame.bytes).length = batchSize frames := by
  induction frames with
  | nil => rfl
  | cons f fs ih => rw [List.flatMap_cons, List.length_append, ih, Frame.length_bytes, batchSize]

/-- What is offered once `skip` bytes are taken is what is behind them. -/
theorem flatten_remaining (frames : List Frame) (skip : Nat) :
    (remaining frames skip).flatten = (frames.flatMap Frame.bytes).drop skip := by
  rw [remaining_eq, Device.flatten_dropBytes, List.flatten_filter_not_isEmpty, flatten_parts]

/-- No empty slice is offered. -/
theorem ne_nil_of_mem_remaining {frames : List Frame} {skip : Nat} {p : Bytes}
    (h : p ∈ remaining frames skip) : p ≠ [] := by
  rw [remaining_eq] at h
  exact Device.ne_nil_of_mem_dropBytes (by simp) p h

/-- There is something to offer until everything is taken. -/
theorem remaining_eq_nil_iff {frames : List Frame} {skip : Nat} :
    remaining frames skip = [] ↔ batchSize frames ≤ skip := by
  have hflat := flatten_remaining frames skip
  rw [← length_flatMap_bytes, ← List.drop_eq_nil_iff, ← hflat, List.flatten_eq_nil_iff]
  constructor
  · intro h
    simp [h]
  · intro h
    apply List.eq_nil_iff_forall_not_mem.2
    intro p hp
    exact ne_nil_of_mem_remaining hp (h p hp)

variable {σ : Type}

/-- As long as something is left, it is offered. -/
theorem writeFrom_of_lt (d : Device σ String) (s : σ) {frames : List Frame} {written : Nat}
    (h : written < batchSize frames) :
    writeFrom d frames s written = match d.write s (remaining frames written) with
      | (.error cause, s') => (.error cause, s')
      | (.ok n, s') =>
        if n = 0 then (.error "write_vectored returned 0", s') else writeFrom d frames s' (written + n) := by
  have hsome : (remaining frames written).isEmpty = false := by
    rw [List.isEmpty_eq_false_iff, Ne, remaining_eq_nil_iff]
    exact Nat.not_le.2 h
  rw [writeFrom, dif_pos h]
  simp only [hsome, Bool.false_eq_true, if_false]
  rfl

/-- Counting what has been taken comes to the same as keeping what has not. -/
theorem writeFrom_eq (d : Device σ String) (frames : List Frame) (s : σ) (written : Nat) :
    writeFrom d frames s written =
      d.writeSlices "write_vectored returned 0" s (remaining frames written) := by
  by_cases h : written < batchSize frames
  · have hne : remaining frames written ≠ [] := mt remaining_eq_nil_iff.1 (Nat.not_le.2 h)
    rw [writeFrom_of_lt d s h, Device.writeSlices_of_ne_nil d _ s hne]
    rcases d.write s (remaining frames written) with ⟨cause | n, s'⟩
    · rfl
    · by_cases hn : n = 0
      · simp only [hn, if_true]
      · have hrest : dropBytes n (remaining frames written) = remaining frames (written + n) := by
          rw [remaining_eq, remaining_eq, Device.dropBytes_dropBytes]
        simp only [hn, if_false, hrest]
        exact writeFrom_eq d frames s' (written + n)
  · rw [writeFrom, dif_neg h, remaining_eq_nil_iff.2 (Nat.not_lt.1 h), Device.writeSlices]
termination_by batchSize frames - written

/-- A batch is written as its parts are. -/
theorem writeFrames_eq (d : Device σ String) (s : σ) (frames : List Frame) :
    writeFrames d s frames =
      if frames.isEmpty then (.ok (), s)
      else d.writeAll "write_vectored returned 0" s (frames.flatMap Frame.parts) := by
  have hall : remaining frames 0 = (frames.flatMap Frame.parts).filter (!·.isEmpty) := by
    rw [remaining_eq, Device.dropBytes_zero (by simp)]
  rw [writeFrames, writeFrom_eq, hall, Device.writeAll]
  rcases d.writeSlices "write_vectored returned 0" s _ with ⟨_ | _, s'⟩ <;> rfl

/-! ### What a device sees -/

/-- A batch is written with a record just as without one, and the record is that of its slices. -/
theorem writeFrames_recorded {d : Device σ String} (hd : d.TakesAtMostOffered) (s : σ)
    (frames : List Frame) :
    ∃ calls, writeFrames d.recorded (s, []) frames =
        ((writeFrames d s frames).1, (writeFrames d s frames).2, calls) ∧
      Device.Writes "write_vectored returned 0" (remaining frames 0) calls (writeFrom d frames s 0).1 := by
  obtain ⟨calls, hcalls, hwrites⟩ :=
    Device.writeSlices_recorded hd "write_vectored returned 0" s [] (remaining frames 0)
  rw [← writeFrom_eq, ← writeFrom_eq, List.nil_append] at hcalls
  rw [← writeFrom_eq] at hwrites
  cases frames with
  | nil => exact ⟨[], rfl, by rw [writeFrom]; exact .done⟩
  | cons f fs =>
    refine ⟨calls, ?_, hwrites⟩
    simp only [writeFrames, hcalls, List.isEmpty_cons, Bool.false_eq_true, if_false]
    rcases writeFrom d (f :: fs) s 0 with ⟨_ | _, s'⟩ <;> rfl

/-- The result of writing is kept, but for the flush at the end. -/
theorem writeFrames_of_error {d : Device σ String} {s : σ} {frames : List Frame} {cause : String}
    (h : (writeFrom d frames s 0).1 = .error cause) : (writeFrames d s frames).1 = .error cause := by
  cases frames with
  | nil =>
    rw [writeFrom] at h
    cases h
  | cons f fs =>
    simp only [writeFrames, List.isEmpty_cons, Bool.false_eq_true, if_false]
    generalize writeFrom d (f :: fs) s 0 = r at h
    obtain ⟨_, s'⟩ := r
    cases h
    rfl

/-- A batch that has been taken whole is written well if it can be flushed. -/
theorem writeFrames_of_ok {d : Device σ String} (hflush : ∀ s, (d.flush s).1 = .ok ()) {s : σ}
    {frames : List Frame} (h : (writeFrom d frames s 0).1 = .ok ()) :
    (writeFrames d s frames).1 = .ok () := by
  cases frames with
  | nil => rfl
  | cons f fs =>
    simp only [writeFrames, List.isEmpty_cons, Bool.false_eq_true, if_false]
    generalize writeFrom d (f :: fs) s 0 = r at h
    obtain ⟨_, s'⟩ := r
    cases h
    exact hflush s'

/-- A device may take as little as it likes of each write, or fail at any. A write of a batch offers what
the writes in front of it have left, in slices that are not empty, none of which is cut outside its part.
If each write takes something, in the end the whole batch has been taken, and all is well unless the flush
fails. A write that takes nothing or fails is the error, and what has been taken is the beginning of the
batch. The record of the writes changes nothing. -/
theorem offers_what_is_left {d : Device σ String} (hd : d.TakesAtMostOffered) (s : σ)
    (frames : List Frame) :
    let wire := frames.flatMap Frame.bytes
    let result := (writeFrames d s frames).1
    let calls := (writeFrames d.recorded (s, []) frames).2.2
    writeFrames d.recorded (s, []) frames = (result, (writeFrames d s frames).2, calls) ∧
      (∀ before c after, calls = before ++ c :: after →
        c.slices = remaining frames (Device.count before) ∧
        c.slices.flatten = wire.drop (Device.count before) ∧ ∀ p ∈ c.slices, p ≠ []) ∧
      (∀ skip part start, (part, start) ∈ cuts skip 0 (frames.flatMap Frame.parts) →
        start < part.length) ∧
      ((∀ c ∈ calls, 0 < c.count) → Device.output calls = wire ∧
        ((∀ s', (d.flush s').1 = .ok ()) → result = .ok ())) ∧
      ∀ c ∈ calls, c.count = 0 → result = .error (c.cause "write_vectored returned 0") ∧
        Device.output calls <+: wire := by
  intro wire result calls
  obtain ⟨calls', hrun, hwrites⟩ := writeFrames_recorded hd s frames
  obtain rfl : calls = calls' := congrArg (·.2.2) hrun
  have hflat : (remaining frames 0).flatten = wire := flatten_remaining frames 0
  obtain ⟨houtput, -⟩ := hwrites.output
  rw [hflat] at houtput
  refine ⟨hrun, ?_, fun _ _ _ => start_lt_of_mem_cuts, ?_, ?_⟩
  · -- skipping what was written, and then what is written next, is skipping both at once
    intro before c after hc
    have hslices : c.slices = remaining frames (Device.count before) := by
      rw [hwrites.slices (fun _ => ne_nil_of_mem_remaining) hc, remaining_eq, remaining_eq,
        Device.dropBytes_dropBytes, Nat.zero_add]
    rw [hslices, flatten_remaining]
    exact ⟨rfl, rfl, fun _ => ne_nil_of_mem_remaining⟩
  · intro hall
    obtain ⟨hresult, hcount⟩ := hwrites.complete hall
    rw [hflat] at hcount
    refine ⟨?_, fun hflush => writeFrames_of_ok hflush hresult⟩
    rw [houtput, hcount, List.take_length]
  · intro c hc hnone
    refine ⟨writeFrames_of_error (hwrites.fails hc hnone), ?_⟩
    rw [houtput]
    exact List.take_prefix _ _

/-- A frame without a payload and one behind its length, on a device that takes three bytes at a time as
long as it has room. It has room for everything, or for six bytes. -/
theorem offers_what_is_left_three_bytes :
    let d : Device Nat String :=
      ⟨fun room ss => let n := min (min 3 room) ss.flatten.length; (.ok n, room - n), fun s => (.ok (), s)⟩
    let frames : List Frame := [⟨[], [], [10]⟩, ⟨[52, 124], [110, 117, 108, 108], []⟩]
    let written (room : Nat) := Device.output (writeFrames d.recorded (room, []) frames).2.2
    d.TakesAtMostOffered ∧
      (writeFrames d 9 frames).1 = .ok () ∧ written 9 = [10, 52, 124, 110, 117, 108, 108] ∧
      (writeFrames d 6 frames).1 = .error "write_vectored returned 0" ∧
      written 6 <+: [10, 52, 124, 110, 117, 108, 108] := by
  intro d frames written
  have hd : d.TakesAtMostOffered := by
    intro s ss n s' h
    cases h
    exact Nat.min_le_right _ _
  have htaken : ∀ c ∈ (writeFrames d.recorded (9, []) frames).2.2, 0 < c.count := by decide +kernel
  have hstuck : ⟨[[108]], .ok 0⟩ ∈ (writeFrames d.recorded (6, []) frames).2.2 := by decide +kernel
  obtain ⟨-, -, -, hall, -⟩ := offers_what_is_left hd 9 frames
  obtain ⟨-, -, -, -, hnone⟩ := offers_what_is_left hd 6 frames
  obtain ⟨hwritten, hresult⟩ := hall htaken
  obtain ⟨herror, hbeginning⟩ := hnone _ hstuck rfl
  exact ⟨hd, hresult fun _ => rfl, hwritten, herror, hbeginning⟩

end FramedCall.Outbox
