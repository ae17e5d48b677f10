import Mathlib.Data.List.Basic
import FramedCall.Proofs.Framing.Delivery

/-!
# Frames that were written

A frame is taken out as its payload and leaves nothing behind (`Deframer.drain_frame`), as long as the
payload is not larger than what is accepted. The main statement is `Deframer.pushEach_frames`: the frames
of any payloads, cut anywhere, come out as these payloads.
-/

namespace FramedCall

open Framing

namespace Framing

/-! ### Frames -/

/-- The frame of a payload. -/
def around (f : Framing) (payload : Bytes) : Frame :=
  ⟨f.head payload.length, payload, f.tail⟩

/-- The stream of some lines, each with the same bytes behind it. -/
def stream (ending : Bytes) (lines : List Bytes) : Bytes :=
  lines.flatMap (· ++ ending)

/-- A line holds no line feed; behind its length any payload can be carried. -/
theorem validate_eq_ok_iff {f : Framing} {payload : Bytes} :
    f.validate payload = .ok () ↔ ¬ (f = .newline ∧ terminator ∈ payload) := by
  cases f with
  | lengthPrefixed => simp [validate, carries]
  | newline => simp [validate, carries]

/-- A whole frame is its parts, one behind the other. -/
theorem frame_eq (f : Framing) (payload : Bytes) :
    f.frame payload = (Frame.ofPayload f payload).map Frame.bytes := by
  rw [frame, Frame.ofPayload]
  cases f.validate payload <;> rfl

end Framing

/-- A payload that can be carried is put between its head and its tail. -/
theorem Frame.ofPayload_of_validate {f : Framing} {payload : Bytes} (h : f.validate payload = .ok ()) :
    Frame.ofPayload f payload = .ok (f.around payload) := by
  rw [ofPayload, h]
  rfl

/-- The payloads that cannot be framed are the lines with a line feed inside. -/
theorem Frame.exists_error_iff {f : Framing} {payload : Bytes} :
    (∃ e, Frame.ofPayload f payload = .error e) ↔ f = .newline ∧ terminator ∈ payload := by
  by_cases hbad : f = .newline ∧ terminator ∈ payload
  · have hvalidate : f.validate payload ≠ .ok () := fun h => validate_eq_ok_iff.1 h hbad
    rcases hv : f.validate payload with e | ⟨⟩
    · refine iff_of_true ⟨e, ?_⟩ hbad
      rw [ofPayload, hv]
      rfl
    · exact absurd hv hvalidate
  · refine iff_of_false ?_ hbad
    rintro ⟨e, he⟩
    rw [ofPayload_of_validate (validate_eq_ok_iff.2 hbad)] at he
    cases he

namespace Deframer

/-- A delimiter behind bytes that are none is found there. -/
theorem findIdx?_delimiter {d : UInt8} {xs : Bytes} (h : d ∉ xs) (ys : Bytes) :
    (xs ++ d :: ys).findIdx? (· == d) = some xs.length := by
  rw [List.findIdx?_append, findIdx?_eq_none_iff_not_mem.2 h, List.findIdx?_cons]
  simp

/-- A line is taken out whole. -/
theorem next_line_frame {b : Deframer} {payload : Bytes} (hb : b.Tidy) (hf : b.framing = .newline)
    (hbuffered : b.buffered = payload ++ [terminator]) (hcarries : terminator ∉ payload)
    (hlimit : payload.length ≤ b.limit) :
    b.next = .ok (some payload, { b with buffered := [], searched := 0 }) := by
  have hfind := findIdx?_delimiter hcarries []
  have hdrop : (payload ++ [terminator]).drop (payload.length + 1) = [] :=
    List.drop_eq_nil_of_le (by simp)
  rw [next_line hb hf, hbuffered, hf, delimiter, hfind]
  simp only [Nat.not_lt_of_le hlimit, if_false, List.take_left, hdrop]

/-- A payload behind its length is taken out whole. -/
theorem next_prefixed_frame {b : Deframer} {payload : Bytes} (hb : b.Tidy)
    (hf : b.framing = .lengthPrefixed) (ha : b.awaited = none)
    (hbuffered : b.buffered = Length.digits payload.length ++ separator :: payload)
    (hlimit : payload.length ≤ b.limit) (hlength : payload.length ≤ maxLength) :
    b.next = .ok (some payload, { b with buffered := [], searched := 0 }) := by
  have hdigits : separator ∉ Length.digits payload.length := by
    intro h
    exact absurd ((Length.spells_digits _).digits _ h) (by decide)
  have hfind : b.buffered.findIdx? (· == b.framing.delimiter) =
      some (Length.digits payload.length).length := by
    rw [hbuffered, hf, delimiter]
    exact findIdx?_delimiter hdigits payload
  have hbehind : (Length.digits payload.length ++ separator :: payload).drop
      ((Length.digits payload.length).length + 1) = payload := by
    rw [List.drop_append]
    simp
  rw [next_length hb hf ha hfind, hbuffered, List.take_left, Length.parse_digits hlength, hbehind]
  simp [Except.bind, Nat.not_lt_of_le hlimit, takePayload, size, ha]

/-- What leaves an empty deframer with a payload is taken out as that payload. -/
theorem drain_of_next_some {f : Framing} {limit : Nat} {wire payload : Bytes}
    (hnext : ((empty f limit).extend wire).next = .ok (some payload, empty f limit)) :
    ((empty f limit).extend wire).drain = ⟨[payload], none, empty f limit⟩ := by
  rw [drain_of_some hnext, (idle_empty f limit).drain]
  rfl

/-- A line is taken out without its end. -/
theorem drain_line {limit : Nat} {line : Bytes} (hcarries : terminator ∉ line)
    (hlimit : line.length ≤ limit) :
    ((empty .newline limit).extend (line ++ [terminator])).drain =
      ⟨[line], none, empty .newline limit⟩ := by
  have hb := (tidy_empty .newline limit).extend (line ++ [terminator])
  exact drain_of_next_some (next_line_frame hb rfl rfl hcarries hlimit)

/-- A frame is taken out as its payload and leaves nothing behind. -/
theorem drain_frame {f : Framing} {limit : Nat} {payload : Bytes} (hcarries : f.validate payload = .ok ())
    (hlimit : payload.length ≤ limit) (hlength : payload.length ≤ maxLength) :
    ((empty f limit).extend (f.head payload.length ++ payload ++ f.tail)).drain =
      ⟨[payload], none, empty f limit⟩ := by
  cases f with
  | newline =>
    have hline : terminator ∉ payload := by
      intro h
      simp [validate, carries, h] at hcarries
    exact drain_line hline hlimit
  | lengthPrefixed =>
    have hb := (tidy_empty .lengthPrefixed limit).extend
      (head .lengthPrefixed payload.length ++ payload ++ tail .lengthPrefixed)
    have hbytes : head .lengthPrefixed payload.length ++ payload ++ tail .lengthPrefixed =
        Length.digits payload.length ++ separator :: payload := by
      simp [head, tail, Length.digits]
    exact drain_of_next_some (next_prefixed_frame hb rfl rfl hbytes hlimit hlength)

/-! ### Streams of frames -/

/-- Where every payload can be framed, all are. -/
theorem mapM_eq_ok {α β : Type} {g : α → Except CallError β} {h : α → β} {xs : List α}
    (hg : ∀ x ∈ xs, g x = .ok (h x)) : xs.mapM g = .ok (xs.map h) := by
  induction xs with
  | nil => rfl
  | cons x xs ih =>
    rw [List.mapM_cons, hg x List.mem_cons_self, ih fun y hy => hg y (List.mem_cons_of_mem x hy)]
    rfl

/-- Where each payload comes out of what is sent for it, all come out of all that is sent. -/
theorem drain_flatMap {f : Framing} {limit : Nat} {wire : Bytes → Bytes} {payloads : List Bytes}
    (h : ∀ p ∈ payloads, ((empty f limit).extend (wire p)).drain = ⟨[p], none, empty f limit⟩) :
    ((empty f limit).extend (payloads.flatMap wire)).drain.Alike ⟨payloads, none, empty f limit⟩ := by
  induction payloads with
  | nil =>
    rw [List.flatMap_nil, extend_nil, (idle_empty f limit).drain]
    exact .refl _
  | cons p ps ih =>
    obtain ⟨hp, hps⟩ := List.forall_mem_cons.1 h
    have hall := drain_extend ((tidy_empty f limit).extend (wire p)) (ps.flatMap wire)
    rw [hp] at hall
    rw [List.flatMap_cons, extend_append]
    exact hall.trans ((ih hps).cons p)

/-- Lines that are not too long come out of their stream, and nothing else does. -/
theorem drain_stream {limit : Nat} {lines : List Bytes}
    (hlines : ∀ l ∈ lines, terminator ∉ l ∧ l.length ≤ limit) :
    ((empty .newline limit).extend (stream [terminator] lines)).drain.Alike
      ⟨lines, none, empty .newline limit⟩ := by
  apply drain_flatMap
  intro l hl
  exact drain_line (hlines l hl).1 (hlines l hl).2

/-- Frames are taken out as their payloads and leave nothing behind. -/
theorem drain_frames {f : Framing} {limit : Nat} {payloads : List Bytes}
    (hcarries : ∀ p ∈ payloads, f.validate p = .ok ())
    (hlimit : ∀ p ∈ payloads, p.length ≤ min limit maxLength) :
    ((empty f limit).extend (payloads.map fun p => (f.around p).bytes).flatten).drain.Alike
      ⟨payloads, none, empty f limit⟩ := by
  apply drain_flatMap
  intro p hp
  exact drain_frame (hcarries p hp) (Nat.le_trans (hlimit p hp) (Nat.min_le_left _ _))
    (Nat.le_trans (hlimit p hp) (Nat.min_le_right _ _))

/-- Pushes the pieces of a stream one by one: what each of them gives, and the deframer behind the
last. -/
def pushEach (b : Deframer) : List Bytes → List (Except Violation (List Bytes)) × Deframer
  | [] => ([], b)
  | c :: cs =>
    let (r, b') := b.push c
    let (rs, b'') := b'.pushEach cs
    (r :: rs, b'')

/-- A stream without a violation comes out of the pushes as it comes out piece by piece. -/
theorem pushEach_of_drainEach {b : Deframer} {cs : List Bytes} (h : (b.drainEach cs).violation = none) :
    ∃ batches : List (List Bytes), b.pushEach cs = (batches.map .ok, (b.drainEach cs).rest) ∧
      batches.flatten = (b.drainEach cs).payloads := by
  induction cs generalizing b with
  | nil => exact ⟨[], rfl, rfl⟩
  | cons c cs ih =>
    rcases hv : (b.extend c).drain.violation with _ | v
    · rw [drainEach, Drained.andThen, hv] at h ⊢
      obtain ⟨batches, hpush, hflatten⟩ := ih h
      refine ⟨(b.extend c).drain.payloads :: batches, ?_, ?_⟩
      · rw [pushEach, push_of_drain_none hv]
        simp only [hpush, List.map_cons]
      · rw [List.flatten_cons, hflatten]
    · rw [drainEach, Drained.andThen, hv] at h
      rw [hv] at h
      cases h

/-- Every payload that a line can carry, or any payload behind its length, can be framed, as bytes or
in parts, and nothing else can; both ways give the same bytes, and the size of a frame is their number.
Let a stream be the frames of payloads, none of them larger than what is accepted or than what a length
can say. However it is cut into pieces, pushing the pieces into a new deframer gives these payloads in
order and no violation, and leaves nothing that is held, awaited or dropped at the end. -/
theorem pushEach_frames (f : Framing) (limit : Nat) :
    (∀ payloads : List Bytes, (∀ p ∈ payloads, ¬ (f = .newline ∧ terminator ∈ p)) →
      (∀ p ∈ payloads, p.length ≤ min limit maxLength) →
      ∃ wires frames, payloads.mapM f.frame = .ok wires ∧
        payloads.mapM (Frame.ofPayload f) = .ok frames ∧
        (frames.map fun o => o.head ++ o.payload ++ o.tail).flatten = wires.flatten ∧
        ∀ pieces : List Bytes, pieces.flatten = wires.flatten →
          ∃ (batches : List (List Bytes)) (b : Deframer),
            (empty f limit).pushEach pieces = (batches.map .ok, b) ∧ batches.flatten = payloads ∧
              b.buffered = [] ∧ b.awaited = none ∧ b.finish.1 = 0) ∧
    ∀ payload, ((∃ e, f.frame payload = .error e) ↔ f = .newline ∧ terminator ∈ payload) ∧
      ((∃ e, Frame.ofPayload f payload = .error e) ↔ f = .newline ∧ terminator ∈ payload) ∧
      ∀ o, Frame.ofPayload f payload = .ok o → f.frame payload = .ok (o.head ++ o.payload ++ o.tail) ∧
        o.size = (o.head ++ o.payload ++ o.tail).length := by
  constructor
  · intro payloads hcarries hlimit
    have hvalid : ∀ p ∈ payloads, f.validate p = .ok () :=
      fun p hp => validate_eq_ok_iff.2 (hcarries p hp)
    refine ⟨payloads.map fun p => (f.around p).bytes, payloads.map f.around,
      mapM_eq_ok fun p hp => ?_, mapM_eq_ok fun p hp => ?_, ?_, ?_⟩
    · rw [frame_eq, Frame.ofPayload_of_validate (hvalid p hp)]
      rfl
    · exact Frame.ofPayload_of_validate (hvalid p hp)
    · rw [List.map_map]
      rfl
    · intro pieces hpieces
      -- pushing the pieces finds what emptying the whole stream at once does
      have hdrain := (drainEach_alike (tidy_empty f limit) (idle_empty f limit) pieces).trans
        (hpieces ▸ drain_frames hvalid hlimit)
      have hnone : ((empty f limit).drainEach pieces).violation = none := hdrain.none_iff.2 rfl
      obtain ⟨batches, hpush, hflatten⟩ := pushEach_of_drainEach hnone
      rw [hdrain.rest hnone] at hpush
      exact ⟨batches, _, hpush, hflatten.trans hdrain.payloads, rfl, rfl, rfl⟩
  · intro payload
    refine ⟨?_, Frame.exists_error_iff, ?_⟩
    · rw [← Frame.exists_error_iff, frame_eq]
      cases Frame.ofPayload f payload <;> simp [Except.map]
    · intro o ho
      rw [frame_eq, ho]
      exact ⟨rfl, o.length_bytes.symm⟩

/-- The payloads `3|b`, none and `1` behind their lengths: the stream `3|3|b0|1|1`, cut inside a frame
and between a length and its bar. -/
theorem pushEach_frames_three :
    let payloads : List Bytes := [[51, 124, 98], [], [49]]
    let pieces : List Bytes := [[51], [124, 51, 124, 98, 48], [], [124, 49, 124, 49]]
    (∀ p ∈ payloads, ¬ (Framing.lengthPrefixed = .newline ∧ terminator ∈ p)) ∧
      (∀ p ∈ payloads, p.length ≤ min 8 maxLength) ∧
      payloads.mapM Framing.lengthPrefixed.frame = .ok [[51, 124, 51, 124, 98], [48, 124], [49, 124, 49]] ∧
      ∃ (batches : List (List Bytes)) (b : Deframer),
        (empty .lengthPrefixed 8).pushEach pieces = (batches.map .ok, b) ∧ batches.flatten = payloads ∧
          b.buffered = [] ∧ b.awaited = none ∧ b.finish.1 = 0 := by
  intro payloads pieces
  have hcarries : ∀ p ∈ payloads, ¬ (Framing.lengthPrefixed = .newline ∧ terminator ∈ p) := by decide
  have hlimit : ∀ p ∈ payloads, p.length ≤ min 8 maxLength := by decide
  have hwires : payloads.mapM Framing.lengthPrefixed.frame =
      .ok [[51, 124, 51, 124, 98], [48, 124], [49, 124, 49]] := by rfl
  obtain ⟨wires, frames, hwires', -, -, hdeliver⟩ :=
    (pushEach_frames .lengthPrefixed 8).1 payloads hcarries hlimit
  obtain rfl := Except.ok.inj (hwires'.symm.trans hwires)
  exact ⟨hcarries, hlimit, hwires, hdeliver pieces rfl⟩

end Deframer
end FramedCall
