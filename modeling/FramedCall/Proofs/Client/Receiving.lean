import Mathlib.Data.List.Basic
import Mathlib.Data.List.Infix
import FramedCall.Proofs.Client

/-!
# Receiving until the stream ends

A client takes responses from a stream of bytes, one after another, until it meets the end or a
violation (`Client.Receives`). What it is given are the frames of the reads in front of the one that
meets the violation (`Client.exists_receives`), so it is given all frames of the stream if and only if
that read completes none: the frames it does complete are lost with it. The main statement is
`Client.receives_all_iff`; `Client.receives_less_in_one_read` is a stream of which it matters how it is
cut.
-/

namespace FramedCall

open Framing (Violation)
open Json (Value)

/-- Whether an error says that no more can be received: the stream is broken, or it has ended. -/
def CallError.endsStream : CallError → Bool
  | .frameSync _ | .connectionClosed => true
  | _ => false

/-- A payload that is no value does not end the stream. -/
theorem Payload.endsStream_of_decode {p : Bytes} {e : CallError} (h : Payload.decode p = .error e) :
    e.endsStream = false := by
  unfold Payload.decode at h
  split at h
  · cases h
  · cases h
    rfl

/-- What arrives on a stream of bytes: the payloads, and the violation behind them. -/
def Conventions.arriving (c : Conventions) (input : Bytes) : Deframer.Drained :=
  ((Deframer.empty c.framing Deframer.standardLimit).extend input).drain

/-- Where the first bytes bring no violation, the others go on from what these leave. -/
theorem Deframer.drain_extend_of_none {b : Deframer} (hb : b.Tidy) {data : Bytes}
    (h : (b.extend data).drain.violation = none) (more : Bytes) :
    (b.extend (data ++ more)).drain.payloads =
        (b.extend data).drain.payloads ++ ((b.extend data).drain.rest.extend more).drain.payloads ∧
      (b.extend (data ++ more)).drain.violation.isSome =
        ((b.extend data).drain.rest.extend more).drain.violation.isSome := by
  have hall := drain_extend (hb.extend data) more
  rw [← extend_append, Drained.andThen, h] at hall
  exact ⟨hall.payloads, hall.violation⟩

namespace Client

variable {σ : Type} {ch : Channel σ}

/-- Receiving again and again gives these results, and then the error that ends the stream. -/
inductive Receives (ch : Channel σ) :
    Client σ → List (Except CallError Value) → CallError → Prop where
  /-- The stream is broken, or it has ended. -/
  | last {c c' : Client σ} {e : CallError} :
      c.receive ch = (.settled (.error e), c') → e.endsStream = true → Receives ch c [] e
  /-- One more result. -/
  | more {c c' : Client σ} {r : Except CallError Value} {rs : List (Except CallError Value)}
      {e : CallError} : c.receive ch = (.settled r, c') →
      (∀ e', r = .error e' → e'.endsStream = false) → Receives ch c' rs e → Receives ch c (r :: rs) e

/-- Receiving gives one sequence of results. -/
theorem Receives.unique {c : Client σ} {rs rs' : List (Except CallError Value)} {e e' : CallError}
    (h : c.Receives ch rs e) (h' : c.Receives ch rs' e') : rs = rs' ∧ e = e' := by
  induction h generalizing rs' e' with
  | last hr hend =>
    cases h' with
    | last hr' _ =>
      cases hr.symm.trans hr'
      exact ⟨rfl, rfl⟩
    | more hr' hgoes _ =>
      cases hr.symm.trans hr'
      rw [hgoes _ rfl] at hend
      cases hend
  | more hr hgoes _ ih =>
    cases h' with
    | last hr' hend =>
      cases hr.symm.trans hr'
      rw [hgoes _ rfl] at hend
      cases hend
    | more hr' _ h' =>
      cases hr.symm.trans hr'
      obtain ⟨rfl, rfl⟩ := ih h'
      exact ⟨rfl, rfl⟩

/-! ### One attempt -/

/-- What is received is what the next frame is decoded as. -/
theorem receive_of_takeFrame {c c' : Client σ} {r : Except CallError Bytes}
    (h : c.takeFrame ch = (.settled r, c')) :
    c.receive ch = (.settled (r.bind Payload.decode), c') := by
  rw [receive, h]
  rfl

/-- Clients that take the same frames receive the same. -/
theorem Receives.of_takeFrame_eq {c c' : Client σ} {rs : List (Except CallError Value)} {e : CallError}
    (heq : c.takeFrame ch = c'.takeFrame ch) (h : c'.Receives ch rs e) : c.Receives ch rs e := by
  have hreceive : c.receive ch = c'.receive ch := by rw [receive, receive, heq]
  cases h with
  | last hr hend => exact .last (hreceive.trans hr) hend
  | more hr hgoes h => exact .more (hreceive.trans hr) hgoes h

/-- Frames that were taken out earlier are received first. -/
theorem Receives.queued {conventions : Conventions} {frames : Deframer} {stream : σ}
    {rs : List (Except CallError Value)} {e : CallError}
    (h : Receives ch ⟨conventions, frames, [], stream⟩ rs e) (ps : List Bytes) :
    Receives ch ⟨conventions, frames, ps, stream⟩ (ps.map Payload.decode ++ rs) e := by
  induction ps with
  | nil => exact h
  | cons p ps ih =>
    have htake : takeFrame ch ⟨conventions, frames, p :: ps, stream⟩ =
        (.settled (.ok p), ⟨conventions, frames, ps, stream⟩) := takeFrame_of_queued rfl
    exact .more (receive_of_takeFrame htake) (fun _ => Payload.endsStream_of_decode) ih

/-- A client that meets a violation when it next reads receives nothing more. -/
theorem Receives.of_violation {c : Client σ} {data : Bytes} {stream : σ} {v : Violation}
    {frames : Deframer} (hqueued : c.queued = [])
    (hread : ch.read c.stream readSize = (.bytes data, stream))
    (hpush : c.frames.push data = (.error v, frames)) : c.Receives ch [] v.error :=
  .last (receive_of_takeFrame (takeFrame_of_violation hqueued hread hpush)) rfl

/-! ### A whole stream -/

/-- A plain pipe on which these pieces arrive, and then the end. -/
def ending (pieces : List Bytes) (sink : Sink) : Source × Sink :=
  (⟨pieces.map .chunk ++ [.eof]⟩, sink)

/-- A piece that is no longer than a read is read at once. -/
theorem read_ending {p : Bytes} (hp : p.length ≤ readSize) (ps : List Bytes) (sink : Sink) :
    Channel.plain.read (ending (p :: ps) sink) readSize = (.bytes p, ending ps sink) := by
  simp [Channel.plain, ending, Source.read, hp, List.take_of_length_le hp]

/-- A client is given the frames of the first reads, up to the one that meets a violation. -/
theorem exists_receives {frames : Deframer} (hframes : frames.Tidy) (hidle : frames.Idle)
    (conventions : Conventions) (sink : Sink) {pieces : List Bytes}
    (hreads : ∀ p ∈ pieces, p.length ≤ readSize) :
    ∃ front back e, pieces = front ++ back ∧
      (frames.extend front.flatten).drain.violation = none ∧
      Receives .plain ⟨conventions, frames, [], ending pieces sink⟩
        ((frames.extend front.flatten).drain.payloads.map Payload.decode) e ∧
      (back = [] ∧ e = .connectionClosed ∨ ∃ read rest v, back = read :: rest ∧
        (frames.extend (front.flatten ++ read)).drain.violation.isSome ∧ e = Violation.error v) := by
  -- on the reads; the deframer between them has nothing complete in it and may hold the front of a frame
  induction pieces generalizing frames with
  | nil =>
    have hread : Channel.plain.read (ending [] sink) readSize = (.eof, ending [] sink) := rfl
    have heof : takeFrame .plain ⟨conventions, frames, [], ending [] sink⟩ =
        (.settled (.error .connectionClosed), ⟨conventions, frames.finish.2, [], ending [] sink⟩) := by
      rw [takeFrame_of_queued_nil rfl, hread]
    refine ⟨[], [], .connectionClosed, rfl, ?_, ?_, .inl ⟨rfl, rfl⟩⟩
    · rw [List.flatten_nil, Deframer.extend_nil, hidle.drain]
    · rw [List.flatten_nil, Deframer.extend_nil, hidle.drain]
      exact .last (receive_of_takeFrame heof) rfl
  | cons p ps ih =>
    have hread := read_ending (hreads p List.mem_cons_self) ps sink
    rcases hv : (frames.extend p).drain.violation with _ | v
    · obtain ⟨htidy, hidle'⟩ := Deframer.tidy_idle_drain (hframes.extend p) hv
      have hpush := Deframer.push_of_drain_none hv
      have hrest := Deframer.drain_extend_of_none hframes hv
      obtain ⟨front, back, e, rfl, hnone, hreceives, hend⟩ :=
        ih htidy hidle' fun q hq => hreads q (List.mem_cons_of_mem _ hq)
      refine ⟨p :: front, back, e, rfl, ?_, ?_, ?_⟩
      · rw [List.flatten_cons, ← Option.not_isSome_iff_eq_none, (hrest _).2, hnone]
        simp
      · rw [List.flatten_cons, (hrest _).1, List.map_append]
        exact (hreceives.queued _).of_takeFrame_eq (takeFrame_of_read rfl hread hpush)
      · rcases hend with ⟨rfl, rfl⟩ | ⟨read, rest, w, rfl, hbroken, rfl⟩
        · exact .inl ⟨rfl, rfl⟩
        · refine .inr ⟨read, rest, w, rfl, ?_, rfl⟩
          rw [List.flatten_cons, List.append_assoc, (hrest _).2]
          exact hbroken
    · -- the read is given up as a whole, with the frames that it completed before the violation
      have hpush := Deframer.push_of_drain_some hv
      refine ⟨[], p :: ps, v.error, rfl, ?_, ?_, .inr ⟨p, ps, v, rfl, ?_, rfl⟩⟩
      · rw [List.flatten_nil, Deframer.extend_nil, hidle.drain]
      · rw [List.flatten_nil, Deframer.extend_nil, hidle.drain]
        exact .of_violation rfl hread hpush
      · rw [List.flatten_nil, List.nil_append, hv]
        rfl

/-- What arrives on a longer stream is what arrives on its front, and then what the rest of the stream
brings, if there is no violation before. -/
theorem arriving_append (c : Conventions) (input more : Bytes) :
    (c.arriving (input ++ more)).Alike
      ((c.arriving input).andThen fun rest => (rest.extend more).drain) := by
  rw [Conventions.arriving, Deframer.extend_append]
  exact Deframer.drain_extend ((Deframer.tidy_empty c.framing Deframer.standardLimit).extend input) more

/-- The payloads of the front come first. -/
theorem arriving_append_payloads (c : Conventions) (input more : Bytes) :
    (c.arriving input).payloads <+: (c.arriving (input ++ more)).payloads := by
  rw [(arriving_append c input more).payloads, Deframer.Drained.andThen]
  split
  · exact List.prefix_rfl
  · exact List.prefix_append _ _

/-- Behind a violation nothing more is taken out. -/
theorem arriving_of_violation {c : Conventions} {input : Bytes}
    (h : (c.arriving input).violation.isSome) (more : Bytes) :
    (c.arriving (input ++ more)).payloads = (c.arriving input).payloads ∧
      (c.arriving (input ++ more)).violation.isSome := by
  obtain ⟨v, hv⟩ := Option.isSome_iff_exists.1 h
  have hall := arriving_append c input more
  rw [Deframer.Drained.andThen, hv] at hall
  exact ⟨hall.payloads, hall.violation.trans h⟩

/-- Let a client that has received nothing yet be sent a stream of bytes that ends, in any reads.
Receiving comes to an end. Until then the client is given the frames of the reads in front of the one
that meets a violation, or of all reads if none does, in order, each decoded or as an error of its own.
So it is given all frames that are in the stream if and only if the read that meets the violation
completes none. Whether there is a violation in the stream decides which error is the last. -/
theorem receives_all_iff (conventions : Conventions) (sink : Sink) {pieces : List Bytes}
    (hreads : ∀ p ∈ pieces, p.length ≤ readSize) :
    (∃ rs e, (start conventions (ending pieces sink)).Receives .plain rs e) ∧
    ∀ rs e, (start conventions (ending pieces sink)).Receives .plain rs e →
      ∃ front back, pieces = front ++ back ∧
        (conventions.arriving front.flatten).violation = none ∧
        rs = (conventions.arriving front.flatten).payloads.map Payload.decode ∧
        (rs = (conventions.arriving pieces.flatten).payloads.map Payload.decode ↔
          ∀ read ∈ back.head?, (conventions.arriving (front.flatten ++ read)).payloads =
            (conventions.arriving front.flatten).payloads) ∧
        match (conventions.arriving pieces.flatten).violation with
        | none => back = [] ∧ e = .connectionClosed
        | some _ => ∃ read rest v, back = read :: rest ∧
            (conventions.arriving (front.flatten ++ read)).violation.isSome ∧ e = Violation.error v := by
  obtain ⟨front, back, e₀, rfl, hnone, hreceives, hend⟩ := exists_receives
    (Deframer.tidy_empty conventions.framing Deframer.standardLimit) (Deframer.idle_empty _ _)
    conventions sink hreads
  refine ⟨⟨_, _, hreceives⟩, ?_⟩
  intro rs e h
  obtain ⟨hrs, rfl⟩ := h.unique hreceives
  have hrs : rs = (conventions.arriving front.flatten).payloads.map Payload.decode := hrs
  have hnone : (conventions.arriving front.flatten).violation = none := hnone
  refine ⟨front, back, rfl, hnone, hrs, ?_⟩
  rcases hend with ⟨rfl, rfl⟩ | ⟨read, rest, v, rfl, hbroken, rfl⟩
  · rw [List.append_nil, hnone]
    refine ⟨?_, rfl, rfl⟩
    constructor
    · rintro - read ⟨⟩
    · intro
      exact hrs
  · obtain ⟨hsame, hsome⟩ := arriving_of_violation hbroken rest.flatten
    have hall : (front ++ read :: rest).flatten = front.flatten ++ read ++ rest.flatten := by
      rw [List.flatten_append, List.flatten_cons, List.append_assoc]
    rw [hall, hsame]
    constructor
    · constructor
      · rintro hmap read' ⟨⟩
        have hlen := congrArg List.length (hrs.symm.trans hmap)
        rw [List.length_map, List.length_map] at hlen
        exact ((arriving_append_payloads conventions front.flatten read).eq_of_length hlen).symm
      · intro h
        rw [hrs, h read rfl]
    · obtain ⟨w, hw⟩ := Option.isSome_iff_exists.1 hsome
      rw [hw]
      exact ⟨read, rest, v, rfl, hbroken, rfl⟩

/-- The stream `1|7x` in two reads. -/
theorem receives_all_of_two_reads :
    let conventions : Conventions := ⟨.lengthPrefixed, .tagged .standard⟩
    let pieces : List Bytes := [[49, 124, 55], [120]]
    (∀ p ∈ pieces, p.length ≤ readSize) ∧
      ∃ rs e, (start conventions (ending pieces .unlimited)).Receives .plain rs e ∧
        ∃ front back, pieces = front ++ back ∧
          rs = (conventions.arriving front.flatten).payloads.map Payload.decode := by
  intro conventions pieces
  have hreads : ∀ p ∈ pieces, p.length ≤ readSize := by decide
  obtain ⟨⟨rs, e, hreceives⟩, hall⟩ := receives_all_iff conventions .unlimited hreads
  obtain ⟨front, back, hcut, -, hrs, -⟩ := hall rs e hreceives
  exact ⟨hreads, rs, e, hreceives, front, back, hcut, hrs⟩

/-- The stream `1|7x` breaks at its last byte, behind a whole frame. A client that reads it at once is
told of the violation and of nothing else; one that reads that byte by itself is given the frame
first. -/
theorem receives_less_in_one_read :
    let conventions : Conventions := ⟨.lengthPrefixed, .tagged .standard⟩
    [[49, 124, 55, 120]].flatten = [([49, 124, 55] : Bytes), [120]].flatten ∧
      (start conventions (ending [[49, 124, 55, 120]] .unlimited)).Receives .plain []
        (Violation.error (.notADigit 120)) ∧
      (start conventions (ending [[49, 124, 55], [120]] .unlimited)).Receives .plain
        [.ok (.number (.ofInt 7))] (Violation.error (.notADigit 120)) := by
  intro conventions
  let b : Deframer := .empty .lengthPrefixed Deframer.standardLimit
  have hsecond : (b.extend [120]).drain = ⟨[], some (.notADigit 120), b.extend [120]⟩ :=
    Deframer.drain_of_error rfl
  have hone : (b.extend [49, 124, 55, 120]).drain =
      ⟨[[55]], some (.notADigit 120), b.extend [120]⟩ := by
    have hnext : (b.extend [49, 124, 55, 120]).next = .ok (some [55], b.extend [120]) := rfl
    rw [Deframer.drain_of_some hnext, hsecond]
    rfl
  have hfirst : (b.extend [49, 124, 55]).drain = ⟨[[55]], none, b⟩ := by
    have hnext : (b.extend [49, 124, 55]).next = .ok (some [55], b) := rfl
    rw [Deframer.drain_of_some hnext, (Deframer.idle_empty _ _).drain]
    rfl
  refine ⟨rfl, ?_, ?_⟩
  · apply Receives.of_violation rfl (read_ending (by decide) [] .unlimited)
    show b.push [49, 124, 55, 120] = _
    rw [Deframer.push, hone]
  · have hlast : Receives .plain ⟨conventions, b, [], ending [[120]] .unlimited⟩ []
        (Violation.error (.notADigit 120)) := by
      apply Receives.of_violation rfl (read_ending (by decide) [] .unlimited)
      show b.push [120] = _
      rw [Deframer.push, hsecond]
    have hdecode : Payload.decode [55] = .ok (.number (.ofInt 7)) := rfl
    rw [← hdecode]
    apply (hlast.queued [[55]]).of_takeFrame_eq
    apply takeFrame_of_read rfl (read_ending (by decide) [[120]] .unlimited)
    show b.push [49, 124, 55] = _
    rw [Deframer.push, hfirst]

end Client
end FramedCall
