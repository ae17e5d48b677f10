import Mathlib.Data.List.Basic
import Mathlib.Logic.Relation
import FramedCall.Proofs.Framing.RoundTrip
import FramedCall.Proofs.Server.Accounting

/-!
# Runs over a stream

A `Feed` is a served stream and the bytes on it that have not been read. `Feed.Step` reads them in any
pieces, meets the end when none is left, and lets any party inside act at any time. Wherever a run
gets, what has been taken out and what is still to be taken out are what the whole stream holds
(`Serving.Follows`), and the books are in order (`Feed.Inv`, `Feed.inv_of_reaches`).
-/

namespace FramedCall

open Framing (Violation terminator)

/-- Whether a party inside acts; the other actions are about the stream that is read. -/
def Serving.Action.isInner : Serving.Action → Bool
  | .read _ | .readFailed _ | .eof => false
  | .extract | .settle _ | .send _ | .lose _ | .receive | .flush | .finish | .breakOff => true

/-- A party inside sees to a frame, hands a settlement on, or is the outbox. -/
theorem Serving.of_inner {s s' : Serving} {a : Serving.Action} (ha : a.isInner = true) (h : s.step? a = some s') :
    a = .extract ∨ (∃ seq, a = .settle seq) ∨ (∃ seq, a = .send seq) ∨ (∃ seq, a = .lose seq) ∨
      ∃ b, (∀ c, b ≠ .enqueue c) ∧ s.outboxStep? b = some s' := by
  rcases a with data | cause | _ | _ | seq | seq | seq | _ | _ | _ | _
  · cases ha
  · cases ha
  · cases ha
  · exact .inl rfl
  · exact .inr (.inl ⟨seq, rfl⟩)
  · exact .inr (.inr (.inl ⟨seq, rfl⟩))
  · exact .inr (.inr (.inr (.inl ⟨seq, rfl⟩)))
  · exact .inr (.inr (.inr (.inr ⟨.receive, by simp, h⟩)))
  · exact .inr (.inr (.inr (.inr ⟨.flush, by simp, h⟩)))
  · exact .inr (.inr (.inr (.inr ⟨.finish, by simp, (of_finish h).2⟩)))
  · exact .inr (.inr (.inr (.inr ⟨.breakOff, by simp, h⟩)))

/-- A served stream and the bytes that have not been read. -/
structure Feed where
  /-- The bytes that have not been read. -/
  rest : Bytes
  /-- The stream. -/
  serving : Serving

/-- All that a server takes out of a stream of bytes. -/
def Server.reading (server : Server) (input : Bytes) : Deframer.Drained :=
  ((Deframer.empty server.settings.conventions.framing server.settings.maxPayload).extend input).drain

/-- A server for lines takes each line out of a stream of lines. -/
theorem Server.reading_stream {server : Server} {lines : List Bytes}
    (hframing : server.settings.conventions.framing = .newline)
    (hlines : ∀ l ∈ lines, terminator ∉ l ∧ l.length ≤ server.settings.maxPayload) :
    (server.reading (Framing.stream [terminator] lines)).payloads = lines ∧
      (server.reading (Framing.stream [terminator] lines)).violation = none := by
  have hdrain := Deframer.drain_stream hlines
  unfold reading
  rw [hframing]
  exact ⟨hdrain.payloads, hdrain.none_iff.2 rfl⟩

namespace Deframer

/-- What has been taken out and what a deframer will take out of itself and the bytes to come are
what `d` holds. -/
structure Ahead (b : Deframer) (rest : Bytes) (ps : List Bytes) (d : Drained) : Prop where
  /-- The payloads. -/
  payloads : d.payloads = ps ++ (b.extend rest).drain.payloads
  /-- The violation behind them. -/
  violation : d.violation.isSome = (b.extend rest).drain.violation.isSome

namespace Ahead

variable {b b' : Deframer} {rest : Bytes} {ps : List Bytes} {d : Drained}

/-- A payload that is taken out was ahead. -/
theorem some (h : b.Ahead rest ps d) (hb : b.Tidy) {p : Bytes} (hn : b.next = .ok (some p, b')) :
    b'.Ahead rest (ps ++ [p]) d := by
  have hdrain := drain_of_some (next_extend_some hb hn rest)
  constructor
  · rw [h.payloads, hdrain, List.append_assoc]
    rfl
  · rw [h.violation, hdrain]
    rfl

/-- Deframers that go on alike have the same ahead. -/
theorem none (h : b.Ahead rest ps d) (hb : b.Tidy) (hn : b.next = .ok (none, b')) :
    b'.Ahead rest ps d := by
  have hnext := next_extend_none hb hn rest
  rcases hr : (b'.extend rest).next with v | ⟨_ | p, b''⟩
  · rw [hr] at hnext
    constructor
    · rw [h.payloads, drain_of_error hnext, drain_of_error hr]
    · rw [h.violation, drain_of_error hnext, drain_of_error hr]
  · rw [hr] at hnext
    constructor
    · rw [h.payloads, drain_of_none hnext, drain_of_none hr]
    · rw [h.violation, drain_of_none hnext, drain_of_none hr]
  · rw [hr] at hnext
    constructor
    · rw [h.payloads, drain_of_some hnext, drain_of_some hr]
    · rw [h.violation, drain_of_some hnext, drain_of_some hr]

/-- Nothing is ahead of a violation. -/
theorem error (h : b.Ahead rest ps d) (hb : b.Tidy) {v : Violation} (hn : b.next = .error v) :
    d.payloads = ps ∧ d.violation.isSome := by
  obtain ⟨v', hv'⟩ := next_extend_error hb hn rest
  constructor
  · rw [h.payloads, drain_of_error hv', List.append_nil]
  · rw [h.violation, drain_of_error hv']
    rfl

/-- Nothing is ahead of the end. -/
theorem eof (h : b.Ahead [] ps d) (hi : b.Idle) : d.payloads = ps ∧ d.violation = .none := by
  constructor
  · rw [h.payloads, extend_nil, hi.drain, List.append_nil]
  · rw [← Option.not_isSome_iff_eq_none, h.violation, extend_nil, hi.drain]
    simp

end Ahead
end Deframer

namespace Serving

/-- The frame that an action takes out. -/
def taken (s : Serving) : Action → List Bytes
  | .extract =>
    match s.frames.next with
    | .ok (p, _) => p.toList
    | .error _ => []
  | _ => []

/-- What the outbox takes from its queue by an action. -/
def received (s : Serving) : Action → List Settlement
  | .receive => s.outbox.arrivals .receive
  | _ => []

/-- The intake against the whole stream, which holds `d`: it has taken `ps` out, and `rest` has not
been read. -/
structure Follows (s : Serving) (rest : Bytes) (ps : List Bytes) (d : Deframer.Drained) : Prop where
  /-- The deframer is tidy. -/
  tidy : s.intake.isEnded = false → s.frames.Tidy
  /-- What has not been taken out is ahead. -/
  ahead : s.intake.isEnded = false → s.frames.Ahead rest ps d
  /-- The intake reads only where it can take nothing out. -/
  idle : s.intake = .reading → s.frames.Idle
  /-- It has ended well where all is taken out. -/
  good : s.intake = .ended (.ok ()) → d.payloads = ps ∧ d.violation = none
  /-- It has ended badly where a violation stands behind what is taken out. -/
  bad : ∀ e, s.intake = .ended (.error e) →
    d.payloads = ps ∧ d.violation.isSome ∧ ∃ v : Violation, e = v.error

namespace Follows

variable {s s' : Serving} {rest : Bytes} {ps : List Bytes} {d : Deframer.Drained}

/-- What the others do is no matter for the intake. -/
theorem of_eq (h : s.Follows rest ps d) (hf : s'.frames = s.frames) (hi : s'.intake = s.intake) :
    s'.Follows rest ps d := by
  refine ⟨?_, ?_, ?_, ?_, ?_⟩
  · rw [hf, hi]
    exact h.tidy
  · rw [hf, hi]
    exact h.ahead
  · rw [hf, hi]
    exact h.idle
  · rw [hi]
    exact h.good
  · rw [hi]
    exact h.bad

/-- An intake that is resumed has waited behind a frame. -/
theorem depart (h : s.Follows rest ps d) (seq : Nat) : (s.depart seq).Follows rest ps d := by
  rcases hi : s.intake with _ | _ | n | r
  · exact h.of_eq rfl (by simp [Serving.depart, hi, Intake.resumed])
  · exact h.of_eq rfl (by simp [Serving.depart, hi, Intake.resumed])
  · by_cases hn : n = seq
    · have hend : s.intake.isEnded = false := by rw [hi]; rfl
      refine ⟨fun _ => h.tidy hend, fun _ => h.ahead hend, ?_, ?_, ?_⟩ <;>
        simp [Serving.depart, hi, Intake.resumed, hn]
    · exact h.of_eq rfl (by simp [Serving.depart, hi, Intake.resumed, hn])
  · exact h.of_eq rfl (by simp [Serving.depart, hi, Intake.resumed])

/-- Bytes that are read are no longer to come. -/
theorem read {data : Bytes} (h : s.Follows (data ++ rest) ps d) (hi : s.intake = .reading) :
    ({ s with frames := s.frames.extend data, intake := .draining } : Serving).Follows rest ps d := by
  have hend : s.intake.isEnded = false := by rw [hi]; rfl
  obtain ⟨hp, hv⟩ := h.ahead hend
  rw [Deframer.extend_append] at hp hv
  exact ⟨fun _ => (h.tidy hend).extend data, fun _ => ⟨hp, hv⟩, by simp, by simp, by simp⟩

/-- The end is met where nothing is ahead. -/
theorem eof (h : s.Follows [] ps d) (hi : s.intake = .reading) (frames : Deframer) :
    ({ s with frames, intake := .ended (.ok ()) } : Serving).Follows [] ps d := by
  have hend : s.intake.isEnded = false := by rw [hi]; rfl
  refine ⟨by simp [Intake.isEnded], by simp [Intake.isEnded], by simp, fun _ => ?_, by simp⟩
  exact (h.ahead hend).eof (h.idle hi)

/-- A frame that is accepted leaves the intake at work. -/
theorem accept (h : s.Follows rest ps d) (hi : s.intake = .draining) {p : Bytes} {frames : Deframer}
    (hn : s.frames.next = .ok (some p, frames)) :
    (({ s with frames } : Serving).accept p).Follows rest (ps ++ [p]) d := by
  have hend : s.intake.isEnded = false := by rw [hi]; rfl
  have htidy := Deframer.tidy_next (h.tidy hend) hn
  have hahead := (h.ahead hend).some (h.tidy hend) hn
  unfold Serving.accept
  rcases Payload.decode p with e | request
  · exact ⟨fun _ => htidy, fun _ => hahead, by simp, by simp, by simp⟩
  · exact ⟨fun _ => htidy, fun _ => hahead, by simp [hi], by simp [hi], by simp [hi]⟩

/-- An intake that finds nothing more reads on. -/
theorem exhaust (h : s.Follows rest ps d) (hi : s.intake = .draining) {frames : Deframer}
    (hn : s.frames.next = .ok (none, frames)) :
    ({ s with frames, intake := .reading } : Serving).Follows rest ps d := by
  have hend : s.intake.isEnded = false := by rw [hi]; rfl
  exact ⟨fun _ => Deframer.tidy_next (h.tidy hend) hn, fun _ => (h.ahead hend).none (h.tidy hend) hn,
    fun _ => Deframer.idle_of_next (h.tidy hend) hn, by simp, by simp⟩

/-- A violation ends the intake. -/
theorem violate (h : s.Follows rest ps d) (hi : s.intake = .draining) {v : Violation}
    (hn : s.frames.next = .error v) :
    ({ s with intake := .ended (.error v.error) } : Serving).Follows rest ps d := by
  have hend : s.intake.isEnded = false := by rw [hi]; rfl
  obtain ⟨hp, hv⟩ := (h.ahead hend).error (h.tidy hend) hn
  refine ⟨by simp [Intake.isEnded], by simp [Intake.isEnded], by simp, by simp, ?_⟩
  rintro e he
  cases he
  exact ⟨hp, hv, v, rfl⟩

end Follows

/-- At the start everything is still to be taken out. -/
theorem follows_start (server : Server) (out : Sink) (log : FailureLog) (input : Bytes) :
    (start server out log).Follows input [] (server.reading input) :=
  ⟨fun _ => Deframer.tidy_empty _ _, fun _ => ⟨rfl, rfl⟩, fun _ => Deframer.idle_empty _ _,
    by simp [start], by simp [start]⟩

end Serving

namespace Feed

/-- A feed of which nothing has been read. -/
def start (server : Server) (out : Sink) (log : FailureLog) (input : Bytes) : Feed :=
  ⟨input, .start server out log⟩

/-- One step with its action: some bytes are read, the end is met, or a party inside acts. -/
inductive Step : Feed → Serving.Action → Feed → Prop where
  /-- Some bytes are read. -/
  | read {data rest : Bytes} {s s' : Serving} :
      s.step? (.read data) = some s' → Step ⟨data ++ rest, s⟩ (.read data) ⟨rest, s'⟩
  /-- The end of the stream is met. -/
  | eof {s s' : Serving} : s.step? .eof = some s' → Step ⟨[], s⟩ .eof ⟨[], s'⟩
  /-- A party inside acts. -/
  | inner {a : Serving.Action} {rest : Bytes} {s s' : Serving} :
      a.isInner = true → s.step? a = some s' → Step ⟨rest, s⟩ a ⟨rest, s'⟩

/-- Any number of steps. -/
abbrev Reaches : Feed → Feed → Prop :=
  Relation.ReflTransGen fun f f' => ∃ a, f.Step a f'

/-- The books of a feed that began with `input`: `ps` have been taken out of it, and of their
settlements the outbox has taken `cs`. -/
structure Inv (server : Server) (out : Sink) (log : FailureLog) (input : Bytes) (ps : List Bytes)
    (cs : List Settlement) (f : Feed) : Prop where
  /-- Each settlement has its place. -/
  accounts : f.serving.Accounts server out log ps cs
  /-- The intake follows the stream. -/
  follows : f.serving.Follows f.rest ps (server.reading input)

namespace Inv

variable {server : Server} {out : Sink} {log : FailureLog} {input rest : Bytes} {ps : List Bytes}
  {cs : List Settlement} {s s' : Serving} {f f' : Feed}

/-- Reading some bytes keeps the books in order. -/
theorem read {data : Bytes} (h : Inv server out log input ps cs ⟨data ++ rest, s⟩)
    (hs : s.step? (.read data) = some s') : Inv server out log input ps cs ⟨rest, s'⟩ := by
  obtain ⟨-, hi, rfl⟩ := Serving.of_read hs
  exact ⟨h.accounts.withIntake (by rw [hi]; rfl) _ (by simp), h.follows.read hi⟩

/-- Meeting the end keeps the books in order. -/
theorem eof (h : Inv server out log input ps cs ⟨[], s⟩) (hs : s.step? .eof = some s') :
    Inv server out log input ps cs ⟨[], s'⟩ := by
  obtain ⟨hi, rfl⟩ := Serving.of_eof hs
  exact ⟨h.accounts.withIntake (by rw [hi]; rfl) _ (by simp), h.follows.eof hi _⟩

/-- Taking a frame out keeps the books in order, and so does finding none or a violation. -/
theorem extract (h : Inv server out log input ps cs ⟨rest, s⟩) (hs : s.step? .extract = some s') :
    Inv server out log input (ps ++ s.taken .extract) cs ⟨rest, s'⟩ := by
  obtain ⟨hi, rfl⟩ := Serving.of_extract hs
  have hend : s.intake.isEnded = false := by rw [hi]; rfl
  rcases hn : s.frames.next with v | ⟨_ | p, frames⟩
  · have he : s.extract = { s with intake := .ended (.error v.error) } := by
      simp only [Serving.extract, hn]
    have ht : s.taken .extract = [] := by simp only [Serving.taken, hn]
    rw [he, ht, List.append_nil]
    exact ⟨h.accounts.withIntake hend s.frames (by simp), h.follows.violate hi hn⟩
  · have hopen := h.accounts.isClosed_eq_false hend
    have he : s.extract = { s with frames, intake := .reading } := by
      simp only [Serving.extract, hn, hopen, Bool.false_eq_true, if_false]
    have ht : s.taken .extract = [] := by simp only [Serving.taken, hn, Option.toList_none]
    rw [he, ht, List.append_nil]
    exact ⟨h.accounts.withIntake hend frames (by simp), h.follows.exhaust hi hn⟩
  · have he : s.extract = ({ s with frames } : Serving).accept p := by
      simp only [Serving.extract, hn]
    have ht : s.taken .extract = [p] := by simp only [Serving.taken, hn, Option.toList_some]
    rw [he, ht]
    exact ⟨h.accounts.accept hend frames p, h.follows.accept hi hn⟩

/-- Whatever a party inside does keeps the books in order. -/
theorem inner (h : Inv server out log input ps cs ⟨rest, s⟩) (hout : out.IsReliable)
    {a : Serving.Action} (ha : a.isInner = true) (hs : s.step? a = some s') :
    Inv server out log input (ps ++ s.taken a) (cs ++ s.received a) ⟨rest, s'⟩ := by
  -- what the outbox does by itself leaves the bytes and the deframer alone
  have houtbox : ∀ {a}, s.outboxStep? a = some s' → s'.Follows rest ps (server.reading input) := by
    intro a hs
    obtain ⟨o, -, rfl⟩ := Serving.of_outboxStep hs
    exact h.follows.of_eq rfl rfl
  rcases a with data | cause | _ | _ | seq | seq | seq | _ | _ | _ | _
  · cases ha
  · cases ha
  · cases ha
  all_goals simp only [Serving.received, List.append_nil]
  · exact h.extract hs
  all_goals simp only [Serving.taken, List.append_nil]
  · refine ⟨h.accounts.settle hs, ?_⟩
    obtain ⟨r, -, rfl⟩ := Serving.of_settle hs
    exact h.follows.of_eq rfl rfl
  · refine ⟨h.accounts.send hs, ?_⟩
    obtain ⟨c, o, -, -, rfl⟩ := Serving.of_send hs
    exact (h.follows.depart seq).of_eq rfl rfl
  · rw [h.accounts.not_lose seq] at hs
    cases hs
  · exact ⟨h.accounts.receive hs, houtbox hs⟩
  · exact ⟨h.accounts.flush hout hs, houtbox hs⟩
  · exact ⟨h.accounts.finish hout hs, houtbox (Serving.of_finish hs).2⟩
  · rw [h.accounts.not_breakOff hout] at hs
    cases hs

/-- One step keeps the books in order. -/
theorem step (h : Inv server out log input ps cs f) (hout : out.IsReliable) {a : Serving.Action}
    (hs : f.Step a f') :
    Inv server out log input (ps ++ f.serving.taken a) (cs ++ f.serving.received a) f' := by
  cases hs with
  | read hs =>
    simp only [Serving.taken, Serving.received, List.append_nil]
    exact h.read hs
  | eof hs =>
    simp only [Serving.taken, Serving.received, List.append_nil]
    exact h.eof hs
  | inner ha hs => exact h.inner hout ha hs

/-- A run keeps the books in order. -/
theorem reaches (h : Inv server out log input ps cs f) (hout : out.IsReliable) (hr : f.Reaches f') :
    ∃ ps' cs', Inv server out log input ps' cs' f' := by
  induction hr with
  | refl => exact ⟨ps, cs, h⟩
  | tail _ hs ih =>
    obtain ⟨a, hs⟩ := hs
    obtain ⟨ps', cs', h'⟩ := ih
    exact ⟨_, _, h'.step hout hs⟩

end Inv

/-- The books of a feed of which nothing has been read are in order. -/
theorem inv_start (server : Server) (out : Sink) (log : FailureLog) (input : Bytes) :
    Inv server out log input [] [] (start server out log input) :=
  ⟨Serving.accounts_start server out log, Serving.follows_start ..⟩

/-- Wherever a run gets, the books are in order. -/
theorem inv_of_reaches {server : Server} {out : Sink} {log : FailureLog} {input : Bytes} {f : Feed}
    (hout : out.IsReliable) (h : (start server out log input).Reaches f) :
    ∃ ps cs, Inv server out log input ps cs f :=
  (inv_start server out log input).reaches hout h

end Feed
end FramedCall
