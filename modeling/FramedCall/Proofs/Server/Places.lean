import Mathlib.Algebra.BigOperators.Group.Finset.Basic
import Mathlib.Algebra.Order.BigOperators.Group.Finset
import Mathlib.Data.List.Basic
import FramedCall.Proofs.Server.Output

/-!
# One place for each request

At every moment of a run the number of each frame that has been taken out is at one `Place`, and
nowhere twice; numbers that have not been given yet are nowhere (`Serving.Accounts.sum_count`). What an
outbox has written, what is ready and what it holds are all that it has taken, as it is to be written
(`Serving.Accounts.written_append_ready_append_held`), so what has left each of these places is in the
next. `Feed.Sends` follows a run and keeps the settlements in the order in which they enter the queue,
which is the order in which they are taken from it (`Feed.Sends.inv`). The main statement is
`Feed.one_place_for_each_request`.
-/

namespace FramedCall

open Settlement (frames diagnostics)

/-! ### Places -/

/-- Where the settlement of a frame can be. -/
inductive Place where
  /-- To come from a handler that has not ended. -/
  | inFlight
  /-- Waiting to be sent. -/
  | waiting
  /-- In the queue of the outbox. -/
  | queued
  /-- Held back until the settlements in front of it have come. -/
  | held
  /-- In the batch that is written next. -/
  | ready
  /-- Written. -/
  | written
deriving DecidableEq

instance : Fintype Place where
  elems := {.inFlight, .waiting, .queued, .held, .ready, .written}
  complete p := by cases p <;> decide

/-- The numbers of the frames whose settlements are at a place. -/
def Serving.numbersAt (s : Serving) : Place → List Nat
  | .inFlight => s.inFlight.map (·.seq)
  | .waiting => s.waiting.map (·.seq)
  | .queued => s.outbox.queue.map (·.seq)
  | .held => s.outbox.sequencer.held.map (·.1)
  | .ready => s.outbox.ready.map (·.seq)
  | .written => s.outbox.written.map (·.seq)

/-- Whatever adds up to one is one in one case, and nothing in all others. -/
theorem exists_of_sum_eq_one {α : Type} [Fintype α] [DecidableEq α] {f : α → Nat}
    (h : ∑ a, f a = 1) : ∃ a, ∀ b, f b = if b = a then 1 else 0 := by
  obtain ⟨a, -, ha⟩ := Finset.exists_ne_zero_of_sum_ne_zero (h.trans_ne Nat.one_ne_zero)
  have hsum := Finset.add_sum_erase Finset.univ f (Finset.mem_univ a)
  have hothers : ∑ b ∈ Finset.univ.erase a, f b = 0 := by omega
  refine ⟨a, ?_⟩
  intro b
  split
  · next hb =>
    rw [hb]
    omega
  · next hb => exact Finset.sum_eq_zero_iff.1 hothers b (Finset.mem_erase.2 ⟨hb, Finset.mem_univ b⟩)

/-! ### What an outbox has taken -/

/-- Either order writes the settlements that there are. -/
theorem DeliveryOrder.arrange_perm (order : DeliveryOrder) (cs : List Settlement) :
    (order.arrange cs).Perm cs := by
  cases order
  · exact List.mergeSort_perm _ _
  · exact .refl cs

/-- Writing a batch leaves the held settlements where they are. -/
theorem Outbox.sequencer_flush (o : Outbox) : o.flush.sequencer = o.sequencer := by
  by_cases hb : o.out.Bears (frames o.ready)
  · rw [flush_of_bears hb]
  · obtain ⟨cause, hflush⟩ := flush_of_not_bears hb
    rw [hflush]

/-- Writing a batch does not end an outbox well. -/
theorem Outbox.ended_flush {o : Outbox} (h : o.ended = none) : o.flush.ended ≠ some (.ok ()) := by
  by_cases hb : o.out.Bears (frames o.ready)
  · rw [flush_of_bears hb, h]
    simp
  · obtain ⟨cause, hflush⟩ := flush_of_not_bears hb
    rw [hflush]
    simp

/-- An outbox that has ended well holds nothing back. -/
theorem Outbox.Reaches.held_of_ended {capacity : Nat} {order : DeliveryOrder} {out : Sink}
    {log : FailureLog} {cs : List Settlement} {o : Outbox}
    (h : (Outbox.start capacity order out log).Reaches cs o) (hended : o.ended = some (.ok ())) :
    o.sequencer.held = [] := by
  cases h with
  | start => cases hended
  | @step _ o _ a _ hs =>
    rcases a with c | _ | _ | _ | _
    · obtain ⟨hnone, -, rfl⟩ := of_enqueue hs
      simp [hnone] at hended
    · obtain ⟨hnone, -, c, queue, -, rfl⟩ := of_receive hs
      simp [hnone] at hended
    · obtain ⟨hnone, -, rfl⟩ := of_flush hs
      exact absurd hended (ended_flush hnone)
    · obtain ⟨-, -, -, rfl⟩ := of_finish hs
      show o.drained.flush.sequencer.held = []
      rw [sequencer_flush]
      rfl
    · obtain ⟨-, cause, -, rfl⟩ := of_breakOff hs
      cases hended

namespace Serving

variable {server : Server} {out : Sink} {log : FailureLog} {ps : List Bytes} {cs : List Settlement}
  {s s' : Serving}

namespace Accounts

/-- An outbox that has not ended is at work, and one that has has written all it has taken. -/
theorem running_or_written (h : s.Accounts server out log ps cs) :
    Outbox.Running server.settings.order out log cs s.outbox ∨
      s.outbox.written = server.settings.order.arrange cs ∧ s.outbox.ready = [] ∧
        s.outbox.sequencer.held = [] ∧ Outbox.Ended server.settings.order out log cs s.outbox := by
  rcases hended : s.outbox.ended with _ | r
  · exact .inl (h.outbox.running hended)
  · obtain ⟨hok, -, -⟩ := h.ended (by simp [hended])
    rcases h.outbox.running_or_ended with hrun | hend | ⟨⟨e, he⟩, -⟩
    · exact .inl hrun
    · exact .inr ⟨hend.written_of_ok hok h.nodup_taken, hend.ready, h.outbox.held_of_ended hok, hend⟩
    · rw [hok] at he
      cases he

/-- What has been written, what is ready and what is held are all that the outbox has taken, as it is
to be written. -/
theorem written_append_ready_append_held (h : s.Accounts server out log ps cs) :
    s.outbox.written ++ s.outbox.ready ++ s.outbox.sequencer.giveUp.1 =
      server.settings.order.arrange cs := by
  rcases h.running_or_written with hrun | ⟨hwritten, hready, hheld, -⟩
  · rw [hrun.released, hrun.sequencer, Outbox.sequenced_append_giveUp _ h.nodup_taken]
  · rw [hwritten, hready, Sequencer.giveUp, hheld, List.append_nil, List.map_nil, List.append_nil]

/-- Settlements are held under their numbers. -/
theorem map_held (h : s.Accounts server out log ps cs) :
    s.outbox.sequencer.giveUp.1.map (·.seq) = s.outbox.sequencer.held.map (·.1) := by
  rcases h.running_or_written with hrun | ⟨-, -, hheld, -⟩
  · rw [hrun.sequencer]
    rcases server.settings.order
    · exact (Outbox.accounts_sequenced h.nodup_taken).map_held
    · rw [Outbox.sequenced, Sequencer.addAll_unordered rfl]
      rfl
  · rw [Sequencer.giveUp, hheld]
    rfl

/-- Every number that has been given is at the places as often as it was given, and no other is. -/
theorem sum_count (h : s.Accounts server out log ps cs) (k : Nat) :
    ∑ p, (s.numbersAt p).count k = (List.range s.extracted).count k := by
  have hall := (h.places.map (·.seq)).count_eq k
  have htaken := ((server.settings.order.arrange_perm cs).map (·.seq)).count_eq k
  have hdue : (s.inFlight.map s.server.due).map (·.seq) = s.inFlight.map (·.seq) := by
    rw [List.map_map]
    exact List.map_congr_left fun r _ => Conventions.seq_settle ..
  rw [server.map_seq_settlements, ← h.extracted] at hall
  rw [← h.written_append_ready_append_held] at htaken
  simp only [onTheWay, List.map_append, hdue, h.map_held, List.count_append] at hall htaken
  have hsum : ∑ p, (s.numbersAt p).count k =
      (s.numbersAt .inFlight).count k + ((s.numbersAt .waiting).count k +
        ((s.numbersAt .queued).count k + ((s.numbersAt .held).count k +
          ((s.numbersAt .ready).count k + (s.numbersAt .written).count k)))) := rfl
  rw [hsum]
  simp only [numbersAt]
  omega

/-- At every moment the streams have what has been written. -/
theorem wrote (h : s.Accounts server out log ps cs) (hout : out.IsReliable) :
    s.outbox.out = out.push (Sink.wire (Settlement.frames s.outbox.written)) ∧
      s.outbox.log = log.addAll (diagnostics s.outbox.written) := by
  rcases h.running_or_written with hrun | ⟨hwritten, -, -, hend⟩
  · exact ⟨hrun.output, hrun.logged⟩
  · have ha : Outbox.attempted server.settings.order out cs = s.outbox.written := by
      rw [hwritten, ← Outbox.sequenced_append_giveUp _ h.nodup_taken]
      exact if_pos (hout.bears _)
    rw [← ha]
    exact ⟨by rw [hend.output, hout.takes], hend.logged⟩

end Accounts

/-! ### The order in which settlements enter the queue -/

/-- What enters the queue of the outbox by an action. -/
def sent (s : Serving) : Action → List Settlement
  | .send seq => (s.waitingFor? seq).toList
  | _ => []

/-- Seeing to a frame is no matter for the outbox. -/
theorem outbox_extract (s : Serving) : s.extract.outbox = s.outbox := by
  unfold extract
  split
  · unfold accept
    split <;> rfl
  · rfl
  · rfl

/-- What enters the queue comes last in it, and what is taken from it was first. -/
theorem Accounts.queue (h : s.Accounts server out log ps cs) (hout : out.IsReliable) {a : Action}
    (hs : s.step? a = some s') :
    s.received a ++ s'.outbox.queue = s.outbox.queue ++ s.sent a := by
  rcases a with data | cause | _ | _ | seq | seq | seq | _ | _ | _ | _
  all_goals simp only [received, sent, List.append_nil, List.nil_append]
  · obtain ⟨-, -, rfl⟩ := of_read hs
    rfl
  · obtain ⟨-, rfl⟩ := of_whileReading hs
    rfl
  · obtain ⟨-, rfl⟩ := of_eof hs
    rfl
  · obtain ⟨-, rfl⟩ := of_extract hs
    rw [outbox_extract]
  · obtain ⟨r, -, rfl⟩ := of_settle hs
    rfl
  · obtain ⟨c, o, hc, ho, rfl⟩ := of_send hs
    obtain ⟨-, -, rfl⟩ := Outbox.of_enqueue ho
    rw [hc]
    rfl
  · -- a settlement is lost only where the outbox has failed, which it does not do with these streams
    rw [h.not_lose seq] at hs
    cases hs
  · obtain ⟨o, ho, rfl⟩ := of_outboxStep hs
    obtain ⟨-, -, c, queue, hqueue, rfl⟩ := Outbox.of_receive ho
    rw [Outbox.arrivals, hqueue]
    rfl
  · obtain ⟨o, ho, rfl⟩ := of_outboxStep hs
    obtain ⟨hnone, -, rfl⟩ := Outbox.of_flush ho
    rw [Outbox.flush_of_bears (h.bears hout hnone _)]
  · obtain ⟨o, ho, rfl⟩ := of_outboxStep (of_finish hs).2
    obtain ⟨hnone, -, -, rfl⟩ := Outbox.of_finish ho
    show s.outbox.drained.flush.queue = s.outbox.queue
    rw [Outbox.flush_of_bears (o := s.outbox.drained) (h.bears hout hnone _)]
    rfl
  · rw [h.not_breakOff hout] at hs
    cases hs

end Serving

/-- From `f₀` the feed comes to `f` by any number of steps, and these settlements enter the queue on
the way, in this order. -/
inductive Feed.Sends (f₀ : Feed) : List Settlement → Feed → Prop where
  /-- Nothing has happened. -/
  | start : Sends f₀ [] f₀
  /-- One more step. -/
  | step {cs : List Settlement} {f f' : Feed} {a : Serving.Action} :
      Sends f₀ cs f → f.Step a f' → Sends f₀ (cs ++ f.serving.sent a) f'

namespace Feed

variable {server : Server} {out : Sink} {log : FailureLog} {input : Bytes} {f f' f₀ : Feed}

/-- Whatever steps are taken, some settlements enter the queue on the way. -/
theorem Reaches.exists_sends (h : f₀.Reaches f) : ∃ cs, f₀.Sends cs f := by
  induction h with
  | refl => exact ⟨[], .start⟩
  | tail _ hs ih =>
    obtain ⟨a, hs⟩ := hs
    obtain ⟨cs, hsends⟩ := ih
    exact ⟨_, hsends.step hs⟩

/-- A step of a feed is a step of what it serves. -/
theorem Step.step? {a : Serving.Action} (h : f.Step a f') : f.serving.step? a = some f'.serving := by
  cases h with
  | read hs => exact hs
  | eof hs => exact hs
  | inner _ hs => exact hs

/-- What has entered the queue has been taken from it, in the same order, or is in it. -/
theorem Sends.inv {cs : List Settlement} (hout : out.IsReliable)
    (h : (Feed.start server out log input).Sends cs f) :
    ∃ ps taken, Inv server out log input ps taken f ∧ cs = taken ++ f.serving.outbox.queue := by
  induction h with
  | start => exact ⟨[], [], inv_start server out log input, rfl⟩
  | @step cs f f' a _ hs ih =>
    obtain ⟨ps, taken, hinv, rfl⟩ := ih
    refine ⟨_, _, hinv.step hout hs, ?_⟩
    rw [List.append_assoc, List.append_assoc, hinv.accounts.queue hout hs.step?]

end Feed

/-- The same server, answering in order of the requests. -/
def Server.inOrder (server : Server) : Server :=
  { server with settings := { server.settings with order := .ordered } }

namespace Serving

/-- Whether both streams have what they had at the start, and behind it what is to be written of
settlements, in their order: the main output their frames, whole, and the log, if it is switched on,
the lines of their messages. -/
def Wrote (s : Serving) (out : Sink) (log : FailureLog) (cs : List Settlement) : Prop :=
  s.outbox.out.taken = out.taken ++ Sink.wire (Settlement.frames cs) ∧
    s.outbox.log.taken = log.taken ++
      if log.isEnabled then FailureLog.lines (diagnostics cs) else []

end Serving

namespace Feed

variable {server : Server} {out : Sink} {log : FailureLog} {input : Bytes} {ps : List Bytes}
  {cs : List Settlement} {f f' : Feed}

/-- At every moment of a run the streams have what has been written. -/
theorem Inv.wrote (h : Inv server out log input ps cs f) (hout : out.IsReliable)
    (hlog : log.IsReliable) : f.serving.Wrote out log f.serving.outbox.written := by
  obtain ⟨hw, hl⟩ := h.accounts.wrote hout
  constructor
  · rw [hw]
    rfl
  · rw [hl, FailureLog.taken_addAll hlog]

/-- A run that has ended has taken all frames out, and written the settlements of all. -/
theorem Inv.written_of_result (h : Inv server out log input ps cs f) {r : Except CallError Unit}
    (hr : f.serving.result? = some r) :
    f.serving.outbox.queue = [] ∧ f.serving.outbox.written = server.settings.order.arrange cs ∧
      cs.Perm (server.settlements (server.reading input).payloads) := by
  obtain ⟨hended, hintake⟩ := result_eq_some hr
  have hi : f.serving.intake.isEnded := by
    rcases hintake with ⟨e, hi, -⟩ | ⟨hi, -⟩ <;> rw [hi] <;> rfl
  have hway := h.accounts.onTheWay_of_ended hended
  have hplaces := h.accounts.places
  rw [hway, List.nil_append, ← h.payloads (.inl hi)] at hplaces
  refine ⟨(h.accounts.ended hended).2.2, ?_, hplaces⟩
  rcases h.accounts.running_or_written with hrun | ⟨hwritten, -⟩
  · rw [hrun.ended] at hended
    cases hended
  · exact hwritten

/-- A run that has ended has written all that entered the queue, the settlements of all frames. -/
theorem Sends.written_of_result (h : (Feed.start server out log input).Sends cs f) (hout : out.IsReliable)
    {r : Except CallError Unit} (hr : f.serving.result? = some r) :
    f.serving.outbox.written = server.settings.order.arrange cs ∧
      cs.Perm (server.settlements (server.reading input).payloads) := by
  obtain ⟨ps, taken, hinv, rfl⟩ := h.inv hout
  obtain ⟨hqueue, hwritten, hall⟩ := hinv.written_of_result hr
  rw [hqueue, List.append_nil]
  exact ⟨hwritten, hall⟩

/-- For every server, in either order of responses, both streams of which are reliable, every stream
of bytes and every moment of a run. The number of each frame that has been taken out is at one place,
once; numbers that have not been given are at none; and the streams have exactly what has been
written. Where responses go out as handlers settle, a run that has ended has written the settlements in
the order in which they entered the queue; and a run of the same server on the same stream that
answers in order of the requests, once it has ended, has written the same frames and the same messages
up to their order. -/
theorem one_place_for_each_request (hout : out.IsReliable) (hlog : log.IsReliable)
    (h : (start server out log input).Reaches f) :
    (∀ k < f.serving.extracted,
      ∃ p, ∀ q, (f.serving.numbersAt q).count k = if q = p then 1 else 0) ∧
    (∀ k, f.serving.extracted ≤ k → ∀ q, k ∉ f.serving.numbersAt q) ∧
    f.serving.Wrote out log f.serving.outbox.written ∧
    (server.settings.order = .unordered → ∀ r, f.serving.result? = some r →
      ∀ cs, (start server out log input).Sends cs f →
        f.serving.Wrote out log cs ∧
        ∀ f' r', (start server.inOrder out log input).Reaches f' → f'.serving.result? = some r' →
          ∃ ds, f'.serving.Wrote out log ds ∧ (frames cs).Perm (frames ds) ∧
            (diagnostics cs).Perm (diagnostics ds)) := by
  obtain ⟨ps, taken, hinv⟩ := inv_of_reaches hout h
  refine ⟨?_, ?_, hinv.wrote hout hlog, ?_⟩
  · -- all places together hold each number once
    intro k hk
    apply exists_of_sum_eq_one
    rw [hinv.accounts.sum_count, List.count_eq_one_of_mem List.nodup_range (List.mem_range.2 hk)]
  · intro k hk q hmem
    have hnone : (List.range f.serving.extracted).count k = 0 := by
      rw [List.count_eq_zero, List.mem_range]
      omega
    rw [← hinv.accounts.sum_count, Finset.sum_eq_zero_iff] at hnone
    exact List.count_eq_zero.1 (hnone q (Finset.mem_univ q)) hmem
  · intro hunordered r hr cs hsends
    obtain ⟨hwritten, hall⟩ := hsends.written_of_result hout hr
    rw [hunordered] at hwritten
    have hsent : f.serving.outbox.written = cs := hwritten
    refine ⟨hsent ▸ hinv.wrote hout hlog, ?_⟩
    intro f' r' h' hr'
    obtain ⟨ps', taken', hinv'⟩ := inv_of_reaches hout h'
    obtain ⟨-, hwritten', hall'⟩ := hinv'.written_of_result hr'
    have hsame : cs.Perm (server.inOrder.settings.order.arrange taken') :=
      hall.trans (hall'.symm.trans (DeliveryOrder.arrange_perm _ _).symm)
    exact ⟨_, hwritten' ▸ hinv'.wrote hout hlog, hsame.filterMap _, hsame.filterMap _⟩

/-- Two lines, of which one does not hold a value, served as handlers settle and in order. The value that
the other holds is written by both runs, and the log of both has one message. -/
theorem one_place_for_each_of_two_lines :
    let server : Server :=
      ⟨{ ServerSettings.standard with conventions := ⟨.newline, .raw⟩, order := .unordered },
        .single (.ofOutcome .returned)⟩
    let log : FailureLog := ⟨some .unlimited⟩
    let input : Bytes := [49, 10, 120, 10]
    Sink.unlimited.IsReliable ∧ log.IsReliable ∧
      ∃ f r cs f' r' ds, (start server .unlimited log input).Sends cs f ∧
        f.serving.result? = some r ∧ f.serving.Wrote .unlimited log cs ∧
        (∀ k < f.serving.extracted,
          ∃ p, ∀ q, (f.serving.numbersAt q).count k = if q = p then 1 else 0) ∧
        (start server.inOrder .unlimited log input).Reaches f' ∧
        f'.serving.result? = some r' ∧ f'.serving.Wrote .unlimited log ds ∧
        (frames cs).Perm (frames ds) ∧ (diagnostics cs).Perm (diagnostics ds) ∧
        f.serving.outbox.out.taken = [49, 10] ∧ f'.serving.outbox.out.taken = [49, 10] ∧
        f.serving.outbox.log.taken = Text.encode "error: invalid JSON\n" ∧
        f'.serving.outbox.log.taken = Text.encode "error: invalid JSON\n" := by
  intro server log input
  obtain ⟨hout, hlog, f, r, hreach, hr⟩ := exists_ended server input
  obtain ⟨-, -, f', r', hreach', hr'⟩ := exists_ended server.inOrder input
  obtain ⟨cs, hsends⟩ := hreach.exists_sends
  obtain ⟨hplaces, -, -, hend⟩ := one_place_for_each_request hout hlog hreach
  obtain ⟨hwrote, hordered⟩ := hend rfl r hr cs hsends
  obtain ⟨ds, hwrote', hframes, hdiagnostics⟩ := hordered f' r' hreach' hr'
  have hpayloads : (server.reading input).payloads = [[49], [120]] :=
    (@Server.reading_stream server [[49], [120]] rfl (by decide)).1
  have hall := (hsends.written_of_result hout hr).2
  rw [hpayloads] at hall
  -- There is one frame and one message, so that their order does not matter.
  have hframe : frames cs = [⟨[], [49], [10]⟩] :=
    List.perm_singleton.1 ((hall.filterMap _).trans (.of_eq (by decide +kernel)))
  have hmessage : diagnostics cs = ["invalid JSON"] :=
    List.perm_singleton.1 ((hall.filterMap _).trans (.of_eq (by decide +kernel)))
  have hframe' : frames ds = [⟨[], [49], [10]⟩] := List.perm_singleton.1 (hframe ▸ hframes.symm)
  have hmessage' : diagnostics ds = ["invalid JSON"] :=
    List.perm_singleton.1 (hmessage ▸ hdiagnostics.symm)
  have hw : ∀ {s : Serving} {es : List Settlement}, s.Wrote .unlimited log es →
      frames es = [⟨[], [49], [10]⟩] → diagnostics es = ["invalid JSON"] →
      s.outbox.out.taken = [49, 10] ∧ s.outbox.log.taken = Text.encode "error: invalid JSON\n" := by
    rintro s es ⟨hout, hlog⟩ hframe hmessage
    rw [hout, hlog, hframe, hmessage]
    decide +kernel
  obtain ⟨houtput, hlogged⟩ := hw hwrote hframe hmessage
  obtain ⟨houtput', hlogged'⟩ := hw hwrote' hframe' hmessage'
  exact ⟨hout, hlog, f, r, cs, f', r', ds, hsends, hr, hwrote, hplaces, hreach', hr', hwrote', hframes,
    hdiagnostics, houtput, houtput', hlogged, hlogged'⟩

end Feed
end FramedCall
