import Mathlib.Data.List.Basic
import Mathlib.Order.Bounds.Defs
import FramedCall.Proofs.Outbox.Sequencing
import FramedCall.Proofs.Stream.Sink

/-!
# What an outbox writes

`Outbox.Reaches` follows an outbox through any of its actions and keeps the settlements that have
been taken from the queue, in the order in which they came. What has been released, what is held and
what both streams have taken are functions of that list alone (`Running`, `Ended`,
`Reaches.running_or_ended`): how many settlements were taken between two writes has no part in it,
also where the main output fails at some point. The main statement is `releases_and_writes_in_order`.
-/

namespace FramedCall

namespace Settlement

/-- The frames of settlements. -/
def frames (cs : List Settlement) : List Frame :=
  cs.filterMap (·.frame)

/-- The messages of settlements. -/
def diagnostics (cs : List Settlement) : List String :=
  cs.filterMap (·.diagnostic)

/-- The frames of settlements come one behind the other. -/
@[simp] theorem frames_append (cs ds : List Settlement) :
    frames (cs ++ ds) = frames cs ++ frames ds := by
  simp [frames]

/-- The messages of settlements come one behind the other. -/
@[simp] theorem diagnostics_append (cs ds : List Settlement) :
    diagnostics (cs ++ ds) = diagnostics cs ++ diagnostics ds := by
  simp [diagnostics]

end Settlement

open Settlement (frames diagnostics)

namespace Outbox

/-- What an action takes from the queue. -/
def arrivals (o : Outbox) : Action → List Settlement
  | .receive => o.queue.head?.toList
  | .enqueue _ | .flush | .finish | .breakOff => []

/-- From `o₀` the outbox can come to be `o`, having taken the settlements `cs` from its queue. -/
inductive Reaches (o₀ : Outbox) : List Settlement → Outbox → Prop where
  /-- Nothing has happened. -/
  | start : Reaches o₀ [] o₀
  /-- One more action. -/
  | step {cs : List Settlement} {o o' : Outbox} {a : Action} :
      Reaches o₀ cs o → o.step? a = some o' → Reaches o₀ (cs ++ o.arrivals a) o'

/-- The settlements that are released when `cs` have come, and the sequencer behind them. -/
def sequenced (order : DeliveryOrder) (cs : List Settlement) : List Settlement × Sequencer :=
  (Sequencer.start order).addAll cs

/-- The settlements that an outbox has tried to write when it has ended: all that have come, or those
that were released when the main output failed. -/
def attempted (order : DeliveryOrder) (out : Sink) (cs : List Settlement) : List Settlement :=
  if out.Bears (frames (sequenced order cs).1) then
    (sequenced order cs).1 ++ (sequenced order cs).2.giveUp.1
  else (sequenced order cs).1

/-- An outbox at work that has taken `cs` from its queue and writes to `out` and `log`. -/
structure Running (order : DeliveryOrder) (out : Sink) (log : FailureLog) (cs : List Settlement)
    (o : Outbox) : Prop where
  /-- It has not ended. -/
  ended : o.ended = none
  /-- What is released is written or ready. -/
  released : o.written ++ o.ready = (sequenced order cs).1
  /-- What is held is held by the sequencer. -/
  sequencer : o.sequencer = (sequenced order cs).2
  /-- Nothing is ready that has not been taken in this batch. -/
  ready : o.received = 0 → o.ready = []
  /-- What is written could be written. -/
  bears : out.Bears (frames o.written)
  /-- The main output has the frames. -/
  output : o.out = out.push (Sink.wire (frames o.written))
  /-- The log has the messages. -/
  logged : o.log = log.addAll (diagnostics o.written)

/-- An outbox that has ended after it has taken `cs` from its queue, and not because somebody broke it
off. -/
structure Ended (order : DeliveryOrder) (out : Sink) (log : FailureLog) (cs : List Settlement)
    (o : Outbox) : Prop where
  /-- It has ended. -/
  ended : o.ended.isSome
  /-- It has ended well, and written all, if the main output takes everything. -/
  good : out.Bears (frames (attempted order out cs)) → o.ended = some (.ok ()) ∧
    o.written = (sequenced order cs).1 ++ (sequenced order cs).2.giveUp.1
  /-- It has failed if the main output does not. -/
  bad : ¬ out.Bears (frames (attempted order out cs)) → ∃ cause, o.ended = some (.error (.io cause))
  /-- Nothing is left to be written. -/
  ready : o.ready = []
  /-- The main output has what it takes of the frames. -/
  output : o.out = out.push (out.takes (Sink.wire (frames (attempted order out cs))))
  /-- The log has the messages. -/
  logged : o.log = log.addAll (diagnostics (attempted order out cs))

variable {order : DeliveryOrder} {out : Sink} {log : FailureLog} {cs : List Settlement}
  {o o' : Outbox}

/-! ### Writing what is ready -/

/-- What is ready is written where the main output takes it. -/
theorem flush_of_bears (h : o.out.Bears (frames o.ready)) :
    o.flush = { o with
      ready := []
      received := 0
      out := o.out.push (Sink.wire (frames o.ready))
      log := o.log.addAll (diagnostics o.ready)
      written := o.written ++ o.ready } := by
  obtain ⟨h₂, h₁⟩ := Sink.writeFrames_device o.out (frames o.ready)
  rw [h.1] at h₂
  have hw : writeFrames Sink.device o.out (o.ready.filterMap (·.frame)) =
      (.ok (), o.out.push (Sink.wire (frames o.ready))) := Prod.ext (h₁.2 h) h₂
  simp only [flush, hw, diagnostics]

/-- The outbox fails where the main output does not take all that is ready. -/
theorem flush_of_not_bears (h : ¬ o.out.Bears (frames o.ready)) :
    ∃ cause, o.flush = { o with
      queue := []
      ready := []
      received := 0
      out := o.out.push (o.out.takes (Sink.wire (frames o.ready)))
      log := o.log.addAll (diagnostics o.ready)
      ended := some (.error (.io cause)) } := by
  obtain ⟨h₂, h₁⟩ := Sink.writeFrames_device o.out (frames o.ready)
  rcases hr : (writeFrames Sink.device o.out (frames o.ready)).1 with cause | ⟨⟩
  · have hw : writeFrames Sink.device o.out (o.ready.filterMap (·.frame)) =
        (.error cause, o.out.push (o.out.takes (Sink.wire (frames o.ready)))) := Prod.ext hr h₂
    exact ⟨cause, by simp only [flush, hw, fail, diagnostics]⟩
  · exact absurd (h₁.1 hr) h

section Written

variable {ws rs : List Settlement}

/-- Frames behind written ones can be written if all of them can. -/
theorem bears_of_written (hws : out.Bears (frames ws)) :
    (out.push (Sink.wire (frames ws))).Bears (frames rs) ↔ out.Bears (frames (ws ++ rs)) := by
  rw [Settlement.frames_append, Sink.bears_append, and_iff_right hws]

/-- Frames behind written ones are taken as if all were written at once. -/
theorem push_takes_of_written (hws : out.Bears (frames ws)) :
    (out.push (Sink.wire (frames ws))).push
        ((out.push (Sink.wire (frames ws))).takes (Sink.wire (frames rs))) =
      out.push (out.takes (Sink.wire (frames (ws ++ rs)))) := by
  rw [Settlement.frames_append, Sink.wire_append, Sink.takes_append hws.1, Sink.push_push]

/-- Messages behind logged ones are logged as if all were logged at once. -/
theorem addAll_of_written (log : FailureLog) :
    (log.addAll (diagnostics ws)).addAll (diagnostics rs) = log.addAll (diagnostics (ws ++ rs)) := by
  rw [Settlement.diagnostics_append, FailureLog.addAll_append]

end Written

/-! ### What an action takes -/

/-- What it takes for a settlement to enter the queue. -/
theorem of_enqueue {c : Settlement} (h : o.step? (.enqueue c) = some o') :
    o.ended = none ∧ o.queue.length < o.capacity ∧ o' = { o with queue := o.queue ++ [c] } := by
  simp only [step?] at h
  split at h
  · next hopen =>
    cases h
    exact ⟨by simpa using hopen.1, hopen.2, rfl⟩
  · cases h

/-- What it takes for a settlement to be taken from the queue. -/
theorem of_receive (h : o.step? .receive = some o') :
    o.ended = none ∧ o.received < maxBatch ∧ ∃ c queue, o.queue = c :: queue ∧
      o' = { o with
        queue
        sequencer := (o.sequencer.add c).2
        ready := o.ready ++ (o.sequencer.add c).1
        received := o.received + 1 } := by
  simp only [step?] at h
  split at h
  · next c queue hended hq =>
    split at h
    · next hroom =>
      cases h
      exact ⟨hended, hroom, c, queue, hq, rfl⟩
    · cases h
  · cases h

/-- What it takes for a batch to be written. -/
theorem of_flush (h : o.step? .flush = some o') :
    o.ended = none ∧ 0 < o.received ∧ o' = o.flush := by
  simp only [step?] at h
  split at h
  · next hopen =>
    cases h
    exact ⟨by simpa using hopen.1, hopen.2, rfl⟩
  · cases h

/-- An outbox that writes what is held, because no more can come. -/
def drained (o : Outbox) : Outbox :=
  { o with sequencer := o.sequencer.giveUp.2, ready := o.sequencer.giveUp.1 }

/-- What it takes for an outbox to end. -/
theorem of_finish (h : o.step? .finish = some o') :
    o.ended = none ∧ o.queue = [] ∧ o.received = 0 ∧
      o' = { o.drained.flush with ended := some (o.drained.flush.ended.getD (.ok ())) } := by
  simp only [step?] at h
  split at h
  · next hopen =>
    cases h
    exact ⟨by simpa using hopen.1, by simpa using hopen.2.1, hopen.2.2, rfl⟩
  · cases h

/-- Breaking off takes a main output that is broken. -/
theorem of_breakOff (h : o.step? .breakOff = some o') :
    o.ended = none ∧ ∃ cause, o.out.broken = some cause ∧ o' = o.fail cause := by
  simp only [step?] at h
  split at h
  · next hopen =>
    obtain ⟨cause, hcause, rfl⟩ := Option.map_eq_some_iff.1 h
    exact ⟨by simpa using hopen, cause, hcause, rfl⟩
  · cases h

/-- Nothing happens to an outbox that has ended. -/
theorem step?_eq_none_of_ended (h : o.ended.isSome) (a : Action) : o.step? a = none := by
  obtain ⟨r, hr⟩ := Option.isSome_iff_exists.1 h
  rcases a with c | _ | _ | _ | _ <;> simp [step?, hr]

/-! ### What an action preserves -/

/-- At the start the outbox is at work and has written nothing. -/
theorem running_start (capacity : Nat) (order : DeliveryOrder) (out : Sink) (log : FailureLog) :
    Running order out log [] (start capacity order out log) :=
  ⟨rfl, rfl, rfl, fun _ => rfl, Sink.bears_nil out, by simp [start, frames, Sink.wire],
    by simp [start, diagnostics, FailureLog.addAll]⟩

/-- A settlement that enters the queue is not seen to yet. -/
theorem Running.enqueue (h : Running order out log cs o) {c : Settlement}
    (hs : o.step? (.enqueue c) = some o') : Running order out log cs o' := by
  obtain ⟨-, -, rfl⟩ := of_enqueue hs
  exact ⟨h.ended, h.released, h.sequencer, h.ready, h.bears, h.output, h.logged⟩

/-- A settlement taken from the queue releases what it does. -/
theorem Running.receive (h : Running order out log cs o) (hs : o.step? .receive = some o') :
    Running order out log (cs ++ o.arrivals .receive) o' := by
  obtain ⟨-, -, c, queue, hq, rfl⟩ := of_receive hs
  have harr : o.arrivals .receive = [c] := by simp [arrivals, hq]
  have hadd : sequenced order (cs ++ [c]) =
      ((sequenced order cs).1 ++ (o.sequencer.add c).1, (o.sequencer.add c).2) := by
    rw [sequenced, Sequencer.addAll_append, Sequencer.addAll_singleton, h.sequencer]
    rfl
  rw [harr]
  refine ⟨h.ended, ?_, ?_, by simp, h.bears, h.output, h.logged⟩
  · rw [hadd, ← h.released, List.append_assoc]
  · rw [hadd]

/-- What is ready is written, or the outbox ends. -/
theorem Running.flush (h : Running order out log cs o) (hs : o.step? .flush = some o') :
    Running order out log cs o' ∨ Ended order out log cs o' := by
  obtain ⟨-, -, rfl⟩ := of_flush hs
  -- whether the stream takes what is ready is whether it takes all up to there, since it took what was before
  by_cases hb : out.Bears (frames (sequenced order cs).1)
  · have hready : o.out.Bears (frames o.ready) := by
      rwa [h.output, bears_of_written h.bears, h.released]
    rw [flush_of_bears hready]
    refine .inl ⟨h.ended, ?_, h.sequencer, fun _ => rfl, ?_, ?_, ?_⟩
    · rw [List.append_nil, h.released]
    · rwa [h.released]
    · rw [h.output, Sink.push_push, ← Sink.wire_append, ← Settlement.frames_append]
    · rw [h.logged, addAll_of_written]
  · have hready : ¬ o.out.Bears (frames o.ready) := by
      rwa [h.output, bears_of_written h.bears, h.released]
    have hall : attempted order out cs = (sequenced order cs).1 := if_neg hb
    obtain ⟨cause, hflush⟩ := flush_of_not_bears hready
    rw [hflush]
    refine .inr ⟨rfl, fun hb' => absurd (hall ▸ hb') hb, fun _ => ⟨cause, rfl⟩, rfl, ?_, ?_⟩
    · rw [hall, h.output, push_takes_of_written h.bears, h.released]
    · rw [hall, h.logged, addAll_of_written, h.released]

/-- When no more can come, what is held is written and the outbox ends. -/
theorem Running.finish (h : Running order out log cs o) (hs : o.step? .finish = some o') :
    Ended order out log cs o' := by
  obtain ⟨-, -, hreceived, rfl⟩ := of_finish hs
  have hwritten : o.written = (sequenced order cs).1 := by
    rw [← h.released, h.ready hreceived, List.append_nil]
  -- at this point nothing is ready, so what is attempted is what has been written and what is given up
  have hall : attempted order out cs = o.written ++ o.drained.ready := by
    rw [drained, hwritten, h.sequencer]
    exact if_pos (hwritten ▸ h.bears)
  have houtput : o.drained.out = out.push (Sink.wire (frames o.written)) := h.output
  have hlogged : o.drained.log = log.addAll (diagnostics o.written) := h.logged
  by_cases hb : out.Bears (frames (attempted order out cs))
  · have hready : o.drained.out.Bears (frames o.drained.ready) := by
      rwa [houtput, bears_of_written h.bears, ← hall]
    rw [flush_of_bears hready]
    refine ⟨rfl, fun _ => ⟨?_, ?_⟩, fun hb' => absurd hb hb', rfl, ?_, ?_⟩
    · simp only [drained, h.ended, Option.getD_none]
    · simp only [drained, hwritten, h.sequencer]
    · rw [hb.1, hall, Settlement.frames_append, Sink.wire_append]
      simp only [houtput, Sink.push_push]
    · simp only [hall, hlogged, addAll_of_written]
  · have hready : ¬ o.drained.out.Bears (frames o.drained.ready) := by
      rwa [houtput, bears_of_written h.bears, ← hall]
    obtain ⟨cause, hflush⟩ := flush_of_not_bears hready
    rw [hflush]
    refine ⟨rfl, fun hb' => absurd hb' hb, fun _ => ⟨cause, rfl⟩, rfl, ?_, ?_⟩
    · simp only [hall, houtput, push_takes_of_written h.bears]
    · simp only [hall, hlogged, addAll_of_written]

/-! ### Runs -/

/-- Wherever an outbox gets, it is at work or has ended, or it was broken off. -/
theorem Reaches.running_or_ended {capacity : Nat}
    (h : (Outbox.start capacity order out log).Reaches cs o) :
    Running order out log cs o ∨ Ended order out log cs o ∨
      (∃ e, o.ended = some (.error e)) ∧ out.broken ≠ none := by
  induction h with
  | start => exact .inl (running_start capacity order out log)
  | @step cs o o' a _ hs ih =>
    rcases ih with hrun | hend | ⟨⟨e, he⟩, -⟩
    · rcases a with c | _ | _ | _ | _
      · left
        simpa [arrivals] using hrun.enqueue hs
      · exact .inl (hrun.receive hs)
      · simpa [arrivals, or_assoc] using (hrun.flush hs).imp_right .inl
      · refine .inr (.inl ?_)
        simpa [arrivals] using hrun.finish hs
      · obtain ⟨-, cause, hcause, rfl⟩ := of_breakOff hs
        rw [hrun.output] at hcause
        refine .inr (.inr ⟨⟨_, rfl⟩, ?_⟩)
        exact Option.ne_none_iff_exists'.2 ⟨cause, hcause⟩
    · -- nothing happens behind the end, however it was reached
      rw [step?_eq_none_of_ended hend.ended] at hs
      cases hs
    · rw [step?_eq_none_of_ended (by simp [he])] at hs
      cases hs

/-- What an outbox that keeps to the order of the requests has released and holds. -/
theorem accounts_sequenced (hdistinct : (cs.map (·.seq)).Nodup) :
    (sequenced .ordered cs).2.Accounts cs (sequenced .ordered cs).1 := by
  simpa [sequenced] using Sequencer.accounts_addAll Sequencer.accounts_start cs (by simpa using hdistinct)

/-- What is released and what is held at last are all that has come, as it is to be written. -/
theorem sequenced_append_giveUp (order : DeliveryOrder) (hdistinct : (cs.map (·.seq)).Nodup) :
    (sequenced order cs).1 ++ (sequenced order cs).2.giveUp.1 = order.arrange cs := by
  cases order with
  | ordered => exact (accounts_sequenced hdistinct).released_append_held
  | unordered =>
    have h : sequenced .unordered cs = (cs, .start .unordered) := Sequencer.addAll_unordered rfl cs
    rw [h]
    exact List.append_nil cs

/-- An outbox that has not ended is at work. -/
theorem Reaches.running {capacity : Nat} (h : (Outbox.start capacity order out log).Reaches cs o)
    (hnone : o.ended = none) : Running order out log cs o := by
  rcases h.running_or_ended with hrun | hend | ⟨⟨e, he⟩, -⟩
  · exact hrun
  · exact absurd hend.ended (by simp [hnone])
  · rw [hnone] at he
    cases he

/-- Released are the first requests without a gap, and held are the others that have come. -/
theorem Running.released_without_gap (h : Running .ordered out log cs o)
    (hdistinct : (cs.map (·.seq)).Nodup) :
    ∃ k, IsLeast {n | n ∉ cs.map (·.seq)} k ∧ (o.written ++ o.ready).map (·.seq) = List.range k ∧
      k ∉ o.sequencer.giveUp.1.map (·.seq) ∧
      o.written ++ o.ready ++ o.sequencer.giveUp.1 = Settlement.inOrder cs := by
  have hacc := accounts_sequenced hdistinct
  obtain ⟨hnot, hbelow⟩ := hacc.next_least
  rw [h.released, h.sequencer]
  refine ⟨_, ⟨hnot, ?_⟩, hacc.released, ?_, hacc.released_append_held⟩
  · intro n hn
    by_contra hlt
    exact hn (hbelow n (Nat.lt_of_not_le hlt))
  · rw [Sequencer.giveUp, hacc.map_held]
    intro hk
    obtain ⟨e, he, hek⟩ := List.mem_map.1 hk
    exact absurd (hacc.next_lt e he) (by omega)

/-- Released is what has come, and nothing is held. -/
theorem Running.released_as_come (h : Running .unordered out log cs o) :
    o.written ++ o.ready = cs ∧ o.sequencer.giveUp.1 = [] := by
  have hseq : sequenced .unordered cs = (cs, .start .unordered) := Sequencer.addAll_unordered rfl cs
  rw [h.released, h.sequencer, hseq]
  exact ⟨rfl, rfl⟩

/-- An outbox that has ended well has written all. -/
theorem Ended.written_of_ok (h : Ended order out log cs o) (hok : o.ended = some (.ok ()))
    (hdistinct : (cs.map (·.seq)).Nodup) : o.written = order.arrange cs := by
  by_cases hb : out.Bears (frames (attempted order out cs))
  · rw [(h.good hb).2, sequenced_append_giveUp order hdistinct]
  · obtain ⟨cause, hcause⟩ := h.bad hb
    rw [hok] at hcause
    cases hcause

/-- What has been written is what has been released where nothing is ready. -/
theorem Running.written_of_ready (h : Running order out log cs o) (hready : o.ready = []) :
    o.written = (sequenced order cs).1 := by
  rw [← h.released, hready, List.append_nil]

/-- For settlements with different numbers that come in any order and are written in any batches.
In order of the requests those released so far are the first `k`, where `k` is the least number that
has not come, and together with the held ones, which are released when no more can come, they are all
that have come, in order; otherwise they are released as they come. An outbox that has ended well has
written them all. As long as the reader does not hang up, what both streams have taken of the same
arrivals is the same, whatever the batches were. -/
theorem releases_and_writes_in_order {capacity : Nat} {order : DeliveryOrder} {out : Sink}
    {log : FailureLog} {cs : List Settlement} {o : Outbox} (hdistinct : (cs.map (·.seq)).Nodup)
    (h : (start capacity order out log).Reaches cs o) :
    (o.ended = none → order = .ordered →
      ∃ k, IsLeast {n | n ∉ cs.map (·.seq)} k ∧ (o.written ++ o.ready).map (·.seq) = List.range k ∧
        k ∉ o.sequencer.giveUp.1.map (·.seq) ∧
        o.written ++ o.ready ++ o.sequencer.giveUp.1 = Settlement.inOrder cs) ∧
    (o.ended = none → order = .unordered →
      o.written ++ o.ready = cs ∧ o.sequencer.giveUp.1 = []) ∧
    (o.ended = some (.ok ()) → o.written = order.arrange cs) ∧
    (out.broken = none → ∀ capacity' o', (start capacity' order out log).Reaches cs o' →
      o.ready = [] → o'.ready = [] → o.isClosed = o'.isClosed → o.out = o'.out ∧ o.log = o'.log) := by
  refine ⟨?_, ?_, ?_, ?_⟩
  · rintro hnone rfl
    exact (h.running hnone).released_without_gap hdistinct
  · rintro hnone rfl
    exact (h.running hnone).released_as_come
  · intro hok
    rcases h.running_or_ended with hrun | hend | ⟨⟨e, he⟩, -⟩
    · rw [hrun.ended] at hok
      cases hok
    · exact hend.written_of_ok hok hdistinct
    · rw [hok] at he
      cases he
  · intro hbroken capacity' o' h' hready hready' hclosed
    -- both are at work or both have ended, since their queues are closed alike
    rcases h.running_or_ended with hrun | hend | ⟨-, hb⟩
    · rcases h'.running_or_ended with hrun' | hend' | ⟨-, hb⟩
      · have hw := (hrun.written_of_ready hready).trans (hrun'.written_of_ready hready').symm
        rw [hrun.output, hrun'.output, hrun.logged, hrun'.logged, hw]
        exact ⟨rfl, rfl⟩
      · exact absurd hend'.ended (by simpa [isClosed, hrun.ended] using hclosed.symm)
      · exact absurd hbroken hb
    · rcases h'.running_or_ended with hrun' | hend' | ⟨-, hb⟩
      · exact absurd hend.ended (by simpa [isClosed, hrun'.ended] using hclosed)
      · rw [hend.output, hend'.output, hend.logged, hend'.logged]
        exact ⟨rfl, rfl⟩
      · exact absurd hbroken hb
    · exact absurd hbroken hb

/-- Two settlements that come in the wrong order are released in the right one, and the log is the same
whether they are written in one batch or in one each. -/
theorem releases_in_order_two_swapped :
    let cs : List Settlement := [⟨1, none, some "late"⟩, ⟨0, none, some "early"⟩]
    let log : FailureLog := ⟨some .unlimited⟩
    (cs.map (·.seq)).Nodup ∧ ∃ o o' : Outbox,
      (start 2 .ordered .unlimited log).Reaches cs o ∧ o.ended = none ∧
        o.written ++ o.ready = cs.reverse ∧
        (∃ k, IsLeast {n | n ∉ cs.map (·.seq)} k ∧
          (o.written ++ o.ready).map (·.seq) = List.range k ∧ k ∉ o.sequencer.giveUp.1.map (·.seq) ∧
          o.written ++ o.ready ++ o.sequencer.giveUp.1 = Settlement.inOrder cs) ∧
        (start 1 .ordered .unlimited log).Reaches cs o' ∧ o.log = o'.log ∧
        o.log.taken = Text.encode "error: early\nerror: late\n" := by
  intro cs log
  have hdistinct : (cs.map (·.seq)).Nodup := by decide
  have h₀ : ∀ capacity, (start capacity .ordered .unlimited log).Reaches [] _ := fun capacity => .start
  -- Both are taken before they are written.
  have h₁ := (h₀ 2).step (a := .enqueue ⟨1, none, some "late"⟩) rfl
  have h₂ := h₁.step (a := .enqueue ⟨0, none, some "early"⟩) rfl
  have h₃ := h₂.step (a := .receive) rfl
  have h₄ := h₃.step (a := .receive) rfl
  have h := h₄.step (a := .flush) rfl
  -- The first is taken, and what it makes ready, nothing, is written, before the second comes.
  have h₁' := (h₀ 1).step (a := .enqueue ⟨1, none, some "late"⟩) rfl
  have h₂' := h₁'.step (a := .receive) rfl
  have h₃' := h₂'.step (a := .flush) rfl
  have h₄' := h₃'.step (a := .enqueue ⟨0, none, some "early"⟩) rfl
  have h₅' := h₄'.step (a := .receive) rfl
  have h' := h₅'.step (a := .flush) rfl
  obtain ⟨hreleased, -, -, hstreams⟩ := releases_and_writes_in_order hdistinct h
  have hlog := (hstreams rfl 1 _ h' rfl rfl rfl).2
  exact ⟨hdistinct, _, _, h, rfl, rfl, hreleased rfl rfl, h', hlog, by decide +kernel⟩

end Outbox
end FramedCall
