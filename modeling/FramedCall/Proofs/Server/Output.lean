import Mathlib.Data.List.Basic
import Mathlib.Data.List.Nodup
import FramedCall.Proofs.Server.Feed
import FramedCall.Server.Backlog

/-!
# What a server writes

Once nothing is on the way any more, the main output has the frames of all requests, and the log has
the messages of all (`Serving.Accounts.output`). Every step of a run lowers `Feed.weight`, and where
nothing can happen inside any more nothing is on the way (`Serving.Accounts.onTheWay_of_stuck`): so
every run comes to rest, and can come to its end (`Feed.Inv.exists_result`). The main statement is
`Feed.output_of_ordered`: in order of the requests neither the pieces in which the stream is read, nor
the order in which handlers end, nor the batches have a part in what is written.
-/

namespace FramedCall

open Framing (Violation)
open Settlement (frames diagnostics)

/-! ### All that is owed, written -/

/-- Where numbers without a gap have come, nothing is held. -/
theorem Sequencer.Accounts.held_eq_nil {s : Sequencer} {cs out : List Settlement} {n : Nat}
    (h : s.Accounts cs out) (hall : (cs.map (·.seq)).Perm (List.range n)) : s.held = [] := by
  obtain ⟨hnot, -⟩ := h.next_least
  rw [hall.mem_iff, List.mem_range] at hnot
  apply List.eq_nil_iff_forall_not_mem.2
  intro e he
  have hmem : e.1 ∈ cs.map (·.seq) := (h.mem_seq_iff e.1).2 (.inr (List.mem_map_of_mem he))
  rw [hall.mem_iff, List.mem_range] at hmem
  have := h.next_lt e he
  omega

/-- Where numbers without a gap have come, all that has come is released. -/
theorem Outbox.sequenced_of_range {cs : List Settlement} {n : Nat} (order : DeliveryOrder)
    (hall : (cs.map (·.seq)).Perm (List.range n)) : (sequenced order cs).1 = order.arrange cs := by
  have hdistinct : (cs.map (·.seq)).Nodup := hall.nodup_iff.2 List.nodup_range
  rw [← sequenced_append_giveUp order hdistinct]
  have hheld : (sequenced order cs).2.giveUp.1 = [] := by
    cases order with
    | ordered =>
      have := (accounts_sequenced hdistinct).held_eq_nil hall
      simp [Sequencer.giveUp, this]
    | unordered =>
      have h : sequenced .unordered cs = (cs, .start .unordered) := Sequencer.addAll_unordered rfl cs
      rw [h]
      rfl
  rw [hheld, List.append_nil]

namespace Serving.Accounts

variable {server : Server} {out : Sink} {log : FailureLog} {ps : List Bytes} {cs : List Settlement}
  {s : Serving}

/-- Once nothing is on the way and nothing is ready, the outbox has taken all that is owed and written
it. -/
theorem output (h : s.Accounts server out log ps cs) (hout : out.IsReliable) (hway : s.onTheWay = [])
    (hready : s.outbox.ready = []) :
    cs.Perm (server.settlements ps) ∧
      s.outbox.out = out.push (Sink.wire (Settlement.frames (server.settings.order.arrange cs))) ∧
      s.outbox.log = log.addAll (diagnostics (server.settings.order.arrange cs)) := by
  have hperm : cs.Perm (server.settlements ps) := by
    have := h.places
    rwa [hway, List.nil_append] at this
  have hall : (cs.map (·.seq)).Perm (List.range ps.length) := by
    rw [← server.map_seq_settlements]
    exact hperm.map _
  refine ⟨hperm, ?_⟩
  rcases h.outbox.running_or_ended with hrun | hend | ⟨-, hb⟩
  · have hw : s.outbox.written = server.settings.order.arrange cs := by
      rw [hrun.written_of_ready hready, Outbox.sequenced_of_range _ hall]
    rw [← hw]
    exact ⟨hrun.output, hrun.logged⟩
  · have ha : Outbox.attempted server.settings.order out cs = server.settings.order.arrange cs := by
      rw [← Outbox.sequenced_append_giveUp _ h.nodup_taken]
      exact if_pos (hout.bears _)
    rw [← ha]
    exact ⟨by rw [hend.output, hout.takes], hend.logged⟩
  · exact absurd hout.broken hb

/-- In order of the requests it is written as the requests came. -/
theorem arrange_of_ordered (hperm : cs.Perm (server.settlements ps))
    (hordered : server.settings.order = .ordered) :
    server.settings.order.arrange cs = server.settlements ps := by
  rw [hordered]
  apply Settlement.inOrder_eq hperm.symm
  rw [server.map_seq_settlements]
  exact List.pairwise_lt_range

/-- Nothing is on the way where the outbox has ended. -/
theorem onTheWay_of_ended (h : s.Accounts server out log ps cs) (hended : s.outbox.ended.isSome) :
    s.onTheWay = [] := by
  obtain ⟨-, hsettled, hqueue⟩ := h.ended hended
  simp only [isSettled, Bool.and_eq_true, List.isEmpty_iff] at hsettled
  simp [onTheWay, hsettled.1.2, hsettled.2, hqueue]

/-- Nothing is ready any more where the outbox has ended. -/
theorem ready_of_ended (h : s.Accounts server out log ps cs) (hout : out.IsReliable)
    (hended : s.outbox.ended.isSome) : s.outbox.ready = [] := by
  rcases h.outbox.running_or_ended with hrun | hend | ⟨-, hb⟩
  · exact absurd hended (by simp [hrun.ended])
  · exact hend.ready
  · exact absurd hout.broken hb

end Serving.Accounts

/-! ### Every step counts -/

/-- How far the intake is from its end. -/
def Intake.weight : Intake → Nat
  | .reading => 1
  | .draining | .sending _ => 2
  | .ended _ => 0

/-- How far an outbox is from its end. -/
def Outbox.weight (o : Outbox) : Nat :=
  2 * o.queue.length + o.received + (if o.ended.isSome then 0 else 1)

/-- How far a stream is from its end, if no more is read. A frame is good for a request, a request for
a settlement, and a settlement for a place in the queue and in a batch. -/
def Serving.weight (s : Serving) : Nat :=
  6 * s.frames.weight + s.intake.weight + 4 * s.inFlight.length + 3 * s.waiting.length +
    s.outbox.weight

/-- How far a feed is from its end. -/
def Feed.weight (f : Feed) : Nat :=
  14 * f.rest.length + f.serving.weight

namespace Outbox

variable {o o' : Outbox}

/-- Writing a batch adds nothing. -/
theorem weight_flush_le (o : Outbox) :
    o.flush.queue.length ≤ o.queue.length ∧ o.flush.received = 0 ∧
      (o.ended.isSome → o.flush.ended.isSome) := by
  by_cases hb : o.out.Bears (frames o.ready)
  · rw [flush_of_bears hb]
    exact ⟨Nat.le_refl _, rfl, id⟩
  · obtain ⟨cause, hflush⟩ := flush_of_not_bears hb
    rw [hflush]
    exact ⟨Nat.zero_le _, rfl, fun _ => rfl⟩

/-- A settlement in the queue weighs two. -/
theorem weight_enqueue {c : Settlement} (h : o.step? (.enqueue c) = some o') :
    o'.weight = o.weight + 2 := by
  obtain ⟨-, -, rfl⟩ := of_enqueue h
  simp only [weight, List.length_append, List.length_singleton]
  omega

/-- Whatever the outbox does by itself lowers its weight. -/
theorem weight_lt {a : Action} (ha : ∀ c, a ≠ .enqueue c) (h : o.step? a = some o') :
    o'.weight < o.weight := by
  rcases a with c | _ | _ | _ | _
  · exact absurd rfl (ha c)
  · obtain ⟨-, -, c, queue, hq, rfl⟩ := of_receive h
    simp only [weight, hq, List.length_cons]
    omega
  · obtain ⟨hnone, hpos, rfl⟩ := of_flush h
    obtain ⟨hqueue, hreceived, -⟩ := o.weight_flush_le
    simp only [weight, hreceived, hnone, Option.isSome_none, Bool.false_eq_true, if_false]
    split <;> omega
  · obtain ⟨hnone, -, -, rfl⟩ := of_finish h
    obtain ⟨hqueue, hreceived, -⟩ := o.drained.weight_flush_le
    have hkept : o.drained.queue = o.queue := rfl
    rw [hkept] at hqueue
    simp only [weight, hreceived, hnone, Option.isSome_none, Option.isSome_some, Bool.false_eq_true,
      if_false, if_true]
    omega
  · obtain ⟨hnone, cause, -, rfl⟩ := of_breakOff h
    simp only [weight, fail, hnone, Option.isSome_none, Option.isSome_some, Bool.false_eq_true,
      List.length_nil, if_false, if_true]
    omega

end Outbox

namespace Serving

variable {s s' : Serving}

/-- Whatever the outbox does by itself lowers the weight of the stream. -/
theorem weight_outboxStep {a : Outbox.Action} (ha : ∀ c, a ≠ .enqueue c)
    (h : s.outboxStep? a = some s') : s'.weight < s.weight := by
  obtain ⟨o, ho, rfl⟩ := of_outboxStep h
  have := Outbox.weight_lt ha ho
  simp only [weight]
  omega

/-- An intake that is resumed is no farther from its end. -/
theorem weight_resumed_le (i : Intake) (seq : Nat) : (i.resumed seq).weight ≤ i.weight := by
  rcases i with _ | _ | n | r
  · exact Nat.le_refl _
  · exact Nat.le_refl _
  · by_cases hn : n = seq <;> simp [Intake.resumed, Intake.weight, hn]
  · exact Nat.le_refl _

/-- A settlement that departs weighs three. -/
theorem weight_depart {seq : Nat} {c : Settlement} (h : s.waitingFor? seq = some c) :
    (s.depart seq).weight + 3 ≤ s.weight := by
  have hlt := length_depart_lt h
  have hle := weight_resumed_le s.intake seq
  simp only [weight, depart] at hlt ⊢
  omega

/-- Taking a frame out lowers the weight, and so does finding none. -/
theorem weight_extract (hi : s.intake = .draining) : s.extract.weight < s.weight := by
  unfold extract
  split
  · next p frames hn =>
    have hw := Deframer.weight_next hn
    unfold accept
    split
    · simp only [weight, hi, Intake.weight, List.length_append, List.length_singleton]
      omega
    · simp only [weight, hi, Intake.weight, List.length_append, List.length_singleton]
      omega
  · next frames hn =>
    have hw := Deframer.weight_next_le hn
    simp only [Option.toList_none, List.length_nil] at hw
    split
    · simp only [weight, hi, Intake.weight]
      omega
    · simp only [weight, hi, Intake.weight]
      omega
  · simp only [weight, hi, Intake.weight]
    omega

/-- Whatever a party inside does lowers the weight. -/
theorem weight_lt {a : Action} (ha : a.isInner = true) (h : s.step? a = some s') :
    s'.weight < s.weight := by
  rcases of_inner ha h with rfl | ⟨seq, rfl⟩ | ⟨seq, rfl⟩ | ⟨seq, rfl⟩ | ⟨b, hb, h⟩
  · obtain ⟨hi, rfl⟩ := of_extract h
    exact weight_extract hi
  · obtain ⟨r, hr, rfl⟩ := of_settle h
    have hlt : (s.inFlight.filter (·.seq ≠ seq)).length < s.inFlight.length :=
      List.length_filter_lt_length_iff_exists.2
        ⟨r, List.mem_of_find?_eq_some hr, by simpa using List.find?_some hr⟩
    simp only [weight, List.length_append, List.length_singleton]
    omega
  · obtain ⟨c, o, hc, ho, rfl⟩ := of_send h
    have hqueue := Outbox.weight_enqueue ho
    have hdepart := weight_depart hc
    simp only [weight, depart] at hdepart ⊢
    omega
  · obtain ⟨c, hc, -, rfl⟩ := of_lose h
    have hdepart := weight_depart hc
    omega
  · exact weight_outboxStep hb h

end Serving

/-- Every step lowers the weight, so no run goes on for ever. -/
theorem Feed.Step.weight_lt {f f' : Feed} {a : Serving.Action} (h : f.Step a f') : f'.weight < f.weight := by
  cases h with
  | read hs =>
    obtain ⟨hdata, hi, rfl⟩ := Serving.of_read hs
    simp only [weight, Serving.weight, hi, Intake.weight, Deframer.weight_extend, List.length_append]
    omega
  | eof hs =>
    obtain ⟨hi, rfl⟩ := Serving.of_eof hs
    simp only [weight, Serving.weight, hi, Intake.weight, Deframer.weight_finish]
    omega
  | inner ha hs =>
    have := Serving.weight_lt ha hs
    simp only [weight]
    omega

/-- A run does not add to the weight; by induction on its steps. -/
theorem Feed.Reaches.weight_le {f f' : Feed} (h : f.Reaches f') : f'.weight ≤ f.weight := by
  induction h with
  | refl => exact Nat.le_refl _
  | tail _ hs ih =>
    obtain ⟨a, hs⟩ := hs
    exact Nat.le_trans (Nat.le_of_lt hs.weight_lt) ih

/-! ### Coming to rest -/

/-- Whether it is written or not, the queue keeps its capacity. -/
theorem Outbox.capacity_flush (o : Outbox) : o.flush.capacity = o.capacity := by
  by_cases hb : o.out.Bears (frames o.ready)
  · rw [flush_of_bears hb]
  · obtain ⟨cause, hfail⟩ := flush_of_not_bears hb
    rw [hfail]

/-- The queue holds at least one settlement. -/
theorem Outbox.Reaches.capacity_pos {capacity : Nat} {order : DeliveryOrder} {out : Sink}
    {log : FailureLog} {cs : List Settlement} {o : Outbox}
    (h : (Outbox.start capacity order out log).Reaches cs o) : 0 < o.capacity := by
  induction h with
  | start =>
    show 0 < max capacity 1
    omega
  | @step cs o o' a _ hs ih =>
    rcases a with c | _ | _ | _ | _
    · obtain ⟨-, -, rfl⟩ := of_enqueue hs
      exact ih
    · obtain ⟨-, -, c, queue, -, rfl⟩ := of_receive hs
      exact ih
    · obtain ⟨-, -, rfl⟩ := of_flush hs
      rwa [capacity_flush]
    · obtain ⟨-, -, -, rfl⟩ := of_finish hs
      show 0 < o.drained.flush.capacity
      rwa [capacity_flush]
    · obtain ⟨-, cause, -, rfl⟩ := of_breakOff hs
      exact ih

/-- Whether no party inside can do anything. -/
def Serving.Stuck (s : Serving) : Prop :=
  ∀ a : Action, a.isInner = true → s.step? a = none

namespace Serving

variable {server : Server} {out : Sink} {log : FailureLog} {ps : List Bytes} {cs : List Settlement}
  {s : Serving}

/-- A stuck outbox that has not ended has seen to all that has come. -/
theorem Stuck.outbox (hs : s.Stuck) (hnone : s.outbox.ended = none) :
    s.outbox.queue = [] ∧ s.outbox.received = 0 := by
  have hflush := hs .flush rfl
  have hreceive := hs .receive rfl
  have hreceived : s.outbox.received = 0 := by
    by_contra hne
    simp [step?, outboxStep?, Outbox.step?, hnone, Nat.pos_of_ne_zero hne] at hflush
  refine ⟨?_, hreceived⟩
  rcases hq : s.outbox.queue with _ | ⟨c, queue⟩
  · rfl
  · simp [step?, outboxStep?, Outbox.step?, hnone, hq, hreceived, Outbox.maxBatch] at hreceive

namespace Accounts

/-- Where all are stuck nothing is on the way, and the intake reads or has ended. -/
theorem onTheWay_of_stuck (h : s.Accounts server out log ps cs) (hs : s.Stuck) :
    s.onTheWay = [] ∧ (s.intake = .reading ∨ s.intake.isEnded) := by
  rcases hended : s.outbox.ended with _ | r
  · obtain ⟨hqueue, -⟩ := hs.outbox hended
    -- from the handlers to the queue: wherever something is on the way, a party could take it one step further
    have hinFlight : s.inFlight = [] := by
      rcases hf : s.inFlight with _ | ⟨r, rs⟩
      · rfl
      · have := hs (.settle r.seq) rfl
        simp [step?, request?, hf] at this
    have hwaiting : s.waiting = [] := by
      rcases hw : s.waiting with _ | ⟨c, ws⟩
      · rfl
      · have hroom := h.outbox.capacity_pos
        have := hs (.send c.seq) rfl
        simp [step?, waitingFor?, hw, outboxStep?, Outbox.step?, hended, hqueue, hroom] at this
    refine ⟨by simp [onTheWay, hinFlight, hwaiting, hqueue], ?_⟩
    rcases hi : s.intake with _ | _ | n | r
    · exact .inl rfl
    · have := hs .extract rfl
      simp [step?, hi] at this
    · have := h.sending n hi
      simp [hwaiting] at this
    · exact .inr rfl
  · have hsome : s.outbox.ended.isSome := by simp [hended]
    refine ⟨h.onTheWay_of_ended hsome, .inr ?_⟩
    have hsettled := (h.ended hsome).2.1
    simp only [isSettled, Bool.and_eq_true] at hsettled
    exact hsettled.1.1

/-- Where all are stuck nothing is ready. -/
theorem ready_of_stuck (h : s.Accounts server out log ps cs) (hout : out.IsReliable) (hs : s.Stuck) :
    s.outbox.ready = [] := by
  rcases hended : s.outbox.ended with _ | r
  · exact (h.outbox.running hended).ready (hs.outbox hended).2
  · exact h.ready_of_ended hout (by simp [hended])

/-- Where all are stuck and the intake has ended, serving has ended. -/
theorem result_of_stuck (h : s.Accounts server out log ps cs) (hs : s.Stuck)
    (hi : s.intake.isEnded) : s.result?.isSome := by
  have hended : s.outbox.ended.isSome := by
    rcases hended : s.outbox.ended with _ | r
    · obtain ⟨hqueue, hreceived⟩ := hs.outbox hended
      have hway := (h.onTheWay_of_stuck hs).1
      simp only [onTheWay, List.append_eq_nil_iff, List.map_eq_nil_iff] at hway
      have := hs .finish rfl
      simp [step?, isSettled, hi, hway.1.1, hway.1.2, outboxStep?, Outbox.step?, hended, hqueue,
        hreceived] at this
    · rfl
  obtain ⟨r, hr⟩ := Option.isSome_iff_exists.1 hended
  rcases hintake : s.intake with _ | _ | n | ⟨e | u⟩
  · simp [hintake, Intake.isEnded] at hi
  · simp [hintake, Intake.isEnded] at hi
  · simp [hintake, Intake.isEnded] at hi
  · simp [result?, hintake, hr]
  · simp [result?, hintake, hr]

end Accounts
end Serving

namespace Feed

/-- Whether nothing can happen but that the end of the stream is met. -/
def AtRest (f : Feed) : Prop :=
  (f.rest = [] ∨ f.serving.intake.isEnded) ∧ f.serving.Stuck

variable {server : Server} {out : Sink} {log : FailureLog} {input : Bytes} {ps : List Bytes}
  {cs : List Settlement} {f : Feed}

/-- Bytes that are there can be read. -/
theorem exists_read {rest : Bytes} {s : Serving} (hi : s.intake = .reading) (hrest : rest ≠ []) :
    ∃ a f', (⟨rest, s⟩ : Feed).Step a f' ∧
      (f'.serving.intake = .ended (.ok ()) → s.intake = .ended (.ok ())) := by
  have hlen : 0 < rest.length := List.length_pos_iff.2 hrest
  have hsize : 0 < s.server.readSize := by
    unfold Server.readSize
    omega
  have hfits : 0 < (rest.take s.server.readSize).length ∧
      (rest.take s.server.readSize).length ≤ s.server.readSize := by
    rw [List.length_take]
    omega
  have hread : s.step? (.read (rest.take s.server.readSize)) =
      some { s with frames := s.frames.extend (rest.take s.server.readSize), intake := .draining } := by
    simp only [Serving.step?, if_pos hfits, Serving.whileReading, hi]
  have hstep : (⟨rest.take s.server.readSize ++ rest.drop s.server.readSize, s⟩ : Feed).Step
      (.read (rest.take s.server.readSize)) ⟨rest.drop s.server.readSize, _⟩ := .read hread
  rw [List.take_append_drop] at hstep
  refine ⟨_, _, hstep, ?_⟩
  intro hend
  cases hend

/-- Nobody inside ends the intake well. -/
theorem Inv.intake_of_inner {rest : Bytes} {s s' : Serving}
    (h : Inv server out log input ps cs ⟨rest, s⟩) {a : Serving.Action} (ha : a.isInner = true)
    (hs : s.step? a = some s') (hi : s'.intake = .ended (.ok ())) : s.intake = .ended (.ok ()) := by
  rcases Serving.of_inner ha hs with rfl | ⟨seq, rfl⟩ | ⟨seq, rfl⟩ | ⟨seq, rfl⟩ | ⟨b, -, hs⟩
  · obtain ⟨hd, rfl⟩ := Serving.of_extract hs
    have hopen := h.accounts.isClosed_eq_false (by rw [hd]; rfl)
    unfold Serving.extract at hi
    split at hi
    · unfold Serving.accept at hi
      split at hi
      · exact hi
      · cases hi
    · simp [hopen] at hi
    · cases hi
  · obtain ⟨r, -, rfl⟩ := Serving.of_settle hs
    exact hi
  · obtain ⟨c, o, -, -, rfl⟩ := Serving.of_send hs
    exact Serving.ended_of_resumed hi
  · obtain ⟨c, -, -, rfl⟩ := Serving.of_lose hs
    exact Serving.ended_of_resumed hi
  · obtain ⟨o, -, rfl⟩ := Serving.of_outboxStep hs
    exact hi

/-- A feed that is not at rest can take a step that does not end the intake well. -/
theorem Inv.exists_step (h : Inv server out log input ps cs f) (hrest : ¬ f.AtRest) :
    ∃ a f', f.Step a f' ∧
      (f'.serving.intake = .ended (.ok ()) → f.serving.intake = .ended (.ok ())) := by
  obtain ⟨rest, s⟩ := f
  by_cases hs : s.Stuck
  · -- the parties inside are stuck, so that reading is what is left to do
    have hne : rest ≠ [] := by
      intro he
      exact hrest ⟨.inl he, hs⟩
    rcases (h.accounts.onTheWay_of_stuck hs).2 with hi | hi
    · exact exists_read hi hne
    · exact absurd ⟨.inr hi, hs⟩ hrest
  · simp only [Serving.Stuck, not_forall] at hs
    obtain ⟨a, ha, hsome⟩ := hs
    obtain ⟨s', hs'⟩ := Option.ne_none_iff_exists'.1 hsome
    exact ⟨a, _, .inner ha hs', h.intake_of_inner ha hs'⟩

/-- Every run comes to rest, also where the stream does not end; by induction on the work that is
left, some of which every step takes away. -/
theorem Inv.exists_atRest (h : Inv server out log input ps cs f) (hout : out.IsReliable) :
    ∃ f', f.Reaches f' ∧ f'.AtRest ∧
      (f'.serving.intake = .ended (.ok ()) → f.serving.intake = .ended (.ok ())) := by
  induction hw : f.weight using Nat.strongRecOn generalizing f ps cs with
  | ind w ih =>
    by_cases hrest : f.AtRest
    · exact ⟨f, .refl, hrest, id⟩
    · obtain ⟨a, f₁, h₁, hi₁⟩ := h.exists_step hrest
      obtain ⟨f', hreach, hrest', hi'⟩ := ih f₁.weight (hw ▸ h₁.weight_lt) (h.step hout h₁) rfl
      exact ⟨f', hreach.head ⟨a, h₁⟩, hrest', fun hi => hi₁ (hi' hi)⟩

/-- Every run can come to its end. -/
theorem Inv.exists_result (h : Inv server out log input ps cs f) (hout : out.IsReliable) :
    ∃ f' r, f.Reaches f' ∧ f'.serving.result? = some r := by
  -- at rest the stream may have been read without its end having been met; meeting it is one more step
  induction hw : f.weight using Nat.strongRecOn generalizing f ps cs with
  | ind w ih =>
    obtain ⟨f₁, h₁, hrest, -⟩ := h.exists_atRest hout
    obtain ⟨ps₁, cs₁, hinv₁⟩ := h.reaches hout h₁
    by_cases hend : f₁.serving.intake.isEnded
    · obtain ⟨r, hr⟩ := Option.isSome_iff_exists.1 (hinv₁.accounts.result_of_stuck hrest.2 hend)
      exact ⟨f₁, r, h₁, hr⟩
    · -- the stream has been read to its end
      obtain ⟨rest, s⟩ := f₁
      obtain rfl : rest = [] := hrest.1.resolve_right hend
      have hi : s.intake = .reading :=
        (hinv₁.accounts.onTheWay_of_stuck hrest.2).2.resolve_right hend
      have heof : (⟨[], s⟩ : Feed).Step .eof ⟨[], { s with
          frames := s.frames.finish.2, intake := .ended (.ok ()) }⟩ := by
        apply Step.eof
        simp only [Serving.step?, Serving.whileReading, hi]
      have hlt := Nat.lt_of_lt_of_le heof.weight_lt h₁.weight_le
      obtain ⟨f', r, h', hr⟩ := ih _ (hw ▸ hlt) (hinv₁.step hout heof) rfl
      exact ⟨f', r, h₁.trans (h'.head ⟨_, heof⟩), hr⟩

/-- An intake that has ended, or waits at the end, has taken all out. -/
theorem Inv.payloads (h : Inv server out log input ps cs f)
    (hi : f.serving.intake.isEnded ∨ f.serving.intake = .reading ∧ f.rest = []) :
    (server.reading input).payloads = ps := by
  obtain ⟨rest, s⟩ := f
  rcases hi with hi | ⟨hi, rfl⟩
  · rcases hj : s.intake with _ | _ | n | ⟨e | ⟨⟩⟩
    · simp [hj, Intake.isEnded] at hi
    · simp [hj, Intake.isEnded] at hi
    · simp [hj, Intake.isEnded] at hi
    · exact (h.follows.bad e hj).1
    · exact (h.follows.good hj).1
  · exact ((h.follows.ahead (by rw [hi]; rfl)).eof (h.follows.idle hi)).1

/-- What has been written where nothing is on the way and nothing is ready. -/
theorem Inv.taken (h : Inv server out log input ps cs f) (hout : out.IsReliable)
    (hlog : log.IsReliable) (hway : f.serving.onTheWay = []) (hready : f.serving.outbox.ready = []) :
    f.serving.outbox.out.taken =
        out.taken ++ Sink.wire (Settlement.frames (server.settings.order.arrange cs)) ∧
      f.serving.outbox.log.taken = log.taken ++
        (if log.isEnabled then
          FailureLog.lines (diagnostics (server.settings.order.arrange cs)) else []) := by
  obtain ⟨-, hw, hl⟩ := h.accounts.output hout hway hready
  constructor
  · rw [hw]
    rfl
  · rw [hl, FailureLog.taken_addAll hlog]

/-- Serving has ended where the intake and the outbox have. -/
theorem result_eq_some {s : Serving} {r : Except CallError Unit} (h : s.result? = some r) :
    s.outbox.ended.isSome ∧ ((∃ e, s.intake = .ended (.error e) ∧ r = .error e) ∨
      s.intake = .ended (.ok ()) ∧ s.outbox.ended = some r) := by
  unfold Serving.result? at h
  split at h
  · next e r' hi ho =>
    cases h
    exact ⟨by simp [ho], .inl ⟨e, hi, rfl⟩⟩
  · next r' hi ho =>
    cases h
    exact ⟨by simp [ho], .inr ⟨hi, ho⟩⟩
  · cases h

/-- Serving fails if and only if a violation stands behind the frames. -/
theorem Inv.result (h : Inv server out log input ps cs f) {r : Except CallError Unit}
    (hr : f.serving.result? = some r) :
    match (server.reading input).violation with
    | none => r = .ok ()
    | some _ => ∃ v : Violation, r = .error v.error := by
  obtain ⟨hended, ⟨e, hi, rfl⟩ | ⟨hi, ho⟩⟩ := result_eq_some hr
  · obtain ⟨-, hv, v, rfl⟩ := h.follows.bad e hi
    obtain ⟨w, hw⟩ := Option.isSome_iff_exists.1 hv
    rw [hw]
    exact ⟨v, rfl⟩
  · obtain ⟨-, hv⟩ := h.follows.good hi
    have hok := (h.accounts.ended hended).1
    rw [ho] at hok
    rw [hv]
    exact Option.some.inj hok

/-- Any server comes to the end of any stream, where neither of its outputs has a limit. -/
theorem exists_ended (server : Server) (input : Bytes) :
    let log : FailureLog := ⟨some .unlimited⟩
    Sink.unlimited.IsReliable ∧ log.IsReliable ∧
      ∃ f r, (start server .unlimited log input).Reaches f ∧ f.serving.result? = some r := by
  intro log
  have hout := Sink.isReliable_unlimited
  have hlog : log.IsReliable := by
    rintro s ⟨⟩
    exact hout
  obtain ⟨f, r, hreach, hr⟩ := (inv_start server .unlimited log input).exists_result hout
  exact ⟨hout, hlog, f, r, hreach, hr⟩

/-- For every server that answers in order of the requests, both streams of which are reliable, every
stream of bytes, all pieces in which it is read, and all orders in which handlers end, settlements
are sent and batches are written. Wherever a run gets, it can come to its end. Where it has come to
its end, the main output has the frames, and the log the messages, of the settlements of all frames
that are in the stream, in the order in which they are there; and serving has failed if and only if a
violation stands behind them. -/
theorem output_of_ordered (hordered : server.settings.order = .ordered) (hout : out.IsReliable)
    (hlog : log.IsReliable) (h : (start server out log input).Reaches f) :
    (∃ f' r, f.Reaches f' ∧ f'.serving.result? = some r) ∧
    ∀ r, f.serving.result? = some r →
      f.serving.outbox.out.taken =
        out.taken ++ Sink.wire (Settlement.frames (server.settlements (server.reading input).payloads)) ∧
      f.serving.outbox.log.taken = log.taken ++
        (if log.isEnabled then
          FailureLog.lines (diagnostics (server.settlements (server.reading input).payloads))
        else []) ∧
      (match (server.reading input).violation with
        | none => r = .ok ()
        | some _ => ∃ v : Violation, r = .error v.error) := by
  obtain ⟨ps, cs, hinv⟩ := inv_of_reaches hout h
  refine ⟨hinv.exists_result hout, ?_⟩
  intro r hr
  obtain ⟨hended, hintake⟩ := result_eq_some hr
  have hway := hinv.accounts.onTheWay_of_ended hended
  have hready := hinv.accounts.ready_of_ended hout hended
  have hi : f.serving.intake.isEnded := by
    rcases hintake with ⟨e, hi, -⟩ | ⟨hi, -⟩ <;> rw [hi] <;> rfl
  have hps := hinv.payloads (.inl hi)
  have hperm := (hinv.accounts.output hout hway hready).1
  have hall := Serving.Accounts.arrange_of_ordered hperm hordered
  obtain ⟨hw, hl⟩ := hinv.taken hout hlog hway hready
  rw [hall] at hw hl
  rw [hps]
  exact ⟨hw, hl, hinv.result hr⟩

/-- Two lines, of which one does not hold a value, and outcomes that are not tagged: the value that the
other holds is written, and the log has one message. -/
theorem output_of_ordered_echo :
    let server : Server :=
      ⟨{ ServerSettings.standard with conventions := ⟨.newline, .raw⟩ }, .single (.ofOutcome .returned)⟩
    let log : FailureLog := ⟨some .unlimited⟩
    let input : Bytes := [49, 10, 120, 10]
    server.settings.order = .ordered ∧ Sink.unlimited.IsReliable ∧ log.IsReliable ∧
      ∃ f r, (start server .unlimited log input).Reaches f ∧ f.serving.result? = some r ∧
        f.serving.outbox.out.taken = [49, 10] ∧
        f.serving.outbox.log.taken = Text.encode "error: invalid JSON\n" ∧ r = .ok () := by
  intro server log input
  obtain ⟨hout, hlog, f, r, hreach, hr⟩ := exists_ended server input
  obtain ⟨hw, hl, hend⟩ := (output_of_ordered rfl hout hlog hreach).2 r hr
  obtain ⟨hpayloads, hviolation⟩ : (server.reading input).payloads = [[49], [120]] ∧
      (server.reading input).violation = none := @Server.reading_stream server [[49], [120]] rfl (by decide)
  rw [hpayloads] at hw hl
  rw [hviolation] at hend
  have hout' : f.serving.outbox.out.taken = [49, 10] := hw.trans (by decide +kernel)
  have hlog' : f.serving.outbox.log.taken = Text.encode "error: invalid JSON\n" :=
    hl.trans (by decide +kernel)
  exact ⟨rfl, hout, hlog, f, r, hreach, hr, hout', hlog', hend⟩

end Feed
end FramedCall
