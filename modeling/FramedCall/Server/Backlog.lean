import FramedCall.Server.Schedule

/-!
# The backlog

How much a served stream still has to see to: `Schedule.backlog` counts bytes that have arrived,
requests in flight and settlements on their way. Nothing that the parties do by themselves adds to it,
and what is written has been taken from it (`Schedule.wanesTo_settleUntil`). So the output of a stream on
which no more arrives comes to an end, however it is read.
-/

namespace FramedCall

/-- From `out` to `out'` nothing is written unless there is less to see to, and never is there more. -/
structure Wanes (pending pending' : Nat) (out out' : Bytes) : Prop where
  /-- There is no more to see to. -/
  le : pending' ≤ pending
  /-- Nothing is written, or there is less to see to. -/
  same_or_lt : out' = out ∨ pending' < pending

namespace Wanes

/-- What stays as it is wanes. -/
theorem refl (n : Nat) (out : Bytes) : Wanes n n out out :=
  ⟨Nat.le_refl n, .inl rfl⟩

/-- Without anything written, there may be as much to see to as before. -/
theorem of_le {n n' : Nat} (h : n' ≤ n) (out : Bytes) : Wanes n n' out out :=
  ⟨h, .inl rfl⟩

/-- With less to see to, anything may have been written. -/
theorem of_lt {n n' : Nat} (h : n' < n) (out out' : Bytes) : Wanes n n' out out' :=
  ⟨Nat.le_of_lt h, .inr h⟩

/-- What wanes and wanes again has waned. -/
theorem trans {n n' n'' : Nat} {out out' out'' : Bytes} (h : Wanes n n' out out')
    (h' : Wanes n' n'' out' out'') : Wanes n n'' out out'' := by
  refine ⟨Nat.le_trans h'.le h.le, ?_⟩
  rcases h.same_or_lt with he | hlt
  · rcases h'.same_or_lt with he' | hlt'
    · exact .inl (he'.trans he)
    · exact .inr (Nat.lt_of_lt_of_le hlt' h.le)
  · exact .inr (Nat.lt_of_le_of_lt h'.le hlt)

/-- More to see to on both sides changes nothing. -/
theorem add_left {n n' : Nat} {out out' : Bytes} (h : Wanes n n' out out') (k : Nat) :
    Wanes (k + n) (k + n') out out' :=
  ⟨Nat.add_le_add_left h.le k, h.same_or_lt.imp id (Nat.add_lt_add_left · k)⟩

end Wanes

namespace Outbox

/-- Writing what is ready. -/
theorem wanes_flush (o : Outbox) : Wanes o.pending o.flush.pending o.out.taken o.flush.out.taken := by
  cases hr : o.ready with
  | nil =>
    have : o.flush.out = o.out := by simp [flush, hr, writeFrames]
    rw [this]
    refine .of_le ?_ _
    simp [flush, hr, writeFrames, pending]
  | cons c cs =>
    refine .of_lt ?_ _ _
    unfold flush
    generalize writeFrames Sink.device o.out (o.ready.filterMap (·.frame)) = r
    obtain ⟨result, out⟩ := r
    cases result <;> simp only [pending, fail, hr, List.length_nil, List.length_cons] <;> omega

/-- Taking the oldest settlement from the queue. -/
theorem wanes_receive {o o' : Outbox} (h : o.step? .receive = some o') :
    Wanes o.pending o'.pending o.out.taken o'.out.taken := by
  simp only [step?] at h
  split at h
  · next c queue he hq =>
    split at h
    · have hadd := o.sequencer.length_add_le c
      generalize o.sequencer.add c = r at h hadd
      obtain ⟨released, sequencer⟩ := r
      cases h
      refine .of_le ?_ _
      simp only [pending, hq, List.length_cons, List.length_append] at hadd ⊢
      omega
    · cases h
  · cases h

/-- Ending. -/
theorem wanes_finish {o o' : Outbox} (h : o.step? .finish = some o') :
    Wanes o.pending o'.pending o.out.taken o'.out.taken := by
  simp only [step?, Sequencer.giveUp] at h
  split at h
  · cases h
    refine .trans (.of_le ?_ _) (wanes_flush _)
    simp only [pending, List.length_map, List.length_nil]
    omega
  · cases h

/-- Failing. -/
theorem wanes_fail (o : Outbox) (cause : String) :
    Wanes o.pending (o.fail cause).pending o.out.taken (o.fail cause).out.taken := by
  refine .of_le ?_ _
  simp only [pending, fail, List.length_nil]
  omega

/-- Whatever the outbox does by itself. -/
theorem wanes_step? {o o' : Outbox} {a : Action} (h : o.step? a = some o')
    (ha : ∀ c, a ≠ .enqueue c) : Wanes o.pending o'.pending o.out.taken o'.out.taken := by
  match a with
  | .enqueue c => exact absurd rfl (ha c)
  | .receive => exact wanes_receive h
  | .finish => exact wanes_finish h
  | .flush =>
    simp only [step?] at h
    split at h
    · cases h
      exact wanes_flush o
    · cases h
  | .breakOff =>
    simp only [step?] at h
    split at h
    · obtain ⟨cause, -, rfl⟩ := Option.map_eq_some_iff.1 h
      exact wanes_fail o cause
    · cases h

/-- A settlement that enters the queue. -/
theorem pending_enqueue {o o' : Outbox} {c : Settlement} (h : o.step? (.enqueue c) = some o') :
    o'.pending = o.pending + 1 ∧ o'.out = o.out := by
  simp only [step?] at h
  split at h
  · cases h
    refine ⟨?_, rfl⟩
    simp only [pending, List.length_append, List.length_singleton]
    omega
  · cases h

end Outbox

namespace Serving

/-- What wanes in the outbox wanes in the stream. -/
theorem wanes_outboxStep? {s s' : Serving} {a : Outbox.Action} (h : s.outboxStep? a = some s')
    (ha : ∀ c, a ≠ .enqueue c) : Wanes s.pending s'.pending s.outbox.out.taken s'.outbox.out.taken := by
  obtain ⟨o, ho, rfl⟩ := Option.map_eq_some_iff.1 h
  exact (Outbox.wanes_step? ho ha).add_left _

/-- A frame that is taken out is worth its settlement. -/
theorem pending_accept (s : Serving) (payload : Bytes) :
    (s.accept payload).pending = s.pending + 1 ∧ (s.accept payload).outbox = s.outbox := by
  unfold accept
  split
  · refine ⟨?_, rfl⟩
    simp only [pending, List.length_append, List.length_singleton]
    omega
  · refine ⟨?_, rfl⟩
    simp only [pending, List.length_append, List.length_singleton]
    omega

/-- Taking a frame out. -/
theorem wanes_extract (s : Serving) :
    Wanes s.pending s.extract.pending s.outbox.out.taken s.extract.outbox.out.taken := by
  unfold extract
  split
  · next payload frames h =>
    have hw := Deframer.weight_next h
    obtain ⟨hp, ho⟩ := pending_accept { s with frames } payload
    rw [ho]
    refine .of_le ?_ _
    rw [hp]
    simp only [pending]
    omega
  · next frames h =>
    have hw := Deframer.weight_next_le h
    refine .of_le ?_ _
    simp only [pending, Option.toList_none, List.length_nil] at hw ⊢
    omega
  · exact .refl ..

/-- A settlement that has departed is no longer waited for. -/
theorem length_depart_lt {s : Serving} {seq : Nat} {c : Settlement}
    (h : s.waitingFor? seq = some c) : (s.depart seq).waiting.length < s.waiting.length := by
  refine List.length_filter_lt_length_iff_exists.2 ⟨c, List.mem_of_find?_eq_some h, ?_⟩
  simpa using List.find?_some h

/-- Whatever happens to a stream, except that bytes are read. -/
theorem wanes_step? {s s' : Serving} {a : Action} (h : s.step? a = some s')
    (ha : ∀ data, a ≠ .read data) :
    Wanes s.pending s'.pending s.outbox.out.taken s'.outbox.out.taken := by
  match a with
  | .read data => exact absurd rfl (ha data)
  | .readFailed cause | .eof =>
    simp only [step?, whileReading] at h
    split at h <;> cases h
    refine .of_le ?_ _
    simp only [pending, Deframer.weight_finish]
    omega
  | .extract =>
    simp only [step?] at h
    split at h <;> cases h
    exact wanes_extract s
  | .settle seq =>
    obtain ⟨r, hr, rfl⟩ := Option.map_eq_some_iff.1 h
    have hlt : (s.inFlight.filter (·.seq ≠ seq)).length < s.inFlight.length :=
      List.length_filter_lt_length_iff_exists.2
        ⟨r, List.mem_of_find?_eq_some hr, by simpa using List.find?_some hr⟩
    refine .of_le ?_ _
    simp only [pending, List.length_append, List.length_singleton]
    omega
  | .send seq =>
    simp only [step?, Option.bind_eq_bind, Option.bind_eq_some_iff] at h
    obtain ⟨c, hc, s₁, hs₁, h⟩ := h
    cases h
    obtain ⟨o, ho, rfl⟩ := Option.map_eq_some_iff.1 hs₁
    obtain ⟨hp, hout⟩ := Outbox.pending_enqueue ho
    have hlt : (s.depart seq).waiting.length < s.waiting.length := length_depart_lt hc
    show Wanes s.pending _ s.outbox.out.taken o.out.taken
    rw [hout]
    refine .of_le ?_ _
    simp only [pending, depart] at hlt ⊢
    omega
  | .lose seq =>
    simp only [step?, Option.bind_eq_bind, Option.bind_eq_some_iff] at h
    obtain ⟨c, hc, h⟩ := h
    have hlt := length_depart_lt hc
    split at h <;> cases h
    refine .of_le ?_ _
    simp only [pending, depart] at hlt ⊢
    omega
  | .receive | .flush | .breakOff => exact wanes_outboxStep? h (by simp)
  | .finish =>
    simp only [step?] at h
    split at h
    · exact wanes_outboxStep? h (by simp)
    · cases h

/-- Bytes that are read weigh two each. -/
theorem pending_read {s s' : Serving} {data : Bytes} (h : s.step? (.read data) = some s') :
    s'.pending = s.pending + 2 * data.length ∧ s'.outbox = s.outbox := by
  simp only [step?, whileReading] at h
  split at h
  · split at h <;> cases h
    refine ⟨?_, rfl⟩
    simp only [pending, Deframer.weight_extend]
    omega
  · cases h

end Serving

namespace Schedule

/-- How much there is to see to: what has arrived and what the stream has to see to. -/
def backlog (s : Schedule) : Nat :=
  2 * s.source.size + s.serving.pending

/-- What has become of `s` by itself. -/
def WanesTo (s s' : Schedule) : Prop :=
  Wanes s.backlog s'.backlog s.output s'.output

/-- What becomes of a schedule by itself in two steps becomes of it by itself. -/
theorem WanesTo.trans {s s' s'' : Schedule} (h : s.WanesTo s') (h' : s'.WanesTo s'') :
    s.WanesTo s'' :=
  Wanes.trans h h'

/-- Who waits and whose turn it is has no part in it. -/
theorem WanesTo.of_eq {s s' : Schedule} (hs : s'.source = s.source)
    (hv : s'.serving = s.serving) : s.WanesTo s' := by
  unfold WanesTo backlog output
  rw [hs, hv]
  exact .refl ..

/-- A schedule that nothing happens to wanes to itself. -/
theorem WanesTo.refl (s : Schedule) : s.WanesTo s :=
  .of_eq rfl rfl

/-- Something happens to the stream, other than that bytes are read. -/
theorem wanesTo_act (s : Schedule) {a : Serving.Action} (ha : ∀ data, a ≠ .read data) :
    s.WanesTo (s.act a) := by
  unfold act
  cases h : s.serving.step? a with
  | none => exact .refl s
  | some serving => exact (Serving.wanes_step? h ha).add_left _

/-- Bytes are read that have been taken from the source. -/
theorem wanesTo_act_read {s : Schedule} {source : Source} {data : Bytes}
    (h : source.size + data.length = s.source.size) :
    s.WanesTo ({ s with source }.act (.read data)) := by
  unfold act
  cases hr : s.serving.step? (.read data) with
  | none =>
    refine Wanes.of_le ?_ _
    simp only [backlog, Option.getD_none]
    omega
  | some serving =>
    obtain ⟨hp, ho⟩ := Serving.pending_read hr
    unfold WanesTo output
    simp only [Option.getD_some, ho]
    refine .of_le ?_ _
    simp only [backlog, hp]
    omega

/-- Waking the outbox adds nothing to see to. -/
theorem wanesTo_wakeOutbox (s : Schedule) (need : OutboxNeed) : s.WanesTo (s.wakeOutbox need) := by
  unfold wakeOutbox
  split <;> exact .of_eq rfl rfl

/-! ### Turns -/

/-- Letting the intake keep the turn adds nothing to see to. -/
theorem wanesTo_resumeIntake (before s : Schedule) : s.WanesTo (resumeIntake before s) := by
  unfold resumeIntake
  split <;> exact .of_eq rfl rfl

/-- Paying for an operation adds nothing to see to. -/
theorem wanesTo_spend (s : Schedule) : s.WanesTo s.spend :=
  .of_eq rfl rfl

/-- Paying for bytes that came or went adds nothing to see to. -/
theorem wanesTo_spendOnPipe (s : Schedule) : s.WanesTo s.spendOnPipe := by
  unfold spendOnPipe
  split
  · exact wanesTo_spend s
  · exact .refl s

/-- A settlement that enters the queue was on its way before. -/
theorem wanesTo_enter (s : Schedule) (seq : Nat) : s.WanesTo (s.enter seq) :=
  (s.wanesTo_act (by simp)).trans ((wanesTo_spend _).trans
    ((wanesTo_wakeOutbox _ _).trans (wanesTo_resumeIntake _ _)))

/-- Losing a settlement adds nothing to see to. -/
theorem wanesTo_lose (s : Schedule) (seq : Nat) : s.WanesTo (s.lose seq) :=
  (s.wanesTo_act (by simp)).trans ((wanesTo_spend _).trans (wanesTo_resumeIntake _ _))

/-- Whether a settlement that asks for a place gets one or waits, there is no more to see to. -/
theorem wanesTo_offer (s : Schedule) (seq : Nat) : s.WanesTo (s.offer seq) := by
  unfold offer
  split
  · exact .of_eq rfl rfl
  · split
    · exact wanesTo_lose s seq
    · split
      · exact wanesTo_enter s seq
      · exact .of_eq rfl rfl

/-- Taking a place that was given adds nothing to see to, whether the outbox has ended or not. -/
theorem wanesTo_enterPromised (s : Schedule) (seq : Nat) : s.WanesTo (s.enterPromised seq) := by
  unfold enterPromised
  have h : s.WanesTo { s with promised := s.promised - 1 } := .of_eq rfl rfl
  refine h.trans ?_
  simp only
  split
  · exact wanesTo_lose _ seq
  · exact wanesTo_enter _ seq

/-- What is read of a source no longer waits there. -/
theorem wanesTo_read (s : Schedule) (n : Nat) : s.WanesTo { s with source := (s.source.read n).2 } :=
  Wanes.of_le (Nat.add_le_add_right (Nat.mul_le_mul_left 2 (s.source.size_read_le n)) _) _

/-- What the intake reads goes from the source to the stream, where it weighs as much. -/
theorem wanesTo_intakeReads (s : Schedule) : s.WanesTo s.intakeReads := by
  have hread := s.wanesTo_read s.serving.server.readSize
  unfold intakeReads
  split
  · exact .of_eq rfl rfl
  · match h : s.source.read s.serving.server.readSize with
    | (.bytes data, source) =>
      exact (wanesTo_act_read (Source.size_read_bytes h)).trans
        ((wanesTo_spendOnPipe _).trans (.of_eq rfl rfl))
    | (.pending, source) =>
      rw [h] at hread
      exact hread
    | (.failure cause, source) | (.eof, source) =>
      rw [h] at hread
      exact hread.trans (wanesTo_act _ (by simp))

/-- A request that is taken out weighs no more than the bytes that it was. -/
theorem wanesTo_intakeExtracts (s : Schedule) : s.WanesTo s.intakeExtracts := by
  refine (s.wanesTo_act (a := .extract) (by simp)).trans ?_
  unfold intakeExtracts
  simp only
  split
  · exact .of_eq rfl rfl
  · exact .of_eq rfl rfl
  · exact wanesTo_offer _ _
  · exact .refl _

/-- Whatever the intake does in its turn, there is no more to see to. -/
theorem wanesTo_intakeTurn (s : Schedule) : s.WanesTo s.intakeTurn := by
  unfold intakeTurn
  split
  · exact wanesTo_intakeReads s
  · exact wanesTo_intakeExtracts s
  · exact .refl s
  · exact .refl s

/-- Any number of settlements taken from the queue add nothing to see to. -/
theorem wanesTo_receives (s : Schedule) (ns : List Nat) :
    s.WanesTo (ns.foldl (fun s _ => s.act .receive) s) := by
  induction ns generalizing s with
  | nil => exact .refl s
  | cons n ns ih => exact (s.wanesTo_act (a := .receive) (by simp)).trans (ih _)

/-- Nor do their places, which are given to others. -/
theorem wanesTo_outboxReceives (s : Schedule) (n : Nat) : s.WanesTo (s.outboxReceives n) :=
  (wanesTo_receives s (List.range n)).trans (.of_eq rfl rfl)

/-- What follows a write, a turn that is kept or refusals, adds nothing to see to. -/
theorem wanesTo_outboxWrote (s : Schedule) : s.WanesTo s.outboxWrote := by
  unfold outboxWrote
  split <;> exact .of_eq rfl rfl

/-- Handing bytes on to the pipe adds nothing to see to, even if nobody reads them any more. -/
theorem wanesTo_outboxDelivers (s : Schedule) : s.WanesTo s.outboxDelivers := by
  unfold outboxDelivers
  simp only
  split
  · exact (wanesTo_act s (by simp)).trans (wanesTo_outboxWrote _)
  · split
    · exact .of_eq rfl rfl
    · have h : s.WanesTo { s with delivered := s.output.length.min (s.reach.getD 0) } :=
        .of_eq rfl rfl
      exact h.trans ((wanesTo_spendOnPipe _).trans (.of_eq rfl rfl))

/-- A batch that is written was to be seen to before. -/
theorem wanesTo_outboxWrites (s : Schedule) : s.WanesTo s.outboxWrites :=
  s.wanesTo_spend.trans ((wanesTo_outboxReceives _ _).trans
    ((wanesTo_act _ (by simp)).trans (wanesTo_outboxWrote _)))

/-- Whatever the outbox does in its turn, nothing is written that was not to be seen to. -/
theorem wanesTo_outboxTurn (s : Schedule) : s.WanesTo s.outboxTurn := by
  unfold outboxTurn
  split
  · exact .refl s
  · split
    · exact .of_eq rfl rfl
    · split
      · exact wanesTo_outboxDelivers s
      · split
        · split
          · exact wanesTo_act s (by simp)
          · exact .of_eq rfl rfl
        · exact wanesTo_outboxWrites s

/-- Whether a handler runs or waits for its gate, there is no more to see to. -/
theorem wanesTo_runTurn (s : Schedule) (seq : Nat) : s.WanesTo (s.runTurn seq) := by
  unfold runTurn
  simp only
  split
  · exact .of_eq rfl rfl
  · exact (s.wanesTo_act (a := .settle seq) (by simp)).trans (.of_eq rfl rfl)

/-- No task adds to what there is to see to. -/
theorem wanesTo_go (s : Schedule) (t : Task) : s.WanesTo (s.go t) :=
  match t with
  | .intake => wanesTo_intakeTurn s
  | .outbox => wanesTo_outboxTurn s
  | .start _ => .of_eq rfl rfl
  | .run seq => wanesTo_runTurn s seq
  | .offer seq => wanesTo_offer s seq
  | .enter seq => wanesTo_enterPromised s seq

/-- Nor does a task with the waking behind it. -/
theorem wanesTo_advance (s : Schedule) (t : Task) : s.WanesTo (s.advance t) := by
  refine (wanesTo_go s t).trans ?_
  unfold advance
  simp only
  split
  · exact wanesTo_wakeOutbox _ _
  · exact .refl _

/-- The next turn adds nothing to see to, whoever has it. -/
theorem wanesTo_advanceNext (s : Schedule) : s.WanesTo s.advanceNext := by
  unfold advanceNext
  split
  · have h : s.WanesTo { s with holder := none } := .of_eq rfl rfl
    exact h.trans (wanesTo_advance _ _)
  · next tasks turnsLeft _ _ _ =>
    have h : s.WanesTo { s with tasks, turnsLeft, credit := turnLength } := .of_eq rfl rfl
    exact h.trans (wanesTo_advance _ _)
  · exact .of_eq rfl rfl

/-- A new round adds nothing to see to. -/
theorem wanesTo_newRound (s : Schedule) : s.WanesTo s.newRound :=
  .of_eq rfl rfl

/-! ### Going on -/

/-- Any number of turns add nothing to see to; by induction on their number. -/
theorem wanesTo_advanceUpTo (seen : Schedule → Bool) (n : Nat) (s : Schedule) :
    s.WanesTo (advanceUpTo seen n s) := by
  induction n generalizing s with
  | zero => exact .refl s
  | succ n ih =>
    unfold advanceUpTo
    split
    · exact .refl s
    · split
      · exact wanesTo_newRound s
      · exact (wanesTo_advanceNext s).trans (ih _)

/-- Going on by itself, a stream writes nothing unless it has less to see to behind it. -/
theorem wanesTo_settleUntil (seen : Schedule → Bool) (s : Schedule) :
    s.WanesTo (s.settleUntil seen) :=
  (wanesTo_newRound s).trans (wanesTo_advanceUpTo _ _ _)

/-! ### What comes from outside -/

/-- A reader who makes room changes nothing by that. -/
theorem serving_reachTo (s : Schedule) (reach : Nat) :
    (s.reachTo reach).serving = s.serving ∧ (s.reachTo reach).source = s.source := by
  unfold reachTo wakeOutbox
  split <;> exact ⟨rfl, rfl⟩

/-- A reader who makes room leaves as much to see to as there was. -/
theorem backlog_reachTo (s : Schedule) (reach : Nat) : (s.reachTo reach).backlog = s.backlog := by
  obtain ⟨hv, hs⟩ := s.serving_reachTo reach
  rw [backlog, backlog, hv, hs]

/-- A reader who makes room writes nothing. -/
theorem output_reachTo (s : Schedule) (reach : Nat) : (s.reachTo reach).output = s.output := by
  rw [output, output, (s.serving_reachTo reach).1]

end Schedule
end FramedCall
