import Mathlib.Data.List.Basic
import Mathlib.Data.List.Nodup
import FramedCall.Proofs.Outbox.Writing
import FramedCall.Proofs.Settlement
import FramedCall.Server.Serving

/-!
# Where the settlements of a served stream are

`Server.settlement` is what a server owes for one frame: the settlement of what the router and the
handler make of it. While a stream is served each of them is in one place: still to come from a
request in flight, waiting to be sent, in the queue, or taken by the outbox (`Serving.Accounts.places`).
Each action moves one from its place to the next and loses none, as long as the main output is
reliable; what an action does is said once (`Serving.of_read` to `Serving.of_finish`), and what it keeps
follows from that (`Serving.Accounts.accept` to `Serving.Accounts.finish`).
-/

namespace FramedCall

open Json (Value)

/-! ### Settlements that are owed -/

namespace Server

/-- What a payload is answered: an undecodable one by its error, another as the router has it. -/
def answer (server : Server) (payload : Bytes) : Except CallError Value :=
  (Payload.decode payload).bind fun request => (server.router.reply request).2

/-- The settlement of a frame. -/
def settlement (server : Server) (seq : Nat) (payload : Bytes) : Settlement :=
  server.settings.conventions.settle seq (server.answer payload)

/-- The settlement that a request in flight comes to. -/
def due (server : Server) (r : Request) : Settlement :=
  server.settings.conventions.settle r.seq r.result

/-- The settlements of frames, numbered from zero. -/
def settlements (server : Server) (payloads : List Bytes) : List Settlement :=
  payloads.mapIdx server.settlement

/-- One more frame has one more settlement, which bears the next number. -/
theorem settlements_append_singleton (server : Server) (ps : List Bytes) (p : Bytes) :
    server.settlements (ps ++ [p]) = server.settlements ps ++ [server.settlement ps.length p] := by
  simp [settlements, List.mapIdx_append]

/-- The settlements of frames are numbered without a gap. -/
theorem map_seq_settlements (server : Server) (ps : List Bytes) :
    (server.settlements ps).map (·.seq) = List.range ps.length := by
  refine List.ext_getElem (by simp [settlements]) ?_
  intro i h _
  simp [settlements, settlement, Conventions.seq_settle]

/-- No two of them bear the same number. -/
theorem nodup_seq_settlements (server : Server) (ps : List Bytes) :
    ((server.settlements ps).map (·.seq)).Nodup := by
  rw [map_seq_settlements]
  exact List.nodup_range

end Server

/-! ### Numbers that do not repeat -/

/-- What has a number of its own is apart from those with other numbers. -/
theorem perm_cons_filter_ne {α : Type} {f : α → Nat} {l : List α} {a : α} {n : Nat}
    (hl : (l.map f).Nodup) (h : l.find? (f · = n) = some a) :
    l.Perm (a :: l.filter (f · ≠ n)) := by
  induction l with
  | nil => simp at h
  | cons b l ih =>
    obtain ⟨hb, hl⟩ := List.nodup_cons.1 hl
    by_cases hn : f b = n
    · obtain rfl : b = a := by simpa [hn] using h
      have hrest : l.filter (f · ≠ n) = l := by
        apply List.filter_eq_self.2
        intro c hc
        simp only [decide_eq_true_eq]
        rintro rfl
        exact hb (hn ▸ List.mem_map_of_mem hc)
      rw [List.filter_cons_of_neg (by simp [hn]), hrest]
    · rw [List.find?_cons_of_neg (by simpa using hn)] at h
      rw [List.filter_cons_of_pos (by simpa using hn)]
      exact ((ih hl h).cons b).trans (.swap _ _ _)

namespace Serving

/-! ### What an action does -/

section

variable {s s' : Serving}

/-- Only a reading intake reads. -/
theorem of_whileReading {next : Serving} (h : s.whileReading next = some s') :
    s.intake = .reading ∧ s' = next := by
  unfold whileReading at h
  split at h
  · next hi => exact ⟨hi, (Option.some.inj h).symm⟩
  · cases h
  · cases h
  · cases h

/-- Only a reading intake reads, and then it looks for frames. -/
theorem of_read {data : Bytes} (h : s.step? (.read data) = some s') :
    0 < data.length ∧ s.intake = .reading ∧
      s' = { s with frames := s.frames.extend data, intake := .draining } := by
  simp only [step?] at h
  split at h
  · next hdata => exact ⟨hdata.1, of_whileReading h⟩
  · cases h

/-- Only a reading intake meets the end, and then it has ended well. -/
theorem of_eof (h : s.step? .eof = some s') :
    s.intake = .reading ∧ s' = { s with frames := s.frames.finish.2, intake := .ended (.ok ()) } :=
  of_whileReading h

/-- Only an intake that looks for frames takes one out. -/
theorem of_extract (h : s.step? .extract = some s') : s.intake = .draining ∧ s' = s.extract := by
  simp only [step?] at h
  split at h
  · next hi => exact ⟨hi, (Option.some.inj h).symm⟩
  · cases h
  · cases h
  · cases h

/-- Only a request in flight settles, and its settlement waits to be sent. -/
theorem of_settle {seq : Nat} (h : s.step? (.settle seq) = some s') :
    ∃ r, s.request? seq = some r ∧ s' = { s with
      inFlight := s.inFlight.filter (·.seq ≠ seq)
      waiting := s.waiting ++ [s.settlement seq r.result] } := by
  obtain ⟨r, hr, rfl⟩ := Option.map_eq_some_iff.1 h
  exact ⟨r, hr, rfl⟩

/-- What the outbox does leaves all else as it is. -/
theorem of_outboxStep {a : Outbox.Action} (h : s.outboxStep? a = some s') :
    ∃ o, s.outbox.step? a = some o ∧ s' = { s with outbox := o } := by
  obtain ⟨o, ho, rfl⟩ := Option.map_eq_some_iff.1 h
  exact ⟨o, ho, rfl⟩

/-- A settlement is sent that waits and that the queue takes. -/
theorem of_send {seq : Nat} (h : s.step? (.send seq) = some s') :
    ∃ c o, s.waitingFor? seq = some c ∧ s.outbox.step? (.enqueue c) = some o ∧
      s' = ({ s with outbox := o } : Serving).depart seq := by
  simp only [step?, Option.bind_eq_bind, Option.bind_eq_some_iff] at h
  obtain ⟨c, hc, s₁, hs₁, h⟩ := h
  obtain ⟨o, ho, rfl⟩ := of_outboxStep hs₁
  exact ⟨c, o, hc, ho, (Option.some.inj h).symm⟩

/-- A settlement is lost that waits while the queue takes no more. -/
theorem of_lose {seq : Nat} (h : s.step? (.lose seq) = some s') :
    ∃ c, s.waitingFor? seq = some c ∧ s.outbox.isClosed ∧ s' = s.depart seq := by
  simp only [step?, Option.bind_eq_bind, Option.bind_eq_some_iff] at h
  obtain ⟨c, hc, h⟩ := h
  split at h
  · next hclosed => exact ⟨c, hc, hclosed, (Option.some.inj h).symm⟩
  · cases h

/-- The outbox finishes only where nobody is left who could send. -/
theorem of_finish (h : s.step? .finish = some s') :
    s.isSettled ∧ s.outboxStep? .finish = some s' := by
  simp only [step?] at h
  split at h
  · next hsettled => exact ⟨hsettled, h⟩
  · cases h

end

/-- Who waits for the settlement of one frame is not resumed by that of another. -/
theorem sending_of_resumed {i : Intake} {seq n : Nat} (h : i.resumed seq = .sending n) :
    i = .sending n ∧ n ≠ seq := by
  rcases i with _ | _ | m | r
  · cases h
  · cases h
  · by_cases hm : m = seq
    · simp [Intake.resumed, hm] at h
    · rw [Intake.resumed, if_neg hm] at h
      cases h
      exact ⟨rfl, hm⟩
  · cases h

/-- Nobody ends by being resumed. -/
theorem ended_of_resumed {i : Intake} {seq : Nat} {r : Except CallError Unit}
    (h : i.resumed seq = .ended r) : i = .ended r := by
  rcases i with _ | _ | m | r'
  · cases h
  · cases h
  · by_cases hm : m = seq <;> simp [Intake.resumed, hm] at h
  · exact h

/-! ### Places -/

/-- The settlements that the outbox has not taken yet. -/
def onTheWay (s : Serving) : List Settlement :=
  s.inFlight.map s.server.due ++ s.waiting ++ s.outbox.queue

/-- The books of a stream that `server` serves to `out` and `log`: the frames `ps` have been taken
out, and the outbox has taken `cs` from its queue. -/
structure Accounts (server : Server) (out : Sink) (log : FailureLog) (ps : List Bytes)
    (cs : List Settlement) (s : Serving) : Prop where
  /-- The server does not change. -/
  unchanged : s.server = server
  /-- Frames are counted. -/
  extracted : s.extracted = ps.length
  /-- Each settlement that is owed is on the way or has been taken. -/
  places : (s.onTheWay ++ cs).Perm (server.settlements ps)
  /-- The intake waits only for a settlement that is there. -/
  sending : ∀ n, s.intake = .sending n → n ∈ s.waiting.map (·.seq)
  /-- The outbox has come to where it is by what it has taken. -/
  outbox : (Outbox.start server.settings.queueCapacity server.settings.order out log).Reaches cs s.outbox
  /-- It has ended only where all is done. -/
  ended : s.outbox.ended.isSome →
    s.outbox.ended = some (.ok ()) ∧ s.isSettled ∧ s.outbox.queue = []

/-- At the start no frame has been taken out and the outbox has taken nothing. -/
theorem accounts_start (server : Server) (out : Sink) (log : FailureLog) :
    (start server out log).Accounts server out log [] [] where
  unchanged := rfl
  extracted := rfl
  places := .refl _
  sending := by simp [start]
  outbox := .start
  ended := by simp [start, Outbox.start]

namespace Accounts

variable {server : Server} {out : Sink} {log : FailureLog} {ps : List Bytes} {cs : List Settlement}
  {s s' : Serving}

/-- No settlement is on the way twice, or on the way and taken. -/
theorem nodup_seq (h : s.Accounts server out log ps cs) :
    ((s.onTheWay ++ cs).map (·.seq)).Nodup :=
  (h.places.map (·.seq)).nodup_iff.2 (server.nodup_seq_settlements ps)

/-- The outbox takes no settlement twice. -/
theorem nodup_taken (h : s.Accounts server out log ps cs) : (cs.map (·.seq)).Nodup := by
  have := h.nodup_seq
  rw [List.map_append, List.nodup_append] at this
  exact this.2.1

/-- No two requests in flight bear the same number. -/
theorem nodup_inFlight (h : s.Accounts server out log ps cs) : (s.inFlight.map (·.seq)).Nodup := by
  have := h.nodup_seq
  have hdue : (s.inFlight.map s.server.due).map (·.seq) = s.inFlight.map (·.seq) := by
    rw [List.map_map]
    exact List.map_congr_left fun r _ => Conventions.seq_settle ..
  simp only [onTheWay, List.append_assoc, List.map_append, hdue] at this
  exact (List.nodup_append.1 this).1

/-- No two settlements that wait bear the same number. -/
theorem nodup_waiting (h : s.Accounts server out log ps cs) : (s.waiting.map (·.seq)).Nodup := by
  have := h.nodup_seq
  simp only [onTheWay, List.append_assoc, List.map_append] at this
  exact (List.nodup_append.1 (List.nodup_append.1 this).2.1).1

/-- While somebody could still send, the outbox has not ended. -/
theorem not_ended (h : s.Accounts server out log ps cs) (hs : s.isSettled = false) :
    s.outbox.ended = none := by
  rw [← Option.not_isSome_iff_eq_none]
  intro hended
  rw [(h.ended hended).2.1] at hs
  cases hs

/-! ### The intake -/

/-- While the intake is at work more settlements may come. -/
theorem isSettled_of_intake (hi : s.intake.isEnded = false) : s.isSettled = false := by
  simp [isSettled, hi]

/-- While the intake is at work the queue is open. -/
theorem isClosed_eq_false (h : s.Accounts server out log ps cs) (hi : s.intake.isEnded = false) :
    s.outbox.isClosed = false := by
  rw [Outbox.isClosed, h.not_ended (isSettled_of_intake hi)]
  rfl

/-- An intake that has not ended goes on with what it reads. -/
theorem withIntake (h : s.Accounts server out log ps cs) (hi : s.intake.isEnded = false)
    (frames : Deframer) {intake : Intake} (hn : ∀ n, intake ≠ .sending n) :
    ({ s with frames, intake } : Serving).Accounts server out log ps cs where
  unchanged := h.unchanged
  extracted := h.extracted
  places := h.places
  sending n hs := absurd hs (hn n)
  outbox := h.outbox
  ended hended := by
    have hnone := h.not_ended (isSettled_of_intake hi)
    simp [hnone] at hended

/-- A frame is numbered, and its settlement is on the way. -/
theorem accept (h : s.Accounts server out log ps cs) (hi : s.intake.isEnded = false)
    (frames : Deframer) (p : Bytes) :
    (({ s with frames } : Serving).accept p).Accounts server out log (ps ++ [p]) cs := by
  have hnone := h.not_ended (isSettled_of_intake hi)
  have hseq : s.extracted + 1 = (ps ++ [p]).length := by simp [h.extracted]
  have hnew : s.server.settings.conventions.settle s.extracted (s.server.answer p) =
      server.settlement ps.length p := by
    rw [Server.settlement, h.unchanged, h.extracted]
  unfold Serving.accept
  -- a frame that cannot be decoded is settled at once and waits to be sent; any other is in flight
  rcases hd : Payload.decode p with e | request
  · have herror : s.server.answer p = .error e := by
      rw [Server.answer, hd]
      rfl
    rw [herror] at hnew
    refine ⟨h.unchanged, hseq, ?_, ?_, h.outbox, by simp [hnone]⟩
    · rw [server.settlements_append_singleton, ← hnew]
      apply List.perm_iff_count.2
      intro c
      have hbefore := h.places.count_eq c
      simp only [onTheWay, settlement, List.count_append] at hbefore ⊢
      omega
    · intro n hn
      cases hn
      simp [settlement, Conventions.seq_settle]
  · have hreply : s.server.answer p = (s.server.router.reply request).2 := by
      rw [Server.answer, hd]
      rfl
    rw [hreply] at hnew
    refine ⟨h.unchanged, hseq, ?_, h.sending, h.outbox, by simp [hnone]⟩
    rw [server.settlements_append_singleton, ← hnew]
    apply List.perm_iff_count.2
    intro c
    have hbefore := h.places.count_eq c
    simp only [onTheWay, List.map_append, List.map_cons, List.map_nil, Server.due,
      List.count_append] at hbefore ⊢
    omega

/-! ### Handlers and sends -/

/-- The settlement of a request that has ended is no longer to come but waiting. -/
theorem settle (h : s.Accounts server out log ps cs) {seq : Nat}
    (hs : s.step? (.settle seq) = some s') : s'.Accounts server out log ps cs := by
  obtain ⟨r, hr, rfl⟩ := of_settle hs
  have hapart := (perm_cons_filter_ne h.nodup_inFlight hr).map s.server.due
  have hr' : s.settlement seq r.result = s.server.due r := by
    have : r.seq = seq := by simpa using List.find?_some hr
    rw [Server.due, this]
    rfl
  have hbusy : s.isSettled = false := by
    have hne : s.inFlight ≠ [] := List.ne_nil_of_mem (List.mem_of_find?_eq_some hr)
    simp [isSettled, hne]
  refine ⟨h.unchanged, h.extracted, ?_, ?_, h.outbox, by simp [h.not_ended hbusy]⟩
  · apply List.perm_iff_count.2
    intro c
    have hbefore := h.places.count_eq c
    have hcount := hapart.count_eq c
    simp only [onTheWay, hr', List.count_append, List.map_cons, List.count_cons, List.count_nil]
      at hbefore hcount ⊢
    omega
  · intro n hn
    simp only [List.map_append, List.mem_append]
    exact .inl (h.sending n hn)

/-- A settlement that is sent is no longer waiting but in the queue. -/
theorem send (h : s.Accounts server out log ps cs) {seq : Nat}
    (hs : s.step? (.send seq) = some s') : s'.Accounts server out log ps cs := by
  obtain ⟨c, o, hc, ho, rfl⟩ := of_send hs
  have hapart := perm_cons_filter_ne h.nodup_waiting hc
  have hreach := h.outbox.step ho
  obtain ⟨hnone, -, rfl⟩ := Outbox.of_enqueue ho
  refine ⟨h.unchanged, h.extracted, ?_, ?_, by simpa [Outbox.arrivals, depart] using hreach,
    by simp [depart, hnone]⟩
  · apply List.perm_iff_count.2
    intro d
    have hbefore := h.places.count_eq d
    have hcount := hapart.count_eq d
    simp only [onTheWay, depart, List.count_append, List.count_cons, List.count_nil]
      at hbefore hcount ⊢
    omega
  · intro n hn
    obtain ⟨hintake, hne⟩ := sending_of_resumed hn
    obtain ⟨d, hd, rfl⟩ := List.mem_map.1 (h.sending n hintake)
    exact List.mem_map_of_mem (List.mem_filter.2 ⟨hd, by simpa using hne⟩)

/-- No settlement is lost: where one waits, the outbox has not ended. -/
theorem not_lose (h : s.Accounts server out log ps cs) (seq : Nat) :
    s.step? (.lose seq) = none := by
  rw [Option.eq_none_iff_forall_ne_some]
  intro s' hs
  obtain ⟨c, hc, hclosed, -⟩ := of_lose hs
  have hne : s.waiting ≠ [] := List.ne_nil_of_mem (List.mem_of_find?_eq_some hc)
  have hopen : s.outbox.ended = none := h.not_ended (by simp [isSettled, hne])
  simp [Outbox.isClosed, hopen] at hclosed

/-! ### The outbox -/

/-- A settlement that the outbox takes is no longer in the queue. -/
theorem receive (h : s.Accounts server out log ps cs) (hs : s.step? .receive = some s') :
    s'.Accounts server out log ps (cs ++ s.outbox.arrivals .receive) := by
  obtain ⟨o, ho, rfl⟩ := of_outboxStep hs
  have hreach := h.outbox.step ho
  obtain ⟨hnone, -, c, queue, hqueue, rfl⟩ := Outbox.of_receive ho
  refine ⟨h.unchanged, h.extracted, ?_, h.sending, hreach, by simp [hnone]⟩
  apply List.perm_iff_count.2
  intro d
  have hbefore := h.places.count_eq d
  simp only [onTheWay, Outbox.arrivals, hqueue, List.head?_cons, Option.toList_some,
    List.count_append, List.count_cons, List.count_nil] at hbefore ⊢
  omega

/-- A reliable main output takes all that is ready. -/
theorem bears (h : s.Accounts server out log ps cs) (hout : out.IsReliable)
    (hnone : s.outbox.ended = none) (rs : List Settlement) :
    s.outbox.out.Bears (Settlement.frames rs) := by
  rw [(h.outbox.running hnone).output]
  exact (hout.push _).bears _

/-- What is written is not on the way. -/
theorem flush (h : s.Accounts server out log ps cs) (hout : out.IsReliable)
    (hs : s.step? .flush = some s') : s'.Accounts server out log ps cs := by
  obtain ⟨o, ho, rfl⟩ := of_outboxStep hs
  have hreach := h.outbox.step ho
  rw [show s.outbox.arrivals .flush = [] from rfl, List.append_nil] at hreach
  obtain ⟨hnone, -, rfl⟩ := Outbox.of_flush ho
  have hflush := Outbox.flush_of_bears (h.bears hout hnone _)
  refine ⟨h.unchanged, h.extracted, ?_, h.sending, hreach, ?_⟩
  · simpa only [onTheWay, hflush] using h.places
  · simp [hflush, hnone]

/-- The outbox ends well, where nothing is on the way. -/
theorem finish (h : s.Accounts server out log ps cs) (hout : out.IsReliable)
    (hs : s.step? .finish = some s') : s'.Accounts server out log ps cs := by
  obtain ⟨hsettled, hs⟩ := of_finish hs
  obtain ⟨o, ho, rfl⟩ := of_outboxStep hs
  have hreach := h.outbox.step ho
  rw [show s.outbox.arrivals .finish = [] from rfl, List.append_nil] at hreach
  obtain ⟨hnone, hqueue, -, rfl⟩ := Outbox.of_finish ho
  have hflush := Outbox.flush_of_bears (o := s.outbox.drained) (h.bears hout hnone _)
  have hend : s.outbox.drained.flush.ended = none := by
    rw [hflush]
    exact hnone
  have hkept : s.outbox.drained.flush.queue = s.outbox.queue := by
    rw [hflush]
    rfl
  refine ⟨h.unchanged, h.extracted, ?_, h.sending, hreach, ?_⟩
  · simpa only [onTheWay, hkept] using h.places
  · intro _
    refine ⟨?_, hsettled, hkept.trans hqueue⟩
    rw [hend]
    rfl

/-- A reliable main output does not break. -/
theorem not_breakOff (h : s.Accounts server out log ps cs) (hout : out.IsReliable) :
    s.step? .breakOff = none := by
  rw [Option.eq_none_iff_forall_ne_some]
  intro s' hs
  obtain ⟨o, ho, -⟩ := of_outboxStep hs
  obtain ⟨hnone, cause, hcause, -⟩ := Outbox.of_breakOff ho
  rw [(h.outbox.running hnone).output, (hout.push _).broken] at hcause
  cases hcause

end Accounts
end Serving
end FramedCall
