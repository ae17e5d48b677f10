import FramedCall.Proofs.FailureLog
import FramedCall.Proofs.Server.Places

/-!
# Failures of a served stream in the log

Where outcomes are not tagged the messages in the log are those of the requests that fail, each once
(`Feed.Inv.logged`). A message may hold text that the request chose, such as the name of a command. The
main statement is `Feed.one_line_for_each_failure`: each of these messages is one line, and the lines say
which messages they are, unless there are line feeds in messages; every line feed makes one line more.
-/

namespace FramedCall

open Settlement (diagnostics)

/-- The messages of the requests that fail, as the requests came. -/
def Server.failures (server : Server) (payloads : List Bytes) : List String :=
  payloads.filterMap fun p =>
    match server.answer p with
    | .ok _ => none
    | .error e => some e.message

/-- Where outcomes are not tagged these are the messages for the log. -/
theorem Server.diagnostics_settlements {server : Server}
    (hraw : server.settings.conventions.envelope = .raw) (ps : List Bytes) :
    diagnostics (server.settlements ps) = server.failures ps := by
  induction ps using List.reverseRecOn with
  | nil => rfl
  | append_singleton ps p ih =>
    have hlast : diagnostics [server.settlement ps.length p] = server.failures [p] := by
      rw [Server.settlement, Conventions.settle_raw hraw]
      rcases ha : server.answer p with e | v <;> simp [diagnostics, failures, ha]
    rw [settlements_append_singleton, Settlement.diagnostics_append, ih, hlast, failures, failures, failures,
      List.filterMap_append]

namespace Feed

variable {server : Server} {out : Sink} {log : FailureLog} {input : Bytes} {f : Feed}

/-- A run that has ended has logged the messages of all requests that fail. -/
theorem Inv.logged {ps : List Bytes} {cs : List Settlement} (h : Inv server out log input ps cs f)
    (hout : out.IsReliable) (hlog : log.IsReliable)
    (hraw : server.settings.conventions.envelope = .raw) {r : Except CallError Unit}
    (hr : f.serving.result? = some r) :
    ∃ messages, messages.Perm (server.failures (server.reading input).payloads) ∧
      (server.settings.order = .ordered → messages = server.failures (server.reading input).payloads) ∧
      f.serving.outbox.log.taken = log.taken ++ if log.isEnabled then FailureLog.lines messages else [] := by
  obtain ⟨-, hwritten, hall⟩ := h.written_of_result hr
  obtain ⟨-, hl⟩ := h.wrote hout hlog
  rw [hwritten] at hl
  rw [← Server.diagnostics_settlements hraw]
  refine ⟨_, ((server.settings.order.arrange_perm cs).trans hall).filterMap _, ?_, hl⟩
  intro hordered
  show diagnostics (server.settings.order.arrange cs) = _
  rw [Serving.Accounts.arrange_of_ordered hall hordered]

/-- For every server that does not tag outcomes, in either order of responses, with a reliable main output
and a reliable log that is switched on and empty, every stream of bytes and every run on it. Wherever the
run gets, it can come to its end. Where it has come to its end, the log falls at its line feeds into the
pieces of one entry for each request that fails, the mark and its message, in the order of the requests if
the server answers in order, and nothing stands behind the last line. There is one line for each of these
messages if and only if none of them has a line feed, and then there are no other such messages with the
same lines. -/
theorem one_line_for_each_failure (hraw : server.settings.conventions.envelope = .raw)
    (hout : out.IsReliable) (hlog : log.IsReliable) (henabled : log.isEnabled = true)
    (hempty : log.taken = []) (h : (start server out log input).Reaches f) :
    let failures := server.failures (server.reading input).payloads
    (∃ f' r, f.Reaches f' ∧ f'.serving.result? = some r) ∧
    ∀ r, f.serving.result? = some r → ∃ messages,
      messages.Perm failures ∧ (server.settings.order = .ordered → messages = failures) ∧
      f.serving.outbox.log.taken.splitOn FailureLog.lineFeed =
        messages.flatMap (fun m => (FailureLog.entry m).splitOn FailureLog.lineFeed) ++ [[]] ∧
      (f.serving.outbox.log.taken.splitOn FailureLog.lineFeed = messages.map FailureLog.entry ++ [[]] ↔
        ∀ m ∈ failures, '\n' ∉ m.toList) ∧
      ((∀ m ∈ failures, '\n' ∉ m.toList) → ∀ others, (∀ m ∈ others, '\n' ∉ m.toList) →
        f.serving.outbox.log.taken = FailureLog.lines others → others = messages) := by
  intro failures
  obtain ⟨ps, cs, hinv⟩ := inv_of_reaches hout h
  refine ⟨hinv.exists_result hout, ?_⟩
  intro r hr
  obtain ⟨messages, hperm, hordered, htaken⟩ := hinv.logged hout hlog hraw hr
  rw [hempty, henabled, List.nil_append, if_pos rfl] at htaken
  have hmem : (∀ m ∈ messages, '\n' ∉ m.toList) ↔ ∀ m ∈ failures, '\n' ∉ m.toList :=
    forall_congr' fun m => imp_congr_left hperm.mem_iff
  refine ⟨messages, hperm, hordered, ?_, ?_, ?_⟩
  · rw [htaken, FailureLog.splitOn_lines]
  · rw [htaken, FailureLog.splitOn_lines_iff, hmem]
  · intro hfailures others hothers hsame
    rw [htaken] at hsame
    exact (FailureLog.lines_inj (hmem.2 hfailures) hothers hsame).symm

/-- Two lines, of which one does not hold a value. -/
theorem one_line_for_each_failure_echo :
    let server : Server :=
      ⟨{ ServerSettings.standard with conventions := ⟨.newline, .raw⟩ }, .single (.ofOutcome .returned)⟩
    let log : FailureLog := ⟨some .unlimited⟩
    let input : Bytes := [120, 10, 49, 10]
    Sink.unlimited.IsReliable ∧ log.IsReliable ∧ log.isEnabled = true ∧ log.taken = [] ∧
      ∃ f r, (start server .unlimited log input).Reaches f ∧ f.serving.result? = some r ∧
        f.serving.outbox.log.taken.splitOn FailureLog.lineFeed =
          [FailureLog.entry "invalid JSON", []] := by
  intro server log input
  obtain ⟨hout, hlog, f, r, hreach, hr⟩ := exists_ended server input
  obtain ⟨-, hend⟩ := one_line_for_each_failure rfl hout hlog rfl rfl hreach
  obtain ⟨messages, -, hordered, -, hlines, -⟩ := hend r hr
  have hpayloads : (server.reading input).payloads = [[120], [49]] :=
    (@Server.reading_stream server [[120], [49]] rfl (by decide)).1
  have hfailures : server.failures [[120], [49]] = ["invalid JSON"] := by rfl
  rw [hpayloads, hfailures] at hlines hordered
  rw [hordered rfl] at hlines
  refine ⟨hout, hlog, rfl, rfl, f, r, hreach, hr, hlines.2 ?_⟩
  decide

/-- One request for a command that there is not, and two lines that say that two commands are unknown. -/
theorem two_lines_for_one_failure :
    let commands := Commands.empty.insert "add" (.ofOutcome .returned)
    let server : Server :=
      ⟨{ ServerSettings.standard with conventions := ⟨.newline, .raw⟩ }, .byName commands⟩
    let log : FailureLog := ⟨some .unlimited⟩
    let request : Bytes := Text.encodeChars "[\"x\\nerror: unknown command: y\",1]".toList
    let input : Bytes := request ++ [10]
    (server.reading input).payloads = [request] ∧
      (server.failures (server.reading input).payloads).length = 1 ∧
      ∃ f r, (start server .unlimited log input).Reaches f ∧ f.serving.result? = some r ∧
        f.serving.outbox.log.taken.splitOn FailureLog.lineFeed =
          [FailureLog.entry "unknown command: x", FailureLog.entry "unknown command: y", []] := by
  intro commands server log request input
  obtain ⟨hout, hlog, f, r, hreach, hr⟩ := exists_ended server input
  obtain ⟨ps, cs, hinv⟩ := inv_of_reaches hout hreach
  obtain ⟨messages, -, hordered, htaken⟩ := hinv.logged hout hlog rfl hr
  have hpayloads : (server.reading input).payloads = [request] :=
    (@Server.reading_stream server [request] rfl (by decide +kernel)).1
  have hfailures : server.failures [request] = ["unknown command: x\nerror: unknown command: y"] := by rfl
  rw [hpayloads, hfailures] at hordered
  refine ⟨hpayloads, by rw [hpayloads, hfailures]; rfl, f, r, hreach, hr, ?_⟩
  rw [htaken, hordered rfl]
  decide +kernel

end Feed
end FramedCall
