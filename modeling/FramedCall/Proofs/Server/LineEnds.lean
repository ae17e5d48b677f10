import FramedCall.Proofs.Json.Blank
import FramedCall.Proofs.Server.Logging

/-!
# Lines that end in a carriage return

Frames of lines end at the line feed, so that a carriage return in front of it is part of the payload. As a
blank it changes neither the value of a payload nor what an undecodable payload is answered
(`Server.settlement_concat_return`). The main statement is `Feed.served_alike_with_returns`: on a stream of
lines with carriage returns and on one without them a server writes the same.
-/

namespace FramedCall

open Framing (terminator)
open Json (Value)

/-- The carriage return. -/
def carriageReturn : UInt8 := 13

/-! ### Answers -/

/-- A carriage return behind a payload is no matter for what is read. -/
theorem Payload.decode?_concat_return (payload : Bytes) :
    decode? (payload ++ [carriageReturn]) = decode? payload :=
  decode?_concat_blank (by decide) (by decide) payload

/-- With a carriage return behind it a payload is decoded as the same value, or as none. -/
theorem Payload.decode_concat_return_iff {payload : Bytes} {v : Value} :
    decode (payload ++ [carriageReturn]) = .ok v ↔ decode payload = .ok v := by
  unfold decode
  rw [decode?_concat_return]
  rcases decode? payload with _ | w
  · exact iff_of_false (by rintro ⟨⟩) (by rintro ⟨⟩)
  · rfl

namespace Server

variable {server : Server}

/-- With a carriage return behind it a payload comes to the same settlement: the text of an undecodable
one is not part of any message. -/
theorem settlement_concat_return (seq : Nat) (payload : Bytes) :
    server.settlement seq (payload ++ [carriageReturn]) = server.settlement seq payload := by
  unfold settlement answer Payload.decode
  rw [Payload.decode?_concat_return]
  rcases Payload.decode? payload with _ | v
  · rfl
  · rfl

/-- With carriage returns behind them payloads come to the same settlements. -/
theorem settlements_concat_return (payloads : List Bytes) :
    server.settlements (payloads.map (· ++ [carriageReturn])) = server.settlements payloads := by
  unfold settlements
  apply List.ext_getElem
  · simp
  · intro i h h'
    rw [List.getElem_mapIdx, List.getElem_mapIdx, List.getElem_map, settlement_concat_return]

end Server

/-! ### Streams of lines -/

/-- Lines with carriage returns are lines. -/
theorem Framing.stream_return (lines : List Bytes) :
    stream [carriageReturn, terminator] lines =
      stream [terminator] (lines.map (· ++ [carriageReturn])) := by
  unfold stream
  rw [List.flatMap_map]
  simp

namespace Server

variable {server : Server} {lines : List Bytes}

/-- Out of a stream of lines with carriage returns each line is taken with its return. -/
theorem reading_stream_return (hframing : server.settings.conventions.framing = .newline)
    (hlines : ∀ l ∈ lines, terminator ∉ l ∧ l.length + 1 ≤ server.settings.maxPayload) :
    (server.reading (Framing.stream [carriageReturn, terminator] lines)).payloads =
        lines.map (· ++ [carriageReturn]) ∧
      (server.reading (Framing.stream [carriageReturn, terminator] lines)).violation = none := by
  rw [Framing.stream_return]
  apply reading_stream hframing
  intro l hl
  obtain ⟨l', hl', rfl⟩ := List.mem_map.1 hl
  obtain ⟨hterminator, hlength⟩ := hlines l' hl'
  constructor
  · intro hmem
    rcases List.mem_append.1 hmem with hmem | hmem
    · exact hterminator hmem
    · exact absurd (List.mem_singleton.1 hmem) (by decide)
  · rwa [List.length_append, List.length_singleton]

end Server

/-! ### Two runs -/

namespace Feed

variable {server : Server} {out : Sink} {log : FailureLog} {input : Bytes} {ps : List Bytes}
  {cs : List Settlement} {f : Feed}

/-- In order of the requests a run that has ended has written what it owes in that order. -/
theorem Inv.wrote_of_result (h : Inv server out log input ps cs f) (hout : out.IsReliable)
    (hlog : log.IsReliable) (hordered : server.settings.order = .ordered) {r : Except CallError Unit}
    (hr : f.serving.result? = some r) :
    f.serving.Wrote out log (server.settlements (server.reading input).payloads) := by
  obtain ⟨-, hwritten, hall⟩ := h.written_of_result hr
  rw [← Serving.Accounts.arrange_of_ordered hall hordered, ← hwritten]
  exact h.wrote hout hlog

/-- A carriage return behind any bytes leaves it at whether they are decoded, and as which value. For every
server for lines that answers in order of the requests, both streams of which are reliable, and any lines
that are not too long with a carriage return: decodable or not, empty, or with carriage returns of their
own. Any run on the lines with a carriage return behind each, and any run on the lines without, can come to
its end. Where both have, the main outputs are the same, and so are the logs; and serving has not failed. -/
theorem served_alike_with_returns :
    (∀ (l : Bytes) (v : Value), Payload.decode (l ++ [carriageReturn]) = .ok v ↔ Payload.decode l = .ok v) ∧
    ∀ (server : Server) (out : Sink) (log : FailureLog) (lines : List Bytes),
      server.settings.conventions.framing = .newline → server.settings.order = .ordered →
      out.IsReliable → log.IsReliable →
      (∀ l ∈ lines, terminator ∉ l ∧ l.length + 1 ≤ server.settings.maxPayload) →
      ∀ f g, (start server out log (Framing.stream [carriageReturn, terminator] lines)).Reaches f →
        (start server out log (Framing.stream [terminator] lines)).Reaches g →
        (∃ f' r, f.Reaches f' ∧ f'.serving.result? = some r) ∧
        (∃ g' r, g.Reaches g' ∧ g'.serving.result? = some r) ∧
        ∀ r s, f.serving.result? = some r → g.serving.result? = some s →
          f.serving.outbox.out.taken = g.serving.outbox.out.taken ∧
            f.serving.outbox.log.taken = g.serving.outbox.log.taken ∧ r = .ok () ∧ s = .ok () := by
  refine ⟨fun l v => Payload.decode_concat_return_iff, ?_⟩
  intro server out log lines hframing hordered hout hlog hlines f g hf hg
  obtain ⟨ps, cs, hinv⟩ := inv_of_reaches hout hf
  obtain ⟨qs, ds, hinv'⟩ := inv_of_reaches hout hg
  refine ⟨hinv.exists_result hout, hinv'.exists_result hout, ?_⟩
  intro r s hr hs
  obtain ⟨hpayloads, hviolation⟩ := Server.reading_stream_return hframing hlines
  obtain ⟨hpayloads', hviolation'⟩ := Server.reading_stream hframing fun l hl =>
    ⟨(hlines l hl).1, Nat.le_of_succ_le (hlines l hl).2⟩
  obtain ⟨hw, hl⟩ := hinv.wrote_of_result hout hlog hordered hr
  obtain ⟨hw', hl'⟩ := hinv'.wrote_of_result hout hlog hordered hs
  have hend := hinv.result hr
  have hend' := hinv'.result hs
  rw [hpayloads, Server.settlements_concat_return] at hw hl
  rw [hpayloads'] at hw' hl'
  rw [hviolation] at hend
  rw [hviolation'] at hend'
  exact ⟨hw.trans hw'.symm, hl.trans hl'.symm, hend, hend'⟩

/-- A value, bytes that are none, an empty line, and a value with a carriage return of its own. -/
theorem served_alike_with_returns_four_lines :
    let server : Server :=
      ⟨{ ServerSettings.standard with conventions := ⟨.newline, .raw⟩ }, .single (.ofOutcome .returned)⟩
    let log : FailureLog := ⟨some .unlimited⟩
    let lines : List Bytes := [[49], [120], [], [50, 13]]
    (∀ l ∈ lines, terminator ∉ l ∧ l.length + 1 ≤ server.settings.maxPayload) ∧
      Framing.stream [carriageReturn, terminator] lines = [49, 13, 10, 120, 13, 10, 13, 10, 50, 13, 13, 10] ∧
      Payload.decode [50, 13, carriageReturn] = .ok (.number (.ofInt 2)) ∧
      ∃ f g r s, (start server .unlimited log (Framing.stream [carriageReturn, terminator] lines)).Reaches f ∧
        (start server .unlimited log (Framing.stream [terminator] lines)).Reaches g ∧
        f.serving.result? = some r ∧ g.serving.result? = some s ∧
        f.serving.outbox.out.taken = g.serving.outbox.out.taken ∧
        f.serving.outbox.log.taken = g.serving.outbox.log.taken := by
  intro server log lines
  have hlines : ∀ l ∈ lines, terminator ∉ l ∧ l.length + 1 ≤ server.settings.maxPayload := by decide
  obtain ⟨hout, hlog, f, r, hf, hr⟩ :=
    exists_ended server (Framing.stream [carriageReturn, terminator] lines)
  obtain ⟨-, -, g, s, hg, hs⟩ := exists_ended server (Framing.stream [terminator] lines)
  obtain ⟨hdecode, hserved⟩ := served_alike_with_returns
  obtain ⟨-, -, hsame⟩ := hserved server .unlimited log lines rfl rfl hout hlog hlines f g hf hg
  obtain ⟨hw, hl, -, -⟩ := hsame r s hr hs
  exact ⟨hlines, rfl, (hdecode [50, 13] _).2 rfl, f, g, r, s, hf, hg, hr, hs, hw, hl⟩

end Feed
end FramedCall
