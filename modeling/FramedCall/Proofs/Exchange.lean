import Mathlib.Data.List.Basic
import FramedCall.Proofs.Client
import FramedCall.Proofs.Server.Output
import FramedCall.Proofs.Tagging

/-!
# Client and server together

A client calls a command of a server that follows the same conventions. `Feed.Run` follows the server
and keeps the handlers that are called. The main statement is `Client.exchange_served`: whatever the
name and the argument are and however the bytes are cut on both ways, the handler of that name is called
once with the argument as it goes on the wire, and the client takes out what the handler ended in.
-/

namespace FramedCall

open Json (Value maxDepth)

/-! ### Calls -/

/-- The handler that a payload goes to and what it is given, if there is one. -/
def Server.calls (server : Server) (payload : Bytes) : List (Handler × Value) :=
  match Payload.decode payload with
  | .ok request => (server.router.resolve request).toOption.toList
  | .error _ => []

/-- The calls of an action: a frame that is taken out goes to its handler. -/
def Serving.calls (s : Serving) (a : Action) : List (Handler × Value) :=
  (s.taken a).flatMap s.server.calls

/-- From `f₀` the feed comes to `f` by any number of steps, and these handlers are called on the
way. -/
inductive Feed.Run (f₀ : Feed) : List (Handler × Value) → Feed → Prop where
  /-- Nothing has happened. -/
  | start : Run f₀ [] f₀
  /-- One more step. -/
  | step {calls : List (Handler × Value)} {f f' : Feed} {a : Serving.Action} :
      Run f₀ calls f → f.Step a f' → Run f₀ (calls ++ f.serving.calls a) f'

namespace Feed

variable {server : Server} {out : Sink} {log : FailureLog} {input : Bytes} {f f₀ : Feed}

/-- Whatever steps are taken, some handlers are called on the way. -/
theorem Reaches.exists_run (h : f₀.Reaches f) : ∃ calls, f₀.Run calls f := by
  induction h with
  | refl => exact ⟨[], .start⟩
  | tail _ hs ih =>
    obtain ⟨a, hs⟩ := hs
    obtain ⟨calls, hrun⟩ := ih
    exact ⟨_, hrun.step hs⟩

/-- The calls of a run are those of the payloads that have been taken out. -/
theorem Run.inv {calls : List (Handler × Value)} (hout : out.IsReliable)
    (h : (Feed.start server out log input).Run calls f) :
    ∃ ps cs, Inv server out log input ps cs f ∧ calls = ps.flatMap server.calls := by
  induction h with
  | start => exact ⟨[], [], inv_start server out log input, rfl⟩
  | @step calls f f' a _ hs ih =>
    obtain ⟨ps, cs, hinv, rfl⟩ := ih
    refine ⟨_, _, hinv.step hout hs, ?_⟩
    rw [List.flatMap_append, Serving.calls, hinv.accounts.unchanged]

end Feed

/-! ### Responses -/

/-- What a call of a command comes back as. -/
def Commands.response (commands : Commands) (name : String) (argument : Value) : Response :=
  match commands.find? name with
  | none => .err s!"unknown command: {name}"
  | some h =>
    match (h argument).outcome with
    | .returned v => .ok v.toWire
    | .failed message => .err message
    | .crashed message => .err (message.getD "handler panicked")

/-- A response with its tag. -/
def Tagging.put (t : Tagging) : Response → Value
  | .ok v => t.wrap t.ok v
  | .err message => t.wrap t.err (.string message)

/-- The payload that carries a response. -/
def Tagging.payload (t : Tagging) (r : Response) : Bytes :=
  Payload.encode (t.put r)

namespace Tagging

variable {t : Tagging}

/-- Different tags are told apart. -/
theorem unwrap_put (htags : t.ok ≠ t.err) (r : Response) : (Envelope.tagged t).unwrap (t.put r) = .ok r := by
  cases r with
  | ok v => exact t.unwrap_success v
  | err message => exact unwrap_failure htags (.string message)

end Tagging

/-- The settlement of an outcome, where outcomes are tagged. -/
theorem Conventions.settle_tagged {c : Conventions} {t : Tagging} (h : c.envelope = .tagged t) (seq : Nat)
    (outcome : Except CallError Value) :
    c.settle seq outcome = ⟨seq, some (c.framing.around (t.payload
      (match outcome with | .ok v => .ok v | .error e => .err e.message))), none⟩ := by
  rw [settle_wrapped h]
  cases outcome <;> rfl

/-! ### The server's side -/

/-- A lone settlement is written as it comes. -/
theorem DeliveryOrder.arrange_singleton (order : DeliveryOrder) (c : Settlement) : order.arrange [c] = [c] := by
  cases order
  · exact List.mergeSort_singleton c
  · rfl

namespace Feed

variable {server : Server} {out : Sink} {log : FailureLog} {input : Bytes} {f : Feed}

/-- At rest all has been taken out. -/
theorem Inv.payloads_of_atRest {ps : List Bytes} {cs : List Settlement}
    (h : Inv server out log input ps cs f) (hrest : f.AtRest) : (server.reading input).payloads = ps := by
  obtain ⟨hend, hstuck⟩ := hrest
  obtain ⟨-, hi⟩ := h.accounts.onTheWay_of_stuck hstuck
  apply h.payloads
  rcases hi with hi | hi
  · rcases hend with hend | hend
    · exact .inr ⟨hi, hend⟩
    · exact .inl hend
  · exact .inl hi

/-- A server that is given one frame and nothing else comes to rest behind its settlement. -/
theorem Run.of_single {calls : List (Handler × Value)} {p : Bytes} (hout : out.IsReliable)
    (hreading : (server.reading input).payloads = [p])
    (h : (Feed.start server out log input).Run calls f) (hrest : f.AtRest) :
    calls = server.calls p ∧
      f.serving.outbox.out = out.push (Sink.wire (Settlement.frames [server.settlement 0 p])) := by
  obtain ⟨ps, cs, hinv, rfl⟩ := h.inv hout
  obtain rfl : ps = [p] := (hinv.payloads_of_atRest hrest).symm.trans hreading
  obtain ⟨hway, -⟩ := hinv.accounts.onTheWay_of_stuck hrest.2
  obtain ⟨hperm, hw, -⟩ := hinv.accounts.output hout hway (hinv.accounts.ready_of_stuck hout hrest.2)
  obtain rfl : cs = [server.settlement 0 p] := List.perm_singleton.1 hperm
  rw [DeliveryOrder.arrange_singleton] at hw
  exact ⟨by simp, hw⟩

end Feed

section Exchange

variable {t : Tagging} {server : Server} {commands : Commands} {name : String}

/-- A response goes on the wire as it is. -/
theorem Commands.toWire_put_response (t : Tagging) (commands : Commands) (name : String)
    (argument : Value) :
    (t.put (commands.response name argument)).toWire = t.put (commands.response name argument) := by
  unfold Commands.response
  split
  · exact t.toWire_wrap _ _
  · split
    · rw [Tagging.put, t.toWire_wrap, Value.toWire_toWire]
    · exact t.toWire_wrap _ _
    · exact t.toWire_wrap _ _

/-- A response is read as it was written if that holds of the value that was returned. -/
theorem Commands.legible_put_response
    (hkeys : t.layout = .object → t.ok ≠ Value.numberKey ∧ t.err ≠ Value.numberKey) {argument : Value}
    (hreturned : ∀ h v, commands.find? name = some h → (h argument).outcome = .returned v →
      v.legible = true ∧ v.depth ≤ 126) :
    (t.put (commands.response name argument)).legible = true ∧
      (t.put (commands.response name argument)).depth ≤ maxDepth := by
  have hmessage : ∀ m, (t.put (.err m)).legible = true ∧ (t.put (.err m)).depth ≤ maxDepth := by
    intro m
    refine ⟨Tagging.legible_wrap (fun hl => (hkeys hl).2) rfl, ?_⟩
    rw [Tagging.put, Tagging.depth_wrap]
    exact Nat.succ_le_of_lt (by decide : 0 < maxDepth)
  unfold Commands.response
  split
  · exact hmessage _
  · next h hh =>
    split
    · next v hv =>
      obtain ⟨hlegible, hdepth⟩ := hreturned h v hh hv
      refine ⟨Tagging.legible_wrap (fun hl => (hkeys hl).1) (Value.legible_toWire v hlegible), ?_⟩
      rw [Tagging.put, Tagging.depth_wrap, Value.depth_toWire, maxDepth]
      omega
    · exact hmessage _
    · exact hmessage _

/-- Where a request for a command goes. -/
theorem Router.resolve_command (commands : Commands) (name : String) (argument : Value) :
    (byName commands).resolve (.array [.string name, argument]) = match commands.find? name with
      | some h => .ok (h, argument)
      | none => .error (.unknownCommand name) :=
  rfl

/-- The handler of a command is called with its argument. -/
theorem Server.calls_of_decode (hrouter : server.router = .byName commands) {p : Bytes} {argument : Value}
    (hp : Payload.decode p = .ok (.array [.string name, argument])) :
    server.calls p = (commands.find? name).toList.map fun h => (h, argument) := by
  unfold Server.calls
  rw [hp, hrouter]
  show ((Router.byName commands).resolve _).toOption.toList = _
  rw [Router.resolve_command]
  rcases commands.find? name with _ | h
  · rfl
  · rfl

/-- A call of a command is answered as its handler ends. -/
theorem Server.answer_of_decode (hrouter : server.router = .byName commands) {p : Bytes} {argument : Value}
    (hp : Payload.decode p = .ok (.array [.string name, argument])) :
    server.answer p = match commands.find? name with
      | none => .error (.unknownCommand name)
      | some h => (h argument).outcome.result := by
  unfold Server.answer
  rw [hp, hrouter]
  show ((Router.byName commands).reply _).2 = _
  unfold Router.reply
  rw [Router.resolve_command]
  rcases commands.find? name with _ | h
  · rfl
  · rfl

/-- The settlement of a call carries its response. -/
theorem Server.settlement_of_decode (hrouter : server.router = .byName commands)
    (henvelope : server.settings.conventions.envelope = .tagged t) {p : Bytes} {argument : Value}
    (hp : Payload.decode p = .ok (.array [.string name, argument])) (seq : Nat) :
    (server.settlement seq p).frame =
      some (server.settings.conventions.framing.around (t.payload (commands.response name argument))) := by
  have hpayload : ∀ v : Value, t.payload (.ok v.toWire) = t.payload (.ok v) := by
    intro v
    rw [Tagging.payload, Tagging.payload, ← Payload.encode_toWire, ← Payload.encode_toWire (t.put (.ok v)),
      Tagging.put, Tagging.put, t.toWire_wrap, t.toWire_wrap, Value.toWire_toWire]
  rw [Server.settlement, Conventions.settle_tagged henvelope, Server.answer_of_decode hrouter hp,
    Commands.response]
  rcases commands.find? name with _ | h
  · rfl
  · rcases ho : (h argument).outcome with v | m | m
    · simp only [Outcome.result, ho]
      rw [hpayload]
    · simp only [Outcome.result, ho]
      rfl
    · simp only [Outcome.result, ho]
      rfl

/-- What a server takes out of one frame. -/
theorem Server.reading_around (server : Server) {p : Bytes}
    (hcarries : server.settings.conventions.framing.validate p = .ok ())
    (hlimit : p.length ≤ min server.settings.maxPayload Framing.maxLength) :
    server.reading (server.settings.conventions.framing.around p).bytes =
      ⟨[p], none, .empty server.settings.conventions.framing server.settings.maxPayload⟩ :=
  Deframer.drain_frame hcarries (Nat.le_trans hlimit (Nat.min_le_left _ _))
    (Nat.le_trans hlimit (Nat.min_le_right _ _))

/-- A server that is given frames only comes to rest and waits for more. -/
theorem Feed.exists_run_atRest {server : Server} {out : Sink} {input : Bytes} (hout : out.IsReliable)
    (log : FailureLog) (hreading : (server.reading input).violation = none) :
    ∃ calls f, (Feed.start server out log input).Run calls f ∧ f.AtRest ∧
      f.serving.intake = .reading := by
  obtain ⟨f, hreach, hrest, hgood⟩ := (Feed.inv_start server out log input).exists_atRest hout
  obtain ⟨calls, hrun⟩ := hreach.exists_run
  obtain ⟨ps, cs, hinv⟩ := Feed.inv_of_reaches hout hreach
  refine ⟨calls, f, hrun, hrest, ?_⟩
  rcases (hinv.accounts.onTheWay_of_stuck hrest.2).2 with hi | hi
  · exact hi
  · rcases hj : f.serving.intake with _ | _ | n | ⟨e | ⟨⟩⟩
    · rfl
    · simp [hj, Intake.isEnded] at hi
    · simp [hj, Intake.isEnded] at hi
    · have hv := (hinv.follows.bad e hj).2.1
      rw [hreading] at hv
      cases hv
    · cases hgood hj

/-- A client that is sent the frame of a response, in any pieces, takes that response out. -/
theorem Client.exchange_of_pieces {conventions : Conventions} (henvelope : conventions.envelope = .tagged t)
    (htags : t.ok ≠ t.err) {r : Response} (hwire : (t.put r).toWire = t.put r)
    (hlegible : (t.put r).legible = true) (hdepth : (t.put r).depth ≤ maxDepth)
    (hlimit : (t.payload r).length ≤ Deframer.standardLimit) {pieces : List Bytes}
    (hpieces : pieces.flatten = (conventions.framing.around (t.payload r)).bytes) {sink : Sink}
    (hsink : sink.IsReliable) (v : Value) :
    ((Client.start conventions (⟨pieces.map .chunk⟩, sink)).exchange .plain v).1 = .settled (.ok r) := by
  have hlength : (t.payload r).length ≤ Framing.maxLength := Nat.le_trans hlimit (by decide)
  have hdrain : ((Deframer.empty conventions.framing Deframer.standardLimit).extend pieces.flatten).drain =
      ⟨[t.payload r], none, .empty conventions.framing Deframer.standardLimit⟩ := by
    rw [hpieces]
    exact Deframer.drain_frame (Payload.validate_encode conventions.framing (t.put r)) hlimit hlength
  -- the client takes this one payload out, however its bytes arrive
  have htake : ∀ sink', (takeFrame .plain ⟨conventions, .empty conventions.framing Deframer.standardLimit,
      [], ⟨pieces.map .chunk⟩, sink'⟩).1 = .settled (.ok (t.payload r)) := by
    intro sink'
    have hexpects : (start conventions (arriving pieces false, sink')).Expects false [t.payload r] :=
      expects_start conventions false sink' (by rw [hdrain]) (by rw [hdrain])
    obtain ⟨c', htaken, -⟩ := hexpects.takeFrame
    rw [arriving_false] at htaken
    exact congrArg Prod.fst htaken
  have hdecode : Payload.decode (t.payload r) = .ok (t.put r) := by
    rw [Tagging.payload, Payload.decode_encode hlegible hdepth, hwire]
  rw [exchange_plain _ hsink]
  show ((takeFrame .plain ⟨conventions, .empty conventions.framing Deframer.standardLimit,
    [], ⟨pieces.map .chunk⟩, _⟩).1.andThen _).andThen _ = _
  rw [htake]
  simp only [Awaited.andThen, Except.bind, hdecode]
  rw [show (start conventions ((⟨pieces.map .chunk⟩ : Source), sink)).conventions.envelope = .tagged t from
    henvelope, Tagging.unwrap_put htags]

/-- A client calls a command of a server that follows the same conventions and tags outcomes by two
different tags. Let the argument, and what the handler returns for it, be values that are read as
they were written, with room for what is put around them, and let both payloads be small enough. Then
the client writes one request; a server that is sent these bytes and no others, in any pieces, comes to
rest and waits for more, and wherever it is at rest the handler of exactly that name has been called,
once and with the argument as it goes on the wire, and one response has been written; and a client
that is sent these bytes, in any pieces, takes out what the handler returned, as it goes on the wire, or
the message of its failure or crash, or that there is no such command. -/
theorem Client.exchange_served (henvelope : server.settings.conventions.envelope = .tagged t)
    (htags : t.ok ≠ t.err)
    (hkeys : t.layout = .object → t.ok ≠ Value.numberKey ∧ t.err ≠ Value.numberKey)
    (hrouter : server.router = .byName commands) {a : Value} (ha : a.legible = true)
    (hdepth : a.depth ≤ 126)
    (hreturned : ∀ h v, commands.find? name = some h → (h a.toWire).outcome = .returned v →
      v.legible = true ∧ v.depth ≤ 126)
    (hrequest : (Payload.encode (.array [.string name, a])).length ≤
      min server.settings.maxPayload Framing.maxLength)
    (hresponse : (t.payload (commands.response name a.toWire)).length ≤ Deframer.standardLimit) :
    ∃ request response : Bytes,
      (∀ source sink, sink.IsReliable →
        (Client.start server.settings.conventions (source, sink)).request .plain
            (.array [.string name, a]) =
          (.settled (.ok ()), Client.start server.settings.conventions (source, sink.push request))) ∧
      (∀ out log, out.IsReliable →
        (∃ calls f, (Feed.start server out log request).Run calls f ∧ f.AtRest ∧
          f.serving.intake = .reading) ∧
        ∀ calls f, (Feed.start server out log request).Run calls f → f.AtRest →
          calls = (commands.find? name).toList.map (fun h => (h, a.toWire)) ∧
            f.serving.outbox.out = out.push response) ∧
      ∀ (pieces : List Bytes) (sink : Sink), pieces.flatten = response → sink.IsReliable →
        ((Client.start server.settings.conventions (⟨pieces.map .chunk⟩, sink)).exchange .plain
            (.array [.string name, a])).1 =
          .settled (.ok (commands.response name a.toWire)) := by
  have hdecode : Payload.decode (Payload.encode (.array [.string name, a])) =
      .ok (.array [.string name, a.toWire]) := by
    refine Payload.decode_encode ?_ ?_
    · simp [Value.legible, Value.itemsLegible, ha]
    · simp only [Value.depth, Value.itemsDepth, maxDepth]
      omega
  obtain ⟨hlegible, hdeep⟩ := Commands.legible_put_response hkeys hreturned
  have hreading := server.reading_around (Payload.validate_encode _ _) hrequest
  refine ⟨(server.settings.conventions.framing.around (Payload.encode (.array [.string name, a]))).bytes,
    (server.settings.conventions.framing.around (t.payload (commands.response name a.toWire))).bytes,
    ?_, ?_, ?_⟩
  · intro source sink hsink
    exact Client.request_plain (Client.start server.settings.conventions (source, sink)) hsink _
  · intro out log hout
    refine ⟨Feed.exists_run_atRest hout log (by rw [hreading]), ?_⟩
    intro calls f hrun hrest
    obtain ⟨hcalls, hw⟩ := hrun.of_single hout (by rw [hreading]) hrest
    refine ⟨hcalls.trans (Server.calls_of_decode hrouter hdecode), ?_⟩
    have hframe := Server.settlement_of_decode hrouter henvelope hdecode 0
    have hframes : Settlement.frames
        [server.settlement 0 (Payload.encode (.array [.string name, a]))] =
          [server.settings.conventions.framing.around (t.payload (commands.response name a.toWire))] := by
      simp only [Settlement.frames, List.filterMap_cons, List.filterMap_nil, hframe]
    rw [hw, hframes]
    simp [Sink.wire]
  · intro pieces sink hpieces hsink
    exact Client.exchange_of_pieces henvelope htags (Commands.toWire_put_response t commands name _)
      hlegible hdeep hresponse hpieces hsink _

end Exchange

/-- A command that returns its argument, called with an unsafe integer. -/
theorem Client.exchange_served_echo :
    let echo : Handler := .ofOutcome .returned
    let server : Server := ⟨.standard, .byName ⟨[("echo", echo)]⟩⟩
    let a : Value := .array [.number (.ofInt 9007199254740993), .string "\n"]
    a.legible = true ∧ a.depth ≤ 126 ∧ ∃ request response : Bytes,
      (∃ calls f, (Feed.start server .unlimited .disabled request).Run calls f ∧ f.AtRest ∧
        calls = [(echo, a.toWire)] ∧ f.serving.outbox.out = Sink.unlimited.push response) ∧
      ((Client.start server.settings.conventions (⟨[.chunk response]⟩, .unlimited)).exchange .plain
        (.array [.string "echo", a])).1 = .settled (.ok (.ok a.toWire)) := by
  intro echo server a
  have hcommand : (⟨[("echo", echo)]⟩ : Commands).find? "echo" = some echo := rfl
  have hreturned : ∀ h v, (⟨[("echo", echo)]⟩ : Commands).find? "echo" = some h →
      (h a.toWire).outcome = .returned v → v.legible = true ∧ v.depth ≤ 126 := by
    intro h v hh hv
    cases hcommand.symm.trans hh
    cases hv
    exact ⟨by decide +kernel, by decide +kernel⟩
  obtain ⟨request, response, -, hserved, hexchange⟩ :=
    @exchange_served .standard server ⟨[("echo", echo)]⟩ "echo" rfl (by decide) (fun _ => by decide) rfl a
      (by decide) (by decide) hreturned (by decide +kernel) (by decide +kernel)
  obtain ⟨⟨calls, f, hrun, hrest, -⟩, hall⟩ := hserved .unlimited .disabled Sink.isReliable_unlimited
  obtain ⟨hcalls, hout⟩ := hall calls f hrun hrest
  refine ⟨by decide, by decide, request, response, ⟨calls, f, hrun, hrest, hcalls, hout⟩, ?_⟩
  exact hexchange [response] .unlimited (by simp) Sink.isReliable_unlimited

end FramedCall
