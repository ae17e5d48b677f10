import Mathlib.Data.List.Induction
import FramedCall.Proofs.Exchange
import FramedCall.Server

/-!
# Registration and routing

A builder remembers what was registered by calls in any order: the last handler for everything, and for
each name the last handler of that name (`Registered`). Calls that make settings are of no account. A router
calls a handler at most once; `handle` notes the calls. The main statement is `Builder.routes_as_registered`: it says which calls a server comes
of, and for each request which handler is called and with what.
-/

namespace FramedCall

open Json (Value)

/-! ### Calls of handlers -/

namespace Router

/-- What is done with a request, where calling a handler is an effect. -/
def dispatch {m : Type → Type} [Monad m] (r : Router) (call : Handler → Value → m Reply) (request : Value) :
    m (Option String × Except CallError Value) :=
  match r.resolve request with
  | .ok (h, argument) => do
    let reply ← call h argument
    return (reply.gate, reply.outcome.result)
  | .error e => return (none, .error e)

/-- Where a call is nothing but the handler, that is the reply. -/
theorem dispatch_pure (r : Router) (request : Value) :
    r.dispatch (m := Id) (fun h argument => h argument) request = r.reply request := by
  unfold dispatch reply
  rcases r.resolve request with e | ⟨h, argument⟩
  · rfl
  · rfl

/-- Calls a handler and notes the call. -/
def noting (h : Handler) (argument : Value) : StateM (List (Handler × Value)) Reply := do
  modify (· ++ [(h, argument)])
  return h argument

/-- What a request ends in and the calls that are made for it. -/
def handle (r : Router) (request : Value) :
    (Option String × Except CallError Value) × List (Handler × Value) :=
  (r.dispatch noting request).run []

/-- A handler that is found is called, and no handler is if none is found. -/
theorem handle_eq (r : Router) (request : Value) :
    r.handle request = (r.reply request, (r.resolve request).toOption.toList) := by
  unfold handle dispatch reply
  rcases r.resolve request with e | ⟨h, argument⟩
  · rfl
  · rfl

/-- A handler that is found is called once, with what the request holds for it. -/
theorem handle_of_resolve {r : Router} {request argument : Value} {h : Handler}
    (hresolve : r.resolve request = .ok (h, argument)) :
    r.handle request = (((h argument).gate, (h argument).outcome.result), [(h, argument)]) := by
  rw [handle_eq, reply, hresolve]
  rfl

/-- Without a handler nothing is called. -/
theorem handle_of_unresolved {r : Router} {request : Value} {e : CallError}
    (hresolve : r.resolve request = .error e) : r.handle request = ((none, .error e), []) := by
  rw [handle_eq, reply, hresolve]
  rfl

/-- Any value but an array of a name and an argument is not a command. -/
theorem commandOf_eq_error {request : Value}
    (h : ∀ name argument, request ≠ .array [.string name, argument]) :
    ∃ cause, commandOf request = .error (.malformedCommand cause) := by
  unfold commandOf
  split
  · next name argument => exact absurd rfl (h name argument)
  · exact ⟨_, rfl⟩
  · exact ⟨_, rfl⟩
  · exact ⟨_, rfl⟩

/-- What is no command has no handler either. -/
theorem resolve_of_malformed {request : Value} {cause : String} (commands : Commands)
    (hcommand : commandOf request = .error (.malformedCommand cause)) :
    (byName commands).resolve request = .error (.malformedCommand cause) := by
  unfold resolve
  simp only [hcommand]
  rfl

end Router

/-- What a payload is answered with and the calls made for it are those of the request in it. -/
theorem Server.answer_eq_handle {server : Server} {p : Bytes} {request : Value}
    (h : Payload.decode p = .ok request) :
    (server.answer p, server.calls p) =
      ((server.router.handle request).1.2, (server.router.handle request).2) := by
  rw [Server.answer, Server.calls, h, Router.handle_eq]
  rfl

namespace Builder

/-! ### What has been registered -/

/-- The handler for everything that a call registers. -/
def Call.handler? : Call → Option Handler
  | .handler h => some h
  | _ => none

/-- The command that a call registers. -/
def Call.command? : Call → Option (String × Handler)
  | .command name h => some (name, h)
  | _ => none

/-- The handlers for everything that have been registered, in order. -/
def handlersOf (cs : List Call) : List Handler :=
  cs.filterMap Call.handler?

/-- The commands that have been registered, in order. -/
def commandsOf (cs : List Call) : List (String × Handler) :=
  cs.filterMap Call.command?

/-- The last of the handlers that were registered under a name. -/
def lastUnder (name : String) (es : List (String × Handler)) : Option Handler :=
  (es.reverse.find? fun e => e.1 = name).map (·.2)

/-- What is registered last under a name counts, and nothing else changes. -/
theorem lastUnder_concat (name : String) (es : List (String × Handler)) (e : String × Handler) :
    lastUnder name (es ++ [e]) = if name = e.1 then some e.2 else lastUnder name es := by
  unfold lastUnder
  rw [List.reverse_append, List.reverse_singleton, List.singleton_append, List.find?_cons]
  by_cases hname : e.1 = name
  · simp [hname]
  · simp [hname, Ne.symm hname]

/-- What is registered under a name stays the last as long as the name is not registered again. -/
theorem lastUnder_of_split {name : String} {front back : List (String × Handler)} {h : Handler}
    (hback : name ∉ back.map (·.1)) : lastUnder name (front ++ (name, h) :: back) = some h := by
  induction back using List.reverseRecOn with
  | nil =>
    rw [lastUnder_concat]
    exact if_pos rfl
  | append_singleton back e ih =>
    rw [List.map_append, List.mem_append, not_or] at hback
    have hne : name ≠ e.1 := by simpa using hback.2
    rw [← List.cons_append, ← List.append_assoc, lastUnder_concat, if_neg hne]
    exact ih hback.1

/-- Under a name that was not registered there is nothing. -/
theorem lastUnder_eq_none {name : String} {es : List (String × Handler)} (h : name ∉ es.map (·.1)) :
    lastUnder name es = none := by
  unfold lastUnder
  rw [Option.map_eq_none_iff, List.find?_eq_none]
  intro e he heq
  apply h
  rw [← of_decide_eq_true heq]
  exact List.mem_map_of_mem (List.mem_reverse.1 he)

/-- A builder holds the last handler for everything, and the last command of each name. -/
structure Registered (b : Builder) (hs : List Handler) (es : List (String × Handler)) : Prop where
  /-- The last handler for everything counts. -/
  single : b.single = hs.getLast?
  /-- The last command of a name counts. -/
  find? : ∀ name, b.commands.find? name = lastUnder name es
  /-- There are commands if any was registered. -/
  isEmpty : b.commands.isEmpty = es.isEmpty

/-- At the start nothing is registered. -/
theorem registered_start : Registered start [] [] :=
  ⟨rfl, fun _ => rfl, rfl⟩

/-- A binding leaves something bound. -/
theorem isEmpty_insert (cs : Commands) (name : String) (h : Handler) :
    (cs.insert name h).isEmpty = false := by
  unfold Commands.isEmpty Commands.insert
  rcases cs.entries with _ | ⟨⟨l, w⟩, es⟩
  · rfl
  · simp only [Keyed.insert]
    split
    · rfl
    · split
      · rfl
      · rfl

/-- A call registers what it has, behind all else. -/
theorem Registered.call {b : Builder} {hs : List Handler} {es : List (String × Handler)}
    (h : Registered b hs es) (c : Call) :
    Registered (b.call c) (hs ++ c.handler?.toList) (es ++ c.command?.toList) := by
  cases c with
  | handler hd =>
    show Registered _ (hs ++ [hd]) (es ++ [])
    rw [List.append_nil]
    exact ⟨List.getLast?_concat.symm, h.find?, h.isEmpty⟩
  | command name hd =>
    show Registered _ (hs ++ []) (es ++ [(name, hd)])
    rw [List.append_nil]
    refine ⟨h.single, ?_, ?_⟩
    · intro l
      show Keyed.find? l (Keyed.insert name hd b.commands.entries) = _
      rw [Keyed.find?_insert, lastUnder_concat, ← h.find? l]
      rfl
    · show (b.commands.insert name hd).isEmpty = _
      rw [isEmpty_insert]
      simp
  | _ =>
    -- Every other call makes a setting.
    show Registered _ (hs ++ []) (es ++ [])
    rw [List.append_nil, List.append_nil]
    exact ⟨h.single, h.find?, h.isEmpty⟩

/-- The last call is made behind all others. -/
theorem ofCalls_concat (cs : List Call) (c : Call) : ofCalls (cs ++ [c]) = (ofCalls cs).call c := by
  unfold ofCalls
  rw [List.foldl_append]
  rfl

/-- What the last call has to register comes behind what the others have. -/
theorem filterMap_concat {α : Type} (f : Call → Option α) (cs : List Call) (c : Call) :
    (cs ++ [c]).filterMap f = cs.filterMap f ++ (f c).toList := by
  rw [List.filterMap_append, List.filterMap_cons]
  rcases f c with _ | a
  · rfl
  · rfl

/-- Behind any calls a builder holds what they registered last. -/
theorem registered_ofCalls (cs : List Call) :
    Registered (ofCalls cs) (handlersOf cs) (commandsOf cs) := by
  induction cs using List.reverseRecOn with
  | nil => exact registered_start
  | append_singleton cs c ih =>
    unfold handlersOf commandsOf at ih ⊢
    rw [ofCalls_concat, filterMap_concat, filterMap_concat]
    exact ih.call c

/-! ### What is built -/

section

variable {b : Builder} {hs : List Handler} {es : List (String × Handler)} {server : Server}

/-- A server that is built has one kind of handlers, and all of that kind. -/
theorem Registered.of_build (h : Registered b hs es) (hbuild : b.build = .ok server) :
    (∃ front hd, hs = front ++ [hd] ∧ es = [] ∧ server.router = .single hd) ∨
      (hs = [] ∧ es ≠ [] ∧ server.router = .byName b.commands) := by
  unfold build at hbuild
  rw [h.single, h.isEmpty] at hbuild
  split at hbuild
  · cases hbuild
  · next hd hlast hempty =>
    cases hbuild
    obtain ⟨front, hfront⟩ := List.getLast?_eq_some_iff.1 hlast
    exact .inl ⟨front, hd, hfront, List.isEmpty_iff.1 hempty, rfl⟩
  · next hlast hempty =>
    cases hbuild
    refine .inr ⟨List.getLast?_eq_none_iff.1 hlast, ?_, rfl⟩
    rintro rfl
    cases hempty
  · cases hbuild

/-- A server is built where only one kind of handlers was registered. -/
theorem Registered.exists_build (h : Registered b hs es)
    (hkinds : (hs ≠ [] ∧ es = []) ∨ (hs = [] ∧ es ≠ [])) : ∃ server, b.build = .ok server := by
  unfold build
  rw [h.single, h.isEmpty]
  rcases hkinds with ⟨hhandlers, rfl⟩ | ⟨rfl, hcommands⟩
  · rw [List.getLast?_eq_some_getLast hhandlers]
    exact ⟨_, rfl⟩
  · have hsome : es.isEmpty = false := by simpa using hcommands
    rw [hsome]
    exact ⟨_, rfl⟩

/-- Whatever keeps a server from being built is an error of configuration. -/
theorem of_build_error {e : CallError} (hbuild : b.build = .error e) : ∃ cause, e = .config cause := by
  unfold build at hbuild
  split at hbuild
  · cases hbuild
    exact ⟨_, rfl⟩
  · cases hbuild
  · cases hbuild
  · cases hbuild
    exact ⟨_, rfl⟩

end

/-- Whatever calls are made, in any order and with any settings between them, a server is built if there
is a handler for everything and no command, or a command and no handler for everything; otherwise the
configuration is wrong. A server with a handler for everything calls the last one registered, once, with the
whole request. A server with commands calls, for an array of a name and an argument, the last handler
registered under that name, once, with that argument; if there is none the command is unknown, and any
other request is malformed, and nothing is called. A payload that is served is answered in that way. -/
theorem routes_as_registered (cs : List Call) :
    ((∃ server, (ofCalls cs).build = .ok server) ↔
        (handlersOf cs ≠ [] ∧ commandsOf cs = []) ∨ (handlersOf cs = [] ∧ commandsOf cs ≠ [])) ∧
      (∀ e, (ofCalls cs).build = .error e → ∃ cause, e = .config cause) ∧
      ∀ server, (ofCalls cs).build = .ok server →
        (∀ front h, handlersOf cs = front ++ [h] → ∀ request, server.router.handle request =
          (((h request).gate, (h request).outcome.result), [(h, request)])) ∧
        (handlersOf cs = [] →
          (∀ front name h back, commandsOf cs = front ++ (name, h) :: back → name ∉ back.map (·.1) →
            ∀ argument, server.router.handle (.array [.string name, argument]) =
              (((h argument).gate, (h argument).outcome.result), [(h, argument)])) ∧
          (∀ name, name ∉ (commandsOf cs).map (·.1) →
            ∀ argument, server.router.handle (.array [.string name, argument]) =
              ((none, .error (.unknownCommand name)), [])) ∧
          (∀ request, (∀ name argument, request ≠ .array [.string name, argument]) →
            ∃ cause, server.router.handle request = ((none, .error (.malformedCommand cause)), []))) ∧
        (∀ p request, Payload.decode p = .ok request → (server.answer p, server.calls p) =
          ((server.router.handle request).1.2, (server.router.handle request).2)) := by
  have hregistered := registered_ofCalls cs
  refine ⟨⟨?_, hregistered.exists_build⟩, fun e => of_build_error, ?_⟩
  · -- what was built shows which of the two kinds of registration there were
    rintro ⟨server, hbuild⟩
    rcases hregistered.of_build hbuild with ⟨front, h, hhandlers, hcommands, -⟩ | ⟨hhandlers, hcommands, -⟩
    · exact .inl ⟨by simp [hhandlers], hcommands⟩
    · exact .inr ⟨hhandlers, hcommands⟩
  · intro server hbuild
    rcases hregistered.of_build hbuild with ⟨front, h, hhandlers, -, hrouter⟩ | ⟨hhandlers, -, hrouter⟩
    · refine ⟨?_, ?_, fun p request => Server.answer_eq_handle⟩
      · intro front' h' hhandlers' request
        obtain ⟨-, rfl⟩ := List.append_singleton_inj.1 (hhandlers.symm.trans hhandlers')
        rw [hrouter]
        exact Router.handle_of_resolve rfl
      · intro hnone
        simp [hhandlers] at hnone
    · refine ⟨?_, fun _ => ⟨?_, ?_, ?_⟩, fun p request => Server.answer_eq_handle⟩
      · intro front h hhandlers'
        simp [hhandlers] at hhandlers'
      · intro front name h back hcommands hback argument
        have hfind := hregistered.find? name
        rw [hcommands, lastUnder_of_split hback] at hfind
        rw [hrouter]
        apply Router.handle_of_resolve
        rw [Router.resolve_command, hfind]
      · intro name hname argument
        have hfind := hregistered.find? name
        rw [lastUnder_eq_none hname] at hfind
        rw [hrouter]
        apply Router.handle_of_unresolved
        rw [Router.resolve_command, hfind]
      · intro request hrequest
        obtain ⟨cause, hcause⟩ := Router.commandOf_eq_error hrequest
        rw [hrouter]
        exact ⟨cause, Router.handle_of_unresolved (Router.resolve_of_malformed _ hcause)⟩

/-- A command is registered twice, with settings in between: the second handler is called. With a handler
for everything besides, there is no server. -/
theorem routes_as_registered_twice :
    let refuses : Handler := .ofOutcome fun _ => .failed "refused"
    let returns : Handler := .ofOutcome .returned
    let cs : List Call :=
      [.command "a" refuses, .readSize 1, .command "b" refuses, .order .unordered, .command "a" returns]
    (∃ server, (ofCalls cs).build = .ok server ∧
      server.router.handle (.array [.string "a", .null]) = ((none, .ok .null), [(returns, .null)]) ∧
      server.router.handle (.array [.string "c", .null]) = ((none, .error (.unknownCommand "c")), [])) ∧
    ¬ ∃ server, (ofCalls (.handler returns :: cs)).build = .ok server := by
  intro refuses returns cs
  obtain ⟨hbuilt, -, hserved⟩ := routes_as_registered cs
  have hcommands : commandsOf cs = [("a", refuses), ("b", refuses), ("a", returns)] := by rfl
  constructor
  · obtain ⟨server, hserver⟩ := hbuilt.2 (.inr ⟨rfl, by simp [hcommands]⟩)
    obtain ⟨hfound, hunknown, -⟩ := (hserved server hserver).2.1 rfl
    have hsplit : commandsOf cs = [("a", refuses), ("b", refuses)] ++ ("a", returns) :: [] := by rfl
    exact ⟨server, hserver, hfound _ _ _ _ hsplit (by simp) .null, hunknown "c" (by simp [hcommands]) .null⟩
  · rw [(routes_as_registered (.handler returns :: cs)).1]
    rintro (⟨-, hnone⟩ | ⟨hnone, -⟩)
    · cases hnone
    · cases hnone

end Builder
end FramedCall
