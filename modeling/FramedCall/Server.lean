import FramedCall.Routing
import FramedCall.Settings

/-!
# Servers

A server is a way to find handlers together with its settings. `Builder` puts one together call by
call: it takes either one handler for everything or commands with names, and of calls that set the
same thing the last counts.
-/

namespace FramedCall

/-- A server that is ready to serve a stream. -/
structure Server where
  /-- The settings. -/
  settings : ServerSettings
  /-- The way requests find their handler. -/
  router : Router

/-- The most bytes that one read takes: one at least. -/
def Server.readSize (s : Server) : Nat :=
  max s.settings.readSize 1

/-- A server that is being put together. -/
structure Builder where
  /-- The settings so far. -/
  settings : ServerSettings
  /-- The handler for everything, if there is one. -/
  single : Option Handler
  /-- The commands so far. -/
  commands : Commands

namespace Builder

/-- Nothing is registered and everything has its standard setting. -/
def start : Builder := ⟨.standard, none, .empty⟩

/-- One step of putting a server together. -/
inductive Call where
  /-- Chooses how frames are told apart. -/
  | framing (f : Framing)
  /-- Chooses how outcomes are wrapped. -/
  | envelope (e : Envelope)
  /-- Chooses the order of responses. -/
  | order (o : DeliveryOrder)
  /-- Chooses how many settlements may wait to be written. -/
  | queueCapacity (n : Nat)
  /-- Chooses the size of the largest accepted payload. -/
  | maxPayload (n : Nat)
  /-- Chooses the size of a read. -/
  | readSize (n : Nat)
  /-- Chooses all settings. -/
  | settings (s : ServerSettings)
  /-- Registers the handler for everything. -/
  | handler (h : Handler)
  /-- Registers a command. -/
  | command (name : String) (h : Handler)

/-- A builder with other settings. -/
def set (b : Builder) (f : ServerSettings → ServerSettings) : Builder :=
  { b with settings := f b.settings }

/-- The builder behind a step. -/
def call (b : Builder) : Call → Builder
  | .framing framing => b.set fun s => { s with conventions := { s.conventions with framing } }
  | .envelope envelope => b.set fun s => { s with conventions := { s.conventions with envelope } }
  | .order order => b.set fun s => { s with order }
  | .queueCapacity queueCapacity => b.set fun s => { s with queueCapacity }
  | .maxPayload maxPayload => b.set fun s => { s with maxPayload }
  | .readSize readSize => b.set fun s => { s with readSize }
  | .settings s => { b with settings := s }
  | .handler h => { b with single := some h }
  | .command name h => { b with commands := b.commands.insert name h }

/-- The builder behind some steps. -/
def ofCalls (cs : List Call) : Builder :=
  cs.foldl call start

/-- The server, if either a handler or commands are registered, and not both. -/
def build (b : Builder) : Except CallError Server :=
  match b.single, b.commands.isEmpty with
  | some _, false => .error (.config "both a single handler and commands are registered")
  | some h, true => .ok ⟨b.settings, .single h⟩
  | none, false => .ok ⟨b.settings, .byName b.commands⟩
  | none, true => .error (.config "no handler registered")

end Builder
end FramedCall
