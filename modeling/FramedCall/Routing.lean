import FramedCall.Handler
import FramedCall.Keyed
import FramedCall.Text.Quoted

/-!
# Routing

Where a request goes: all to one handler, or by name to one of several commands, in which case the
request is an array of a name and an argument.
-/

namespace FramedCall

open Json (Value)

/-- Handlers by name. -/
structure Commands where
  /-- The handlers in order of their names. -/
  entries : List (String × Handler)

namespace Commands

/-- No command. -/
def empty : Commands := ⟨[]⟩

/-- One more command; one of the same name is replaced. -/
def insert (cs : Commands) (name : String) (h : Handler) : Commands :=
  ⟨Keyed.insert name h cs.entries⟩

/-- The handler of a command. -/
def find? (cs : Commands) (name : String) : Option Handler :=
  Keyed.find? name cs.entries

/-- The names in order. -/
def names (cs : Commands) : List String :=
  Keyed.keys cs.entries

/-- The number of commands. -/
def size (cs : Commands) : Nat :=
  cs.entries.length

/-- Whether there is no command. -/
def isEmpty (cs : Commands) : Bool :=
  cs.entries.isEmpty

/-- Commands as they are shown. -/
def description (cs : Commands) : String :=
  "CommandTable \x7b commands: " ++ Text.quotedList cs.names ++ " \x7d"

end Commands

/-- The way requests find their handler. -/
inductive Router where
  /-- All requests go to one handler. -/
  | single (h : Handler)
  /-- A request names its command. -/
  | byName (cs : Commands)

namespace Router

/-- The name and the argument that a request for a command consists of. -/
def commandOf : Value → Except CallError (String × Value)
  | .array [.string name, argument] => .ok (name, argument)
  | .array [_, _] => .error (.malformedCommand "command name must be a string")
  | .array items => .error (.malformedCommand s!"expected 2 elements, got {items.length}")
  | _ => .error (.malformedCommand "expected a [name, argument] array")

/-- The handler of a request and what it is given. -/
def resolve (r : Router) (request : Value) : Except CallError (Handler × Value) :=
  match r with
  | .single h => .ok (h, request)
  | .byName cs => do
    let (name, argument) ← commandOf request
    match cs.find? name with
    | some h => .ok (h, argument)
    | none => .error (.unknownCommand name)

/-- The gate that a request waits for, and what it ends in. A request that finds no handler waits
for nothing. -/
def reply (r : Router) (request : Value) : Option String × Except CallError Value :=
  match r.resolve request with
  | .ok (h, argument) => ((h argument).gate, (h argument).outcome.result)
  | .error e => (none, .error e)

/-- A router as it is shown. -/
def description : Router → String
  | .single _ => "Dispatcher::Single"
  | .byName cs => "Dispatcher::Table(" ++ cs.description ++ ")"

end Router
end FramedCall
