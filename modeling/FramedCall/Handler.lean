import FramedCall.CallError
import FramedCall.Json.Typed

/-!
# Handlers

A handler answers one request value. Its run ends in a value, a failure with a message, or a crash;
it may have to wait for a gate before it ends. A handler of typed values (`Handler.typed`) fails on
inputs that do not have its input type and on outputs that cannot be written.
-/

namespace FramedCall

open Json (Value Readable Writable)

/-- How the run of a handler ends. -/
inductive Outcome where
  /-- With a value. -/
  | returned (v : Value)
  /-- With a failure. -/
  | failed (message : String)
  /-- By a crash, which may say something. -/
  | crashed (message : Option String)

/-- The outcome as the result of the request. A crash is a failure with the crash's message. -/
def Outcome.result : Outcome → Except CallError Value
  | .returned v => .ok v
  | .failed message => .error (.handler message)
  | .crashed message => .error (.handler (message.getD "handler panicked"))

/-- The run of a handler: how it ends, and the gate that has to be open for that. -/
structure Reply where
  /-- The key of the gate, if there is one. -/
  gate : Option String
  /-- How the run ends. -/
  outcome : Outcome

/-- What is done with a request. -/
abbrev Handler := Value → Reply

namespace Handler

/-- A handler that ends at once. -/
def ofOutcome (f : Value → Outcome) : Handler :=
  fun v => ⟨none, f v⟩

/-- The outcome of writing an output. -/
def output {β : Type} [Writable β] (b : β) : Outcome :=
  match Json.write b with
  | .ok v => .returned v
  | .error m => .failed s!"invalid output: {(CallError.ofMismatch m).message}"

/-- Reads the input for `f`. -/
def input {α : Type} [Readable α] (v : Value) (f : α → Reply) : Reply :=
  match (Json.read v : Except Json.Mismatch α) with
  | .ok a => f a
  | .error m => ⟨none, .failed s!"invalid input: {(CallError.ofMismatch m).message}"⟩

/-- The handler of a function between typed values; the function fails with a message. -/
def typed {α β : Type} [Readable α] [Writable β] (f : α → Except String β) : Handler :=
  fun v => input v fun a =>
    match f a with
    | .ok b => ⟨none, output b⟩
    | .error message => ⟨none, .failed message⟩

end Handler
end FramedCall
