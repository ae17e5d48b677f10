import FramedCall.Client

/-!
# Operations of a client

What a client can be asked for. An input comes as what writing it as a value gives (`Json.write`, for an
input of a type): one that cannot be written costs its own operation and nothing else.
-/

namespace FramedCall.Client

open Json (Value Mismatch)

variable {σ : Type}

/-- What a client can be asked for; `α` is the type of the result. -/
inductive Operation : Type → Type 1 where
  /-- Writes a request. -/
  | send (input : Except Mismatch Value) : Operation Unit
  /-- Takes the next value, its envelope still around it. -/
  | receive : Operation Value
  /-- Writes a request and takes a response. -/
  | exchange (input : Except Mismatch Value) : Operation Response
  /-- Writes a request and takes the value of a success, converted. -/
  | call {α : Type} (convert : Value → Except Mismatch α) (input : Except Mismatch Value) : Operation α
  /-- Calls a command. -/
  | command {α : Type} (convert : Value → Except Mismatch α) (name : String)
      (argument : Except Mismatch Value) : Operation α

/-- Goes on with an input that has been written as a value. -/
def withInput {α : Type} (c : Client σ) (input : Except Mismatch Value)
    (f : Value → Awaited α × Client σ) : Awaited α × Client σ :=
  match converted input with
  | .ok v => f v
  | .error e => (.settled (.error e), c)

/-- What becomes of an operation, and the client behind it. -/
def Operation.perform (ch : Channel σ) (c : Client σ) :
    {α : Type} → Operation α → Awaited α × Client σ
  | _, .send input => c.withInput input (c.request ch)
  | _, .receive => c.receive ch
  | _, .exchange input => c.withInput input (c.exchange ch)
  | _, .call convert input => c.withInput input (c.call ch convert)
  | _, .command convert name argument => c.withInput argument (c.callCommand ch convert name)

/-- The client behind some operations, one after another. -/
def after (ch : Channel σ) (c : Client σ) (ops : List (Sigma Operation)) : Client σ :=
  ops.foldl (fun c op => (op.2.perform ch c).2) c

end FramedCall.Client
