import FramedCall.Conventions
import FramedCall.Framing.Deframer
import FramedCall.Json.Mismatch
import FramedCall.Payload
import FramedCall.Stream.Channel
import FramedCall.Text.Quoted

/-!
# The calling side

A client writes requests as frames and takes responses in the order in which they arrive. It may
have to wait: `Awaited.pending` says that nothing more can be written or read now. What was written
up to then has been written; what was read stays with the client, so that the next attempt goes on
from there.
-/

namespace FramedCall

open Json (Value Mismatch)

/-- What has become of something that may have to wait. -/
inductive Awaited (α : Type) where
  /-- It waits. -/
  | pending
  /-- It has ended. -/
  | settled (r : Except CallError α)

/-- Goes on with what has been awaited. -/
def Awaited.andThen {α β : Type} (f : α → Except CallError β) : Awaited α → Awaited β
  | .pending => .pending
  | .settled r => .settled (r.bind f)

/-- What has become of a write. -/
def Awaited.ofWrite : Except Refusal Unit → Awaited Unit
  | .ok () => .settled (.ok ())
  | .error .full => .pending
  | .error (.failed cause) => .settled (.error (.io cause))

/-- The calling end of a pipe. -/
structure Client (σ : Type) where
  /-- The conventions of the pipe. -/
  conventions : Conventions
  /-- The bytes read that do not make up a frame yet. -/
  frames : Deframer
  /-- The frames that have been taken out and not been asked for. -/
  queued : List Bytes
  /-- The pipe. -/
  stream : σ

namespace Client

variable {σ α : Type}

/-- The most bytes that one read takes, 16 KiB. -/
def readSize : Nat := 16384

/-- A client that has neither written nor read. -/
def start (conventions : Conventions) (stream : σ) : Client σ :=
  ⟨conventions, .empty conventions.framing Deframer.standardLimit, [], stream⟩

/-- Writes a request. -/
def request (ch : Channel σ) (c : Client σ) (v : Value) : Awaited Unit × Client σ :=
  match c.conventions.framing.frame (Payload.encode v) with
  | .error e => (.settled (.error e), c)
  | .ok bytes =>
    let (r, stream) := ch.device.writeAll (.failed "write zero") c.stream [bytes]
    (.ofWrite r, { c with stream })

/-- The next frame. Frames that were taken out earlier come first. A violation hides the frames in
front of it that came with the same read. -/
def takeFrame (ch : Channel σ) (c : Client σ) : Awaited Bytes × Client σ :=
  match c.queued with
  | payload :: queued => (.settled (.ok payload), { c with queued })
  | [] =>
    match _h : ch.read c.stream readSize with
    | (.pending, stream) => (.pending, { c with stream })
    | (.failure cause, stream) => (.settled (.error (.io cause)), { c with stream })
    | (.eof, stream) =>
      (.settled (.error .connectionClosed), { c with stream, frames := c.frames.finish.2 })
    | (.bytes data, stream) =>
      match c.frames.push data with
      | (.error v, frames) => (.settled (.error v.error), { c with stream, frames })
      | (.ok queued, frames) => takeFrame ch ⟨c.conventions, frames, queued, stream⟩
termination_by ch.unread c.stream
decreasing_by exact ch.unread_read_lt (by decide) _h

/-- The next value, its envelope still around it. -/
def receive (ch : Channel σ) (c : Client σ) : Awaited Value × Client σ :=
  let (r, c') := c.takeFrame ch
  (r.andThen Payload.decode, c')

/-- Writes a request and takes a response. -/
def exchange (ch : Channel σ) (c : Client σ) (v : Value) : Awaited Response × Client σ :=
  match c.request ch v with
  | (.pending, c') => (.pending, c')
  | (.settled (.error e), c') => (.settled (.error e), c')
  | (.settled (.ok ()), c') =>
    let (r, c'') := c'.receive ch
    (r.andThen c.conventions.envelope.unwrap, c'')

/-- Writes a request and takes the value of a success, converted. -/
def call (ch : Channel σ) (convert : Value → Except Mismatch α) (c : Client σ) (v : Value) :
    Awaited α × Client σ :=
  let (r, c') := c.exchange ch v
  (r.andThen fun response => response.result.bind fun w => converted (convert w), c')

/-- Calls a command. -/
def callCommand (ch : Channel σ) (convert : Value → Except Mismatch α) (c : Client σ) (name : String)
    (argument : Value) : Awaited α × Client σ :=
  c.call ch convert (.array [.string name, argument])

/-- Closes the way out. -/
def close (ch : Channel σ) (c : Client σ) : Except CallError Unit × Client σ :=
  let (r, stream) := ch.close c.stream
  (r.mapError .io, { c with stream })

end Client

/-! ### Descriptions -/

/-- A framing as it is shown. -/
def Framing.description : Framing → String
  | .lengthPrefixed => "LengthPrefixed"
  | .newline => "Newline"

/-- A tagging as it is shown. -/
def Tagging.description (t : Tagging) : String :=
  let layout := match t.layout with
    | .object => "Object"
    | .pair => "Pair"
  layout ++ " \x7b ok: " ++ Text.quoted t.ok ++ ", err: " ++ Text.quoted t.err ++ " \x7d"

/-- An envelope as it is shown. -/
def Envelope.description : Envelope → String
  | .raw => "Raw"
  | .tagged t => "Tagged(" ++ t.description ++ ")"

/-- Conventions as they are shown. -/
def Conventions.description (c : Conventions) : String :=
  "Protocol \x7b framing: " ++ c.framing.description ++ ", envelope: " ++
    c.envelope.description ++ " \x7d"

/-- A client as it is shown. A client of a plain pipe has no child process. -/
def Client.description {σ : Type} (c : Client σ) : String :=
  "RpcClient \x7b protocol: " ++ c.conventions.description ++ ", queued: " ++
    toString c.queued.length ++ ", child: None \x7d"

end FramedCall
