import FramedCall.CallError
import FramedCall.Text.Utf8

/-!
# Framing

How payloads follow one another in a stream of bytes: each behind its length in decimal and a bar,
or each in front of a line feed.
-/

namespace FramedCall

/-- The way frames are told apart, the same in both directions of a pipe. -/
inductive Framing where
  /-- A payload stands behind its length and `separator`. -/
  | lengthPrefixed
  /-- A payload stands in front of `terminator`. -/
  | newline
deriving DecidableEq, Repr, Inhabited

namespace Framing

/-- The byte between a length and its payload, `|`. -/
def separator : UInt8 := 124

/-- The byte behind a line, the line feed. -/
def terminator : UInt8 := 10

/-- The framing of a pipe for which none is chosen. -/
def standard : Framing := .newline

/-- The name of a framing. -/
def name : Framing → String
  | .lengthPrefixed => "length-prefixed"
  | .newline => "newline"

/-- The framing with the given name. -/
def named (s : String) : Except CallError Framing :=
  if s = lengthPrefixed.name then .ok .lengthPrefixed
  else if s = newline.name then .ok .newline
  else .error (.config s!"unknown framing: {s}")

/-- The bytes in front of a payload of `n` bytes. -/
def head (f : Framing) (n : Nat) : Bytes :=
  match f with
  | .lengthPrefixed => Text.encodeChars (Nat.toDigits 10 n) ++ [separator]
  | .newline => []

/-- The bytes behind a payload. -/
def tail : Framing → Bytes
  | .lengthPrefixed => []
  | .newline => [terminator]

/-- Whether the framing can carry a payload: a line holds no line feed. -/
def carries (f : Framing) (payload : Bytes) : Bool :=
  match f with
  | .lengthPrefixed => true
  | .newline => !payload.contains terminator

/-- Accepts the payloads that the framing can carry. -/
def validate (f : Framing) (payload : Bytes) : Except CallError Unit :=
  if f.carries payload then .ok ()
  else .error (.protocol "payload contains a newline and cannot be newline-framed")

end Framing

/-! ### Frames on the way out -/

/-- A payload with the bytes around it. -/
structure Frame where
  /-- The bytes in front. -/
  head : Bytes
  /-- The payload. -/
  payload : Bytes
  /-- The bytes behind. -/
  tail : Bytes
deriving DecidableEq, Repr

namespace Frame

/-- The frame of a payload. -/
def ofPayload (f : Framing) (payload : Bytes) : Except CallError Frame := do
  f.validate payload
  .ok ⟨f.head payload.length, payload, f.tail⟩

/-- The three parts in the order in which they are written. -/
def parts (o : Frame) : List Bytes :=
  [o.head, o.payload, o.tail]

/-- What the frame puts on the wire. -/
def bytes (o : Frame) : Bytes :=
  o.head ++ o.payload ++ o.tail

/-- The number of bytes on the wire. -/
def size (o : Frame) : Nat :=
  o.head.length + o.payload.length + o.tail.length

/-- The size of a frame is the number of its bytes. -/
theorem length_bytes (o : Frame) : o.bytes.length = o.size := by
  simp [bytes, size, Nat.add_assoc]

end Frame

/-- A whole frame as bytes. -/
def Framing.frame (f : Framing) (payload : Bytes) : Except CallError Bytes := do
  f.validate payload
  .ok (f.head payload.length ++ payload ++ f.tail)

end FramedCall
