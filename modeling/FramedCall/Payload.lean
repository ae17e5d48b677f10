import FramedCall.CallError
import FramedCall.Json.Reader
import FramedCall.Json.SafeInteger

/-!
# Payloads

The bytes of one JSON value. `decode` accepts well-formed UTF-8 that is one value, blanks around it
allowed; `encode` writes the compact text with unsafe integers as strings.
-/

namespace FramedCall.Payload

open Json (Value)

/-- The value that a payload holds. -/
def decode? (payload : Bytes) : Option Value := do
  let cs ← Text.decodeChars? payload
  Value.ofChars? cs

/-- The value that a payload holds, or the payload as text. -/
def decode (payload : Bytes) : Except CallError Value :=
  match decode? payload with
  | some v => .ok v
  | none => .error (.decode (Text.decodeLossy payload))

/-- The payload of a value. Only a value with an unsafe integer is changed first. -/
def encode (v : Value) : Bytes :=
  Text.encodeChars (if v.hasUnsafe then v.toWire else v).chars

end FramedCall.Payload
