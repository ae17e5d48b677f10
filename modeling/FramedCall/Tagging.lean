import FramedCall.CallError

/-!
# Tagging

How the outcome of a request looks on the wire. A raw success is its own value and a raw failure
has none; a tagged outcome is an object with one entry or an array of two elements, and says by its
tag which of the two it is. `Envelope.unwrap` is the other direction.
-/

namespace FramedCall

open Json (Value)

/-- Where the tag of an outcome stands. -/
inductive TagLayout where
  /-- The tag is the only key of an object. -/
  | object
  /-- The tag is the first element of an array of two. -/
  | pair
deriving DecidableEq, Repr

/-- The layout of tagged outcomes with their two tags. -/
structure Tagging where
  /-- Where the tag stands. -/
  layout : TagLayout
  /-- The tag of a success. -/
  ok : String
  /-- The tag of a failure. -/
  err : String
deriving DecidableEq, Repr

namespace Tagging

/-- Objects with the tags that are used when none are chosen. -/
def standardObject : Tagging := ⟨.object, "Ok", "Err"⟩

/-- Arrays with the tags that are used when none are chosen. -/
def standardPair : Tagging := ⟨.pair, "ok", "error"⟩

/-- The tagging of a pipe for which none is chosen. -/
def standard : Tagging := standardObject

/-- A value behind a tag. -/
def wrap (t : Tagging) (tag : String) (v : Value) : Value :=
  match t.layout with
  | .object => .object [(tag, v)]
  | .pair => .array [.string tag, v]

/-- The tag of a tagged value and what stands behind it. -/
def split? (t : Tagging) (v : Value) : Option (String × Value) :=
  match t.layout, v with
  | .object, .object [(tag, content)] => some (tag, content)
  | .pair, .array [.string tag, content] => some (tag, content)
  | _, _ => none

end Tagging

/-- The output convention for outcomes. -/
inductive Envelope where
  /-- A success is written as it is; a failure is only a diagnostic. -/
  | raw
  /-- Every outcome is one tagged value. -/
  | tagged (t : Tagging)
deriving DecidableEq, Repr

/-- An outcome as the calling side sees it. -/
inductive Response where
  /-- The value of a success. -/
  | ok (v : Value)
  /-- The message of a failure. -/
  | err (message : String)

/-- The value of a success; a failure is an error of the call. -/
def Response.result : Response → Except CallError Value
  | .ok v => .ok v
  | .err message => .error (.remote message)

namespace Envelope

/-- The envelope of a pipe for which none is chosen. -/
def standard : Envelope := .tagged .standard

/-- Whether outcomes are written without a tag. -/
def isRaw : Envelope → Bool
  | .raw => true
  | .tagged _ => false

/-- A success on the wire. -/
def wrapSuccess : Envelope → Value → Value
  | .raw, v => v
  | .tagged t, v => t.wrap t.ok v

/-- A failure on the wire, if failures go there. -/
def wrapFailure : Envelope → String → Option Value
  | .raw, _ => none
  | .tagged t, message => some (t.wrap t.err (.string message))

/-- The response that a received value is. The tag of a success is looked at first; the content of
a failure is taken as plain text. -/
def unwrap (e : Envelope) (v : Value) : Except CallError Response :=
  match e with
  | .raw => .ok (.ok v)
  | .tagged t =>
    match t.split? v with
    | some (tag, content) =>
      if tag = t.ok then .ok (.ok content)
      else if tag = t.err then .ok (.err content.plainText)
      else .error (.protocol s!"untagged response: {v.compact}")
    | none => .error (.protocol s!"untagged response: {v.compact}")

end Envelope
end FramedCall
