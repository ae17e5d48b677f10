import FramedCall.Conventions
import FramedCall.Framing.Deframer
import FramedCall.Json.Record
import FramedCall.Outbox

/-!
# Settings

How what is chosen for a pipe is written as a value: the conventions of both ends, and all that a
server can be told. What is left out of either has its standard setting.
-/

namespace FramedCall

open Json (Value Readable Writable Bounded Member Layout Variants Mismatch)

/-! ### Single settings -/

instance : Readable Framing where
  read := Variants.ofValue
    [(Framing.lengthPrefixed.name, .unit .lengthPrefixed), (Framing.newline.name, .unit .newline)]

instance : Writable Framing := ⟨fun f => .ok (.string f.name)⟩

instance : Readable DeliveryOrder where
  read := Variants.ofValue
    [(DeliveryOrder.ordered.name, .unit .ordered), (DeliveryOrder.unordered.name, .unit .unordered)]

instance : Writable DeliveryOrder := ⟨fun o => .ok (.string o.name)⟩

/-- The name of a layout. -/
def TagLayout.name : TagLayout → String
  | .object => "object"
  | .pair => "pair"

/-- The tags of a tagging, as far as they have been read. -/
structure PartialTags where
  /-- The tag of a success. -/
  ok : Option String
  /-- The tag of a failure. -/
  err : Option String

/-- The tagging with a layout and the tags that the entries of an object give. -/
def Tagging.ofEntries (layout : TagLayout) (es : List (String × Value)) :
    Except Mismatch Tagging := do
  let tags ← Json.readEntries
    [Member.typed "ok" fun ok (t : PartialTags) => { t with ok := some ok },
      Member.typed "err" fun err (t : PartialTags) => { t with err := some err }] es ⟨none, none⟩
  let ok ← Json.require "ok" tags.ok
  let err ← Json.require "err" tags.err
  return ⟨layout, ok, err⟩

instance : Readable Tagging where
  read := Variants.ofValue
    [(TagLayout.object.name, .record (Tagging.ofEntries .object)),
      (TagLayout.pair.name, .record (Tagging.ofEntries .pair))]

instance : Writable Tagging where
  write t := .ok (.object
    [(t.layout.name, .ofFields [("ok", .string t.ok), ("err", .string t.err)])])

instance : Readable Envelope where
  read := Variants.ofValue
    [("raw", .unit .raw), ("tagged", .single fun v => (Json.read v).map .tagged)]

instance : Writable Envelope where
  write
    | .raw => .ok (.string "raw")
    | .tagged t => do
      let v ← Json.write t
      return .object [("tagged", v)]

/-! ### What both ends agree on -/

/-- The layout of the conventions. -/
def Conventions.layout : Layout Conventions Conventions where
  name := "struct Protocol"
  fields :=
    [.typed "framing" fun framing c => { c with framing },
      .typed "envelope" fun envelope c => { c with envelope }]
  start := .standard
  finish := .ok
  hasDefaults := true

instance : Readable Conventions := ⟨Conventions.layout.ofValue⟩

instance : Writable Conventions where
  write c := do
    let framing ← Json.write c.framing
    let envelope ← Json.write c.envelope
    return .ofFields [("framing", framing), ("envelope", envelope)]

/-! ### Servers -/

/-- What a server is told. -/
structure ServerSettings where
  /-- The conventions of the pipe. -/
  conventions : Conventions
  /-- The order in which responses are written. -/
  order : DeliveryOrder
  /-- How many settlements may wait to be written. -/
  queueCapacity : Nat
  /-- The size of the largest accepted payload. -/
  maxPayload : Nat
  /-- The most bytes that one read asks for. -/
  readSize : Nat
deriving DecidableEq, Repr

namespace ServerSettings

/-- The size of a read for which none is chosen, 64 KiB. -/
def standardReadSize : Nat := 65536

/-- The settings of a server for which none are chosen. -/
def standard : ServerSettings where
  conventions := .standard
  order := .standard
  queueCapacity := Outbox.standardCapacity
  maxPayload := Deframer.standardLimit
  readSize := standardReadSize

/-- A field that holds a size. -/
def sizeField (name : String) (put : Nat → ServerSettings → ServerSettings) :
    Member ServerSettings :=
  .typed name fun (n : Bounded .size) => put n.val.toNat

/-- The layout of the settings. -/
def layout : Layout ServerSettings ServerSettings where
  name := "struct ServerConfig"
  fields :=
    [.typed "framing" fun framing s => { s with conventions := { s.conventions with framing } },
      .typed "envelope" fun envelope s => { s with conventions := { s.conventions with envelope } },
      .typed "response_order" fun order s => { s with order },
      sizeField "channel_capacity" fun queueCapacity s => { s with queueCapacity },
      sizeField "max_payload_size" fun maxPayload s => { s with maxPayload },
      sizeField "read_buffer_size" fun readSize s => { s with readSize }]
  start := standard
  finish := .ok
  hasDefaults := true

end ServerSettings

instance : Readable ServerSettings := ⟨ServerSettings.layout.ofValue⟩

instance : Writable ServerSettings where
  write s := do
    let framing ← Json.write s.conventions.framing
    let envelope ← Json.write s.conventions.envelope
    let order ← Json.write s.order
    return .ofFields
      [("framing", framing),
        ("envelope", envelope),
        ("response_order", order),
        ("channel_capacity", .number (.ofInt s.queueCapacity)),
        ("max_payload_size", .number (.ofInt s.maxPayload)),
        ("read_buffer_size", .number (.ofInt s.readSize))]

end FramedCall
