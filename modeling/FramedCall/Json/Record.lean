import FramedCall.Json.Typed

/-!
# Records and variants

How named fields and named alternatives are laid out as values. The entries of an object are taken
in the order of their keys, and keys that name no field are passed over; the elements of an array
are taken for the fields in the order in which those are declared. A variant without content is
written as its name, one with content as an object with the name as its only key.
-/

namespace FramedCall.Json

/-! ### Members -/

/-- A named field of a record that is built up in `σ`. -/
structure Member (σ : Type) where
  /-- The key. -/
  name : String
  /-- Takes the field's value into the record. -/
  set : Value → σ → Except Mismatch σ

/-- A field that holds an `α`. -/
def Member.typed {σ α : Type} [Readable α] (name : String) (put : α → σ → σ) : Member σ where
  name := name
  set v s := do
    let a ← read v
    .ok (put a s)

/-- Takes the entries of an object into the record. -/
def readEntries {σ : Type} (fields : List (Member σ)) :
    List (String × Value) → σ → Except Mismatch σ
  | [], s => .ok s
  | (k, v) :: es, s =>
    match fields.find? (·.name = k) with
    | some f => do
      let s' ← f.set v s
      readEntries fields es s'
    | none => readEntries fields es s

/-- Takes the elements of an array into the record, and gives back whether some were left over and
whether some fields got none. -/
def readElements {σ : Type} : List (Member σ) → List Value → σ → Except Mismatch (σ × Bool × Bool)
  | [], vs, s => .ok (s, !vs.isEmpty, false)
  | _ :: _, [], s => .ok (s, false, true)
  | f :: fs, v :: vs, s => do
    let s' ← f.set v s
    readElements fs vs s'

/-! ### Records -/

/-- The layout of a record type. -/
structure Layout (σ α : Type) where
  /-- What the type is called. -/
  name : String
  /-- Its fields as declared. -/
  fields : List (Member σ)
  /-- The record before any field is read. -/
  start : σ
  /-- The record once all entries are read. -/
  finish : σ → Except Mismatch α
  /-- Whether fields may be left out. -/
  hasDefaults : Bool

namespace Layout

variable {σ α : Type}

/-- The record that the entries of an object make up. -/
def ofEntries (l : Layout σ α) (es : List (String × Value)) : Except Mismatch α := do
  let s ← readEntries l.fields es l.start
  l.finish s

/-- The record that the elements of an array make up. -/
def ofElements (l : Layout σ α) (vs : List Value) : Except Mismatch α := do
  let (s, surplus, short) ← readElements l.fields vs l.start
  if short && !l.hasDefaults then
    .error (.wrongLength vs.length s!"{l.name} with {l.fields.length} elements")
  else if surplus then .error (.wrongLength vs.length "fewer elements in array")
  else l.finish s

/-- The record that a value is. -/
def ofValue (l : Layout σ α) : Value → Except Mismatch α
  | .object es => l.ofEntries es
  | .array vs => l.ofElements vs
  | v => v.mismatch l.name

end Layout

/-- A field that must not be missing. -/
def require {α : Type} (name : String) : Option α → Except Mismatch α
  | some a => .ok a
  | none => .error (.missingField name)

/-- The object with the given members. -/
def Value.ofFields (members : List (String × Value)) : Value :=
  .object (Keyed.ofList members)

/-! ### Variants -/

/-- The content of a variant of `α`. -/
inductive Content (α : Type) where
  /-- No content. -/
  | unit (a : α)
  /-- One value. -/
  | single (read : Value → Except Mismatch α)
  /-- The elements of an array; `name` is what the variant is called. -/
  | tuple (name : String) (read : List Value → Except Mismatch α)
  /-- The entries of an object. -/
  | record (read : List (String × Value) → Except Mismatch α)

namespace Content

variable {α : Type}

/-- The variant given by its name alone. -/
def ofName : Content α → Except Mismatch α
  | .unit a => .ok a
  | .single _ => .error (.wrongType .unitVariant "newtype variant")
  | .tuple .. => .error (.wrongType .unitVariant "tuple variant")
  | .record _ => .error (.wrongType .unitVariant "struct variant")

/-- The variant given with a content. An empty array is no content at all for a tuple. -/
def ofValue : Content α → Value → Except Mismatch α
  | .unit a, .null => .ok a
  | .unit _, v => v.mismatch "unit"
  | .single read, v => read v
  | .tuple name _, .array [] => .error (.wrongType .null s!"tuple variant {name}")
  | .tuple _ read, .array vs => read vs
  | .tuple .., v => v.mismatch "tuple variant"
  | .record read, .object es => read es
  | .record _, v => v.mismatch "struct variant"

end Content

/-- The alternatives of a type with their names. -/
abbrev Variants (α : Type) := List (String × Content α)

namespace Variants

variable {α : Type}

/-- The alternative with the given name. -/
def named (vs : Variants α) (name : String) : Except Mismatch (Content α) :=
  match vs.lookup name with
  | some c => .ok c
  | none => .error (.unknownVariant name (vs.map (·.1)))

/-- The variant that a value is. -/
def ofValue (vs : Variants α) : Value → Except Mismatch α
  | .string name => do
    let c ← vs.named name
    c.ofName
  | .object [(name, v)] => do
    let c ← vs.named name
    c.ofValue v
  | .object _ => .error .notOneKey
  | v => v.mismatch "string or map"

end Variants
end FramedCall.Json
