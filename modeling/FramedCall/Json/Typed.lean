import FramedCall.Json.Normalize

/-!
# Typed values

`Readable` types are those that a value can be converted to, `Writable` types those that can be
converted to a value. Here are the basic ones: truth values, texts, integers of a given width,
binary64 values, optional values, lists, pairs and values themselves.
-/

namespace FramedCall.Json

/-- A type that values can be converted to. -/
class Readable (α : Type) where
  /-- The conversion. -/
  read : Value → Except Mismatch α

/-- A type that can be converted to values. -/
class Writable (α : Type) where
  /-- The conversion. -/
  write : α → Except Mismatch Value

export Readable (read)
export Writable (write)

/-- A value converted to `α` and back. -/
def through (α : Type) [Readable α] [Writable α] (v : Value) : Except Mismatch Value := do
  let a : α ← read v
  write a

/-! ### Values, truth values, texts, nothing -/

instance : Readable Value := ⟨Value.normalize⟩
instance : Writable Value := ⟨.ok⟩

instance : Readable Bool where
  read
    | .boolean b => .ok b
    | v => v.mismatch "a boolean"

instance : Writable Bool := ⟨fun b => .ok (.boolean b)⟩

instance : Readable String where
  read
    | .string s => .ok s
    | v => v.mismatch "a string"

instance : Writable String := ⟨fun s => .ok (.string s)⟩

instance : Readable Unit where
  read
    | .null => .ok ()
    | v => v.mismatch "unit"

instance : Writable Unit := ⟨fun _ => .ok .null⟩

/-! ### Integers -/

/-- Integers of a fixed width. -/
structure IntegerType where
  /-- What the type is called. -/
  name : String
  /-- Whether it has negative members. -/
  signed : Bool
  /-- The width. -/
  bits : Nat
deriving DecidableEq, Repr

namespace IntegerType

/-- Signed integers of 32 bits. -/
def i32 : IntegerType := ⟨"i32", true, 32⟩
/-- Signed integers of 64 bits. -/
def i64 : IntegerType := ⟨"i64", true, 64⟩
/-- Signed integers of 128 bits. -/
def i128 : IntegerType := ⟨"i128", true, 128⟩
/-- Unsigned integers of 8 bits. -/
def u8 : IntegerType := ⟨"u8", false, 8⟩
/-- Unsigned integers of 64 bits. -/
def u64 : IntegerType := ⟨"u64", false, 64⟩
/-- Unsigned integers of 128 bits. -/
def u128 : IntegerType := ⟨"u128", false, 128⟩
/-- Sizes in bytes, which have 64 bits. -/
def size : IntegerType := ⟨"usize", false, 64⟩

/-- The least member. -/
def low (t : IntegerType) : Int :=
  if t.signed then -Int.pow 2 (t.bits - 1) else 0

/-- The greatest member. -/
def high (t : IntegerType) : Int :=
  if t.signed then Int.pow 2 (t.bits - 1) - 1 else Int.pow 2 t.bits - 1

end IntegerType

/-- An integer of type `t`. -/
structure Bounded (t : IntegerType) where
  /-- The integer. -/
  val : Int
  /-- It is not below the type. -/
  low_le : t.low ≤ val
  /-- It is not above the type. -/
  le_high : val ≤ t.high
deriving DecidableEq

namespace Bounded

/-- The integer as a member of `t`. -/
def ofInt? (t : IntegerType) (i : Int) : Option (Bounded t) :=
  if h : t.low ≤ i ∧ i ≤ t.high then some ⟨i, h.1, h.2⟩ else none

/-- The member of `t` that a number is written as. An unsigned type has no minus sign, not even in
front of zero. -/
def ofNumber? (t : IntegerType) (n : Number) : Option (Bounded t) :=
  if n.negative && !t.signed then none else n.toInt?.bind (ofInt? t)

end Bounded

instance (t : IntegerType) : Readable (Bounded t) where
  read
    | .number n =>
      match Bounded.ofNumber? t n with
      | some i => .ok i
      | none => .error .invalidNumber
    | v => v.mismatch t.name

instance (t : IntegerType) : Writable (Bounded t) :=
  ⟨fun i => .ok (.number (.ofInt i.val))⟩

/-! ### Binary64 values -/

/-- A binary64 value as a value: null where there is no number for it. -/
def Value.ofFloat (f : Float) : Value :=
  match Number.ofFloat? f with
  | some n => .number n
  | none => .null

/-- A binary64 value as a value: a text where there is no number for it. -/
def Value.ofFloatOrName (f : Float) : Value :=
  match Number.ofFloat? f with
  | some n => .number n
  | none =>
    if f.isNaN then .string "NaN"
    else if f < 0 then .string "-Infinity"
    else .string "Infinity"

instance : Readable Float where
  read
    | .number n => .ok n.toFloat
    | v => v.mismatch "f64"

instance : Writable Float := ⟨fun f => .ok (.ofFloat f)⟩

/-! ### Optional values, lists, pairs -/

instance {α : Type} [Readable α] : Readable (Option α) where
  read
    | .null => .ok none
    | v => (read v).map some

instance {α : Type} [Writable α] : Writable (Option α) where
  write
    | none => .ok .null
    | some a => write a

instance {α : Type} [Readable α] : Readable (List α) where
  read
    | .array items => items.mapM read
    | v => v.mismatch "a sequence"

instance {α : Type} [Writable α] : Writable (List α) where
  write as := (as.mapM write).map .array

/-- The two parts of an array of exactly two elements. Elements are converted in order before their
number is looked at. -/
def readPair {α β : Type} [Readable α] [Readable β] (expected : String) (items : List Value) :
    Except Mismatch (α × β) :=
  match items with
  | [] => .error (.wrongLength 0 expected)
  | v :: vs => do
    let a ← read v
    match vs with
    | [] => .error (.wrongLength 1 expected)
    | w :: ws =>
      let b ← read w
      if ws.isEmpty then .ok (a, b)
      else .error (.wrongLength items.length "fewer elements in array")

instance {α β : Type} [Readable α] [Readable β] : Readable (α × β) where
  read
    | .array items => readPair "a tuple of size 2" items
    | v => v.mismatch "a tuple of size 2"

instance {α β : Type} [Writable α] [Writable β] : Writable (α × β) where
  write p := do
    let a ← write p.1
    let b ← write p.2
    .ok (.array [a, b])

end FramedCall.Json
