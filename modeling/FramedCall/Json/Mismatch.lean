import FramedCall.Json.Number
import FramedCall.Text.Quoted

/-!
# Why a value does not have a type

The causes for which the conversion of a value to a typed one fails, and their wording.
-/

namespace FramedCall.Json

/-- What was found where something else was expected. -/
inductive Found where
  /-- The null value. -/
  | null
  /-- A truth value. -/
  | boolean (b : Bool)
  /-- A number. -/
  | number
  /-- A text. -/
  | string (s : String)
  /-- An array. -/
  | sequence
  /-- An object. -/
  | map
  /-- The name of a variant without content. -/
  | unitVariant
deriving DecidableEq, Repr

/-- The wording of what was found. -/
def Found.description : Found → String
  | .null => "null"
  | .boolean true => "boolean `true`"
  | .boolean false => "boolean `false`"
  | .number => "number"
  | .string s => "string " ++ Text.quoted s
  | .sequence => "sequence"
  | .map => "map"
  | .unitVariant => "unit variant"

/-- Why a conversion failed. -/
inductive Mismatch where
  /-- The number is not one of the type's. -/
  | invalidNumber
  /-- Another kind of value was expected. -/
  | wrongType (found : Found) (expected : String)
  /-- The number of elements or entries does not fit. -/
  | wrongLength (length : Nat) (expected : String)
  /-- A field that has no default is missing. -/
  | missingField (name : String)
  /-- No variant has this name. -/
  | unknownVariant (name : String) (known : List String)
  /-- A variant with content was not written as an object with one key. -/
  | notOneKey
  /-- The long form of a number does not hold the text of a number. -/
  | numberText (fault : TextFault)
  /-- A key that is not a string cannot be written. -/
  | keyNotString
deriving DecidableEq, Repr

/-- Names in backquotes: two are joined by "or", more are listed. -/
def oneOf : List String → String
  | [] => "there are no variants"
  | [a] => s!"expected `{a}`"
  | [a, b] => s!"expected `{a}` or `{b}`"
  | names => "expected one of " ++ ", ".intercalate (names.map fun n => s!"`{n}`")

/-- The wording of a cause. -/
def Mismatch.message : Mismatch → String
  | .invalidNumber => "invalid number"
  | .wrongType found expected => s!"invalid type: {found.description}, expected {expected}"
  | .wrongLength length expected => s!"invalid length {length}, expected {expected}"
  | .missingField name => s!"missing field `{name}`"
  | .unknownVariant name known => s!"unknown variant `{name}`, {oneOf known}"
  | .notOneKey => "invalid value: map, expected map with a single key"
  | .numberText fault => fault.message
  | .keyNotString => "key must be a string"

end FramedCall.Json
