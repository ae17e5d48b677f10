import FramedCall.Json.Value
import FramedCall.Text.Numeral

/-!
# Safe integers

A peer that reads every number into a binary64 value loses digits of an integer beyond ±(2⁵³ − 1).
`Value.toWire` writes each such integer as the string of its digits; all other numbers, fractions
and exponents among them, stay numbers. `Value.hasUnsafe` tells whether there is one to change.

Which numbers these are is read off their text (`isUnsafeLiteral`): what fits a machine integer is
compared with the bound, and what does not is beyond it unless it has a fraction or an exponent.
-/

namespace FramedCall.Json

/-- The largest integer that a binary64 value tells from its neighbours, 2⁵³ − 1. -/
def largestSafe : Nat := 9007199254740991

/-- The natural number of 64 bits that some characters are. -/
def unsigned64? (cs : List Char) : Option Nat :=
  (Text.Numeral.readChars 10 18446744073709551615 cs).toOption

/-- The integer of 64 bits that some characters are. -/
def signed64? (cs : List Char) : Option Int :=
  Text.Numeral.readSigned? 10 9223372036854775808 9223372036854775807 cs

/-- Whether the text of a number is that of an integer beyond `largestSafe` in magnitude. -/
def isUnsafeLiteral (cs : List Char) : Bool :=
  match unsigned64? cs with
  | some n => largestSafe < n
  | none =>
    match signed64? cs with
    | some i => largestSafe < i.natAbs
    | none => !cs.any fun c => c = '.' || c = 'e' || c = 'E'

/-- Whether the number is written as an integer and lies beyond `largestSafe` in magnitude. -/
def Number.isUnsafe (n : Number) : Bool :=
  isUnsafeLiteral n.chars

namespace Value

mutual

/-- Whether an unsafe integer stands anywhere inside. -/
def hasUnsafe : Value → Bool
  | .number n => n.isUnsafe
  | .array items => itemsHaveUnsafe items
  | .object entries => entriesHaveUnsafe entries
  | .null | .boolean _ | .string _ => false

/-- `hasUnsafe` for the items of an array. -/
def itemsHaveUnsafe : List Value → Bool
  | [] => false
  | v :: vs => v.hasUnsafe || itemsHaveUnsafe vs

/-- `hasUnsafe` for the values of an object. -/
def entriesHaveUnsafe : List (String × Value) → Bool
  | [] => false
  | (_, v) :: es => v.hasUnsafe || entriesHaveUnsafe es

end

mutual

/-- The value with each unsafe integer as the string of its digits. -/
def toWire : Value → Value
  | .number n => if n.isUnsafe then .string n.text else .number n
  | .array items => .array (itemsToWire items)
  | .object entries => .object (entriesToWire entries)
  | .null => .null
  | .boolean b => .boolean b
  | .string s => .string s

/-- `toWire` for the items of an array. -/
def itemsToWire : List Value → List Value
  | [] => []
  | v :: vs => v.toWire :: itemsToWire vs

/-- `toWire` for the values of an object. -/
def entriesToWire : List (String × Value) → List (String × Value)
  | [] => []
  | (k, v) :: es => (k, v.toWire) :: entriesToWire es

end

end Value
end FramedCall.Json
