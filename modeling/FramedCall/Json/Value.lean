import FramedCall.Json.Number
import FramedCall.Keyed

/-!
# Values

A JSON value. The entries of an object stand in ascending order of their keys, each key once
(`Value.Sorted`); the order of keys is that of their UTF-8 bytes, which is the order of `String`.
`Value.ofMembers?` makes an object of members in the order in which they were written: a repeated
key keeps its last value. An object written with `numberKey` as its first key stands for a number.
-/

namespace FramedCall.Json

/-- A value. -/
inductive Value where
  /-- The null value. -/
  | null
  /-- A truth value. -/
  | boolean (b : Bool)
  /-- A number as written. -/
  | number (n : Number)
  /-- A text. -/
  | string (s : String)
  /-- A sequence of values. -/
  | array (items : List Value)
  /-- Values under keys, in ascending order of the keys. -/
  | object (entries : List (String × Value))
deriving Repr, Inhabited

namespace Value

/-! ### Sorted objects -/

mutual

/-- Whether every object inside has its keys in ascending order. -/
def sorted : Value → Bool
  | .array items => itemsSorted items
  | .object entries => Keyed.ascends entries && entriesSorted entries
  | .null | .boolean _ | .number _ | .string _ => true

/-- `sorted` for the items of an array. -/
def itemsSorted : List Value → Bool
  | [] => true
  | v :: vs => v.sorted && itemsSorted vs

/-- `sorted` for the values of an object. -/
def entriesSorted : List (String × Value) → Bool
  | [] => true
  | (_, v) :: es => v.sorted && entriesSorted es

end

/-- Every object inside has its keys in ascending order. -/
abbrev Sorted (v : Value) : Prop := v.sorted = true

/-! ### Depth -/

mutual

/-- How many arrays and objects stand inside one another. -/
def depth : Value → Nat
  | .array items => itemsDepth items + 1
  | .object entries => entriesDepth entries + 1
  | .null | .boolean _ | .number _ | .string _ => 0

/-- The depth of the deepest item. -/
def itemsDepth : List Value → Nat
  | [] => 0
  | v :: vs => max v.depth (itemsDepth vs)

/-- The depth of the deepest value of an object. -/
def entriesDepth : List (String × Value) → Nat
  | [] => 0
  | (_, v) :: es => max v.depth (entriesDepth es)

end

/-! ### Objects from their members -/

/-- The key that marks an object as the long form of a number. -/
def numberKey : String := "$serde_json::private::Number"

/-- The value of an object whose members were written in this order. Where the first key is
`numberKey`, it has to be the only one, with the text of a number. -/
def ofMembers? : List (String × Value) → Option Value
  | [] => some (.object [])
  | (k, v) :: ms =>
    if k = numberKey then
      match v, ms with
      | .string s, [] => (Number.ofChars s.toList).toOption.map .number
      | _, _ => none
    else some (.object (Keyed.ofList ((k, v) :: ms)))

end Value
end FramedCall.Json
