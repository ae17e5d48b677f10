import FramedCall.Json.Mismatch
import FramedCall.Json.Real
import FramedCall.Json.Value

/-!
# Normal values

Code that takes a value of any type gets it in normal form. A number that has a machine
representation, an integer of at most 128 bits or a binary64 value that the text is exactly the
rendering of, becomes the text of that representation; every other number keeps its text. An object
whose smallest key is `numberKey` is taken as the long form of a number.
-/

namespace FramedCall.Json

/-- The least and the greatest integers with a representation in 128 bits, signed or not. -/
def isWide (i : Int) : Bool :=
  -Int.pow 2 127 ≤ i && i < Int.pow 2 128

/-- The normal form of a number. -/
def Number.normalize (n : Number) : Number :=
  match n.toInt? with
  | some i => if isWide i then ofInt i else viaFloat n
  | none => viaFloat n
where
  /-- The rendering of the nearest binary64 value, if the number is one of its two renderings. -/
  viaFloat (n : Number) : Number :=
    let f := n.toFloat
    match ofFloat? f with
    | some r => if n = r ∨ positional? f = some n then r else n
    | none => n

namespace Value

/-- What a value is called where another was expected. -/
def found : Value → Found
  | .null => .null
  | .boolean b => .boolean b
  | .number _ => .number
  | .string s => .string s
  | .array _ => .sequence
  | .object _ => .map

/-- The failure of finding `v` where something else was expected. -/
def mismatch {α : Type} (v : Value) (expected : String) : Except Mismatch α :=
  .error (.wrongType v.found expected)

/-- The number that an object with `numberKey` as its smallest key stands for, `others` being the
number of its other entries. -/
def longNumber (content : Value) (others : Nat) : Except Mismatch Value :=
  match content with
  | .string s =>
    match Number.ofChars s.toList with
    | .error fault => .error (.numberText fault)
    | .ok n =>
      if others = 0 then .ok (.number n)
      else .error (.wrongLength (others + 1) "fewer elements in map")
  | v => v.mismatch "string containing a number"

mutual

/-- The normal form of a value. Parts are taken in order, and the first failure counts. -/
def normalize : Value → Except Mismatch Value
  | .number n => .ok (.number n.normalize)
  | .array items => (normalizeItems items).map .array
  | .object [] => .ok (.object [])
  | .object ((k, v) :: es) =>
    if k = numberKey then longNumber v es.length
    else do
      let v' ← v.normalize
      let es' ← normalizeEntries es
      .ok (.object ((k, v') :: es'))
  | .null => .ok .null
  | .boolean b => .ok (.boolean b)
  | .string s => .ok (.string s)

/-- `normalize` for the items of an array. -/
def normalizeItems : List Value → Except Mismatch (List Value)
  | [] => .ok []
  | v :: vs => do
    let v' ← v.normalize
    let vs' ← normalizeItems vs
    .ok (v' :: vs')

/-- `normalize` for the values of an object. -/
def normalizeEntries : List (String × Value) → Except Mismatch (List (String × Value))
  | [] => .ok []
  | (k, v) :: es => do
    let v' ← v.normalize
    let es' ← normalizeEntries es
    .ok ((k, v') :: es')

end

end Value
end FramedCall.Json
