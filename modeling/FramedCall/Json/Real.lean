import FramedCall.Json.Number
import FramedCall.Decimal.Shortest

/-!
# Numbers and binary64 values

A finite binary64 value is written with the fewest digits that read back to it, in one of two
notations: `Number.ofFloat?` switches to an exponent for very large and very small values,
`Number.positional?` never does. `Number.toFloat` reads any number, correctly rounded as long as its
exponent is below 2¹⁶; of a longer one only the leading digits are read.
-/

namespace FramedCall.Json

open Decimal (Digit Scaled Binary Tie lastDigits digitCount)

namespace Number

/-! ### Writing -/

/-- `d` with a point where one is needed and no exponent. -/
def ofScaledPlain (negative : Bool) (d : Scaled) : Number :=
  if d.exp < 0 then
    let places := d.exp.natAbs
    ⟨negative, d.digits / Nat.pow 10 places, lastDigits places d.digits, none⟩
  else ⟨negative, d.digits * Nat.pow 10 d.exp.toNat, [], none⟩

/-- `d` with one digit before the point and an exponent. -/
def ofScaledExponent (negative : Bool) (d : Scaled) : Number :=
  let places := digitCount d.digits - 1
  let e := d.exp + places
  let es := lastDigits (digitCount e.natAbs) e.natAbs
  ⟨negative, d.digits / Nat.pow 10 places, lastDigits places d.digits,
    some ⟨e < 0, es.headD Digit.zero, es.tail⟩⟩

/-- Values from 10⁻⁵ up to 10¹⁶ are written without an exponent, a whole value among them with one
zero behind the point; all others with an exponent. -/
def ofScaled (negative : Bool) (d : Scaled) : Number :=
  let e := d.exp + digitCount d.digits - 1
  if -5 ≤ e ∧ e ≤ 15 then
    let n := ofScaledPlain negative d
    if n.fraction = [] then ⟨n.negative, n.whole, [Digit.zero], none⟩ else n
  else ofScaledExponent negative d

/-- The number that a value given by its bits is written as. Of two equally short and equally near
candidates the even one is taken. -/
def ofBits? (b : UInt64) : Option Number :=
  (Binary.ofBits? b).map fun (negative, x) => ofScaled negative (x.shortest .even)

/-- The number that a value is written as; an infinity or no number has none. -/
def ofFloat? (f : Float) : Option Number :=
  ofBits? f.toBits

/-- The value written with the fewest digits and never with an exponent. Of two equally short and
equally near candidates the greater one is taken. -/
def positional? (f : Float) : Option Number :=
  (Binary.ofBits? f.toBits).map fun (negative, x) => ofScaledPlain negative (x.shortest .up)

/-! ### Reading -/

/-- The size of an exponent with the given digits. Once the digits read so far make at least 2¹⁶, the
others no longer count. -/
def exponentSize (ds : List Digit) : Nat :=
  ds.foldl (fun (n : Nat) (d : Digit) => if n < Nat.pow 2 16 then 10 * n + d.val else n) 0

/-- The power of ten that the exponent is read as. -/
def exponentValue (n : Number) : Int :=
  match n.exponent with
  | none => 0
  | some e =>
    let v : Int := exponentSize (e.first :: e.rest)
    if e.negative then -v else v

/-- The number without its sign as digits and a power of ten. -/
def toScaled (n : Number) : Scaled :=
  ⟨n.whole * Nat.pow 10 n.fraction.length + Decimal.value n.fraction,
    n.exponentValue - n.fraction.length⟩

/-- The binary64 value nearest to what is read. Whatever is at least 10³¹⁰ is an infinity and
whatever is below 10⁻³³⁰ is zero, so that only exponents of moderate size are computed with. -/
def toFloat (n : Number) : Float :=
  let d := n.toScaled
  let e := d.exp + digitCount d.digits
  let magnitude : Float :=
    if d.digits = 0 ∨ e < -330 then 0
    else if 310 < e then Float.ofBits 0x7FF0000000000000
    else Float.ofScientific d.digits (d.exp < 0) d.exp.natAbs
  if n.negative then -magnitude else magnitude

end Number

example : (Number.ofFloat? 0.000012345).map Number.text = some "0.000012345" := by decide +kernel
example : (Number.ofFloat? 1e16).map Number.text = some "1e+16" := by decide +kernel
example : (Number.ofFloat? 1e15).map Number.text = some "1000000000000000.0" := by decide +kernel
example : Number.exponentSize [6, 5, 5, 3, 6, 0] = 65536 := by decide

end FramedCall.Json
