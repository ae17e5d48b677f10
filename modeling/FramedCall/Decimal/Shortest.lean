import FramedCall.Decimal.Digits

/-!
# The fewest digits that read back

A finite binary64 value is `m * 2 ^ q`. The reals that round to it form an interval, ends included
exactly when `m` is even; `Binary.readsBack` tests a decimal against it in exact arithmetic.
`Binary.shortest` looks at the two decimals next to the value on the grids of 1, 2, … digits and
takes the first grid with one that reads back, of two the nearer.
-/

namespace FramedCall.Decimal

/-- The number `digits * 10 ^ exp`. -/
structure Scaled where
  /-- The significant digits as one number. -/
  digits : Nat
  /-- The power of ten. -/
  exp : Int
deriving DecidableEq, Repr

/-- Which of two equally near candidates is taken. -/
inductive Tie where
  /-- The one whose last digit is even. -/
  | even
  /-- The greater one. -/
  | up
deriving DecidableEq, Repr

/-- A finite value without its sign, `m * 2 ^ q`. -/
structure Binary where
  /-- The significand. -/
  m : Nat
  /-- The power of two. -/
  q : Int
  /-- Whether the neighbour below is half as far away as the neighbour above. -/
  narrowBelow : Bool
deriving DecidableEq, Repr

namespace Binary

/-- The sign and the magnitude that 64 bits stand for, unless they are an infinity or no number. -/
def ofBits? (b : UInt64) : Option (Bool × Binary) :=
  let n := b.toNat
  let negative : Bool := n / Nat.pow 2 63 = 1
  let e : Nat := n / Nat.pow 2 52 % Nat.pow 2 11
  let f : Nat := n % Nat.pow 2 52
  if e = 2047 then none
  else if e = 0 then some (negative, ⟨f, -1074, false⟩)
  else some (negative, ⟨Nat.pow 2 52 + f, (e : Int) - 1075, f = 0 && e > 1⟩)

/-- Compares `a * 10 ^ i` with `n * 2 ^ j`. -/
def compareScaled (a : Nat) (i : Int) (n : Nat) (j : Int) : Ordering :=
  compare (a * Nat.pow 10 i.toNat * Nat.pow 2 (-j).toNat) (n * Nat.pow 2 j.toNat * Nat.pow 10 (-i).toNat)

/-- Whether a decimal is among the reals that round to the value. -/
def readsBack (x : Binary) (d : Scaled) : Bool :=
  let below := if x.narrowBelow then 4 * x.m - 1 else 4 * x.m - 2
  let above := 4 * x.m + 2
  let closed : Bool := x.m % 2 = 0
  let lower := compareScaled d.digits d.exp below (x.q - 2)
  let upper := compareScaled d.digits d.exp above (x.q - 2)
  (lower == .gt || (closed && lower == .eq)) && (upper == .lt || (closed && upper == .eq))

/-- The least `k` with the value below `10 ^ k`: an estimate from the number of bits, which is off
by at most one, and exact comparisons around it. -/
def scale (x : Binary) : Int :=
  let guess := ((x.m.log2 : Int) + x.q) * 30103 / 100000
  match (List.range 4).find? fun (i : Nat) =>
      compareScaled 1 (guess + (i : Int) - 1) x.m x.q == .gt with
  | some i => guess + (i : Int) - 1
  | none => guess + 3

/-- The candidate with the power of ten `e`: of the two multiples of `10 ^ e` next to the value the
one that reads back, of two the nearer. -/
def candidate? (tie : Tie) (x : Binary) (e : Int) : Option Scaled :=
  let num := x.m * Nat.pow 2 x.q.toNat * Nat.pow 10 (-e).toNat
  let den := Nat.pow 10 e.toNat * Nat.pow 2 (-x.q).toNat
  let lo : Scaled := ⟨num / den, e⟩
  let hi : Scaled := ⟨num / den + 1, e⟩
  match x.readsBack lo, x.readsBack hi with
  | false, false => none
  | true, false => some lo
  | false, true => some hi
  | true, true =>
    match compare (2 * (num % den)) den, tie with
    | .lt, _ => some lo
    | .gt, _ => some hi
    | .eq, .up => some hi
    | .eq, .even => some (if lo.digits % 2 = 0 then lo else hi)

end Binary

/-- The same number without trailing zeros in its digits. -/
def Scaled.strip (d : Scaled) : Scaled :=
  if _h : d.digits ≠ 0 ∧ d.digits % 10 = 0 then Scaled.strip ⟨d.digits / 10, d.exp + 1⟩ else d
termination_by d.digits
decreasing_by
  show d.digits / 10 < d.digits
  omega

/-- The exact decimal of a value. -/
def Binary.exact (x : Binary) : Scaled :=
  ⟨x.m * Nat.pow 2 x.q.toNat * Nat.pow 5 (-x.q).toNat, if x.q < 0 then x.q else 0⟩

/-- The fewest digits that read back; 17 always suffice, and the exact value stands behind them. -/
def Binary.shortest (tie : Tie) (x : Binary) : Scaled :=
  if x.m = 0 then ⟨0, 0⟩
  else
    let k := x.scale
    match (List.range 17).findSome? fun (i : Nat) => x.candidate? tie (k - ((i : Int) + 1)) with
    | some d => d.strip
    | none => x.exact.strip

end FramedCall.Decimal
