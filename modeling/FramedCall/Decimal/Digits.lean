/-!
# Decimal digits

Digits, their characters and the number that a list of them stands for. A natural number is
written by `Nat.toDigits 10`; `lastDigits` writes a fixed number of places.
-/

namespace FramedCall.Decimal

/-- A decimal digit. -/
abbrev Digit := Fin 10

namespace Digit

/-- The digit 0. -/
def zero : Digit := 0

/-- The character of a digit. -/
def char (d : Digit) : Char :=
  Nat.digitChar d

/-- The digit that a character is. -/
def ofChar? (c : Char) : Option Digit :=
  if h : '0'.toNat ≤ c.toNat ∧ c.toNat - '0'.toNat < 10 then some ⟨c.toNat - '0'.toNat, h.2⟩
  else none

/-- The character of a digit is read as that digit. -/
@[simp] theorem ofChar?_char (d : Digit) : ofChar? d.char = some d := by
  revert d
  decide

end Digit

/-- The characters of a list of digits. -/
def chars (ds : List Digit) : List Char :=
  ds.map Digit.char

/-- The number that the digits stand for, the leading one first. -/
def value (ds : List Digit) : Nat :=
  ds.foldl (fun (n : Nat) (d : Digit) => 10 * n + d.val) 0

/-- The last `k` digits of `n`, with leading zeros where `n` has fewer. -/
def lastDigits : Nat → Nat → List Digit
  | 0, _ => []
  | k + 1, n => lastDigits k (n / 10) ++ [Fin.ofNat 10 n]

/-- How many digits `n` is written with. -/
def digitCount (n : Nat) : Nat :=
  (Nat.toDigits 10 n).length

end FramedCall.Decimal
