/-!
# Numerals

Texts that are a natural number in some base and below some bound. A plus sign may stand in front, and
where there are negative numbers a minus sign. Digits are taken from the left, and the first that is
none, or that makes the number too large, decides.
-/

namespace FramedCall.Text.Numeral

/-- Why a text is no numeral. -/
inductive Fault where
  /-- There is nothing to read. -/
  | empty
  /-- A character is no digit of the base. -/
  | invalidDigit
  /-- The number is beyond the bound. -/
  | tooLarge
deriving DecidableEq, Repr

/-- The wording of a fault. -/
def Fault.message : Fault → String
  | .empty => "cannot parse integer from empty string"
  | .invalidDigit => "invalid digit found in string"
  | .tooLarge => "number too large to fit in target type"

/-- The value of a character as a digit, letters of either case standing for ten and more. -/
def digit? (base : Nat) (c : Char) : Option Nat :=
  let n := c.toNat
  let d? : Option Nat :=
    if 48 ≤ n ∧ n ≤ 57 then some (n - 48)
    else if 97 ≤ n ∧ n ≤ 122 then some (n - 87)
    else if 65 ≤ n ∧ n ≤ 90 then some (n - 55)
    else none
  d?.filter (· < base)

/-- Reads digits behind a number already read. -/
def digits (base bound : Nat) (n : Nat) : List Char → Except Fault Nat
  | [] => .ok n
  | c :: cs =>
    match digit? base c with
    | none => .error .invalidDigit
    | some d =>
      if bound < n * base + d then .error .tooLarge else digits base bound (n * base + d) cs

/-- The number, `bound` at most, that some characters are. -/
def readChars (base bound : Nat) : List Char → Except Fault Nat
  | [] => .error .empty
  | ['+'] => .error .invalidDigit
  | '+' :: cs => digits base bound 0 cs
  | cs => digits base bound 0 cs

/-- The number, `bound` at most, that a text is. -/
def read (base bound : Nat) (s : String) : Except Fault Nat :=
  readChars base bound s.toList

/-- The integer between `-below` and `above` that some characters are. -/
def readSigned? (base below above : Nat) : List Char → Option Int
  | ['-'] => none
  | '-' :: cs => (digits base below 0 cs).toOption.map fun n => -(n : Int)
  | cs => (readChars base above cs).toOption.map Int.ofNat

end FramedCall.Text.Numeral
