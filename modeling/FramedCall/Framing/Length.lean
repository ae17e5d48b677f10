import FramedCall.Framing

/-!
# Length prefixes

The digits in front of the separator. `Length.check` refuses what cannot become a length any more,
while the separator is still missing; `Length.parse` reads the complete digits. `Violation` collects
the ways in which a stream can break its framing.
-/

namespace FramedCall.Framing

/-- How a stream breaks its framing. -/
inductive Violation where
  /-- A byte other than a digit in a length. -/
  | notADigit (byte : UInt8)
  /-- More digits than any length has, leading zeros not counted. -/
  | tooManyDigits
  /-- No digit in front of the separator. -/
  | emptyLength
  /-- A length that does not fit 64 bits; its digits are kept. -/
  | outOfRange (digits : String)
  /-- A length beyond the accepted size. -/
  | payloadTooLong (length limit : Nat)
  /-- A line, complete or not, beyond the accepted size. -/
  | lineTooLong (limit : Nat)
deriving DecidableEq, Repr

/-- The greatest number of digits that count: 2⁶⁴ − 1 has 20. -/
def maxLengthDigits : Nat := 20

/-- The largest length that can be given, 2⁶⁴ − 1. -/
def maxLength : Nat := 18446744073709551615

/-- Two digits in base 16. -/
def hexByte (b : UInt8) : String :=
  String.ofList [Nat.digitChar (b.toNat / 16), Nat.digitChar (b.toNat % 16)]

namespace Violation

/-- The wording of a violation. -/
def message : Violation → String
  | .notADigit byte => s!"invalid byte 0x{hexByte byte} in length prefix"
  | .tooManyDigits => s!"length prefix has more than {maxLengthDigits} significant digits"
  | .emptyLength => "empty length prefix"
  | .outOfRange digits => s!"length prefix out of range: {digits}"
  | .payloadTooLong length limit => s!"payload size {length} exceeds maximum {limit}"
  | .lineTooLong limit => s!"line exceeds maximum payload size {limit}"

/-- A violation as the error of the stream. -/
def error (v : Violation) : CallError :=
  .frameSync v.message

end Violation

namespace Length

/-- Whether a byte is a decimal digit. -/
def isDigit (b : UInt8) : Bool :=
  48 ≤ b && b ≤ 57

/-- The number that digits stand for. -/
def value (ds : Bytes) : Nat :=
  ds.foldl (fun n b => 10 * n + (b.toNat - 48)) 0

/-- Accepts the digits of a length that may not be complete yet. -/
def check (ds : Bytes) : Except Violation Unit :=
  match ds.find? (!isDigit ·) with
  | some b => .error (.notADigit b)
  | none =>
    if maxLengthDigits < (ds.dropWhile (· = 48)).length then .error .tooManyDigits
    else .ok ()

/-- The length that complete digits give. -/
def parse (ds : Bytes) : Except Violation Nat := do
  check ds
  if ds.isEmpty then .error .emptyLength
  else if maxLength < value ds then .error (.outOfRange (Text.decodeLossy ds))
  else .ok (value ds)

end Length
end FramedCall.Framing
