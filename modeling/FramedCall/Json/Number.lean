import FramedCall.Decimal.Digits
import FramedCall.Text.Utf8

/-!
# Numbers

A JSON number is kept as it was written, at any length: sign, whole part, fraction digits and
exponent digits. One spelling is not kept, that of the exponent mark: `Number.chars` writes it `e`
and always gives the exponent a sign.

`Scan` reads a number a character at a time. `Number.ofChars` reads a text that is one number and
nothing else; its `TextFault` says where the text stops being one.
-/

namespace FramedCall.Json

open Decimal (Digit)

/-- The exponent of a number, with the leading zeros that were written. -/
structure Exponent where
  /-- Whether it has a minus sign. -/
  negative : Bool
  /-- Its first digit. -/
  first : Digit
  /-- Its other digits. -/
  rest : List Digit
deriving DecidableEq, Repr

/-- A number as written. -/
structure Number where
  /-- Whether it has a minus sign; `-0` is not `0`. -/
  negative : Bool
  /-- The whole part, which has no leading zeros. -/
  whole : Nat
  /-- The digits after the point; none if there is no point. -/
  fraction : List Digit
  /-- The exponent, if there is one. -/
  exponent : Option Exponent
deriving DecidableEq, Repr

/-! ### The text of a number -/

/-- The characters of an exponent. -/
def Exponent.chars (e : Exponent) : List Char :=
  'e' :: (if e.negative then '-' else '+') :: Decimal.chars (e.first :: e.rest)

namespace Number

/-- The characters of a number. -/
def chars (n : Number) : List Char :=
  (if n.negative then ['-'] else [])
    ++ Nat.toDigits 10 n.whole
    ++ (if n.fraction = [] then [] else '.' :: Decimal.chars n.fraction)
    ++ (match n.exponent with
        | none => []
        | some e => e.chars)

/-- The text of a number. -/
def text (n : Number) : String :=
  String.ofList n.chars

/-! ### Whole numbers -/

/-- An integer as a number. -/
def ofInt (i : Int) : Number :=
  ⟨i < 0, i.natAbs, [], none⟩

/-- Whether the number is written without a fraction and without an exponent. -/
def isInteger (n : Number) : Bool :=
  n.fraction = [] && n.exponent = none

/-- The integer that sign and whole part stand for. -/
def signedWhole (n : Number) : Int :=
  if n.negative then -(n.whole : Int) else n.whole

/-- The integer that the number is written as. -/
def toInt? (n : Number) : Option Int :=
  if n.isInteger then some n.signedWhole else none

end Number

/-! ### Reading -/

/-- A number of which the first characters have been read. Digits are held latest first. -/
inductive Scan where
  /-- Nothing but a minus sign. -/
  | minus
  /-- Some of the whole part. -/
  | whole (negative : Bool) (n : Nat)
  /-- The point, and no digit behind it yet. -/
  | point (negative : Bool) (n : Nat)
  /-- Some of the fraction. -/
  | fraction (negative : Bool) (n : Nat) (ds : List Digit)
  /-- The exponent mark. -/
  | mark (negative : Bool) (n : Nat) (fraction : List Digit)
  /-- The exponent mark and a sign. -/
  | sign (negative : Bool) (n : Nat) (fraction : List Digit) (expNegative : Bool)
  /-- Some of the exponent. -/
  | exponent (negative : Bool) (n : Nat) (fraction : List Digit) (expNegative : Bool)
      (first : Digit) (ds : List Digit)
deriving DecidableEq, Repr

namespace Scan

/-- A first character that may start a number. -/
def start? (c : Char) : Option Scan :=
  if c = '-' then some .minus else (Digit.ofChar? c).map (.whole false ·.val)

/-- One more character; `none` if it does not belong to the number. A whole part that starts with
zero has no second digit. -/
def push? (s : Scan) (c : Char) : Option Scan :=
  match s, Digit.ofChar? c with
  | .minus, some d => some (.whole true d.val)
  | .whole neg n, some d => if n = 0 then none else some (.whole neg (10 * n + d.val))
  | .point neg n, some d => some (.fraction neg n [d])
  | .fraction neg n ds, some d => some (.fraction neg n (d :: ds))
  | .mark neg n f, some d => some (.exponent neg n f false d [])
  | .sign neg n f e, some d => some (.exponent neg n f e d [])
  | .exponent neg n f e d ds, some d' => some (.exponent neg n f e d (d' :: ds))
  | .whole neg n, none =>
    if c = '.' then some (.point neg n)
    else if c = 'e' ∨ c = 'E' then some (.mark neg n [])
    else none
  | .fraction neg n ds, none =>
    if c = 'e' ∨ c = 'E' then some (.mark neg n ds.reverse) else none
  | .mark neg n f, none =>
    if c = '+' then some (.sign neg n f false)
    else if c = '-' then some (.sign neg n f true)
    else none
  | _, none => none

/-- The number read, unless it still lacks a digit. -/
def finish? : Scan → Option Number
  | .whole neg n => some ⟨neg, n, [], none⟩
  | .fraction neg n ds => some ⟨neg, n, ds.reverse, none⟩
  | .exponent neg n f e d ds => some ⟨neg, n, f, some ⟨e, d, ds.reverse⟩⟩
  | .minus | .point .. | .mark .. | .sign .. => none

/-- Whether a character that is not a digit is used up before it is refused: behind a sign and
behind the exponent mark. -/
def takesAny : Scan → Bool
  | .minus | .mark .. | .sign .. => true
  | .whole .. | .point .. | .fraction .. | .exponent .. => false

/-- Reads as far as the characters belong to the number. -/
def run (s : Scan) : List Char → Scan × List Char
  | [] => (s, [])
  | c :: cs =>
    match s.push? c with
    | some s' => s'.run cs
    | none => (s, c :: cs)

end Scan

/-! ### A text that is one number -/

/-- Why a text is not one number, with the line and the byte column where it stops being one. -/
inductive TextFault where
  /-- The text ends too early. -/
  | unfinished (line column : Nat)
  /-- Something else stands in it. -/
  | invalid (line column : Nat)
deriving DecidableEq, Repr

/-- The wording of a fault. -/
def TextFault.message : TextFault → String
  | .unfinished l c => s!"EOF while parsing a value at line {l} column {c}"
  | .invalid l c => s!"invalid number at line {l} column {c}"

/-- The line and the column of the place behind the given bytes. -/
def placeAfter (bs : Bytes) : Nat × Nat :=
  bs.foldl (fun (p : Nat × Nat) b => if b = 10 then (p.1 + 1, 0) else (p.1, p.2 + 1)) (1, 0)

/-- The fault at the character `c` that does not belong, with `before` in front of it and `after`
behind it. The place is that of the byte looked at, which is the one behind the first byte of `c`
where that byte was used up. -/
def TextFault.atChar (takesAny : Bool) (before : List Char) (c : Char) (after : List Char) :
    TextFault :=
  let rest := String.utf8EncodeChar c ++ Text.encodeChars after
  let used := if takesAny then 2 else 1
  let place := placeAfter (Text.encodeChars before ++ rest.take used)
  .invalid place.1 place.2

/-- The number that a text is, surrounding blanks not allowed. -/
def Number.ofChars (cs : List Char) : Except TextFault Number :=
  match cs with
  | [] => .error (.unfinished 1 0)
  | c :: rest =>
    match Scan.start? c with
    | none => .error (.atChar false [] c rest)
    | some s =>
      match s.run rest with
      | (s', []) =>
        match s'.finish? with
        | some n => .ok n
        | none =>
          let place := placeAfter (Text.encodeChars cs)
          .error (.unfinished place.1 place.2)
      | (s', c' :: rest') =>
        .error (.atChar s'.takesAny (cs.take (cs.length - (rest'.length + 1))) c' rest')

end FramedCall.Json
