import FramedCall.Json.Value

/-!
# Printing values

The compact text of a value: no blanks, keys in order. In a string only the quote, the backslash
and the controls below U+0020 are escaped, so the text holds no control character at all.
-/

namespace FramedCall.Json

/-- The character behind the backslash for the characters that have a short escape. -/
def escapeLetter? : Char → Option Char
  | '"' => some '"'
  | '\\' => some '\\'
  | '\x08' => some 'b'
  | '\t' => some 't'
  | '\n' => some 'n'
  | '\x0c' => some 'f'
  | '\r' => some 'r'
  | _ => none

/-- One character of a string. -/
def escapeChar (c : Char) : List Char :=
  match escapeLetter? c with
  | some l => ['\\', l]
  | none =>
    if c.toNat < 0x20 then
      ['\\', 'u', '0', '0', Nat.digitChar (c.toNat / 16), Nat.digitChar (c.toNat % 16)]
    else [c]

/-- A string with its quotes. -/
def stringChars (s : String) : List Char :=
  '"' :: s.toList.flatMap escapeChar ++ ['"']

namespace Value

mutual

/-- The characters of a value. -/
def chars : Value → List Char
  | .null => ['n', 'u', 'l', 'l']
  | .boolean true => ['t', 'r', 'u', 'e']
  | .boolean false => ['f', 'a', 'l', 's', 'e']
  | .number n => n.chars
  | .string s => stringChars s
  | .array items => '[' :: itemsChars items
  | .object entries => '\x7b' :: entriesChars entries

/-- The characters of the items of an array and of the bracket that closes it. -/
def itemsChars : List Value → List Char
  | [] => [']']
  | v :: vs => v.chars ++ moreItemsChars vs

/-- The characters behind an item. -/
def moreItemsChars : List Value → List Char
  | [] => [']']
  | v :: vs => ',' :: (v.chars ++ moreItemsChars vs)

/-- The characters of the entries of an object and of the brace that closes it. -/
def entriesChars : List (String × Value) → List Char
  | [] => ['\x7d']
  | (k, v) :: es => stringChars k ++ ':' :: (v.chars ++ moreEntriesChars es)

/-- The characters behind an entry. -/
def moreEntriesChars : List (String × Value) → List Char
  | [] => ['\x7d']
  | (k, v) :: es => ',' :: (stringChars k ++ ':' :: (v.chars ++ moreEntriesChars es))

end

/-- The compact text of a value. -/
def compact (v : Value) : String :=
  String.ofList v.chars

/-- A value as plain text: a string stands for itself, all else is printed. -/
def plainText : Value → String
  | .string s => s
  | v => v.compact

end Value
end FramedCall.Json
