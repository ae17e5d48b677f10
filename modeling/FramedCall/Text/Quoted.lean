import FramedCall.Text.Invisible

/-!
# Quoted text

How a text is shown inside a message: between double quotes, with the quote and the backslash
escaped, the four common controls by a letter, and every other character that does not show by
its code point.
-/

namespace FramedCall.Text

/-- One character of a quoted text. -/
def quoteChar (c : Char) : List Char :=
  match c with
  | '"' => ['\\', '"']
  | '\\' => ['\\', '\\']
  | '\n' => ['\\', 'n']
  | '\r' => ['\\', 'r']
  | '\t' => ['\\', 't']
  | '\x00' => ['\\', '0']
  | c =>
    if isInvisible c then ['\\', 'u', '\x7b'] ++ Nat.toDigits 16 c.toNat ++ ['\x7d'] else [c]

/-- A text between quotes. -/
def quoted (s : String) : String :=
  String.ofList ('"' :: s.toList.flatMap quoteChar ++ ['"'])

/-- Several quoted texts in brackets, separated by a comma and a space. -/
def quotedList (ss : List String) : String :=
  "[" ++ ", ".intercalate (ss.map quoted) ++ "]"

example : quoted "a\"b\\\n\x01é\u0301" = "\"a\\\"b\\\\\\n\\u\x7b1\x7dé\\u\x7b301\x7d\"" := by
  decide +kernel

end FramedCall.Text
