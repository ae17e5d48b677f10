import FramedCall.Json.Value

/-!
# Reading values

A text is read one character at a time: `Reader.step?` takes the reader from one place in the text
to the next or refuses the character, and `Value.ofChars?` accepts a text when the reader stands
behind a whole value at its end. Blanks are the space, the tab, the line feed and the carriage
return. At most `maxDepth` arrays and objects stand inside one another.
-/

namespace FramedCall.Json

/-! ### Strings -/

/-- A string of which the first characters have been read, latest first, and what the next
character is part of. -/
inductive Quote where
  /-- Plain characters. -/
  | plain (cs : List Char)
  /-- The letter of an escape. -/
  | escape (cs : List Char)
  /-- One of the four digits of a 16-bit unit; `owed` digits are missing. -/
  | unit (cs : List Char) (bits owed : Nat)
  /-- The backslash of the second half of a surrogate pair. -/
  | pair (cs : List Char) (high : Nat)
  /-- The letter of the second half. -/
  | pairLetter (cs : List Char) (high : Nat)
  /-- One of the four digits of the second half. -/
  | pairUnit (cs : List Char) (high bits owed : Nat)

/-- The digit that a character is in base 16. -/
def hexDigit? (c : Char) : Option Nat :=
  if '0' ≤ c ∧ c ≤ '9' then some (c.toNat - '0'.toNat)
  else if 'a' ≤ c ∧ c ≤ 'f' then some (c.toNat - 'a'.toNat + 10)
  else if 'A' ≤ c ∧ c ≤ 'F' then some (c.toNat - 'A'.toNat + 10)
  else none

/-- The character that a one-letter escape stands for. -/
def unescapeLetter? : Char → Option Char
  | '"' => some '"'
  | '\\' => some '\\'
  | '/' => some '/'
  | 'b' => some '\x08'
  | 'f' => some '\x0c'
  | 'n' => some '\n'
  | 'r' => some '\r'
  | 't' => some '\t'
  | _ => none

namespace Quote

/-- A 16-bit unit is complete: half of a surrogate pair opens the pair, which only a first half
may do, and any other unit is a character. -/
def closeUnit? (cs : List Char) (u : Nat) : Option Quote :=
  if u < 0xD800 ∨ 0xE000 ≤ u then some (.plain (Char.ofNat u :: cs))
  else if u < 0xDC00 then some (.pair cs u)
  else none

/-- The second unit of a pair is complete. -/
def closePair? (cs : List Char) (high low : Nat) : Option Quote :=
  if 0xDC00 ≤ low ∧ low < 0xE000 then
    some (.plain (Char.ofNat (0x10000 + (high - 0xD800) * 0x400 + (low - 0xDC00)) :: cs))
  else none

/-- One more character of the string, the closing quote apart. -/
def push? (q : Quote) (c : Char) : Option Quote :=
  match q with
  | .plain cs =>
    if c = '\\' then some (.escape cs)
    else if c.toNat < 0x20 then none
    else some (.plain (c :: cs))
  | .escape cs =>
    if c = 'u' then some (.unit cs 0 4)
    else (unescapeLetter? c).map fun d => .plain (d :: cs)
  | .unit cs bits owed => do
    let d ← hexDigit? c
    let u := bits * 16 + d
    if owed ≤ 1 then closeUnit? cs u else some (.unit cs u (owed - 1))
  | .pair cs high => if c = '\\' then some (.pairLetter cs high) else none
  | .pairLetter cs high => if c = 'u' then some (.pairUnit cs high 0 4) else none
  | .pairUnit cs high bits owed => do
    let d ← hexDigit? c
    let u := bits * 16 + d
    if owed ≤ 1 then closePair? cs high u else some (.pairUnit cs high u (owed - 1))

end Quote

/-! ### The reader -/

/-- An array or object that is still open. Items and members are held latest first. -/
inductive Level where
  /-- An array with the items so far. -/
  | array (items : List Value)
  /-- An object with the members so far. -/
  | object (members : List (String × Value))
  /-- An object with the members so far and a key that waits for its value. -/
  | member (members : List (String × Value)) (key : String)

/-- What the next character is part of. -/
inductive Phase where
  /-- The start of a value. -/
  | value
  /-- The start of a key. -/
  | key
  /-- The colon behind a key. -/
  | colon
  /-- The comma or the bracket behind an item or a member. -/
  | comma
  /-- A string, which is a key where the innermost level is an object without a waiting key. -/
  | quote (q : Quote)
  /-- A number. -/
  | number (s : Scan)
  /-- The letters that a literal still lacks. -/
  | literal (rest : List Char) (v : Value)
  /-- The end of the text; the value is complete. -/
  | finished (v : Value)

/-- The place of the reader in the text. -/
structure Reader where
  /-- The open arrays and objects, the innermost first. -/
  levels : List Level
  /-- What comes next. -/
  phase : Phase

/-- How many arrays and objects may stand inside one another. -/
def maxDepth : Nat := 127

/-- Whether a character may stand between any two tokens. -/
def isBlank (c : Char) : Bool :=
  c = ' ' || c = '\t' || c = '\n' || c = '\r'

namespace Reader

/-- The reader at the start of a text. -/
def start : Reader := ⟨[], .value⟩

/-- A value is complete and goes to the innermost level. -/
def complete? (v : Value) : List Level → Option Reader
  | [] => some ⟨[], .finished v⟩
  | .array items :: ls => some ⟨.array (v :: items) :: ls, .comma⟩
  | .member ms k :: ls => some ⟨.object ((k, v) :: ms) :: ls, .comma⟩
  | .object _ :: _ => none

/-- A string is complete: a key where the innermost level waits for one, otherwise a value. -/
def completeString? (s : String) : List Level → Option Reader
  | .object ms :: ls => some ⟨.member ms s :: ls, .colon⟩
  | ls => complete? (.string s) ls

/-- An array or object begins. -/
def open? (l : Level) (phase : Phase) (ls : List Level) : Option Reader :=
  if ls.length < maxDepth then some ⟨l :: ls, phase⟩ else none

/-- A bracket or brace closes the innermost level. -/
def close? (c : Char) : List Level → Option Reader
  | .array items :: ls => if c = ']' then complete? (.array items.reverse) ls else none
  | .object ms :: ls =>
    if c = '\x7d' then do complete? (← Value.ofMembers? ms.reverse) ls else none
  | _ => none

/-- The start of a value. An array that has no item yet may also be closed. -/
def beginValue? (ls : List Level) (c : Char) : Option Reader :=
  match c with
  | '[' => open? (.array []) .value ls
  | '\x7b' => open? (.object []) .key ls
  | '"' => some ⟨ls, .quote (.plain [])⟩
  | 'n' => some ⟨ls, .literal ['u', 'l', 'l'] .null⟩
  | 't' => some ⟨ls, .literal ['r', 'u', 'e'] (.boolean true)⟩
  | 'f' => some ⟨ls, .literal ['a', 'l', 's', 'e'] (.boolean false)⟩
  | ']' =>
    match ls with
    | .array [] :: _ => close? c ls
    | _ => none
  | c => (Scan.start? c).map fun s => ⟨ls, .number s⟩

/-- The start of a key. An object that has no member yet may also be closed. -/
def beginKey? (ls : List Level) (c : Char) : Option Reader :=
  if c = '"' then some ⟨ls, .quote (.plain [])⟩
  else match ls with
    | .object [] :: _ => close? c ls
    | _ => none

/-- Behind an item or a member. -/
def afterItem? (ls : List Level) (c : Char) : Option Reader :=
  if c = ',' then
    match ls with
    | .array _ :: _ => some ⟨ls, .value⟩
    | .object _ :: _ => some ⟨ls, .key⟩
    | _ => none
  else close? c ls

/-- A character between tokens. -/
def stepToken? (r : Reader) (c : Char) : Option Reader :=
  if isBlank c then some r
  else match r.phase with
    | .value => beginValue? r.levels c
    | .key => beginKey? r.levels c
    | .colon => if c = ':' then some ⟨r.levels, .value⟩ else none
    | .comma => afterItem? r.levels c
    | .quote _ | .number _ | .literal .. | .finished _ => none

/-- The next character. A number ends at the first character that does not belong to it, and that
character is then read behind the number. -/
def step? (r : Reader) (c : Char) : Option Reader :=
  match r.phase with
  | .quote (.plain cs) =>
    if c = '"' then completeString? (String.ofList cs.reverse) r.levels
    else ((Quote.plain cs).push? c).map fun q => ⟨r.levels, .quote q⟩
  | .quote q => (q.push? c).map fun q => ⟨r.levels, .quote q⟩
  | .number s =>
    match s.push? c with
    | some s' => some ⟨r.levels, .number s'⟩
    | none => do
      let n ← s.finish?
      let r' ← complete? (.number n) r.levels
      r'.stepToken? c
  | .literal [] _ => none
  | .literal (d :: ds) v =>
    if c = d then
      match ds with
      | [] => complete? v r.levels
      | _ :: _ => some ⟨r.levels, .literal ds v⟩
    else none
  | .value | .key | .colon | .comma | .finished _ => r.stepToken? c

/-- The value read, if the text ends here. -/
def finish? (r : Reader) : Option Value :=
  match r.phase, r.levels with
  | .finished v, _ => some v
  | .number s, [] => s.finish?.map .number
  | _, _ => none

end Reader

/-- The value that a text is. -/
def Value.ofChars? (cs : List Char) : Option Value :=
  (cs.foldlM Reader.step? Reader.start).bind Reader.finish?

end FramedCall.Json
