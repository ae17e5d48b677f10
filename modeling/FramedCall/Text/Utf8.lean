/-!
# Text as bytes

UTF-8 over byte lists. `Text.encode` writes a text; reading goes through `pieces`, which cuts any
byte string into characters and ill-formed stretches, one stretch for each maximal ill-formed
subpart. `Text.decode?` accepts the byte strings without such a stretch, and `Text.decodeLossy`
puts U+FFFD in the place of each.
-/

namespace FramedCall

/-- What travels on a pipe. -/
abbrev Bytes := List UInt8

namespace Text

/-! ### Writing -/

/-- The UTF-8 bytes of a list of characters. -/
def encodeChars (cs : List Char) : Bytes :=
  cs.flatMap String.utf8EncodeChar

/-- The UTF-8 bytes of a text. -/
def encode (s : String) : Bytes :=
  encodeChars s.toList

/-- No characters are no bytes. -/
@[simp] theorem encodeChars_nil : encodeChars [] = [] := rfl

/-- The bytes of the first character come first. -/
@[simp] theorem encodeChars_cons (c : Char) (cs : List Char) :
    encodeChars (c :: cs) = String.utf8EncodeChar c ++ encodeChars cs := rfl

/-- Characters are encoded one by one. -/
@[simp] theorem encodeChars_append (cs ds : List Char) :
    encodeChars (cs ++ ds) = encodeChars cs ++ encodeChars ds := by
  simp [encodeChars]

/-! ### Reading -/

/-- A character of which the first bytes have been read: the value of the bits so far, how many
bytes are owed, and the bounds of the next one. -/
structure Partial where
  /-- The bits read so far. -/
  bits : Nat
  /-- Bytes still to come, at least one. -/
  owed : Nat
  /-- The least byte that may come next. -/
  low : Nat
  /-- The greatest byte that may come next. -/
  high : Nat

/-- What a byte brings about: pieces that are now complete, and the character left open. -/
abbrev Step := List (Option Char) × Option Partial

/-- A byte that starts a character. The bounds on the second byte leave out overlong forms,
surrogates and values above U+10FFFF; a byte that starts no character is ill-formed by itself. -/
def first (b : UInt8) : Step :=
  let n := b.toNat
  if n < 0x80 then ([some (Char.ofNat n)], none)
  else if n < 0xC2 then ([none], none)
  else if n < 0xE0 then ([], some ⟨n - 0xC0, 1, 0x80, 0xBF⟩)
  else if n = 0xE0 then ([], some ⟨0, 2, 0xA0, 0xBF⟩)
  else if n = 0xED then ([], some ⟨0xD, 2, 0x80, 0x9F⟩)
  else if n < 0xF0 then ([], some ⟨n - 0xE0, 2, 0x80, 0xBF⟩)
  else if n = 0xF0 then ([], some ⟨0, 3, 0x90, 0xBF⟩)
  else if n < 0xF4 then ([], some ⟨n - 0xF0, 3, 0x80, 0xBF⟩)
  else if n = 0xF4 then ([], some ⟨4, 3, 0x80, 0x8F⟩)
  else ([none], none)

/-- A byte after an open character. One out of bounds ends the ill-formed stretch and is looked at
afresh. -/
def next (p : Partial) (b : UInt8) : Step :=
  let n := b.toNat
  if p.low ≤ n ∧ n ≤ p.high then
    let bits := p.bits * 64 + (n - 0x80)
    if p.owed ≤ 1 then ([some (Char.ofNat bits)], none)
    else ([], some ⟨bits, p.owed - 1, 0x80, 0xBF⟩)
  else
    let (out, open?) := first b
    (none :: out, open?)

/-- The pieces of a byte string, `none` for each ill-formed stretch. -/
def pieces : Option Partial → Bytes → List (Option Char)
  | none, [] => []
  | some _, [] => [none]
  | none, b :: bs => (first b).1 ++ pieces (first b).2 bs
  | some p, b :: bs => (next p b).1 ++ pieces (next p b).2 bs

/-- The characters of a byte string that is well-formed throughout. -/
def decodeChars? (bs : Bytes) : Option (List Char) :=
  (pieces none bs).mapM id

/-- The text of a byte string that is well-formed throughout. -/
def decode? (bs : Bytes) : Option String :=
  (decodeChars? bs).map String.ofList

/-- The text of any byte string, with U+FFFD for each ill-formed stretch. -/
def decodeLossy (bs : Bytes) : String :=
  String.ofList ((pieces none bs).map (·.getD '\uFFFD'))

end Text
end FramedCall
