import Mathlib.Data.List.Basic
import FramedCall.Text.Utf8

/-!
# Texts as bytes and back

What is written of a text is read as that text (`decodeChars?_encodeChars`). The bytes of a
character are read one after another, and the bounds that the first byte puts on the second one leave
out no character (`first_three`, `first_four`). A byte below U+0080 stands for its character and is part
of no other (`mem_encode_iff`).
-/

namespace FramedCall.Text

/-- A byte that stands for a number. -/
theorem toNat_byte {n : Nat} (h : n < 256) : (UInt8.ofNat n).toNat = n :=
  UInt8.toNat_ofNat_of_lt' h

/-- A byte within the bounds goes on with the character. -/
theorem pieces_open {p : Partial} {n : Nat} (hn : n < 256) (hlow : p.low ≤ n) (hhigh : n ≤ p.high)
    (howed : 1 < p.owed) (bs : Bytes) :
    pieces (some p) (.ofNat n :: bs) =
      pieces (some ⟨p.bits * 64 + (n - 0x80), p.owed - 1, 0x80, 0xBF⟩) bs := by
  have hnext : next p (.ofNat n) = ([], some ⟨p.bits * 64 + (n - 0x80), p.owed - 1, 0x80, 0xBF⟩) := by
    simp only [next, toNat_byte hn]
    rw [if_pos ⟨hlow, hhigh⟩, if_neg (by omega)]
  rw [pieces, hnext, List.nil_append]

/-- The last byte within the bounds ends the character. -/
theorem pieces_last {p : Partial} {n : Nat} (hn : n < 256) (hlow : p.low ≤ n) (hhigh : n ≤ p.high)
    (howed : p.owed ≤ 1) (bs : Bytes) :
    pieces (some p) (.ofNat n :: bs) =
      some (Char.ofNat (p.bits * 64 + (n - 0x80))) :: pieces none bs := by
  have hnext : next p (.ofNat n) = ([some (Char.ofNat (p.bits * 64 + (n - 0x80)))], none) := by
    simp only [next, toNat_byte hn]
    rw [if_pos ⟨hlow, hhigh⟩, if_pos howed]
  rw [pieces, hnext, List.singleton_append]

/-! ### First bytes -/

/-- A byte below U+0080 is a character by itself. -/
theorem first_one {n : Nat} (h : n < 0x80) : first (.ofNat n) = ([some (Char.ofNat n)], none) := by
  simp only [first, toNat_byte (show n < 256 by omega)]
  rw [if_pos h]

/-- The first of two bytes opens a character that lacks one byte. -/
theorem first_two {n : Nat} (h : 0xC2 ≤ n) (h' : n < 0xE0) :
    first (.ofNat n) = ([], some ⟨n - 0xC0, 1, 0x80, 0xBF⟩) := by
  simp only [first, toNat_byte (show n < 256 by omega)]
  rw [if_neg (by omega), if_neg (by omega), if_pos h']

/-- The bounds behind the first of three bytes leave out overlong forms and surrogates only. -/
theorem first_three {n m : Nat} (hn : 0xE0 ≤ n) (hn' : n < 0xF0) (hm : 0x80 ≤ m) (hm' : m ≤ 0xBF)
    (hlong : n = 0xE0 → 0xA0 ≤ m) (hsurrogate : n = 0xED → m ≤ 0x9F) :
    ∃ low high, low ≤ m ∧ m ≤ high ∧ first (.ofNat n) = ([], some ⟨n - 0xE0, 2, low, high⟩) := by
  simp only [first, toNat_byte (show n < 256 by omega)]
  rw [if_neg (by omega), if_neg (by omega), if_neg (by omega)]
  by_cases h0 : n = 0xE0
  · exact ⟨0xA0, 0xBF, hlong h0, hm', by simp [h0]⟩
  · by_cases hD : n = 0xED
    · exact ⟨0x80, 0x9F, hm, hsurrogate hD, by simp [hD]⟩
    · exact ⟨0x80, 0xBF, hm, hm', by rw [if_neg h0, if_neg hD, if_pos hn']⟩

/-- The bounds behind the first of four bytes leave out overlong forms and what is beyond the last
character only. -/
theorem first_four {n m : Nat} (hn : 0xF0 ≤ n) (hn' : n ≤ 0xF4) (hm : 0x80 ≤ m) (hm' : m ≤ 0xBF)
    (hlong : n = 0xF0 → 0x90 ≤ m) (hlast : n = 0xF4 → m ≤ 0x8F) :
    ∃ low high, low ≤ m ∧ m ≤ high ∧ first (.ofNat n) = ([], some ⟨n - 0xF0, 3, low, high⟩) := by
  simp only [first, toNat_byte (show n < 256 by omega)]
  rw [if_neg (by omega), if_neg (by omega), if_neg (by omega), if_neg (by omega), if_neg (by omega),
    if_neg (by omega)]
  by_cases h0 : n = 0xF0
  · exact ⟨0x90, 0xBF, hlong h0, hm', by simp [h0]⟩
  · by_cases h4 : n = 0xF4
    · exact ⟨0x80, 0x8F, hm, hlast h4, by simp [h4]⟩
    · exact ⟨0x80, 0xBF, hm, hm', by rw [if_neg h0, if_pos (by omega)]⟩

/-! ### Whole characters -/

/-- A character is no surrogate and not beyond the last one. -/
theorem toNat_valid (c : Char) : c.toNat < 0xD800 ∨ 0xDFFF < c.toNat ∧ c.toNat < 0x110000 := by
  have := c.valid
  simpa [UInt32.isValidChar, Nat.isValidChar] using this

/-- The bytes of a character are read as that character, whatever stands behind them. -/
theorem pieces_utf8EncodeChar (c : Char) (bs : Bytes) :
    pieces none (String.utf8EncodeChar c ++ bs) = some c :: pieces none bs := by
  have hvalid := toNat_valid c
  have hc : ∀ {n}, n = c.toNat → Char.ofNat n = c := by
    rintro n rfl
    exact Char.ofNat_toNat c
  have hv : c.val.toNat = c.toNat := rfl
  simp only [String.utf8EncodeChar, hv]
  split
  · -- one byte
    have hone := first_one (n := c.toNat) (by omega)
    simp only [List.cons_append, List.nil_append, pieces, hone, hc rfl]
  · split
    · -- two bytes
      have htwo := first_two (n := c.toNat / 64 % 32 + 0xC0) (by omega) (by omega)
      simp only [List.cons_append, List.nil_append]
      rw [pieces, htwo, List.nil_append]
      rw [pieces_last (by omega) (by simp only; omega) (by simp only; omega) (Nat.le_refl 1)]
      rw [hc (by simp only; omega)]
    · split
      · -- three bytes, of which the first says what the second may be
        obtain ⟨low, high, hlow, hhigh, hthree⟩ := first_three (n := c.toNat / 4096 % 16 + 0xE0)
          (m := c.toNat / 64 % 64 + 0x80) (by omega) (by omega) (by omega) (by omega) (by omega)
          (by omega)
        simp only [List.cons_append, List.nil_append]
        rw [pieces, hthree, List.nil_append]
        rw [pieces_open (by omega) hlow hhigh (by simp only; omega)]
        rw [pieces_last (by omega) (by simp only; omega) (by simp only; omega) (Nat.le_refl 1)]
        rw [hc (by simp only; omega)]
      · -- four bytes
        obtain ⟨low, high, hlow, hhigh, hfour⟩ := first_four (n := c.toNat / 262144 % 8 + 0xF0)
          (m := c.toNat / 4096 % 64 + 0x80) (by omega) (by omega) (by omega) (by omega) (by omega)
          (by omega)
        simp only [List.cons_append, List.nil_append]
        rw [pieces, hfour, List.nil_append]
        rw [pieces_open (by omega) hlow hhigh (by simp only; omega)]
        rw [pieces_open (by omega) (by simp only; omega) (by simp only; omega) (by simp only; omega)]
        rw [pieces_last (by omega) (by simp only; omega) (by simp only; omega) (Nat.le_refl 1)]
        rw [hc (by simp only; omega)]

/-- The bytes of characters fall into these characters and no ill-formed pieces; by induction on
them. -/
theorem pieces_encodeChars (cs : List Char) : pieces none (encodeChars cs) = cs.map some := by
  induction cs with
  | nil => rfl
  | cons c cs ih => rw [encodeChars_cons, pieces_utf8EncodeChar, ih, List.map_cons]

/-- What is written of a text is read as that text. -/
theorem decodeChars?_encodeChars (cs : List Char) : decodeChars? (encodeChars cs) = some cs := by
  rw [decodeChars?, pieces_encodeChars]
  induction cs with
  | nil => rfl
  | cons c cs ih => simp_all

/-- Texts are encoded one behind the other. -/
theorem encode_append (s t : String) : encode (s ++ t) = encode s ++ encode t := by
  rw [encode, String.toList_append, encodeChars_append]
  rfl

/-- Different texts have different bytes, as each is read from its own. -/
theorem encode_inj {s t : String} (h : encode s = encode t) : s = t := by
  have hchars : s.toList = t.toList := by
    apply Option.some.inj
    rw [← decodeChars?_encodeChars s.toList, ← decodeChars?_encodeChars t.toList]
    exact congrArg decodeChars? h
  exact String.toList_inj.1 hchars

/-! ### Bytes of characters below U+0080 -/

/-- A byte below U+0080 is in the bytes of a character only if it is that character. -/
theorem eq_of_mem_utf8EncodeChar {c : Char} {b : UInt8} (h : b ∈ String.utf8EncodeChar c)
    (hb : b.toNat < 0x80) : c.toNat = b.toNat := by
  have hvalid := toNat_valid c
  have hv : c.val.toNat = c.toNat := rfl
  simp only [String.utf8EncodeChar, hv] at h
  have hhigh : ∀ n, n < 256 → 0x80 ≤ n → b ≠ UInt8.ofNat n := by
    rintro n hn hn' rfl
    rw [toNat_byte hn] at hb
    omega
  split at h
  · obtain rfl := List.mem_singleton.1 h
    exact (toNat_byte (by omega)).symm
  · split at h
    · simp only [List.mem_cons, List.not_mem_nil, or_false] at h
      rcases h with h | h <;> exact absurd h (hhigh _ (by omega) (by omega))
    · split at h
      · simp only [List.mem_cons, List.not_mem_nil, or_false] at h
        rcases h with h | h | h <;> exact absurd h (hhigh _ (by omega) (by omega))
      · simp only [List.mem_cons, List.not_mem_nil, or_false] at h
        rcases h with h | h | h | h <;> exact absurd h (hhigh _ (by omega) (by omega))

/-- A byte below U+0080 is in the bytes of a text where its character is in the text. -/
theorem mem_encode_iff {c : Char} (hc : c.toNat < 0x80) {s : String} :
    UInt8.ofNat c.toNat ∈ encode s ↔ c ∈ s.toList := by
  have hbyte : (UInt8.ofNat c.toNat).toNat = c.toNat := toNat_byte (by omega)
  rw [encode, encodeChars, List.mem_flatMap]
  constructor
  · rintro ⟨d, hd, hmem⟩
    have heq := eq_of_mem_utf8EncodeChar hmem (by rwa [hbyte])
    rw [hbyte] at heq
    rwa [← Char.toNat_inj.1 heq]
  · intro hmem
    refine ⟨c, hmem, ?_⟩
    have hv : c.val.toNat = c.toNat := rfl
    simp only [String.utf8EncodeChar, hv]
    rw [if_pos (by omega)]
    exact List.mem_singleton_self _

end FramedCall.Text
