import FramedCall.Framing
import FramedCall.Payload
import FramedCall.Proofs.Json.Acceptance
import FramedCall.Proofs.Json.Position
import FramedCall.Proofs.Json.Reading
import FramedCall.Proofs.Json.Rereading
import FramedCall.Proofs.Json.Wire
import FramedCall.Proofs.Text.Utf8

/-!
# Payloads that were encoded

A payload is the text of a value with its unsafe integers as strings, and nothing else is changed in it
(`encode_changes_unsafe_only`). It has no byte below U+0020 (`le_toNat_of_mem_encode`). What is encoded
is decoded as the value with its unsafe integers as strings (`decode_encode`), unless
the value is too deep (`decode_encode_of_deep`), which nothing is that was decoded (`fits_of_decode`).
Any framing can carry it (`validate_encode`). The main statements are `decode_encode_of_legible`, for any
value, and `accepted_again_iff`, for a value that was decoded.
-/

namespace FramedCall.Payload

open Json (Value Number maxDepth isUnsafeLiteral isUnsafeLiteral_iff)

/-- The payload of a value is the text of the value as it goes on the wire. -/
theorem encode_eq (v : Value) : encode v = Text.encodeChars v.toWire.chars := by
  unfold encode
  rcases hv : v.hasUnsafe
  · simp [Value.toWire_of_not_hasUnsafe v hv]
  · rfl

/-- The payload of a value is its text as it goes on the wire, and on the wire it is the value itself if
it has no unsafe integer. Otherwise each number whose text is that of an integer outside ±(2⁵³ − 1), at
any length and in any place, becomes the string of that text. All else stays as it is and where it is:
other numbers, keys, strings, the order and the number of items. The test on the text of a number is
right for any spelling. No unsafe integer is left, so that going on the wire once more changes nothing. -/
theorem encode_changes_unsafe_only (v : Value) :
    let beyond (cs : List Char) : Prop :=
      ∃ i : Int, cs = (toString i).toList ∧ (i < -9007199254740991 ∨ 9007199254740991 < i)
    encode v = Text.encodeChars v.toWire.chars ∧
      (v.hasUnsafe = false ↔ v.toWire = v) ∧
      v.toWire = v.mapNumbers (fun n => (Value.number n).toWire) ∧
      (∀ path, v.toWire.at? path = (v.at? path).map Value.toWire) ∧
      (∀ n : Number, beyond n.chars → (Value.number n).toWire = .string n.text) ∧
      (∀ n : Number, ¬ beyond n.chars → (Value.number n).toWire = .number n) ∧
      (∀ cs n, Number.ofChars cs = .ok n → (isUnsafeLiteral cs = true ↔ beyond cs)) ∧
      v.toWire.hasUnsafe = false ∧ v.toWire.toWire = v.toWire := by
  intro beyond
  -- the test on the parts of a number is the one on its text
  have hbeyond (n : Number) : n.isUnsafe = true ↔ beyond n.chars := by
    rw [Number.isUnsafe_iff]
    apply exists_congr
    intro i
    rw [Number.text, ← String.toList_inj, String.toList_ofList]
  have hnumbers : v.toWire = v.mapNumbers (fun n => (Value.number n).toWire) := by
    rw [funext Value.toWire_number]
    exact v.toWire_eq_mapNumbers
  refine ⟨encode_eq v, Value.toWire_eq_self_iff.symm, hnumbers, v.at?_toWire_eq, ?_, ?_, ?_,
    v.hasUnsafe_toWire, v.toWire_toWire⟩
  · intro n hn
    rw [Value.toWire, if_pos ((hbeyond n).2 hn)]
  · intro n hn
    rw [Value.toWire, if_neg (fun hunsafe => hn ((hbeyond n).1 hunsafe))]
  · intro cs n hn
    exact isUnsafeLiteral_iff hn

/-- Integers at the bounds and beyond, zero with a minus sign and numbers in full, in an array under a
key that is itself the text of such an integer. -/
theorem encode_changes_unsafe_only_mixed :
    let kept : List Value := [.number (.ofInt 9007199254740991), .number (.ofInt (-9007199254740991)),
      .number ⟨true, 0, [], none⟩, .number ⟨false, 18446744073709551616, [0], none⟩]
    let v : Value := .object [("9007199254740992",
      .array (.number (.ofInt (-18446744073709551616)) :: .number (.ofInt 9007199254740992) :: kept))]
    let onWire : Value := .object [("9007199254740992",
      .array (.string "-18446744073709551616" :: .string "9007199254740992" :: kept))]
    encode v = Text.encodeChars onWire.chars ∧ onWire.hasUnsafe = false ∧ onWire.toWire = onWire ∧
      isUnsafeLiteral "-18446744073709551616".toList = true := by
  intro kept v onWire
  have hwire : v.toWire = onWire := by rfl
  obtain ⟨hencode, -, -, -, -, -, hliteral, hsafe, hagain⟩ := encode_changes_unsafe_only v
  rw [hwire] at hencode hsafe hagain
  have hnumber : Number.ofChars "-18446744073709551616".toList = .ok (.ofInt (-18446744073709551616)) := by
    rfl
  have hbeyond := (hliteral _ _ hnumber).2 ⟨-18446744073709551616, by rfl, by decide⟩
  exact ⟨hencode, hsafe, hagain, hbeyond⟩

/-- What is encoded is decoded as it goes on the wire. -/
theorem decode_encode {v : Value} (hv : v.legible = true) (hdepth : v.depth ≤ maxDepth) :
    decode (encode v) = .ok v.toWire := by
  have hchars : Value.ofChars? v.toWire.chars = some v.toWire :=
    Value.ofChars?_chars (Value.legible_toWire v hv) (by rwa [Value.depth_toWire])
  have hread : decode? (encode v) = some v.toWire := by
    rw [decode?, encode_eq, Text.decodeChars?_encodeChars]
    exact hchars
  rw [decode, hread]

/-- What is encoded as a text that is not read is not decoded. -/
theorem decode_encode_of_unread {v : Value} (h : Value.ofChars? v.toWire.chars = none) :
    decode (encode v) = .error (.decode (Text.decodeLossy (encode v))) := by
  have hread : decode? (encode v) = none := by
    rw [decode?, encode_eq, Text.decodeChars?_encodeChars]
    exact h
  rw [decode, hread]

/-- What is encoded from a value that is too deep is not decoded. -/
theorem decode_encode_of_deep {v : Value} (hv : v.legible = true) (hdeep : maxDepth < v.depth) :
    decode (encode v) = .error (.decode (Text.decodeLossy (encode v))) :=
  decode_encode_of_unread
    (Value.ofChars?_chars_of_deep (Value.legible_toWire v hv) (by rwa [Value.depth_toWire]))

/-- What is decoded is in order and not too deep. -/
theorem fits_of_decode {payload : Bytes} {v : Value} (h : decode payload = .ok v) : v.Fits maxDepth := by
  unfold decode at h
  split at h
  · next hread =>
    cases h
    obtain ⟨cs, -, hcs⟩ := Option.bind_eq_some_iff.1 hread
    exact Value.fits_of_ofChars? hcs
  · cases h

/-- A value at most 127 deep all of whose objects are read as objects, with any strings, keys and
numbers in it, comes back as it went on the wire. That is the value itself, at every position, but for
its integers beyond 2⁵³ − 1 in magnitude: in place of each stands the string of its sign and digits. -/
theorem decode_encode_of_legible {v : Value} (hv : v.legible = true) (hdepth : v.depth ≤ 127) :
    decode (encode v) = .ok v.toWire ∧ v.toWire = v.mapNumbers Number.onWire ∧
      ∀ path u, v.at? path = some u → v.toWire.at? path = some (u.mapNumbers Number.onWire) := by
  refine ⟨decode_encode hv hdepth, v.toWire_eq_mapNumbers, ?_⟩
  intro path u hu
  rw [v.toWire_eq_mapNumbers]
  exact Value.at?_mapNumbers hu

/-- A value with two unsafe integers, a zero with a minus sign, a number in full and escapes. -/
theorem decode_encode_of_legible_mixed :
    let v : Value := .object [("", .array [.number (.ofInt 9007199254740992),
        .number (.ofInt 9007199254740991), .number ⟨true, 0, [], none⟩]),
      ("\"\\\n\u0001😀", .object [("k", .number (.ofInt (-123456789012345678901234567890))),
        ("l", .number ⟨false, 1, [5, 0], some ⟨true, 0, [7]⟩⟩)])]
    v.legible = true ∧ v.depth ≤ 127 ∧
      decode (encode v) = .ok (.object [("", .array [.string "9007199254740992",
          .number (.ofInt 9007199254740991), .number ⟨true, 0, [], none⟩]),
        ("\"\\\n\u0001😀", .object [("k", .string "-123456789012345678901234567890"),
          ("l", .number ⟨false, 1, [5, 0], some ⟨true, 0, [7]⟩⟩)])]) := by
  intro v
  have hlegible : v.legible = true := by decide +kernel
  have hdepth : v.depth ≤ 127 := by decide +kernel
  refine ⟨hlegible, hdepth, ?_⟩
  rw [(decode_encode_of_legible hlegible hdepth).1]
  rfl

/-- A value as it goes on the wire has the same payload. -/
theorem encode_toWire (v : Value) : encode v.toWire = encode v := by
  rw [encode_eq, encode_eq, Value.toWire_toWire]

/-- The value of an accepted payload is encoded. If nowhere inside it an object has the key that marks the
long form of a number as its first key, that is as its smallest, then the new payload is accepted, and what
it is decoded as has that same payload again. Otherwise the new payload is refused as invalid JSON, with
its text. -/
theorem accepted_again_iff {payload : Bytes} {v : Value} (h : decode payload = .ok v) :
    let again := encode v
    let unmarked :=
      ∀ path es, v.at? path = some (.object es) → (Keyed.keys es).head? ≠ some Value.numberKey
    (unmarked → decode again = .ok v.toWire ∧ encode v.toWire = again) ∧
      (¬ unmarked → decode again = .error (.decode (Text.decodeLossy again))) := by
  intro again unmarked
  have hfits := fits_of_decode h
  have hunmarked : v.legible = true ↔ unmarked := Value.legible_iff_at? hfits.sorted
  constructor
  · intro hall
    exact ⟨decode_encode (hunmarked.2 hall) hfits.depth_le, encode_toWire v⟩
  · intro hsome
    have hreread : v.toWire.reread maxDepth = none := by
      by_contra hne
      obtain ⟨w, hw⟩ := Option.ne_none_iff_exists'.1 hne
      exact hsome (hunmarked.1 (Value.legible_of_reread_toWire v hfits.sorted hfits.no_longForm hw))
    exact decode_encode_of_unread ((Value.ofChars?_chars_eq _).trans hreread)

/-- An object with the marking key behind another key, and in front of that key as it was written. -/
theorem accepted_again_behind_another_key :
    let payload : Bytes := Text.encodeChars
      "\x7b\"a\": 9007199254740993, \"$serde_json::private::Number\": [], \"!\": null\x7d".toList
    let v : Value := .object
      [("!", .null), (Value.numberKey, .array []), ("a", .number (.ofInt 9007199254740993))]
    decode payload = .ok v ∧
      (∀ path es, v.at? path = some (.object es) → (Keyed.keys es).head? ≠ some Value.numberKey) ∧
      decode (encode v) =
        .ok (.object [("!", .null), (Value.numberKey, .array []), ("a", .string "9007199254740993")]) := by
  intro payload v
  have hdecode : decode payload = .ok v := by rfl
  have hunmarked := (Value.legible_iff_at? (v := v) (by decide)).1 (by decide)
  exact ⟨hdecode, hunmarked, ((accepted_again_iff hdecode).1 hunmarked).1⟩

/-- An object is accepted that is refused once its keys are in order. -/
theorem refused_again_in_order :
    let payload : Bytes := Text.encodeChars "\x7b\"a\":1,\"$serde_json::private::Number\":2\x7d".toList
    let v : Value := .object [(Value.numberKey, .number (.ofInt 2)), ("a", .number (.ofInt 1))]
    decode payload = .ok v ∧ decode (encode v) =
      .error (.decode "\x7b\"$serde_json::private::Number\":2,\"a\":1\x7d") := by
  intro payload v
  exact ⟨by rfl, by rfl⟩

/-- A payload has no byte below U+0020. -/
theorem le_toNat_of_mem_encode {v : Value} {b : UInt8} (h : b ∈ encode v) : 0x20 ≤ b.toNat := by
  by_contra hcontrol
  rw [encode_eq] at h
  obtain ⟨c, hc, hb⟩ := List.mem_flatMap.1 h
  have hlow := Text.eq_of_mem_utf8EncodeChar hb (by omega)
  have hhigh := Value.le_toNat_of_mem_chars v.toWire hc
  omega

/-- A payload has no line feed. -/
theorem terminator_not_mem_encode (v : Value) : Framing.terminator ∉ encode v := by
  intro h
  have hcontrol := le_toNat_of_mem_encode h
  exact absurd hcontrol (by decide)

/-- Any framing can carry a payload. -/
theorem validate_encode (f : Framing) (v : Value) : f.validate (encode v) = .ok () := by
  have hcarries : f.carries (encode v) = true := by
    cases f with
    | lengthPrefixed => rfl
    | newline => simpa [Framing.carries] using terminator_not_mem_encode v
  rw [Framing.validate, if_pos hcarries]

end FramedCall.Payload
