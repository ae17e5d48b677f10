import Mathlib.Data.List.Basic
import FramedCall.Json.Printer
import FramedCall.Json.SafeInteger
import FramedCall.Proofs.Json.Reading

/-!
# Values on the wire

`Value.toWire` changes numbers to strings and nothing else: keys, order and depth stay as they are
(`legible_toWire`, `depth_toWire`), a value without unsafe integers is left alone
(`toWire_eq_self_iff`), and changing a value twice changes no more (`toWire_toWire`). The text of
a value has no control characters (`le_toNat_of_mem_chars`).
-/

namespace FramedCall.Json

namespace Value

mutual

/-- A value without unsafe integers is left alone. -/
theorem toWire_of_not_hasUnsafe : (v : Value) → v.hasUnsafe = false → v.toWire = v
  | .null, _ | .boolean _, _ | .string _, _ => rfl
  | .number n, h => by
    have hn : n.isUnsafe = false := h
    simp [toWire, hn]
  | .array items, h => by rw [toWire, itemsToWire_of_not_unsafe items h]
  | .object entries, h => by rw [toWire, entriesToWire_of_not_unsafe entries h]

/-- Items without unsafe integers are left alone. -/
theorem itemsToWire_of_not_unsafe : (vs : List Value) → itemsHaveUnsafe vs = false → itemsToWire vs = vs
  | [], _ => rfl
  | v :: vs, h => by
    simp only [itemsHaveUnsafe, Bool.or_eq_false_iff] at h
    rw [itemsToWire, toWire_of_not_hasUnsafe v h.1, itemsToWire_of_not_unsafe vs h.2]

/-- So are the values of an object. -/
theorem entriesToWire_of_not_unsafe : (es : List (String × Value)) → entriesHaveUnsafe es = false →
    entriesToWire es = es
  | [], _ => rfl
  | (k, v) :: es, h => by
    simp only [entriesHaveUnsafe, Bool.or_eq_false_iff] at h
    rw [entriesToWire, toWire_of_not_hasUnsafe v h.1, entriesToWire_of_not_unsafe es h.2]

end

mutual

/-- Nothing on the wire is unsafe. -/
theorem hasUnsafe_toWire : (v : Value) → v.toWire.hasUnsafe = false
  | .null | .boolean _ | .string _ => rfl
  | .number n => by
    rcases hn : n.isUnsafe <;> simp [toWire, hn, hasUnsafe]
  | .array items => by
    rw [toWire, hasUnsafe]
    exact itemsHaveUnsafe_itemsToWire items
  | .object entries => by
    rw [toWire, hasUnsafe]
    exact entriesHaveUnsafe_entriesToWire entries

/-- None of the items on the wire is unsafe. -/
theorem itemsHaveUnsafe_itemsToWire : (vs : List Value) → itemsHaveUnsafe (itemsToWire vs) = false
  | [] => rfl
  | v :: vs => by
    rw [itemsToWire, itemsHaveUnsafe, hasUnsafe_toWire v, itemsHaveUnsafe_itemsToWire vs]
    rfl

/-- None of the values of an object on the wire is. -/
theorem entriesHaveUnsafe_entriesToWire : (es : List (String × Value)) →
    entriesHaveUnsafe (entriesToWire es) = false
  | [] => rfl
  | (k, v) :: es => by
    rw [entriesToWire, entriesHaveUnsafe, hasUnsafe_toWire v, entriesHaveUnsafe_entriesToWire es]
    rfl

end

/-- Changing a value twice changes no more. -/
theorem toWire_toWire (v : Value) : v.toWire.toWire = v.toWire :=
  toWire_of_not_hasUnsafe v.toWire v.hasUnsafe_toWire

/-- The values that are left alone are those in which nothing is unsafe. -/
theorem toWire_eq_self_iff {v : Value} : v.toWire = v ↔ v.hasUnsafe = false := by
  constructor
  · intro h
    rw [← h]
    exact v.hasUnsafe_toWire
  · exact toWire_of_not_hasUnsafe v

mutual

/-- The depth stays. -/
theorem depth_toWire : (v : Value) → v.toWire.depth = v.depth
  | .null | .boolean _ | .string _ => rfl
  | .number n => by
    rcases hn : n.isUnsafe <;> simp [toWire, hn, depth]
  | .array items => by rw [toWire, depth, depth, itemsDepth_itemsToWire items]
  | .object entries => by rw [toWire, depth, depth, entriesDepth_entriesToWire entries]

/-- Items stay as deep as they are. -/
theorem itemsDepth_itemsToWire : (vs : List Value) → itemsDepth (itemsToWire vs) = itemsDepth vs
  | [] => rfl
  | v :: vs => by rw [itemsToWire, itemsDepth, itemsDepth, depth_toWire v, itemsDepth_itemsToWire vs]

/-- So do the values of an object. -/
theorem entriesDepth_entriesToWire : (es : List (String × Value)) →
    entriesDepth (entriesToWire es) = entriesDepth es
  | [] => rfl
  | (k, v) :: es => by
    rw [entriesToWire, entriesDepth, entriesDepth, depth_toWire v, entriesDepth_entriesToWire es]

end

/-- Keys stay in order. -/
theorem ascends_entriesToWire (es : List (String × Value)) :
    Keyed.ascends (entriesToWire es) = Keyed.ascends es := by
  induction es with
  | nil => rfl
  | cons e es ih =>
    obtain ⟨k, v⟩ := e
    rcases es with _ | ⟨⟨l, w⟩, es⟩
    · rfl
    · simp only [entriesToWire, Keyed.ascends] at ih ⊢
      rw [ih]

/-- The first key stays the first. -/
theorem head?_entriesToWire (es : List (String × Value)) :
    (entriesToWire es).head?.map (·.1) = es.head?.map (·.1) := by
  rcases es with _ | ⟨⟨k, v⟩, es⟩ <;> rfl

mutual

/-- Objects stay such as they are read. -/
theorem legible_toWire : (v : Value) → v.legible = true → v.toWire.legible = true
  | .null, _ | .boolean _, _ | .string _, _ => rfl
  | .number n, _ => by
    rcases hn : n.isUnsafe <;> simp [toWire, hn, legible]
  | .array items, h => by
    rw [toWire, legible]
    exact itemsLegible_itemsToWire items h
  | .object entries, h => by
    simp only [legible, Bool.and_eq_true] at h
    rw [toWire, legible, ascends_entriesToWire, head?_entriesToWire,
      entriesLegible_entriesToWire entries h.2, h.1.1, h.1.2]
    rfl

/-- Items stay such as they are read. -/
theorem itemsLegible_itemsToWire : (vs : List Value) → itemsLegible vs = true →
    itemsLegible (itemsToWire vs) = true
  | [], _ => rfl
  | v :: vs, h => by
    simp only [itemsLegible, Bool.and_eq_true] at h
    rw [itemsToWire, itemsLegible, legible_toWire v h.1, itemsLegible_itemsToWire vs h.2]
    rfl

/-- So do the values of an object. -/
theorem entriesLegible_entriesToWire : (es : List (String × Value)) → entriesLegible es = true →
    entriesLegible (entriesToWire es) = true
  | [], _ => rfl
  | (k, v) :: es, h => by
    simp only [entriesLegible, Bool.and_eq_true] at h
    rw [entriesToWire, entriesLegible, legible_toWire v h.1, entriesLegible_entriesToWire es h.2]
    rfl

end

/-! ### Characters of a text -/

/-- No digit is a control character, in base 16 either. -/
theorem le_toNat_digitChar : ∀ n < 16, 0x20 ≤ (Nat.digitChar n).toNat := by
  decide

/-- The decimal digits of a number have no control characters. -/
theorem le_toNat_of_mem_toDigits {c : Char} {n : Nat} (h : c ∈ Nat.toDigits 10 n) : 0x20 ≤ c.toNat := by
  induction n using Nat.strongRecOn with
  | ind n ih =>
    by_cases hn : n < 10
    · rw [Nat.toDigits_of_lt_base hn, List.mem_singleton] at h
      rw [h]
      exact le_toNat_digitChar n (by omega)
    · rw [Nat.toDigits_of_base_le (by decide) (by omega), List.mem_append, List.mem_singleton] at h
      rcases h with h | h
      · exact ih (n / 10) (by omega) h
      · rw [h]
        exact le_toNat_digitChar _ (by omega)

/-- Neither have digits that are kept as such. -/
theorem le_toNat_of_mem_digits {c : Char} {ds : List Decimal.Digit} (h : c ∈ Decimal.chars ds) :
    0x20 ≤ c.toNat := by
  obtain ⟨d, -, rfl⟩ := List.mem_map.1 h
  exact le_toNat_digitChar d.val (by omega)

/-- The text of a number has no control characters: there are digits, signs, a point and a mark. -/
theorem le_toNat_of_mem_number {c : Char} {n : Number} (h : c ∈ n.chars) : 0x20 ≤ c.toNat := by
  simp only [Number.chars, List.mem_append] at h
  rcases h with ((h | h) | h) | h
  · split at h
    · obtain rfl := List.mem_singleton.1 h
      decide
    · cases h
  · exact le_toNat_of_mem_toDigits h
  · split at h
    · cases h
    · rcases List.mem_cons.1 h with rfl | h
      · decide
      · exact le_toNat_of_mem_digits h
  · split at h
    · cases h
    · next e =>
      simp only [Exponent.chars, List.mem_cons (a := c)] at h
      rcases h with rfl | h | h
      · decide
      · rw [h]
        split <;> decide
      · exact le_toNat_of_mem_digits h

/-- A character that is escaped or needs no escape is no control character. -/
theorem le_toNat_of_mem_escapeChar {c d : Char} (h : c ∈ escapeChar d) : 0x20 ≤ c.toNat := by
  unfold escapeChar at h
  split at h
  · next l hl =>
    unfold escapeLetter? at hl
    simp only [List.mem_cons, List.not_mem_nil, or_false] at h
    split at hl <;> cases hl <;> rcases h with rfl | rfl <;> decide
  · split at h
    · next hcontrol =>
      simp only [List.mem_cons, List.not_mem_nil, or_false] at h
      rcases h with rfl | rfl | rfl | rfl | rfl | rfl
      · decide
      · decide
      · decide
      · decide
      · exact le_toNat_digitChar _ (by omega)
      · exact le_toNat_digitChar _ (by omega)
    · next hshown =>
      rw [List.mem_singleton.1 h]
      omega

/-- The text of a string has no control characters, as they are escaped. -/
theorem le_toNat_of_mem_stringChars {c : Char} {s : String} (h : c ∈ stringChars s) :
    0x20 ≤ c.toNat := by
  simp only [stringChars, List.cons_append, List.mem_cons, List.mem_append, List.mem_flatMap,
    List.not_mem_nil, or_false] at h
  rcases h with rfl | ⟨d, -, hd⟩ | rfl
  · decide
  · exact le_toNat_of_mem_escapeChar hd
  · decide

mutual

/-- The text of a value has no control characters. -/
theorem le_toNat_of_mem_chars : (v : Value) → ∀ {c : Char}, c ∈ v.chars → 0x20 ≤ c.toNat
  | .null, c, h | .boolean true, c, h | .boolean false, c, h => by
    simp only [chars, List.mem_cons, List.not_mem_nil, or_false] at h
    rcases h with rfl | rfl | rfl | rfl | rfl <;> decide
  | .number n, c, h => le_toNat_of_mem_number h
  | .string s, c, h => le_toNat_of_mem_stringChars h
  | .array [], c, h => by
    simp only [chars, itemsChars, List.mem_cons, List.not_mem_nil, or_false] at h
    rcases h with rfl | rfl <;> decide
  | .array (v :: vs), c, h => by
    simp only [chars, itemsChars, List.mem_cons, List.mem_append] at h
    rcases h with rfl | h | h
    · decide
    · exact le_toNat_of_mem_chars v h
    · exact le_toNat_of_mem_moreItemsChars vs h
  | .object [], c, h => by
    simp only [chars, entriesChars, List.mem_cons, List.not_mem_nil, or_false] at h
    rcases h with rfl | rfl <;> decide
  | .object ((k, v) :: es), c, h => by
    simp only [chars, entriesChars, List.mem_cons, List.mem_append] at h
    rcases h with rfl | h | rfl | h | h
    · decide
    · exact le_toNat_of_mem_stringChars h
    · decide
    · exact le_toNat_of_mem_chars v h
    · exact le_toNat_of_mem_moreEntriesChars es h

/-- Further items have none, nor have the commas in front of them. -/
theorem le_toNat_of_mem_moreItemsChars : (vs : List Value) → ∀ {c : Char}, c ∈ moreItemsChars vs →
    0x20 ≤ c.toNat
  | [], c, h => by
    obtain rfl := List.mem_singleton.1 h
    decide
  | v :: vs, c, h => by
    simp only [moreItemsChars, List.mem_cons, List.mem_append] at h
    rcases h with rfl | h | h
    · decide
    · exact le_toNat_of_mem_chars v h
    · exact le_toNat_of_mem_moreItemsChars vs h

/-- Further entries have none, nor have the commas and colons. -/
theorem le_toNat_of_mem_moreEntriesChars : (es : List (String × Value)) → ∀ {c : Char},
    c ∈ moreEntriesChars es → 0x20 ≤ c.toNat
  | [], c, h => by
    obtain rfl := List.mem_singleton.1 h
    decide
  | (k, v) :: es, c, h => by
    simp only [moreEntriesChars, List.mem_cons, List.mem_append] at h
    rcases h with rfl | h | rfl | h | h
    · decide
    · exact le_toNat_of_mem_stringChars h
    · decide
    · exact le_toNat_of_mem_chars v h
    · exact le_toNat_of_mem_moreEntriesChars es h

end

end Value
end FramedCall.Json
