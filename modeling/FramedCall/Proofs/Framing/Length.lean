import Mathlib.Data.Nat.Digits.Lemmas
import FramedCall.Framing.Length

/-!
# Lengths as decimal numbers

The digits of a length are a number in base 10 (`value_eq_ofDigits`), and without the zeros in front they
are as many as that number has (`digits_value`). So the two checks of a length compare the same number with
two bounds: digits that may not be complete are refused from 10²⁰ on (`check_eq_ok_iff_lt`), complete ones
from 2⁶⁴ on (`parse_eq_ok_iff`). More digits never make a number smaller, and bytes can still become a
length exactly if they are digits whose number is one (`exists_parse_append_iff`). What is written for a
length is read as it (`parse_digits`). The main statement is `reads_decimal_numbers`.
-/

namespace FramedCall.Framing.Length

/-- Bytes that spell a length: decimal digits, at least one, zeros in front allowed. -/
structure Spells (ds : Bytes) (n : Nat) : Prop where
  /-- There is a digit. -/
  ne_nil : ds ≠ []
  /-- There is nothing but digits. -/
  digits : ∀ b ∈ ds, isDigit b = true
  /-- Their value is the length. -/
  value_eq : value ds = n

/-- The digits are the bytes from 48 to 57. -/
theorem isDigit_iff {b : UInt8} : isDigit b = true ↔ 48 ≤ b.toNat ∧ b.toNat ≤ 57 := by
  simp [isDigit, UInt8.le_iff_toNat_le]

/-! ### The number -/

/-- What the digits of a length stand for one by one, the last digit first. -/
def places (ds : Bytes) : List Nat :=
  (ds.map fun b => b.toNat - 48).reverse

/-- One more digit behind the others. -/
theorem value_concat (ds : Bytes) (b : UInt8) : value (ds ++ [b]) = 10 * value ds + (b.toNat - 48) := by
  rw [value, List.foldl_append]
  rfl

/-- The number that digits stand for is the one with these digits in base 10. -/
theorem value_eq_ofDigits (ds : Bytes) : value ds = Nat.ofDigits 10 (places ds) := by
  induction ds using List.reverseRecOn with
  | nil => rfl
  | append_singleton ds b ih =>
    have hplaces : places (ds ++ [b]) = (b.toNat - 48) :: places ds := by
      simp [places]
    rw [value_concat, hplaces, Nat.ofDigits_cons, ih, Nat.add_comm]

/-- Digits behind others never make the number smaller. -/
theorem value_le_append (ds more : Bytes) : value ds ≤ value (ds ++ more) := by
  induction more using List.reverseRecOn with
  | nil => rw [List.append_nil]
  | append_singleton more b ih =>
    rw [← List.append_assoc, value_concat]
    omega

/-- Zeros in front do not count. -/
theorem value_dropWhile_zero (ds : Bytes) : value (ds.dropWhile (· = 48)) = value ds := by
  induction ds with
  | nil => rfl
  | cons b ds ih =>
    by_cases hzero : b = 48
    · rw [List.dropWhile_cons_of_pos (by simpa using hzero), ih, hzero]
      rfl
    · rw [List.dropWhile_cons_of_neg (by simpa using hzero)]

/-- Without the zeros in front, digits are the digits of their number. -/
theorem digits_value {ds : Bytes} (hdigits : ∀ b ∈ ds, isDigit b = true) :
    Nat.digits 10 (value ds) = places (ds.dropWhile (· = 48)) := by
  have hleft : ∀ b ∈ ds.dropWhile (· = 48), 48 ≤ b.toNat ∧ b.toNat ≤ 57 := by
    intro b hb
    exact isDigit_iff.1 (hdigits b ((List.dropWhile_suffix _).subset hb))
  rw [← value_dropWhile_zero, value_eq_ofDigits]
  apply Nat.digits_ofDigits 10 (by decide)
  · intro d hd
    rw [places, List.mem_reverse, List.mem_map] at hd
    obtain ⟨b, hb, rfl⟩ := hd
    have hrange := hleft b hb
    omega
  · -- the last of the places is the first digit, which is not zero any more
    intro hne
    have hcons : ds.dropWhile (· = 48) ≠ [] := by
      intro hnil
      exact hne (by rw [hnil]; rfl)
    have hfirst : (ds.dropWhile (· = 48)).head hcons ≠ 48 := by
      simpa using List.head_dropWhile_not (fun b : UInt8 => decide (b = 48)) hcons
    have hvalue : ((ds.dropWhile (· = 48)).head hcons).toNat ≠ 48 :=
      fun h => hfirst (UInt8.toNat_inj.1 h)
    have hrange := hleft _ (List.head_mem hcons)
    have hlast : (places (ds.dropWhile (· = 48))).getLast hne =
        ((ds.dropWhile (· = 48)).head hcons).toNat - 48 := by
      simp only [places, List.getLast_reverse, List.head_map]
    omega

/-- As many digits count as the number has. -/
theorem length_dropWhile_zero_le_iff {ds : Bytes} (hdigits : ∀ b ∈ ds, isDigit b = true) (k : Nat) :
    (ds.dropWhile (· = 48)).length ≤ k ↔ value ds < 10 ^ k := by
  rw [← Nat.digits_length_le_iff (by decide), digits_value hdigits, places, List.length_reverse,
    List.length_map]

/-! ### Lengths that may not be complete -/

/-- What an incomplete length is accepted for. -/
theorem check_eq_ok_iff {ds : Bytes} : check ds = .ok () ↔
    (∀ b ∈ ds, isDigit b = true) ∧ (ds.dropWhile (· = 48)).length ≤ maxLengthDigits := by
  rw [check]
  rcases hf : ds.find? (!isDigit ·) with _ | b
  · have hdigits : ∀ b ∈ ds, isDigit b = true := by simpa using hf
    by_cases hlong : maxLengthDigits < (ds.dropWhile (· = 48)).length
    · simp only [hlong, if_true]
      refine iff_of_false (by simp) ?_
      rintro ⟨-, hle⟩
      omega
    · simp only [hlong, if_false]
      exact iff_of_true trivial ⟨hdigits, Nat.le_of_not_lt hlong⟩
  · have hb : isDigit b = false := by simpa using List.find?_some hf
    refine iff_of_false (by simp) ?_
    rintro ⟨hdigits, -⟩
    rw [hdigits b (List.mem_of_find?_eq_some hf)] at hb
    cases hb

/-- Digits that may not be complete are accepted up to 20 that count. -/
theorem check_eq_ok_iff_lt {ds : Bytes} :
    check ds = .ok () ↔ (∀ b ∈ ds, isDigit b = true) ∧ value ds < 10 ^ 20 := by
  rw [check_eq_ok_iff]
  exact and_congr_right fun hdigits => length_dropWhile_zero_le_iff hdigits 20

/-- A length that is refused stays refused, whatever follows. -/
theorem check_append_error {ds : Bytes} {v : Violation} (h : check ds = .error v) (more : Bytes) :
    ∃ v', check (ds ++ more) = .error v' := by
  rcases hmore : check (ds ++ more) with v' | ⟨⟩
  · exact ⟨v', rfl⟩
  · obtain ⟨hdigits, hlt⟩ := check_eq_ok_iff_lt.1 hmore
    have hfront : check ds = .ok () :=
      check_eq_ok_iff_lt.2 ⟨fun b hb => hdigits b (List.mem_append_left more hb),
        Nat.lt_of_le_of_lt (value_le_append ds more) hlt⟩
    rw [hfront] at h
    cases h

/-! ### Complete lengths -/

/-- What is read as a length spells it. -/
theorem spells_of_parse {ds : Bytes} {n : Nat} (h : parse ds = .ok n) : Spells ds n := by
  rw [parse] at h
  rcases hc : check ds with v | ⟨⟩
  · rw [hc] at h
    cases h
  · rw [hc] at h
    simp only [bind, Except.bind] at h
    split at h
    · cases h
    · next hempty =>
      split at h
      · cases h
      · refine ⟨?_, (check_eq_ok_iff.1 hc).1, Except.ok.inj h⟩
        rintro rfl
        exact hempty rfl

/-- Complete digits, at least one, are accepted up to 64 bits. -/
theorem parse_eq_ok_iff {ds : Bytes} {n : Nat} : parse ds = .ok n ↔ Spells ds n ∧ n < 2 ^ 64 := by
  constructor
  · intro h
    have hspells := spells_of_parse h
    refine ⟨hspells, ?_⟩
    by_contra hlarge
    have hbeyond : maxLength < value ds := by
      rw [hspells.value_eq, maxLength]
      omega
    rw [parse] at h
    rcases hcheck : check ds with v | ⟨⟩
    · rw [hcheck] at h
      cases h
    · rw [hcheck] at h
      simp only [bind, Except.bind, if_pos hbeyond] at h
      split at h
      · cases h
      · cases h
  · rintro ⟨⟨hne, hdigits, rfl⟩, hlt⟩
    -- what has 64 bits has no more than 20 digits, so that the first check lets it pass
    have hcheck : check ds = .ok () :=
      check_eq_ok_iff_lt.2 ⟨hdigits, Nat.lt_trans hlt (by decide)⟩
    have hempty : ds.isEmpty = false := by simpa using hne
    have hfits : ¬ maxLength < value ds := by
      rw [maxLength]
      omega
    rw [parse, hcheck]
    simp only [bind, Except.bind, hempty, Bool.false_eq_true, if_false, if_neg hfits]

/-- Bytes can still become a length exactly if they are digits of a number that is one. -/
theorem exists_parse_append_iff {ds : Bytes} :
    (∃ more n, parse (ds ++ more) = .ok n) ↔ (∀ b ∈ ds, isDigit b = true) ∧ value ds < 2 ^ 64 := by
  constructor
  · rintro ⟨more, n, h⟩
    obtain ⟨⟨-, hdigits, rfl⟩, hlt⟩ := parse_eq_ok_iff.1 h
    refine ⟨fun b hb => hdigits b (List.mem_append_left more hb), ?_⟩
    exact Nat.lt_of_le_of_lt (value_le_append ds more) hlt
  · rintro ⟨hdigits, hlt⟩
    -- without any digit yet, one has to follow
    rcases ds with _ | ⟨b, ds⟩
    · exact ⟨[48], 0, by decide⟩
    · refine ⟨[], value (b :: ds), ?_⟩
      rw [List.append_nil]
      exact parse_eq_ok_iff.2 ⟨⟨List.cons_ne_nil b ds, hdigits, rfl⟩, hlt⟩

/-- Digits that are refused while the separator is missing are refused when it is there. -/
theorem parse_append_error {ds : Bytes} {v : Violation} (h : check ds = .error v) (more : Bytes) :
    ∃ v', parse (ds ++ more) = .error v' := by
  rcases hparse : parse (ds ++ more) with v' | n
  · exact ⟨v', rfl⟩
  · obtain ⟨hdigits, hlt⟩ := exists_parse_append_iff.1 ⟨more, n, hparse⟩
    rw [check_eq_ok_iff_lt.2 ⟨hdigits, Nat.lt_trans hlt (by decide)⟩] at h
    cases h

/-! ### Lengths that were written -/

/-- The bytes of the digits of a length. -/
def digits (n : Nat) : Bytes :=
  Text.encodeChars (Nat.toDigits 10 n)

/-- Each digit is one byte, and the ten follow one another from 48 on. -/
theorem utf8EncodeChar_digitChar : ∀ d < 10, String.utf8EncodeChar (Nat.digitChar d) = [.ofNat (48 + d)] := by
  decide

/-- These ten bytes are digits. -/
theorem isDigit_byte : ∀ d < 10, isDigit (.ofNat (48 + d)) = true := by
  decide

/-- A number below ten is written as one digit. -/
theorem digits_of_lt {n : Nat} (h : n < 10) : digits n = [.ofNat (48 + n)] := by
  rw [digits, Nat.toDigits_of_lt_base h, Text.encodeChars_cons, utf8EncodeChar_digitChar n h]
  rfl

/-- The last digit of a number from ten on stands behind those of its tenth part. -/
theorem digits_of_le {n : Nat} (h : 10 ≤ n) : digits n = digits (n / 10) ++ [.ofNat (48 + n % 10)] := by
  rw [digits, Nat.toDigits_of_base_le (by decide) h, Text.encodeChars_append, Text.encodeChars_cons,
    utf8EncodeChar_digitChar _ (Nat.mod_lt n (by decide))]
  rfl

/-- A single digit spells its number. -/
theorem spells_digit {d : Nat} (h : d < 10) : Spells [.ofNat (48 + d)] d := by
  have hvalue : ∀ d < 10, value [.ofNat (48 + d)] = d := by decide
  refine ⟨List.cons_ne_nil _ _, ?_, hvalue d h⟩
  intro b hb
  rw [List.mem_singleton.1 hb]
  exact isDigit_byte d h

/-- One more digit behind a length spells ten times the number and the digit. -/
theorem Spells.concat {ds : Bytes} {n d : Nat} (hds : Spells ds n) (h : d < 10) :
    Spells (ds ++ [.ofNat (48 + d)]) (10 * n + d) := by
  have hplace : ∀ d < 10, (UInt8.ofNat (48 + d)).toNat - 48 = d := by decide
  refine ⟨List.append_ne_nil_of_left_ne_nil hds.ne_nil _, ?_, ?_⟩
  · intro b hb
    rcases List.mem_append.1 hb with hb | hb
    · exact hds.digits b hb
    · exact (spells_digit h).digits b hb
  · rw [value_concat, hds.value_eq, hplace d h]

/-- The digits of a length spell it. -/
theorem spells_digits (n : Nat) : Spells (digits n) n := by
  induction n using Nat.strongRecOn with
  | ind n ih =>
    by_cases hn : n < 10
    · rw [digits_of_lt hn]
      exact spells_digit hn
    · have hfront := ih (n / 10) (by omega)
      have hall := hfront.concat (Nat.mod_lt n (by decide : 10 > 0))
      rwa [← digits_of_le (by omega), Nat.div_add_mod] at hall

/-- The digits of a length are read as that length. -/
theorem parse_digits {n : Nat} (h : n ≤ maxLength) : parse (digits n) = .ok n :=
  parse_eq_ok_iff.2 ⟨spells_digits n, Nat.lt_succ_of_le h⟩

/-- Bytes are read as a length exactly if they are decimal digits, at least one, of a number of 64 bits,
with any zeros in front; they are read as that number. What is written in front of a payload of such a
length, up to the bar, is read as it. Bytes that are refused before the bar has come are refused however
they go on. -/
theorem reads_decimal_numbers :
    (∀ (p : Bytes) (n : Nat), parse p = .ok n ↔
      p ≠ [] ∧ (∀ b ∈ p, 48 ≤ b.toNat ∧ b.toNat ≤ 57) ∧
        Nat.ofDigits 10 (p.map fun b => b.toNat - 48).reverse = n ∧ n < 2 ^ 64) ∧
    (∀ n < 2 ^ 64, ∃ ds, head .lengthPrefixed n = ds ++ [separator] ∧ parse ds = .ok n) ∧
    ∀ (p : Bytes) (v : Violation), check p = .error v →
      ∀ more, ∃ v', parse (p ++ more) = .error v' := by
  refine ⟨?_, ?_, ?_⟩
  · intro p n
    have hvalue : Nat.ofDigits 10 (p.map fun b => b.toNat - 48).reverse = value p :=
      (value_eq_ofDigits p).symm
    simp only [← isDigit_iff, hvalue]
    rw [parse_eq_ok_iff]
    constructor
    · rintro ⟨⟨hne, hdigits, hn⟩, hlt⟩
      exact ⟨hne, hdigits, hn, hlt⟩
    · rintro ⟨hne, hdigits, hn, hlt⟩
      exact ⟨⟨hne, hdigits, hn⟩, hlt⟩
  · intro n hn
    exact ⟨digits n, rfl, parse_digits (Nat.le_of_lt_succ hn)⟩
  · intro p v hrefused more
    exact parse_append_error hrefused more

/-- The largest length behind two zeros is read, and the next number is not, although it has no more digits
and is accepted while the bar is missing. The largest length is read from what is written for it, and 21
digits `1` are refused at once. -/
theorem reads_decimal_numbers_at_limit :
    let largest : Bytes :=
      [49, 56, 52, 52, 54, 55, 52, 52, 48, 55, 51, 55, 48, 57, 53, 53, 49, 54, 49, 53]
    let beyond : Bytes :=
      [49, 56, 52, 52, 54, 55, 52, 52, 48, 55, 51, 55, 48, 57, 53, 53, 49, 54, 49, 54]
    parse (48 :: 48 :: largest) = .ok 18446744073709551615 ∧
      (∀ n, parse beyond ≠ .ok n) ∧ check beyond = .ok () ∧
      (∃ ds, head .lengthPrefixed 18446744073709551615 = ds ++ [separator] ∧
        parse ds = .ok 18446744073709551615) ∧
      check (List.replicate 21 49) = .error .tooManyDigits ∧
      ∀ more, ∃ v, parse (List.replicate 21 49 ++ more) = .error v := by
  intro largest beyond
  refine ⟨?_, ?_, by decide, ?_, by decide, ?_⟩
  · exact (reads_decimal_numbers.1 _ _).2 (by decide +kernel)
  · intro n h
    obtain ⟨-, -, rfl, hlt⟩ := (reads_decimal_numbers.1 beyond n).1 h
    exact absurd hlt (by decide +kernel)
  · exact reads_decimal_numbers.2.1 18446744073709551615 (by decide)
  · exact reads_decimal_numbers.2.2 (List.replicate 21 49) .tooManyDigits (by decide)

end FramedCall.Framing.Length
