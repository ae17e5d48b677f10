import Mathlib.Data.List.Basic
import FramedCall.Json.SafeInteger
import FramedCall.Proofs.Json.Number
import FramedCall.Proofs.Text.Numeral

/-!
# Integers that are not safe

The text of a number says by itself whether the number is an integer beyond ±(2⁵³ − 1)
(`Number.isUnsafe_eq`), at any length and on both sides of the bounds of the machine integers by way of
which it is looked at: the unsafe numbers are those whose text is that of such an integer
(`Number.isUnsafe_iff`). That is so of any text that is a number, in whatever way its exponent is spelled
(`isUnsafeLiteral_iff`).
-/

namespace FramedCall.Json

open Decimal (Digit)
open Text.Numeral (digit?)

/-! ### Texts of integers -/

namespace Number

/-- An integer is its sign and its digits. -/
theorem chars_of_isInteger {n : Number} (h : n.isInteger = true) :
    n.chars = (if n.negative then ['-'] else []) ++ Nat.toDigits 10 n.whole := by
  simp only [isInteger, Bool.and_eq_true, decide_eq_true_eq] at h
  simp [chars, h.1, h.2]

/-- Every other number has a point or an exponent mark. -/
theorem exists_mem_chars_of_not_isInteger {n : Number} (h : n.isInteger = false) :
    ∃ c ∈ n.chars, c = '.' ∨ c = 'e' := by
  rcases hf : n.fraction with _ | ⟨d, ds⟩
  · rcases he : n.exponent with _ | e
    · simp [isInteger, hf, he] at h
    · exact ⟨'e', by simp [chars, he, Exponent.chars], .inr rfl⟩
  · exact ⟨'.', by simp [chars, hf], .inl rfl⟩

/-- No digit of a number is a point or an exponent mark. -/
theorem not_mem_toDigits {c : Char} (hc : c ∈ ['.', 'e', 'E']) (n : Nat) : c ∉ Nat.toDigits 10 n := by
  have hdigit : ∀ d : Digit, d.char ∉ ['.', 'e', 'E'] := by decide
  obtain ⟨d, ds, hds, -⟩ := Scan.exists_whole n
  rw [hds, Decimal.chars]
  intro hmem
  obtain ⟨d', -, rfl⟩ := List.mem_map.1 hmem
  exact hdigit d' hc

end Number

/-! ### Literals -/

/-- A point and the exponent marks are neither digits nor signs. -/
theorem digit?_mark {c : Char} (hc : c ∈ ['.', 'e', 'E']) : digit? 10 c = none ∧ c ≠ '+' ∧ c ≠ '-' := by
  simp only [List.mem_cons, List.not_mem_nil, or_false] at hc
  rcases hc with rfl | rfl | rfl <;> decide

/-- A text with a point or an exponent mark is that of no unsafe integer. -/
theorem isUnsafeLiteral_of_mem {c : Char} (hc : c ∈ ['.', 'e', 'E']) {cs : List Char} (h : c ∈ cs) :
    isUnsafeLiteral cs = false := by
  obtain ⟨hdigit, hplus, hminus⟩ := digit?_mark hc
  obtain ⟨f, hf⟩ := Text.Numeral.readChars_eq_error_of_mem hdigit hplus h 18446744073709551615
  have hunsigned : unsigned64? cs = none := by rw [unsigned64?, hf]; rfl
  have hsigned : signed64? cs = none := Text.Numeral.readSigned?_eq_none_of_mem hdigit hplus hminus h _ _
  have hany : cs.any (fun c => c = '.' || c = 'e' || c = 'E') = true := by
    rw [List.any_eq_true]
    exact ⟨c, h, by simpa [or_assoc] using hc⟩
  rw [isUnsafeLiteral, hunsigned, hsigned]
  simp [hany]

/-- Digits and a sign have neither a point nor an exponent mark. -/
theorem any_mark_integer (negative : Bool) (n : Nat) :
    ((if negative then ['-'] else []) ++ Nat.toDigits 10 n).any
      (fun c => c = '.' || c = 'e' || c = 'E') = false := by
  rw [List.any_eq_false]
  intro c hc hmark
  have hmem : c ∈ ['.', 'e', 'E'] := by simpa [or_assoc] using hmark
  rcases List.mem_append.1 hc with hc | hc
  · cases negative with
    | false => cases hc
    | true =>
      rw [List.mem_singleton.1 hc] at hmem
      exact absurd hmem (by decide)
  · exact Number.not_mem_toDigits hmem n hc

/-- A natural number is unsafe if it is too large, within 64 bits or beyond. -/
theorem isUnsafeLiteral_toDigits (n : Nat) :
    isUnsafeLiteral (Nat.toDigits 10 n) = decide (largestSafe < n) := by
  have hunsigned : unsigned64? (Nat.toDigits 10 n) = if n ≤ 18446744073709551615 then some n else none := by
    rw [unsigned64?, Text.Numeral.readChars_toDigits]
    split <;> rfl
  by_cases hn : n ≤ 18446744073709551615
  · rw [isUnsafeLiteral, hunsigned, if_pos hn]
  · have hsigned : signed64? (Nat.toDigits 10 n) = none := by
      rw [signed64?, Text.Numeral.readSigned?_toDigits, if_neg (by omega)]
    have hmark := any_mark_integer false n
    simp only [Bool.false_eq_true, if_false, List.nil_append] at hmark
    rw [isUnsafeLiteral, hunsigned, if_neg hn, hsigned]
    simp only [hmark, Bool.not_false, largestSafe]
    exact (decide_eq_true (by omega)).symm

/-- An integer with a minus sign is unsafe if it is too large in magnitude, within 64 bits or beyond. -/
theorem isUnsafeLiteral_minus_toDigits (n : Nat) :
    isUnsafeLiteral ('-' :: Nat.toDigits 10 n) = decide (largestSafe < n) := by
  have hunsigned : unsigned64? ('-' :: Nat.toDigits 10 n) = none := by
    have hdigit : digit? 10 '-' = none := by decide
    obtain ⟨f, hf⟩ := Text.Numeral.readChars_eq_error_of_mem hdigit (by decide)
      (List.mem_cons_self (l := Nat.toDigits 10 n)) 18446744073709551615
    rw [unsigned64?, hf]
    rfl
  have hsigned : signed64? ('-' :: Nat.toDigits 10 n) =
      if n ≤ 9223372036854775808 then some (-(n : Int)) else none :=
    Text.Numeral.readSigned?_minus_toDigits _ _ n
  by_cases hn : n ≤ 9223372036854775808
  · rw [isUnsafeLiteral, hunsigned, hsigned, if_pos hn]
    simp only [Int.natAbs_neg, Int.natAbs_natCast]
  · have hmark := any_mark_integer true n
    simp only [if_true, List.singleton_append] at hmark
    rw [isUnsafeLiteral, hunsigned, hsigned, if_neg hn]
    simp only [hmark, Bool.not_false, largestSafe]
    exact (decide_eq_true (by omega)).symm

namespace Number

/-- A number is unsafe if it is written as an integer that is too large in magnitude. -/
theorem isUnsafe_eq (n : Number) : n.isUnsafe = (n.isInteger && decide (largestSafe < n.whole)) := by
  rw [isUnsafe]
  rcases hn : n.isInteger
  · obtain ⟨c, hc, hmark⟩ := exists_mem_chars_of_not_isInteger hn
    rw [Bool.false_and]
    rcases hmark with rfl | rfl
    · exact isUnsafeLiteral_of_mem (by decide) hc
    · exact isUnsafeLiteral_of_mem (by decide) hc
  · rw [chars_of_isInteger hn, Bool.true_and]
    rcases n.negative
    · exact isUnsafeLiteral_toDigits n.whole
    · exact isUnsafeLiteral_minus_toDigits n.whole

/-! ### Integers and their texts -/

/-- An integer is written with its sign and its digits. -/
theorem text_ofInt (i : Int) : (ofInt i).text = toString i := by
  rcases i with m | m
  · simp [text, chars, ofInt]
    rfl
  · simp [text, chars, ofInt]
    rfl

/-- The number of an integer stands for that integer. -/
theorem toInt?_ofInt (i : Int) : (ofInt i).toInt? = some i := by
  have hwhole : (ofInt i).signedWhole = i := by
    simp only [signedWhole, ofInt, decide_eq_true_eq]
    split <;> omega
  rw [toInt?, hwhole]
  rfl

/-- Apart from a zero with a minus sign, a number that is written as an integer is that integer. -/
theorem eq_ofInt_of_toInt? {n : Number} {i : Int} (h : n.toInt? = some i) (hi : i ≠ 0) : n = ofInt i := by
  obtain ⟨negative, whole, fraction, exponent⟩ := n
  simp only [toInt?, isInteger, signedWhole] at h
  split at h
  · next hinteger =>
    simp only [Bool.and_eq_true, decide_eq_true_eq] at hinteger
    obtain ⟨rfl, rfl⟩ := hinteger
    cases h
    cases negative
    · simp [ofInt]
    · simp only [ofInt, if_true] at hi ⊢
      simp
      omega
  · cases h

/-- What a number is on the wire: an integer beyond the safe ones is the string of its digits, and
every other number is left alone. -/
def onWire (n : Number) : Value :=
  match n.toInt? with
  | some i => if largestSafe < i.natAbs then .string (toString i) else .number n
  | none => .number n

/-- An unsafe integer goes on the wire as a string. -/
theorem onWire_of_beyond {n : Number} {i : Int} (h : n.toInt? = some i)
    (hbeyond : largestSafe < i.natAbs) : n.onWire = .string (toString i) := by
  rw [onWire, h]
  exact if_pos hbeyond

/-- A number that is no integer goes on the wire as it is. -/
theorem onWire_of_not_isInteger {n : Number} (h : n.isInteger = false) : n.onWire = .number n := by
  rw [onWire, toInt?, h]
  rfl

/-- The sign leaves the digits alone. -/
theorem natAbs_signedWhole (n : Number) : n.signedWhole.natAbs = n.whole := by
  rw [signedWhole]
  split
  · rw [Int.natAbs_neg, Int.natAbs_natCast]
  · rw [Int.natAbs_natCast]

/-- The unsafe numbers are the integers beyond the bound. -/
theorem isUnsafe_iff_eq_ofInt {n : Number} :
    n.isUnsafe = true ↔ ∃ i : Int, n = ofInt i ∧ largestSafe < i.natAbs := by
  rw [isUnsafe_eq, Bool.and_eq_true, decide_eq_true_eq]
  constructor
  · rintro ⟨hinteger, hbeyond⟩
    have htoInt : n.toInt? = some n.signedWhole := by rw [toInt?, hinteger, if_pos rfl]
    have hne : n.signedWhole ≠ 0 := by
      rw [← Int.natAbs_ne_zero, natAbs_signedWhole]
      exact Nat.ne_of_gt (Nat.zero_lt_of_lt hbeyond)
    exact ⟨n.signedWhole, eq_ofInt_of_toInt? htoInt hne, by rwa [natAbs_signedWhole]⟩
  · rintro ⟨i, rfl, hbeyond⟩
    exact ⟨rfl, hbeyond⟩

/-- Two numbers with the same text are the same. -/
theorem chars_inj {n m : Number} (h : n.chars = m.chars) : n = m := by
  obtain ⟨c, cs, s₀, s, hn, -, hstart, hrun, hfinish⟩ := Scan.exists_chars n
  obtain ⟨c', cs', s₀', s', hm, -, hstart', hrun', hfinish'⟩ := Scan.exists_chars m
  rw [hn, hm] at h
  obtain ⟨rfl, rfl⟩ := List.cons.inj h
  obtain rfl := Option.some.inj (hstart.symm.trans hstart')
  obtain rfl := Option.some.inj (hrun.symm.trans hrun')
  exact Option.some.inj (hfinish.symm.trans hfinish')

/-- Numbers with the same text as a string are the same. -/
theorem text_inj {n m : Number} (h : n.text = m.text) : n = m :=
  chars_inj (String.ofList_injective h)

/-- The unsafe numbers are those whose text is that of an integer outside ±(2⁵³ − 1). -/
theorem isUnsafe_iff {n : Number} : n.isUnsafe = true ↔
    ∃ i : Int, n.text = toString i ∧ (i < -9007199254740991 ∨ 9007199254740991 < i) := by
  rw [isUnsafe_iff_eq_ofInt]
  refine exists_congr fun i => and_congr ?_ ?_
  · rw [← text_ofInt]
    exact ⟨fun h => congrArg text h, text_inj⟩
  · rw [largestSafe]
    omega

end Number

/-! ### Any spelling of a number -/

namespace Scan

/-- The characters `cs` that a scan has taken: those of an integer, as long as no point and no exponent
mark has come. -/
def Took : Scan → List Char → Prop
  | .minus, cs => cs = ['-']
  | .whole negative n, cs => cs = (if negative then ['-'] else []) ++ Nat.toDigits 10 n
  | .point .., cs | .fraction .., cs | .mark .., cs | .sign .., cs | .exponent .., cs =>
    ∃ c ∈ ['.', 'e', 'E'], c ∈ cs

/-- What is read as a digit is the character of that digit. -/
theorem char_of_ofChar? {c : Char} {d : Digit} (h : Digit.ofChar? c = some d) : c = d.char := by
  unfold Digit.ofChar? at h
  split at h
  · next hc =>
    cases h
    apply Char.toNat_inj.1
    rw [Digit.char, Nat.toNat_digitChar_of_lt_ten hc.2]
    exact (Nat.add_sub_cancel' hc.1).symm
  · cases h

/-- One more digit of a number that has some. -/
theorem toDigits_push {n : Nat} (hn : n ≠ 0) (d : Digit) :
    Nat.toDigits 10 (10 * n + d.val) = Nat.toDigits 10 n ++ [d.char] := by
  have hdiv : (10 * n + d.val) / 10 = n := by omega
  have hmod : (10 * n + d.val) % 10 = d.val := by omega
  rw [Nat.toDigits_of_base_le (by decide) (by omega), hdiv, hmod]
  rfl

/-- A mark that has come stays. -/
theorem exists_mark_append {cs : List Char} (h : ∃ c ∈ ['.', 'e', 'E'], c ∈ cs) (ds : List Char) :
    ∃ c ∈ ['.', 'e', 'E'], c ∈ cs ++ ds := by
  obtain ⟨c, hc, hmem⟩ := h
  exact ⟨c, hc, List.mem_append_left ds hmem⟩

/-- One more digit. -/
theorem Took.push_digit {s s' : Scan} {cs : List Char} {d : Digit} (h : s.Took cs)
    (hs : s.pushDigit? d = some s') : s'.Took (cs ++ [d.char]) := by
  cases s with
  | minus =>
    cases hs
    obtain rfl : cs = ['-'] := h
    exact (congrArg (['-'] ++ ·) (Nat.toDigits_of_lt_base d.isLt)).symm
  | whole negative n =>
    rw [pushDigit?] at hs
    split at hs
    · cases hs
    · next hn =>
      cases hs
      obtain rfl : cs = (if negative then ['-'] else []) ++ Nat.toDigits 10 n := h
      show _ = (if negative then ['-'] else []) ++ Nat.toDigits 10 (10 * n + d.val)
      rw [toDigits_push hn, List.append_assoc]
  | point _ _ | fraction _ _ _ | mark _ _ _ | sign _ _ _ _ | exponent _ _ _ _ _ _ =>
    cases hs
    exact exists_mark_append h _

/-- A mark, or the sign of an exponent. -/
theorem Took.push_mark {s s' : Scan} {cs : List Char} {c : Char} (h : s.Took cs)
    (hc : Digit.ofChar? c = none) (hs : s.push? c = some s') : s'.Took (cs ++ [c]) := by
  have hmark : ∀ m ∈ ['.', 'e', 'E'], c = m → ∃ c' ∈ ['.', 'e', 'E'], c' ∈ cs ++ [c] := by
    rintro m hm rfl
    exact ⟨c, hm, by simp⟩
  -- behind a whole number the character is the mark itself; further on there is one before it
  cases s with
  | minus | point _ _ | sign _ _ _ _ | exponent _ _ _ _ _ _ =>
    simp only [push?, hc] at hs
    cases hs
  | whole negative n =>
    simp only [push?, hc] at hs
    split at hs
    · next hpoint =>
      cases hs
      exact hmark '.' (by decide) hpoint
    · split at hs
      · next he =>
        cases hs
        rcases he with he | he
        · exact hmark 'e' (by decide) he
        · exact hmark 'E' (by decide) he
      · cases hs
  | fraction _ _ _ =>
    simp only [push?, hc] at hs
    split at hs
    · cases hs
      exact exists_mark_append h [c]
    · cases hs
  | mark _ _ _ =>
    simp only [push?, hc] at hs
    split at hs
    · cases hs
      exact exists_mark_append h [c]
    · split at hs
      · cases hs
        exact exists_mark_append h [c]
      · cases hs

/-- One more character. -/
theorem Took.push {s s' : Scan} {cs : List Char} {c : Char} (h : s.Took cs) (hs : s.push? c = some s') :
    s'.Took (cs ++ [c]) := by
  rcases hc : Digit.ofChar? c with _ | d
  · exact h.push_mark hc hs
  · obtain rfl := char_of_ofChar? hc
    rw [push?_char] at hs
    exact h.push_digit hs

/-- All characters to the end of a text. -/
theorem Took.run {s s' : Scan} {cs ds : List Char} (h : s.Took cs) (hs : s.run ds = (s', [])) :
    s'.Took (cs ++ ds) := by
  induction ds generalizing s cs with
  | nil =>
    cases hs
    rwa [List.append_nil]
  | cons d ds ih =>
    rw [Scan.run] at hs
    split at hs
    · next s₁ hpush =>
      have hrest := ih (h.push hpush) hs
      rwa [List.append_assoc] at hrest
    · cases hs

/-- Behind the first character just that one has been taken. -/
theorem took_start {c : Char} {s : Scan} (h : start? c = some s) : s.Took [c] := by
  unfold start? at h
  split at h
  · next hc =>
    cases h
    rw [hc]
    rfl
  · obtain ⟨d, hd, rfl⟩ := Option.map_eq_some_iff.1 h
    rw [char_of_ofChar? hd]
    exact (Nat.toDigits_of_lt_base d.isLt).symm

/-- What has been taken to the end of a number is its text, or has a mark in it. -/
theorem Took.eq_chars {s : Scan} {cs : List Char} {n : Number} (h : s.Took cs)
    (hfinish : s.finish? = some n) : cs = n.chars ∨ ∃ c ∈ ['.', 'e', 'E'], c ∈ cs := by
  rcases s with _ | ⟨negative, m⟩ | _ | _ | _ | _ | _
  · cases hfinish
  · cases hfinish
    left
    rw [Number.chars_of_isInteger rfl]
    exact h
  · cases hfinish
  · exact .inr h
  · cases hfinish
  · cases hfinish
  · exact .inr h

end Scan

/-- The text of a number is that number's, or has a mark in it. -/
theorem Number.eq_chars_of_ofChars {cs : List Char} {n : Number} (h : Number.ofChars cs = .ok n) :
    cs = n.chars ∨ ∃ c ∈ ['.', 'e', 'E'], c ∈ cs := by
  unfold Number.ofChars at h
  split at h
  · cases h
  · next c rest =>
    split at h
    · cases h
    · next s hstart =>
      split at h
      · next s' hrun =>
        split at h
        · next m hfinish =>
          cases h
          exact ((Scan.took_start hstart).run hrun).eq_chars hfinish
        · cases h
      · cases h

/-- Of the texts of numbers, however they are spelled, those of unsafe integers are the plain ones of
integers outside ±(2⁵³ − 1). -/
theorem isUnsafeLiteral_iff {cs : List Char} {n : Number} (h : Number.ofChars cs = .ok n) :
    isUnsafeLiteral cs = true ↔
      ∃ i : Int, cs = (toString i).toList ∧ (i < -9007199254740991 ∨ 9007199254740991 < i) := by
  constructor
  · intro hunsafe
    rcases Number.eq_chars_of_ofChars h with rfl | ⟨c, hc, hmem⟩
    · obtain ⟨i, hi, hbeyond⟩ := Number.isUnsafe_iff.1 hunsafe
      exact ⟨i, by rw [← hi, Number.text, String.toList_ofList], hbeyond⟩
    · rw [isUnsafeLiteral_of_mem hc hmem] at hunsafe
      cases hunsafe
  · rintro ⟨i, rfl, hbeyond⟩
    have hunsafe : (Number.ofInt i).isUnsafe = true :=
      Number.isUnsafe_iff.2 ⟨i, Number.text_ofInt i, hbeyond⟩
    rwa [← Number.text_ofInt, Number.text, String.toList_ofList]

/-- A number goes on the wire as the string of its text if it is unsafe, and as itself otherwise. -/
theorem Value.toWire_number (n : Number) : (Value.number n).toWire = n.onWire := by
  rw [toWire]
  split
  · next hunsafe =>
    obtain ⟨i, rfl, hbeyond⟩ := Number.isUnsafe_iff_eq_ofInt.1 hunsafe
    rw [Number.text_ofInt]
    exact (Number.onWire_of_beyond (Number.toInt?_ofInt i) hbeyond).symm
  · next hsafe =>
    rw [Number.isUnsafe_eq] at hsafe
    rcases hn : n.isInteger
    · exact (Number.onWire_of_not_isInteger hn).symm
    · rw [hn, Bool.true_and, decide_eq_true_eq, ← Number.natAbs_signedWhole] at hsafe
      rw [Number.onWire, Number.toInt?, hn]
      exact (if_neg hsafe).symm

end FramedCall.Json
