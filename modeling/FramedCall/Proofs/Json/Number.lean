import Mathlib.Data.List.Basic
import FramedCall.Json.Number

/-!
# Reading numbers that were written

A scan takes the characters of a number one by one. Behind the last of them it has that number
(`Scan.exists_chars`), and takes none of the characters that stand behind a number in a text
(`Scan.push?_eq_none`).
-/

namespace FramedCall.Json

open Decimal (Digit)

namespace Scan

/-- A number that could end does not take a character that belongs to none. -/
theorem push?_eq_none {s : Scan} {n : Number} (h : s.finish? = some n) {c : Char}
    (hdigit : Digit.ofChar? c = none) (hc : c ∉ ['.', 'e', 'E']) : s.push? c = none := by
  simp only [List.mem_cons, List.not_mem_nil, or_false, not_or] at hc
  obtain ⟨hpoint, he, hE⟩ := hc
  rcases s with _ | ⟨neg, n⟩ | ⟨neg, n⟩ | ⟨neg, n, ds⟩ | ⟨neg, n, f⟩ | ⟨neg, n, f, e⟩ | ⟨neg, n, f, e, d, ds⟩
  · cases h
  · simp [push?, hdigit, hpoint, he, hE]
  · cases h
  · simp [push?, hdigit, he, hE]
  · cases h
  · cases h
  · simp [push?, hdigit]

/-! ### Digits -/

/-- No digit is the minus sign. -/
theorem char_ne_minus (d : Digit) : d.char ≠ '-' := by
  revert d
  decide

/-- The scan behind one more digit. -/
def pushDigit? : Scan → Digit → Option Scan
  | .minus, d => some (.whole true d.val)
  | .whole neg n, d => if n = 0 then none else some (.whole neg (10 * n + d.val))
  | .point neg n, d => some (.fraction neg n [d])
  | .fraction neg n ds, d => some (.fraction neg n (d :: ds))
  | .mark neg n f, d => some (.exponent neg n f false d [])
  | .sign neg n f e, d => some (.exponent neg n f e d [])
  | .exponent neg n f e d ds, d' => some (.exponent neg n f e d (d' :: ds))

/-- The character of a digit is scanned as that digit. -/
@[simp] theorem push?_char (s : Scan) (d : Digit) : s.push? d.char = s.pushDigit? d := by
  rcases s with _ | _ | _ | _ | _ | _ | _ <;> simp [push?, pushDigit?]

/-- The characters of digits are scanned as these digits. -/
theorem foldlM_chars (s : Scan) (ds : List Digit) :
    (Decimal.chars ds).foldlM push? s = ds.foldlM pushDigit? s := by
  simp [Decimal.chars, List.foldlM_map]

/-- The digits of a whole number, read from the first on. -/
theorem exists_whole (n : Nat) : ∃ (d : Digit) (ds : List Digit),
    Nat.toDigits 10 n = Decimal.chars (d :: ds) ∧
      ∀ neg, ds.foldlM pushDigit? (.whole neg d.val) = some (.whole neg n) := by
  induction n using Nat.strongRecOn with
  | ind n ih =>
    by_cases hn : n < 10
    · exact ⟨⟨n, hn⟩, [], Nat.toDigits_of_lt_base hn, fun neg => rfl⟩
    · obtain ⟨d, ds, hds, hrun⟩ := ih (n / 10) (by omega)
      have hmod : n % 10 < 10 := Nat.mod_lt n (by decide)
      refine ⟨d, ds ++ [⟨n % 10, hmod⟩], ?_, ?_⟩
      · rw [Nat.toDigits_of_base_le (by decide) (by omega), hds]
        simp [Decimal.chars, Digit.char]
      · intro neg
        have hne : n / 10 ≠ 0 := by omega
        have hsum : 10 * (n / 10) + n % 10 = n := Nat.div_add_mod n 10
        have hlast : pushDigit? (.whole neg (n / 10)) ⟨n % 10, hmod⟩ = some (.whole neg n) := by
          rw [pushDigit?, if_neg hne, hsum]
        rw [List.foldlM_append, hrun neg]
        simpa using hlast

/-- Digits behind the point are kept, the last in front. -/
theorem push_fraction (neg : Bool) (n : Nat) (ds fs : List Digit) :
    ds.foldlM pushDigit? (.fraction neg n fs) = some (.fraction neg n (ds.reverse ++ fs)) := by
  induction ds generalizing fs with
  | nil => rfl
  | cons d ds ih =>
    have hpush : pushDigit? (.fraction neg n fs) d = some (.fraction neg n (d :: fs)) := rfl
    rw [List.foldlM_cons, hpush]
    simpa using ih (d :: fs)

/-- Digits behind the first of an exponent are kept, the last in front. -/
theorem push_exponent (neg : Bool) (n : Nat) (f : List Digit) (e : Bool) (d : Digit)
    (ds es : List Digit) :
    ds.foldlM pushDigit? (.exponent neg n f e d es) =
      some (.exponent neg n f e d (ds.reverse ++ es)) := by
  induction ds generalizing es with
  | nil => rfl
  | cons d' ds ih =>
    have hpush : pushDigit? (.exponent neg n f e d es) d' = some (.exponent neg n f e d (d' :: es)) := rfl
    rw [List.foldlM_cons, hpush]
    simpa using ih (d' :: es)

/-! ### The parts of a number -/

/-- A number read up to its exponent. -/
def upToFraction (neg : Bool) (n : Nat) (f : List Digit) : Scan :=
  if f = [] then .whole neg n else .fraction neg n f.reverse

/-- The characters of a fraction lead from the whole part to where an exponent may follow. -/
theorem push_upToFraction (neg : Bool) (n : Nat) (f : List Digit) :
    (if f = [] then [] else '.' :: Decimal.chars f).foldlM push? (.whole neg n) =
      some (upToFraction neg n f) := by
  rcases f with _ | ⟨d, ds⟩
  · rfl
  · have hpoint : push? (.whole neg n) '.' = some (.point neg n) := rfl
    have hfirst : pushDigit? (.point neg n) d = some (.fraction neg n [d]) := rfl
    rw [if_neg (List.cons_ne_nil d ds), List.foldlM_cons, hpoint]
    show (Decimal.chars (d :: ds)).foldlM push? (.point neg n) = _
    rw [foldlM_chars, List.foldlM_cons, hfirst]
    show ds.foldlM pushDigit? (.fraction neg n [d]) = _
    rw [push_fraction, upToFraction, if_neg (List.cons_ne_nil d ds), List.reverse_cons]

/-- The characters of an exponent lead from there to the end. -/
theorem push_exponentChars (neg : Bool) (n : Nat) (f : List Digit) (e : Exponent) :
    e.chars.foldlM push? (upToFraction neg n f) =
      some (.exponent neg n f e.negative e.first e.rest.reverse) := by
  have hmark : push? (upToFraction neg n f) 'e' = some (.mark neg n f) := by
    unfold upToFraction
    split
    · next hf =>
      rw [hf]
      rfl
    · show some (Scan.mark neg n f.reverse.reverse) = _
      rw [List.reverse_reverse]
  have hsign : push? (.mark neg n f) (if e.negative then '-' else '+') =
      some (.sign neg n f e.negative) := by
    rcases e.negative <;> rfl
  have hfirst : pushDigit? (.sign neg n f e.negative) e.first =
      some (.exponent neg n f e.negative e.first []) := rfl
  have hrest := push_exponent neg n f e.negative e.first e.rest []
  rw [List.append_nil] at hrest
  simp [Exponent.chars, foldlM_chars, hmark, hsign, hfirst, hrest]

/-- The characters of a number behind its whole part. -/
def behindWhole (n : Number) : List Char :=
  (if n.fraction = [] then [] else '.' :: Decimal.chars n.fraction) ++
    n.exponent.elim [] Exponent.chars

/-- The text of a number is its sign, its whole part and what stands behind it. -/
theorem chars_eq (n : Number) : n.chars =
    (if n.negative then ['-'] else []) ++ (Nat.toDigits 10 n.whole ++ behindWhole n) := by
  rw [Number.chars, behindWhole]
  cases n.exponent <;> simp

/-- A scan that has the whole part has the number behind the rest of its characters. -/
theorem push_behindWhole (n : Number) : ∃ s,
    (behindWhole n).foldlM push? (.whole n.negative n.whole) = some s ∧ s.finish? = some n := by
  obtain ⟨neg, whole, f, e⟩ := n
  rw [behindWhole, List.foldlM_append, push_upToFraction]
  rcases e with _ | e
  · refine ⟨upToFraction neg whole f, rfl, ?_⟩
    unfold upToFraction
    split
    · next hf =>
      rw [hf]
      rfl
    · show some (⟨neg, whole, f.reverse.reverse, none⟩ : Number) = _
      rw [List.reverse_reverse]
  · refine ⟨_, push_exponentChars neg whole f e, ?_⟩
    simp [finish?]

/-- Behind all characters of a number the scan has that number. -/
theorem exists_chars (n : Number) : ∃ c cs s₀ s, n.chars = c :: cs ∧
    (c = '-' ∨ ∃ d : Digit, c = d.char) ∧ start? c = some s₀ ∧ cs.foldlM push? s₀ = some s ∧
      s.finish? = some n := by
  obtain ⟨d, ds, hds, hwhole⟩ := exists_whole n.whole
  obtain ⟨s, hs, hfinish⟩ := push_behindWhole n
  have hrun : (Decimal.chars ds ++ behindWhole n).foldlM push? (.whole n.negative d.val) = some s := by
    rw [List.foldlM_append, foldlM_chars, hwhole]
    exact hs
  have hchars := chars_eq n
  rw [hds] at hchars
  rcases hneg : n.negative with _ | _
  · -- the first digit is read as the number begins
    rw [hneg] at hchars hrun
    have hfirst : start? d.char = some (.whole false d.val) := by
      simp [start?, char_ne_minus d]
    exact ⟨d.char, _, _, s, hchars, .inr ⟨d, rfl⟩, hfirst, hrun, hfinish⟩
  · -- the minus comes first, and the first digit is read behind it
    rw [hneg] at hchars hrun
    refine ⟨'-', _, .minus, s, hchars, .inl rfl, rfl, ?_, hfinish⟩
    show (d.char :: (Decimal.chars ds ++ behindWhole n)).foldlM push? .minus = some s
    rw [List.foldlM_cons, push?_char]
    exact hrun

end Scan
end FramedCall.Json
