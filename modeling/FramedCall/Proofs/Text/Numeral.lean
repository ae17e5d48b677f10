import Mathlib.Data.List.Basic
import FramedCall.Text.Numeral

/-!
# Numerals that were written

The digits of a number are read as that number, up to the bound (`readChars_toDigits`), and with a minus
sign in front as its negative (`readSigned?_minus_toDigits`). Whatever else holds a character that is no
digit is no numeral (`digits_eq_error_of_mem`).
-/

namespace FramedCall.Text.Numeral

/-- Digits are read in pieces. -/
theorem digits_append (base bound n : Nat) (cs ds : List Char) :
    digits base bound n (cs ++ ds) = (digits base bound n cs).bind fun m => digits base bound m ds := by
  induction cs generalizing n with
  | nil => rfl
  | cons c cs ih =>
    simp only [List.cons_append, digits]
    split
    · rfl
    · split
      · rfl
      · exact ih _

/-- A character that is no digit is met, or the number is too large before. -/
theorem digits_eq_error_of_mem {base : Nat} {c : Char} (hc : digit? base c = none) {cs : List Char}
    (h : c ∈ cs) (bound n : Nat) : ∃ f, digits base bound n cs = .error f := by
  induction cs generalizing n with
  | nil => cases h
  | cons d ds ih =>
    simp only [digits]
    split
    · exact ⟨_, rfl⟩
    · next hd =>
      split
      · exact ⟨_, rfl⟩
      · rcases List.mem_cons.1 h with rfl | h
        · rw [hc] at hd
          cases hd
        · exact ih h _

/-- The character of a digit below ten is read as that digit. -/
theorem digit?_digitChar : ∀ d < 10, digit? 10 (Nat.digitChar d) = some d := by
  decide

/-- The digits of a number are read as that number, if it is within the bound. -/
theorem digits_toDigits (bound n : Nat) :
    digits 10 bound 0 (Nat.toDigits 10 n) = if n ≤ bound then .ok n else .error .tooLarge := by
  induction n using Nat.strongRecOn with
  | ind n ih =>
    by_cases hn : n < 10
    · rw [Nat.toDigits_of_lt_base hn]
      simp only [digits, digit?_digitChar n hn, Nat.zero_mul, Nat.zero_add, ← Nat.not_le, ite_not]
    · have hlast : n % 10 < 10 := Nat.mod_lt n (by decide)
      have hsum : n / 10 * 10 + n % 10 = n := Nat.div_add_mod' n 10
      rw [Nat.toDigits_of_base_le (by decide) (by omega), digits_append, ih (n / 10) (by omega)]
      by_cases hfront : n / 10 ≤ bound
      · rw [if_pos hfront]
        simp only [Except.bind, digits, digit?_digitChar _ hlast, hsum, ← Nat.not_le, ite_not]
      · rw [if_neg hfront, if_neg (by omega)]
        rfl

/-- The first digit of a number is no sign. -/
theorem exists_toDigits_eq (n : Nat) : ∃ c cs, Nat.toDigits 10 n = c :: cs ∧ c ≠ '+' ∧ c ≠ '-' := by
  have hdigit : ∀ d < 10, Nat.digitChar d ≠ '+' ∧ Nat.digitChar d ≠ '-' := by decide
  induction n using Nat.strongRecOn with
  | ind n ih =>
    by_cases hn : n < 10
    · exact ⟨_, [], Nat.toDigits_of_lt_base hn, hdigit n hn⟩
    · obtain ⟨c, cs, hcs, hc⟩ := ih (n / 10) (by omega)
      refine ⟨c, cs ++ [Nat.digitChar (n % 10)], ?_, hc⟩
      rw [Nat.toDigits_of_base_le (by decide) (by omega), hcs, List.cons_append]

/-- A number that is written in decimal is read as that number, if it is within the bound. -/
theorem readChars_toDigits (bound n : Nat) :
    readChars 10 bound (Nat.toDigits 10 n) = if n ≤ bound then .ok n else .error .tooLarge := by
  obtain ⟨c, cs, hcs, hplus, -⟩ := exists_toDigits_eq n
  rw [← digits_toDigits, hcs]
  unfold readChars
  split
  · next h => cases h
  · next h => exact absurd (List.cons.inj h).1 hplus
  · next h => exact absurd (List.cons.inj h).1 hplus
  · rfl

/-- Without a minus sign nothing is below zero. -/
theorem readSigned?_toDigits (below above n : Nat) :
    readSigned? 10 below above (Nat.toDigits 10 n) = if n ≤ above then some (n : Int) else none := by
  have hread := readChars_toDigits above n
  obtain ⟨c, cs, hcs, -, hminus⟩ := exists_toDigits_eq n
  rw [hcs] at hread ⊢
  unfold readSigned?
  split
  · next h => exact absurd (List.cons.inj h).1 hminus
  · next h => exact absurd (List.cons.inj h).1 hminus
  · rw [hread]
    split <;> rfl

/-- Behind a minus sign the digits of a number are read as its negative, if that is not too low. -/
theorem readSigned?_minus_toDigits (below above n : Nat) :
    readSigned? 10 below above ('-' :: Nat.toDigits 10 n) =
      if n ≤ below then some (-(n : Int)) else none := by
  have hread := digits_toDigits below n
  obtain ⟨c, cs, hcs, -, -⟩ := exists_toDigits_eq n
  rw [hcs] at hread ⊢
  simp only [readSigned?, hread]
  split <;> rfl

/-- A character that is no digit, and is not the plus sign, makes a text no natural number. -/
theorem readChars_eq_error_of_mem {base : Nat} {c : Char} (hc : digit? base c = none) (hplus : c ≠ '+')
    {cs : List Char} (h : c ∈ cs) (bound : Nat) : ∃ f, readChars base bound cs = .error f := by
  unfold readChars
  split
  · exact ⟨_, rfl⟩
  · exact ⟨_, rfl⟩
  · next ds _ =>
    rcases List.mem_cons.1 h with heq | h
    · exact absurd heq hplus
    · exact digits_eq_error_of_mem hc h bound 0
  · exact digits_eq_error_of_mem hc h bound 0

/-- A character that is no digit and no sign makes a text no integer. -/
theorem readSigned?_eq_none_of_mem {base : Nat} {c : Char} (hc : digit? base c = none) (hplus : c ≠ '+')
    (hminus : c ≠ '-') {cs : List Char} (h : c ∈ cs) (below above : Nat) :
    readSigned? base below above cs = none := by
  unfold readSigned?
  split
  · rfl
  · next ds _ =>
    rcases List.mem_cons.1 h with heq | h
    · exact absurd heq hminus
    · obtain ⟨f, hf⟩ := digits_eq_error_of_mem hc h below 0
      rw [hf]
      rfl
  · obtain ⟨f, hf⟩ := readChars_eq_error_of_mem hc hplus h above
    rw [hf]
    rfl

end FramedCall.Text.Numeral
