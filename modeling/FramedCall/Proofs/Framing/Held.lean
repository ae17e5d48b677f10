import Mathlib.Data.List.Basic
import FramedCall.Proofs.Framing.History

/-!
# How much is held

Behind a call that has taken out all there is, a deframer holds part of a line or of a payload, which
the limit bounds, or part of a length. The digits of a length are bounded, but not the zeros in front
of them (`Deframer.padding`), and these are all that a stream can make a deframer hold without a bound.
The main statement is `Deframer.held_bounded_iff`; `Deframer.zeros_unbounded` says that the limit alone
is no bound.
-/

namespace FramedCall

namespace Deframer

variable {framing : Framing} {limit : Nat} {b b' : Deframer} {input : Bytes} {taken : List Bytes}

/-- The number of zeros in front of a length that is not complete. -/
def padding (b : Deframer) : Nat :=
  match b.framing, b.awaited with
  | .lengthPrefixed, none => (b.buffered.takeWhile (· = 48)).length
  | _, _ => 0

/-- An attempt that gives no payload leaves no more than the limit or the digits of a length, and the
zeros in front of them. -/
theorem Attempt.size_le (h : b.Attempt none b') (hb : ∀ n ∈ b.awaited, n ≤ b.limit) :
    b'.size ≤ max b.limit Framing.maxLengthDigits + b'.padding := by
  cases h with
  | partLine hf ha hmem hle =>
    have hsize : b.size ≤ b.limit := hle
    show b.size ≤ _
    omega
  | partLength hf ha hmem hle =>
    have hpadding : padding { b with searched := b.size } = (b.buffered.takeWhile (· = 48)).length := by
      simp [padding, hf, ha]
    -- what is held is the zeros and the digits behind them, of which there are not too many
    have hsplit := congrArg List.length (b.buffered.takeWhile_append_dropWhile (p := (· = 48)))
    rw [List.length_append] at hsplit
    rw [hpadding]
    show b.buffered.length ≤ _
    omega
  | @partPayload n rest hf he hlt =>
    have hn := he.le_limit hb
    show rest.length ≤ _
    omega

/-- An unfinished line is no longer than the limit. -/
theorem Attempt.size_le_of_newline (h : b.Attempt none b') (hf : b.framing = .newline) :
    b'.size ≤ b.limit := by
  cases h with
  | partLine _ _ _ hle => exact hle
  | partLength hf' => simp [hf] at hf'
  | partPayload hf' => simp [hf] at hf'

/-- Zeros in front of a length are held, however many there are. -/
theorem ends_zeros (limit n : Nat) :
    (empty .lengthPrefixed limit).Ends ⟨.lengthPrefixed, limit, List.replicate n 48, none, n⟩ := by
  have hb := (tidy_empty .lengthPrefixed limit).extend (List.replicate n 48)
  have hsearch : (List.replicate n (48 : UInt8)).findIdx? (· == Framing.separator) = none := by
    rw [findIdx?_eq_none_iff_not_mem]
    intro hmem
    exact absurd (List.eq_of_mem_replicate hmem) (by decide)
  have hcheck : Framing.Length.check (List.replicate n 48) = .ok () := by
    rw [Framing.Length.check_eq_ok_iff]
    constructor
    · intro x hx
      rw [List.eq_of_mem_replicate hx]
      rfl
    · simp
  have hnext : ((empty .lengthPrefixed limit).extend (List.replicate n 48)).next =
      .ok (none, ⟨.lengthPrefixed, limit, List.replicate n 48, none, n⟩) := by
    rw [next_incomplete hb rfl rfl hsearch]
    show (Framing.Length.check (List.replicate n 48)).bind _ = _
    rw [hcheck]
    simp [Except.bind, extend, empty, size]
  have hpush : (empty .lengthPrefixed limit).push (List.replicate n 48) =
      (.ok [], ⟨.lengthPrefixed, limit, List.replicate n 48, none, n⟩) := by
    rw [push, drain_of_none hnext]
  exact .push hpush

/-- Let a new deframer be fed bytes and asked for payloads, in any order of calls and without a violation
so far, and let the last call have taken out all there is. For lines there is a bound on what it holds
then, whatever has been fed, and it is the limit. For payloads behind their lengths there is none: what is
held is as much as the limit or the digits of a length at most, and the zeros in front of a length that
is not complete. -/
theorem held_bounded_iff (framing : Framing) (limit : Nat) :
    ((∃ bound, ∀ input taken b b', Fed framing limit input taken b → b.Ends b' → b'.size ≤ bound) ↔
      framing = .newline) ∧
    (framing = .newline → ∀ input taken b b', Fed framing limit input taken b → b.Ends b' →
      b'.size ≤ limit) ∧
    ∀ input taken b b', Fed framing limit input taken b → b.Ends b' →
      b'.size ≤ max limit Framing.maxLengthDigits + b'.padding := by
  have hline : framing = .newline → ∀ input taken b b', Fed framing limit input taken b → b.Ends b' →
      b'.size ≤ limit := by
    intro hf input taken b b' h hends
    obtain ⟨b₁, ⟨input', taken', h₁⟩, hattempt⟩ := hends.exists_attempt h.invariant
    rw [← h₁.limit_eq]
    exact hattempt.size_le_of_newline (h₁.framing_eq.trans hf)
  refine ⟨⟨?_, fun hf => ⟨limit, hline hf⟩⟩, hline, ?_⟩
  · rintro ⟨bound, hbound⟩
    cases framing with
    | newline => rfl
    | lengthPrefixed =>
      -- a new deframer that is sent one zero more than the bound holds all of them
      have hle := hbound [] [] _ _ .start (ends_zeros limit (bound + 1))
      rw [size, List.length_replicate] at hle
      omega
  · intro input taken b b' h hends
    obtain ⟨b₁, ⟨input', taken', h₁⟩, hattempt⟩ := hends.exists_attempt h.invariant
    rw [← h₁.limit_eq]
    exact hattempt.size_le h₁.awaited_le

/-- The stream `1|a0007` leaves a length with three zeros in front. -/
theorem held_bounded_iff_padded :
    let b : Deframer := ⟨.lengthPrefixed, 2, [48, 48, 48, 55], none, 0⟩
    let b' : Deframer := ⟨.lengthPrefixed, 2, [48, 48, 48, 55], none, 4⟩
    Fed .lengthPrefixed 2 [49, 124, 97, 48, 48, 48, 55] [[97]] b ∧ b.Ends b' ∧ b'.size = 4 ∧
      b'.padding = 3 ∧ b'.size ≤ max 2 Framing.maxLengthDigits + b'.padding := by
  intro b b'
  have hfirst : ((empty .lengthPrefixed 2).extend [49, 124, 97, 48, 48, 48, 55]).next =
      .ok (some [97], b) := rfl
  have hfed : Fed .lengthPrefixed 2 [49, 124, 97, 48, 48, 48, 55] [[97]] b :=
    (Fed.start.extend [49, 124, 97, 48, 48, 48, 55]).next hfirst
  have hsecond : b.next = .ok (none, b') := rfl
  exact ⟨hfed, .next hsecond, rfl, rfl, (held_bounded_iff .lengthPrefixed 2).2.2 _ _ _ _ hfed (.next hsecond)⟩

/-- There is no bound on what is held that depends on the limit only: of zeros and nothing else, one more
than the bound for the limit 8 are held. -/
theorem zeros_unbounded :
    ¬ ∃ bound : Nat → Nat, ∀ framing limit input taken b b', Fed framing limit input taken b →
      b.Ends b' → b'.size ≤ bound limit := by
  rintro ⟨bound, hbound⟩
  have hle := hbound .lengthPrefixed 8 [] [] _ _ .start (ends_zeros 8 (bound 8 + 1))
  rw [size, List.length_replicate] at hle
  omega

end Deframer
end FramedCall
