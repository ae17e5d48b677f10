import FramedCall.Payload
import FramedCall.Proofs.Json.Reading
import FramedCall.Proofs.Text.Utf8

/-!
# A blank at the end

A blank behind a text neither makes it a value nor keeps it from being one (`Value.ofChars?_concat_blank`):
not in an open string, an escape, a literal or a number that lacks something, and not where arrays are
too deep. A byte that stands for a blank does not complete a character that is cut off either
(`Text.pieces_concat`). So the value of a payload is that of the payload with the blank
(`Payload.decode?_concat_blank`).
-/

namespace FramedCall

/-! ### Bytes below U+0080 -/

namespace Text

/-- A byte below U+0080 goes on with no character. -/
def Partial.IsHigh (p : Partial) : Prop :=
  0x80 ≤ p.low

/-- A character that is started is gone on with by bytes from U+0080 on. -/
theorem isHigh_of_first {b : UInt8} {p : Partial} (h : (first b).2 = some p) : p.IsHigh := by
  unfold first at h
  unfold Partial.IsHigh
  grind

/-- A character that goes on is gone on with by bytes from U+0080 on. -/
theorem isHigh_of_next {p q : Partial} {b : UInt8} (h : (next p b).2 = some q) : q.IsHigh := by
  unfold next at h
  simp only at h
  split at h
  · split at h
    · cases h
    · obtain rfl := Option.some.inj h
      exact Nat.le_refl 0x80
  · exact isHigh_of_first h

/-- A byte below U+0080 is a piece by itself, whatever stands in front of it. -/
theorem pieces_concat {c : UInt8} (hc : c.toNat < 0x80) {open? : Option Partial}
    (hopen : ∀ p, open? = some p → p.IsHigh) (bs : Bytes) :
    pieces open? (bs ++ [c]) = pieces open? bs ++ [some (Char.ofNat c.toNat)] := by
  have hfirst : first c = ([some (Char.ofNat c.toNat)], none) := by
    unfold first
    exact if_pos hc
  induction bs generalizing open? with
  | nil =>
    rcases open? with _ | p
    · show (first c).1 ++ pieces (first c).2 [] = _
      rw [hfirst]
      rfl
    · -- the character that is open is ill-formed, with the byte and without it
      have hlow : ¬ (p.low ≤ c.toNat ∧ c.toNat ≤ p.high) := by
        rintro ⟨hlow, -⟩
        exact absurd (hopen p rfl) (Nat.not_le_of_lt (Nat.lt_of_le_of_lt hlow hc))
      have hnext : next p c = ([none, some (Char.ofNat c.toNat)], none) := by
        unfold next
        simp only [if_neg hlow, hfirst]
      show (next p c).1 ++ pieces (next p c).2 [] = _
      rw [hnext]
      rfl
  | cons b bs ih =>
    rcases open? with _ | p
    · rw [List.cons_append, pieces, pieces, ih fun q => isHigh_of_first, List.append_assoc]
    · rw [List.cons_append, pieces, pieces, ih fun q => isHigh_of_next, List.append_assoc]

/-- The characters of a payload with one more byte below U+0080. -/
theorem decodeChars?_concat {c : UInt8} (hc : c.toNat < 0x80) (bs : Bytes) :
    decodeChars? (bs ++ [c]) = (decodeChars? bs).map (· ++ [Char.ofNat c.toNat]) := by
  unfold decodeChars?
  rw [pieces_concat hc (by rintro p ⟨⟩), List.mapM_append]
  rcases (pieces none bs).mapM id with _ | cs
  · rfl
  · rfl

end Text

/-! ### Blanks behind a text -/

namespace Json

/-- The letters that a literal still lacks; none outside literals. -/
def Phase.lacking : Phase → List Char
  | .literal rest _ => rest
  | .value | .key | .colon | .comma | .quote _ | .number _ | .finished _ => []

namespace Reader

/-- No blank is part of a literal. -/
def SparesBlanks (r : Reader) : Prop :=
  ∀ c ∈ r.phase.lacking, isBlank c = false

variable {r r' : Reader} {ls : List Level} {c : Char}

/-- No blank is lacking where only other letters are. -/
theorem sparesBlanks_of_all (h : r.phase.lacking.all (! isBlank ·) = true) : r.SparesBlanks := by
  intro c hc
  have hletter := List.all_eq_true.1 h c hc
  rwa [Bool.not_eq_true'] at hletter

/-- Outside literals nothing is lacking. -/
theorem sparesBlanks_of_lacking (h : r.phase.lacking = []) : r.SparesBlanks := by
  apply sparesBlanks_of_all
  rw [h]
  rfl

/-- Behind a value no literal is read. -/
theorem lacking_of_complete? {v : Value} (h : complete? v ls = some r) : r.phase.lacking = [] := by
  unfold complete? at h
  split at h
  · cases h
    rfl
  · cases h
    rfl
  · cases h
    rfl
  · cases h

/-- Behind a string no literal is read. -/
theorem lacking_of_completeString? {s : String} (h : completeString? s ls = some r) :
    r.phase.lacking = [] := by
  unfold completeString? at h
  split at h
  · cases h
    rfl
  · exact lacking_of_complete? h

/-- Behind the end of an array or object no literal is read. -/
theorem lacking_of_close? (h : close? c ls = some r) : r.phase.lacking = [] := by
  unfold close? at h
  split at h
  · split at h
    · exact lacking_of_complete? h
    · cases h
  · split at h
    · obtain ⟨v, -, hv⟩ := Option.bind_eq_some_iff.1 h
      exact lacking_of_complete? hv
    · cases h
  · cases h

/-- In a new level the phase is the one that was asked for. -/
theorem phase_of_open? {l : Level} {phase : Phase} (h : open? l phase ls = some r) : r.phase = phase := by
  unfold open? at h
  split at h
  · cases h
    rfl
  · cases h

/-- The literals have letters only. -/
theorem sparesBlanks_of_beginValue? (h : beginValue? ls c = some r) : r.SparesBlanks := by
  unfold beginValue? at h
  split at h
  · exact sparesBlanks_of_lacking (by rw [phase_of_open? h]; rfl)
  · exact sparesBlanks_of_lacking (by rw [phase_of_open? h]; rfl)
  · cases h
    exact sparesBlanks_of_lacking rfl
  · cases h
    exact sparesBlanks_of_all rfl
  · cases h
    exact sparesBlanks_of_all rfl
  · cases h
    exact sparesBlanks_of_all rfl
  · split at h
    · exact sparesBlanks_of_lacking (lacking_of_close? h)
    · cases h
  · obtain ⟨s, -, rfl⟩ := Option.map_eq_some_iff.1 h
    exact sparesBlanks_of_lacking rfl

/-- Where a key is to come no literal is read. -/
theorem lacking_of_beginKey? (h : beginKey? ls c = some r) : r.phase.lacking = [] := by
  unfold beginKey? at h
  split at h
  · cases h
    rfl
  · split at h
    · exact lacking_of_close? h
    · cases h

/-- Behind an item no literal is read. -/
theorem lacking_of_afterItem? (h : afterItem? ls c = some r) : r.phase.lacking = [] := by
  unfold afterItem? at h
  split at h
  · split at h
    · cases h
      rfl
    · cases h
      rfl
    · cases h
  · exact lacking_of_close? h

/-- A character between tokens begins no literal that has a blank in it. -/
theorem SparesBlanks.stepToken (hr : r.SparesBlanks) (h : r.stepToken? c = some r') : r'.SparesBlanks := by
  unfold stepToken? at h
  split at h
  · cases h
    exact hr
  · split at h
    · exact sparesBlanks_of_beginValue? h
    · exact sparesBlanks_of_lacking (lacking_of_beginKey? h)
    · split at h
      · cases h
        exact sparesBlanks_of_lacking rfl
      · cases h
    · exact sparesBlanks_of_lacking (lacking_of_afterItem? h)
    · cases h
    · cases h
    · cases h
    · cases h

/-- No character leads to where a literal takes a blank. -/
theorem SparesBlanks.step (hr : r.SparesBlanks) (h : r.step? c = some r') : r'.SparesBlanks := by
  unfold step? at h
  split at h
  · split at h
    · exact sparesBlanks_of_lacking (lacking_of_completeString? h)
    · obtain ⟨q, -, rfl⟩ := Option.map_eq_some_iff.1 h
      exact sparesBlanks_of_lacking rfl
  · obtain ⟨q, -, rfl⟩ := Option.map_eq_some_iff.1 h
    exact sparesBlanks_of_lacking rfl
  · split at h
    · cases h
      exact sparesBlanks_of_lacking rfl
    · obtain ⟨n, -, h⟩ := Option.bind_eq_some_iff.1 h
      obtain ⟨r₁, hr₁, h⟩ := Option.bind_eq_some_iff.1 h
      exact (sparesBlanks_of_lacking (lacking_of_complete? hr₁)).stepToken h
  · cases h
  · next d ds v hphase =>
    -- inside a literal what is lacking gets shorter, and stays free of blanks
    have hlacking : ∀ c ∈ d :: ds, isBlank c = false := by
      unfold SparesBlanks at hr
      rwa [hphase] at hr
    split at h
    · split at h
      · exact sparesBlanks_of_lacking (lacking_of_complete? h)
      · cases h
        intro c hc
        exact hlacking c (List.mem_cons_of_mem d hc)
    · cases h
  all_goals exact hr.stepToken h

/-- Any characters lead to where no literal takes a blank. -/
theorem SparesBlanks.run {cs : List Char} (hr : r.SparesBlanks) (h : r.run cs = some r') :
    r'.SparesBlanks := by
  induction cs generalizing r with
  | nil =>
    cases h
    exact hr
  | cons c cs ih =>
    rw [run_cons] at h
    obtain ⟨r₁, hr₁, h⟩ := Option.bind_eq_some_iff.1 h
    exact ih (hr.step hr₁) h

end Reader

/-- A blank is one of four characters. -/
theorem of_isBlank {c : Char} (h : isBlank c = true) : c = ' ' ∨ c = '\t' ∨ c = '\n' ∨ c = '\r' := by
  simpa [isBlank, or_assoc] using h

/-- A number ends in front of a blank. -/
theorem Scan.push?_blank {c : Char} (hc : isBlank c = true) (s : Scan) : s.push? c = none := by
  have hdigit : Decimal.Digit.ofChar? c = none := by
    rcases of_isBlank hc with rfl | rfl | rfl | rfl <;> rfl
  have hmark : c ≠ '.' ∧ c ≠ 'e' ∧ c ≠ 'E' ∧ c ≠ '+' ∧ c ≠ '-' := by
    rcases of_isBlank hc with rfl | rfl | rfl | rfl <;> decide
  obtain ⟨hpoint, he, hE, hplus, hminus⟩ := hmark
  cases s <;> simp [push?, hdigit, hpoint, he, hE, hplus, hminus]

namespace Reader

variable {r : Reader} {c : Char}

/-- Behind the last character a blank leaves the value as it is. -/
theorem finish?_step?_blank (hc : isBlank c = true) (hr : r.SparesBlanks) :
    (r.step? c).bind finish? = r.finish? := by
  obtain ⟨ls, phase⟩ := r
  have htoken : ∀ r : Reader, r.stepToken? c = some r := by
    intro r
    unfold stepToken?
    exact if_pos hc
  cases phase with
  | quote q =>
    -- a string stays open, or the blank has no place in it
    have hquote : c ≠ '"' := by
      rcases of_isBlank hc with rfl | rfl | rfl | rfl <;> decide
    have hopen : ∀ q? : Option Quote, (q?.map fun q => (⟨ls, .quote q⟩ : Reader)).bind finish? = none := by
      rintro (_ | q)
      · rfl
      · rfl
    cases q with
    | plain cs =>
      show ((if c = '"' then _ else _) : Option Reader).bind finish? = none
      rw [if_neg hquote]
      exact hopen _
    | _ => exact hopen _
  | number s =>
    have hstep : step? ⟨ls, .number s⟩ c = s.finish?.bind fun n => complete? (.number n) ls := by
      unfold step?
      simp only [Scan.push?_blank hc, htoken]
      simp
    rw [hstep]
    -- where the number is the whole text it is the value; elsewhere an array or an object is open
    rcases ls with _ | ⟨l, ls⟩
    · show _ = s.finish?.map Value.number
      rcases s.finish? with _ | n
      · rfl
      · rfl
    · show _ = none
      rcases s.finish? with _ | n
      · rfl
      · rcases l with items | ms | ⟨ms, k⟩
        · rfl
        · rfl
        · rfl
  | literal rest v =>
    rcases rest with _ | ⟨d, ds⟩
    · rfl
    · have hletter : isBlank d = false := hr d List.mem_cons_self
      have hne : c ≠ d := by
        rintro rfl
        rw [hc] at hletter
        cases hletter
      show ((if c = d then _ else none) : Option Reader).bind finish? = none
      rw [if_neg hne]
      rfl
  | _ =>
    show (stepToken? _ c).bind finish? = _
    rw [htoken]
    rfl

end Reader

/-- A text with one more blank is the same value, or none as before. -/
theorem Value.ofChars?_concat_blank {c : Char} (hc : isBlank c = true) (cs : List Char) :
    Value.ofChars? (cs ++ [c]) = Value.ofChars? cs := by
  show (Reader.start.run (cs ++ [c])).bind Reader.finish? = (Reader.start.run cs).bind Reader.finish?
  rw [Reader.run_append]
  rcases hr : Reader.start.run cs with _ | r
  · rfl
  · have hspares : r.SparesBlanks := (Reader.sparesBlanks_of_lacking rfl).run hr
    rw [Option.bind_some, Option.bind_some, ← Reader.finish?_step?_blank hc hspares]
    simp

end Json

namespace Payload

/-- A payload with one more blank has the same value, or none as before. -/
theorem decode?_concat_blank {b : UInt8} (hb : b.toNat < 0x80)
    (hblank : Json.isBlank (Char.ofNat b.toNat) = true) (payload : Bytes) : decode? (payload ++ [b]) = decode? payload := by
  unfold decode?
  rw [Text.decodeChars?_concat hb]
  rcases Text.decodeChars? payload with _ | cs
  · rfl
  · exact Json.Value.ofChars?_concat_blank hblank cs

end Payload
end FramedCall
