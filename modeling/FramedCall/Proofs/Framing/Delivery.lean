import Mathlib.Data.List.Basic
import FramedCall.Framing.Deframer
import FramedCall.Proofs.Framing.Length

/-!
# Delivery in pieces

A stream may arrive in pieces of any size. `Deframer.drainEach` takes the pieces one by one and
empties the deframer behind each, up to the first violation. What comes out does not depend on the
cut (`drainEach_eq_of_flatten_eq`).

The proof goes through one attempt. In a *tidy* deframer (`Deframer.Tidy`: what counts as searched
has been searched) more bytes at the end change nothing about a payload that is complete
(`next_extend_some`), about a stream that only waits (`next_extend_none`), or about a violation,
except for its wording (`next_extend_error`). The last of the three is where the check of an
incomplete length or line has to be at least as lenient as that of a complete one.
-/

namespace FramedCall

open Framing (Violation Length.check Length.parse)

/-- The byte that is searched for in a stream. -/
def Framing.delimiter : Framing → UInt8
  | .lengthPrefixed => separator
  | .newline => terminator

namespace Deframer

/-! ### Tidy deframers -/

/-- What counts as searched is there and holds no delimiter. A payload is awaited behind a length
only, and nothing counts as searched then. -/
structure Tidy (b : Deframer) : Prop where
  /-- What counts as searched is there. -/
  searched_le : b.searched ≤ b.size
  /-- It holds no delimiter. -/
  searched_ne : ∀ x ∈ b.buffered.take b.searched, x ≠ b.framing.delimiter
  /-- A payload is awaited behind a length only, where nothing has been searched. -/
  awaited : b.awaited.isSome → b.framing = .lengthPrefixed ∧ b.searched = 0

/-- A new deframer is tidy. -/
theorem tidy_empty (framing : Framing) (limit : Nat) : (empty framing limit).Tidy :=
  ⟨Nat.le_refl _, by simp [empty], by simp [empty]⟩

/-- Bytes that are appended stand behind what counts as searched. -/
theorem Tidy.extend {b : Deframer} (hb : b.Tidy) (data : Bytes) : (b.extend data).Tidy := by
  have hle := hb.searched_le
  refine ⟨?_, ?_, hb.awaited⟩
  · simp only [Deframer.extend, size, List.length_append] at hle ⊢
    omega
  · intro x hx
    apply hb.searched_ne x
    simpa only [Deframer.extend, List.take_append_of_le_length hle] using hx

/-- No payload is awaited on a stream of lines. -/
theorem Tidy.awaited_of_newline {b : Deframer} (hb : b.Tidy) (hf : b.framing = .newline) :
    b.awaited = none := by
  rcases ha : b.awaited with _ | n
  · rfl
  · have := (hb.awaited (by simp [ha])).1
    simp [hf] at this

/-- The search that starts over finds the same. -/
theorem find_delimiter {b : Deframer} (hb : b.Tidy) :
    b.find b.framing.delimiter = b.buffered.findIdx? (· == b.framing.delimiter) := by
  have hnone : (b.buffered.take b.searched).findIdx? (· == b.framing.delimiter) = none := by
    rw [List.findIdx?_eq_none_iff]
    intro x hx
    simpa using hb.searched_ne x hx
  have hlen : (b.buffered.take b.searched).length = b.searched :=
    List.length_take_of_le hb.searched_le
  conv_rhs => rw [← List.take_append_drop b.searched b.buffered]
  rw [List.findIdx?_append, hnone, Option.none_or, hlen, find]
  simp only [Nat.add_comm]

/-- Bytes without a delimiter, all searched. -/
theorem tidy_searched_all {b : Deframer} (hawaited : b.awaited = none)
    (h : b.buffered.findIdx? (· == b.framing.delimiter) = none) : ({ b with searched := b.size }).Tidy := by
  refine ⟨Nat.le_refl _, ?_, by simp [hawaited]⟩
  intro x hx
  simp only [size, List.take_length] at hx
  simpa using List.findIdx?_eq_none_iff.1 h x hx

/-- A byte is looked for in vain where it is not, and only there. -/
theorem findIdx?_eq_none_iff_not_mem {d : UInt8} {xs : Bytes} :
    xs.findIdx? (· == d) = none ↔ d ∉ xs := by
  rw [List.findIdx?_eq_none_iff]
  constructor
  · intro h hd
    simpa using h d hd
  · intro h x hx
    simpa using ne_of_mem_of_not_mem hx h

/-- A delimiter that is there is found at the same place when more follows. -/
theorem findIdx?_append_some {p : UInt8 → Bool} {xs : Bytes} {i : Nat}
    (h : xs.findIdx? p = some i) (ys : Bytes) : (xs ++ ys).findIdx? p = some i := by
  rw [List.findIdx?_append, h, Option.some_or]

/-- A delimiter that comes later stands behind all that was there. -/
theorem le_of_findIdx?_append {p : UInt8 → Bool} {xs ys : Bytes} {i : Nat}
    (hxs : xs.findIdx? p = none) (h : (xs ++ ys).findIdx? p = some i) : xs.length ≤ i := by
  rw [List.findIdx?_append, hxs, Option.none_or] at h
  obtain ⟨j, -, rfl⟩ := Option.map_eq_some_iff.1 h
  omega

/-! ### One attempt -/

/-- Where a length has been taken out, its payload is what is looked for. -/
theorem next_awaited {b : Deframer} {n : Nat} (hf : b.framing = .lengthPrefixed)
    (ha : b.awaited = some n) : b.next = .ok (b.takePayload n) := by
  simp only [next, hf, nextPrefixed, ha]

/-- Where the bar behind a length is missing, the digits are checked and all counts as searched. -/
theorem next_incomplete {b : Deframer} (hb : b.Tidy) (hf : b.framing = .lengthPrefixed)
    (ha : b.awaited = none) (hp : b.buffered.findIdx? (· == b.framing.delimiter) = none) :
    b.next = (Length.check b.buffered).bind fun _ => .ok (none, { b with searched := b.size }) := by
  have hfind := find_delimiter hb
  rw [hp, hf] at hfind
  simp only [Framing.delimiter] at hfind
  simp only [next, hf, nextPrefixed, ha, hfind]
  rfl

/-- Where the bar is there, the digits in front of it are the length of the payload behind it. -/
theorem next_length {b : Deframer} {pos : Nat} (hb : b.Tidy) (hf : b.framing = .lengthPrefixed)
    (ha : b.awaited = none) (hp : b.buffered.findIdx? (· == b.framing.delimiter) = some pos) :
    b.next = (Length.parse (b.buffered.take pos)).bind fun n =>
      if b.limit < n then .error (.payloadTooLong n b.limit)
      else .ok (takePayload { b with buffered := b.buffered.drop (pos + 1), searched := 0 } n) := by
  have hfind := find_delimiter hb
  rw [hp, hf] at hfind
  simp only [Framing.delimiter] at hfind
  simp only [next, hf, nextPrefixed, ha, hfind]
  rfl

/-- A line is what stands in front of the first line feed, and is measured even if there is none
yet. -/
theorem next_line {b : Deframer} (hb : b.Tidy) (hf : b.framing = .newline) :
    b.next = match b.buffered.findIdx? (· == b.framing.delimiter) with
      | none =>
        if b.limit < b.size then .error (.lineTooLong b.limit)
        else .ok (none, { b with searched := b.size })
      | some pos =>
        if b.limit < pos then .error (.lineTooLong b.limit)
        else .ok (some (b.buffered.take pos),
          { b with buffered := b.buffered.drop (pos + 1), searched := 0 }) := by
  have hfind := find_delimiter hb
  simp only [next, hf, nextLine, Framing.delimiter] at hfind ⊢
  rw [hfind]
  cases b.buffered.findIdx? (· == Framing.terminator) <;> rfl

/-- A payload that is complete stays what it is. -/
theorem takePayload_extend_some {b b' : Deframer} {n : Nat} {p : Bytes}
    (h : b.takePayload n = (some p, b')) (more : Bytes) :
    (b.extend more).takePayload n = (some p, b'.extend more) := by
  unfold takePayload at h ⊢
  split at h
  · cases h
  · next hsize =>
    have hle : n ≤ b.buffered.length := Nat.le_of_not_lt hsize
    cases h
    rw [if_neg (by simp only [extend, size, List.length_append]; omega)]
    simp only [extend, List.take_append_of_le_length hle, List.drop_append_of_le_length hle]

/-- A payload that is not complete is awaited, and looked for again with what follows. -/
theorem takePayload_extend_none {b b' : Deframer} {n : Nat} (h : b.takePayload n = (none, b'))
    (more : Bytes) : b'.awaited = some n ∧ b'.framing = b.framing ∧
      (b.extend more).takePayload n = (b'.extend more).takePayload n := by
  unfold takePayload at h
  split at h
  · cases h
    exact ⟨rfl, rfl, rfl⟩
  · cases h

/-- What more bytes make of an attempt that gave `r`. -/
def GoesOn (b : Deframer) (more : Bytes) : Except Violation Extraction → Prop
  | .ok (some p, b') => (b.extend more).next = .ok (some p, b'.extend more)
  | .ok (none, b') => (b.extend more).next = (b'.extend more).next
  | .error _ => ∃ v, (b.extend more).next = .error v

/-- An attempt that comes to taking a payload out goes on with more bytes, whether the payload is
complete or not. -/
theorem goesOn_takePayload {b b₁ : Deframer} {n : Nat} {more : Bytes}
    (hf : b₁.framing = .lengthPrefixed)
    (h : (b.extend more).next = .ok ((b₁.extend more).takePayload n)) :
    b.GoesOn more (.ok (b₁.takePayload n)) := by
  rcases ht : b₁.takePayload n with ⟨_ | p, b'⟩
  · obtain ⟨ha, hf', he⟩ := takePayload_extend_none ht more
    rw [GoesOn, h, he]
    exact (next_awaited (b := b'.extend more) (hf'.trans hf) ha).symm
  · rw [GoesOn, h, takePayload_extend_some ht more]

/-- A length that is refused before it is complete is refused with what follows. -/
theorem next_extend_of_check_error {b : Deframer} (hb : b.Tidy) (hf : b.framing = .lengthPrefixed)
    (ha : b.awaited = none) (hp : b.buffered.findIdx? (· == b.framing.delimiter) = none)
    {v : Violation} (hc : Length.check b.buffered = .error v) (more : Bytes) :
    ∃ v', (b.extend more).next = .error v' := by
  have ha' : (b.extend more).awaited = none := ha
  rcases hp' : (b.extend more).buffered.findIdx? (· == b.framing.delimiter) with _ | pos
  · obtain ⟨v', hv'⟩ := Framing.Length.check_append_error hc more
    refine ⟨v', ?_⟩
    rw [next_incomplete (hb.extend more) hf ha' hp']
    simp only [extend, hv']
    rfl
  · have hle := le_of_findIdx?_append hp hp'
    have htake : (b.extend more).buffered.take pos
        = b.buffered ++ more.take (pos - b.buffered.length) := by
      simp only [extend, List.take_append, List.take_of_length_le hle]
    obtain ⟨v', hv'⟩ := Framing.Length.parse_append_error hc (more.take (pos - b.buffered.length))
    refine ⟨v', ?_⟩
    rw [next_length (hb.extend more) hf ha' hp', htake, hv']
    rfl

/-- Under length prefixes, where the length is not complete. -/
theorem goesOn_incomplete {b : Deframer} (hb : b.Tidy) (hf : b.framing = .lengthPrefixed)
    (ha : b.awaited = none) (hp : b.buffered.findIdx? (· == b.framing.delimiter) = none)
    (more : Bytes) : b.GoesOn more b.next := by
  rw [next_incomplete hb hf ha hp]
  rcases hc : Length.check b.buffered with v | u
  · exact next_extend_of_check_error hb hf ha hp hc more
  · have htidy := tidy_searched_all ha hp
    have ha' : (b.extend more).awaited = none := ha
    show (b.extend more).next = _
    rcases hp' : (b.extend more).buffered.findIdx? (· == b.framing.delimiter) with _ | pos
    · rw [next_incomplete (hb.extend more) hf ha' hp',
        next_incomplete (htidy.extend more) hf ha' hp']
      rfl
    · rw [next_length (hb.extend more) hf ha' hp', next_length (htidy.extend more) hf ha' hp']
      rfl

/-- Under length prefixes, where the length is complete. -/
theorem goesOn_length {b : Deframer} {pos : Nat} (hb : b.Tidy) (hf : b.framing = .lengthPrefixed)
    (ha : b.awaited = none) (hp : b.buffered.findIdx? (· == b.framing.delimiter) = some pos)
    (more : Bytes) : b.GoesOn more b.next := by
  have hlt : pos < b.buffered.length := (List.findIdx?_eq_some_iff_getElem.1 hp).1
  have hp' := findIdx?_append_some hp more
  have hnext := next_length (hb.extend more) hf ha hp'
  simp only [extend, List.take_append_of_le_length (Nat.le_of_lt hlt),
    List.drop_append_of_le_length (Nat.succ_le_of_lt hlt)] at hnext
  rw [next_length hb hf ha hp]
  rcases hparse : Length.parse (b.buffered.take pos) with v | n
  · rw [hparse] at hnext
    exact ⟨v, hnext⟩
  · rw [hparse] at hnext
    simp only [Except.bind] at hnext ⊢
    split
    · next hlim =>
      rw [if_pos hlim] at hnext
      exact ⟨_, hnext⟩
    · next hlim =>
      rw [if_neg hlim] at hnext
      exact goesOn_takePayload hf hnext

/-- Under length prefixes. -/
theorem goesOn_prefixed {b : Deframer} (hb : b.Tidy) (hf : b.framing = .lengthPrefixed)
    (more : Bytes) : b.GoesOn more b.next := by
  rcases ha : b.awaited with _ | n
  · rcases hp : b.buffered.findIdx? (· == b.framing.delimiter) with _ | pos
    · exact goesOn_incomplete hb hf ha hp more
    · exact goesOn_length hb hf ha hp more
  · rw [next_awaited hf ha]
    exact goesOn_takePayload hf (next_awaited (b := b.extend more) hf ha)

/-- Under line ends. -/
theorem goesOn_line {b : Deframer} (hb : b.Tidy) (hf : b.framing = .newline) (more : Bytes) :
    b.GoesOn more b.next := by
  have hnext := next_line (hb.extend more) hf
  rw [next_line hb hf]
  rcases hp : b.buffered.findIdx? (· == b.framing.delimiter) with _ | pos
  · simp only
    split
    · next hlim =>
      -- the line is too long before it is complete
      refine ⟨.lineTooLong b.limit, ?_⟩
      rcases hp' : (b.extend more).buffered.findIdx? (· == (b.extend more).framing.delimiter)
        with _ | pos
      · rw [hp'] at hnext
        rw [hnext]
        exact if_pos (by simp only [extend, size, List.length_append] at hlim ⊢; omega)
      · have hle := le_of_findIdx?_append hp hp'
        rw [hp'] at hnext
        rw [hnext]
        exact if_pos (by simp only [extend, size] at hlim ⊢; omega)
    · have htidy := tidy_searched_all (hb.awaited_of_newline hf) hp
      show (b.extend more).next = _
      rw [hnext, next_line (htidy.extend more) hf]
      rfl
  · have hlt : pos < b.buffered.length := (List.findIdx?_eq_some_iff_getElem.1 hp).1
    have hp' := findIdx?_append_some hp more
    simp only [extend, hp', List.take_append_of_le_length (Nat.le_of_lt hlt),
      List.drop_append_of_le_length (Nat.succ_le_of_lt hlt)] at hnext
    simp only
    split
    · next hlim =>
      rw [if_pos hlim] at hnext
      exact ⟨_, hnext⟩
    · next hlim =>
      rw [if_neg hlim] at hnext
      exact hnext

/-- Whatever an attempt gives, it gives it again with more bytes at the end, or goes on from where it
stood. -/
theorem goesOn_next {b : Deframer} (hb : b.Tidy) (more : Bytes) : b.GoesOn more b.next := by
  rcases hf : b.framing
  · exact goesOn_prefixed hb hf more
  · exact goesOn_line hb hf more

/-- A payload that is complete is taken out with any bytes behind it, which are left. -/
theorem next_extend_some {b b' : Deframer} {p : Bytes} (hb : b.Tidy) (h : b.next = .ok (some p, b'))
    (more : Bytes) : (b.extend more).next = .ok (some p, b'.extend more) := by
  have := goesOn_next hb more
  rwa [h] at this

/-- An attempt that gives nothing makes no difference to one with more bytes. -/
theorem next_extend_none {b b' : Deframer} (hb : b.Tidy) (h : b.next = .ok (none, b'))
    (more : Bytes) : (b.extend more).next = (b'.extend more).next := by
  have := goesOn_next hb more
  rwa [h] at this

/-- A violation stays one with any bytes behind it, though it may be another. -/
theorem next_extend_error {b : Deframer} {v : Violation} (hb : b.Tidy) (h : b.next = .error v)
    (more : Bytes) : ∃ v', (b.extend more).next = .error v' := by
  have := goesOn_next hb more
  rwa [h] at this

/-- Taking a payload out leaves a tidy deframer, whether the payload is complete or not. -/
theorem tidy_takePayload {b b' : Deframer} {n : Nat} {p? : Option Bytes}
    (hf : b.framing = .lengthPrefixed) (hs : b.searched = 0) (h : b.takePayload n = (p?, b')) :
    b'.Tidy := by
  unfold takePayload at h
  split at h
  · cases h
    exact ⟨by simp [hs], by simp [hs], fun _ => ⟨hf, hs⟩⟩
  · cases h
    exact ⟨by simp [hs], by simp [hs], fun _ => ⟨hf, hs⟩⟩

/-- An attempt on a stream of lengths leaves a tidy deframer. -/
theorem tidy_next_prefixed {b b' : Deframer} {p? : Option Bytes} (hb : b.Tidy)
    (hf : b.framing = .lengthPrefixed) (h : b.next = .ok (p?, b')) : b'.Tidy := by
  rcases ha : b.awaited with _ | n
  · rcases hp : b.buffered.findIdx? (· == b.framing.delimiter) with _ | pos
    · rw [next_incomplete hb hf ha hp] at h
      rcases hc : Length.check b.buffered with v | u
      · rw [hc] at h
        cases h
      · rw [hc] at h
        cases h
        exact tidy_searched_all ha hp
    · rw [next_length hb hf ha hp] at h
      rcases hparse : Length.parse (b.buffered.take pos) with v | n
      · rw [hparse] at h
        cases h
      · rw [hparse] at h
        simp only [Except.bind] at h
        split at h
        · cases h
        · exact tidy_takePayload (by exact hf) (by rfl) (Except.ok.inj h)
  · rw [next_awaited hf ha] at h
    exact tidy_takePayload hf (hb.awaited (by simp [ha])).2 (Except.ok.inj h)

/-- An attempt on a stream of lines leaves a tidy deframer. -/
theorem tidy_next_line {b b' : Deframer} {p? : Option Bytes} (hb : b.Tidy)
    (hf : b.framing = .newline) (h : b.next = .ok (p?, b')) : b'.Tidy := by
  have ha := hb.awaited_of_newline hf
  rw [next_line hb hf] at h
  rcases hp : b.buffered.findIdx? (· == b.framing.delimiter) with _ | pos
  · rw [hp] at h
    simp only at h
    split at h
    · cases h
    · cases h
      exact tidy_searched_all ha hp
  · rw [hp] at h
    simp only at h
    split at h
    · cases h
    · cases h
      exact ⟨by simp, by simp, by simp [ha]⟩

/-- An attempt leaves a tidy deframer. -/
theorem tidy_next {b b' : Deframer} {p? : Option Bytes} (hb : b.Tidy) (h : b.next = .ok (p?, b')) :
    b'.Tidy := by
  rcases hf : b.framing
  · exact tidy_next_prefixed hb hf h
  · exact tidy_next_line hb hf h

/-! ### Taking all payloads out -/

/-- Appending no bytes changes nothing. -/
@[simp] theorem extend_nil (b : Deframer) : b.extend [] = b := by
  simp [extend]

/-- Bytes may be appended in two pieces. -/
theorem extend_append (b : Deframer) (x y : Bytes) : b.extend (x ++ y) = (b.extend x).extend y := by
  simp [extend]

/-- A violation at the front is all that comes out. -/
theorem drain_of_error {b : Deframer} {v : Violation} (h : b.next = .error v) :
    b.drain = ⟨[], some v, b⟩ := by
  rw [drain]
  split <;> simp_all

/-- Where no payload is complete none comes out. -/
theorem drain_of_none {b b' : Deframer} (h : b.next = .ok (none, b')) :
    b.drain = ⟨[], none, b'⟩ := by
  rw [drain]
  split <;> simp_all

/-- One more payload in front. -/
def Drained.cons (p : Bytes) (d : Drained) : Drained :=
  { d with payloads := p :: d.payloads }

/-- The first payload comes out in front of the others. -/
theorem drain_of_some {b b' : Deframer} {p : Bytes} (h : b.next = .ok (some p, b')) :
    b.drain = b'.drain.cons p := by
  rw [drain]
  split <;> simp_all [Drained.cons]

/-- No payload is complete and nothing remains to be searched. -/
def Idle (b : Deframer) : Prop :=
  b.next = .ok (none, b)

/-- Nothing comes out of an idle deframer, and it stays as it is. -/
theorem Idle.drain {b : Deframer} (h : b.Idle) : b.drain = ⟨[], none, b⟩ :=
  drain_of_none h

/-- A new deframer is idle. -/
theorem idle_empty (framing : Framing) (limit : Nat) : (empty framing limit).Idle := by
  cases framing <;> rfl

/-- Who has looked in vain looks in vain again. -/
theorem idle_of_next {b b' : Deframer} (hb : b.Tidy) (h : b.next = .ok (none, b')) : b'.Idle := by
  have hagain := next_extend_none hb h []
  rw [extend_nil, extend_nil, h] at hagain
  exact hagain.symm

namespace Drained

/-- Goes on with the deframer that is left, unless there was a violation. -/
def andThen (d : Drained) (f : Deframer → Drained) : Drained :=
  match d.violation with
  | some _ => d
  | none => { f d.rest with payloads := d.payloads ++ (f d.rest).payloads }

/-- A payload in front stays in front, whatever comes behind. -/
theorem cons_andThen (p : Bytes) (d : Drained) (f : Deframer → Drained) :
    (d.cons p).andThen f = (d.andThen f).cons p := by
  obtain ⟨ps, v, b⟩ := d
  cases v <;> rfl

/-- The same payloads, and either a violation on both sides or on neither, with the same deframer
left. -/
structure Alike (d d' : Drained) : Prop where
  /-- The same payloads. -/
  payloads : d.payloads = d'.payloads
  /-- A violation on both sides or on neither. -/
  violation : d.violation.isSome = d'.violation.isSome
  /-- The same deframer is left where there is no violation. -/
  rest : d.violation = none → d.rest = d'.rest

/-- What comes out is like itself. -/
theorem Alike.refl (d : Drained) : d.Alike d :=
  ⟨rfl, rfl, fun _ => rfl⟩

/-- A violation is missing on both sides or on neither. -/
theorem Alike.none_iff {d d' : Drained} (h : d.Alike d') : d.violation = none ↔ d'.violation = none := by
  rw [← Option.not_isSome_iff_eq_none, ← Option.not_isSome_iff_eq_none, h.violation]

/-- Being alike goes both ways. -/
theorem Alike.symm {d d' : Drained} (h : d.Alike d') : d'.Alike d :=
  ⟨h.payloads.symm, h.violation.symm, fun hv => (h.rest (h.none_iff.2 hv)).symm⟩

/-- What is like the same is alike. -/
theorem Alike.trans {d d' d'' : Drained} (h : d.Alike d') (h' : d'.Alike d'') : d.Alike d'' :=
  ⟨h.payloads.trans h'.payloads, h.violation.trans h'.violation,
    fun hv => (h.rest hv).trans (h'.rest (h.none_iff.1 hv))⟩

/-- Going on in ways that are alike comes to results that are alike. -/
theorem Alike.andThen {d : Drained} {f g : Deframer → Drained}
    (h : d.violation = none → (f d.rest).Alike (g d.rest)) : (d.andThen f).Alike (d.andThen g) := by
  unfold Drained.andThen
  rcases hv : d.violation with _ | v
  · have hfg := h hv
    exact ⟨by simp only [hfg.payloads], hfg.violation, hfg.rest⟩
  · exact .refl d

/-- With the same payload in front what was alike is alike. -/
theorem Alike.cons {d d' : Drained} (h : d.Alike d') (p : Bytes) : (d.cons p).Alike (d'.cons p) :=
  ⟨congrArg (p :: ·) h.payloads, h.violation, h.rest⟩

end Drained

/-- A deframer that has been emptied is tidy and idle. -/
theorem tidy_idle_drain {b : Deframer} (hb : b.Tidy) (hv : b.drain.violation = none) :
    b.drain.rest.Tidy ∧ b.drain.rest.Idle := by
  induction b using drain.induct with
  | case1 b v h =>
    rw [drain_of_error h] at hv
    cases hv
  | case2 b b' h =>
    rw [drain_of_none h]
    exact ⟨tidy_next hb h, idle_of_next hb h⟩
  | case3 b p b' h ih =>
    rw [drain_of_some h] at hv ⊢
    exact ih (tidy_next hb h) hv

/-- Emptying a deframer with more bytes at the end is as good as emptying it first without them. -/
theorem drain_extend {b : Deframer} (hb : b.Tidy) (more : Bytes) :
    (b.extend more).drain.Alike (b.drain.andThen fun b' => (b'.extend more).drain) := by
  induction b using drain.induct with
  | case1 b v h =>
    obtain ⟨v', hv'⟩ := next_extend_error hb h more
    rw [drain_of_error h, drain_of_error hv']
    exact ⟨rfl, rfl, by simp⟩
  | case2 b b' h =>
    -- an attempt that found nothing without these bytes is made once more with them
    have hnext := next_extend_none hb h more
    rw [drain_of_none h]
    rcases hm : (b'.extend more).next with v | ⟨_ | p, b''⟩
    · rw [drain_of_error (hnext.trans hm), Drained.andThen, drain_of_error hm]
      exact ⟨rfl, rfl, by simp⟩
    · rw [drain_of_none (hnext.trans hm), Drained.andThen, drain_of_none hm]
      exact .refl _
    · rw [drain_of_some (hnext.trans hm), Drained.andThen, drain_of_some hm]
      exact .refl _
  | case3 b p b' h ih =>
    rw [drain_of_some h, drain_of_some (next_extend_some hb h more), Drained.cons_andThen]
    exact (ih (tidy_next hb h)).cons p

/-- A push gives what draining gives if that meets no violation. -/
theorem push_of_drain_none {b : Deframer} {data : Bytes} (h : (b.extend data).drain.violation = none) :
    b.push data = (.ok (b.extend data).drain.payloads, (b.extend data).drain.rest) := by
  rw [push, h]

/-- A push gives the violation and nothing else if draining meets one. -/
theorem push_of_drain_some {b : Deframer} {data : Bytes} {v : Violation}
    (h : (b.extend data).drain.violation = some v) :
    b.push data = (.error v, (b.extend data).drain.rest) := by
  rw [push, h]

/-- A stream without a violation is taken out piece by piece: what is complete in the first bytes, and
from what is left of them the rest. -/
theorem push_of_extend_append {b : Deframer} (hb : b.Tidy) (data more : Bytes)
    (h : (b.extend (data ++ more)).drain.violation = none) :
    ∃ ps b', b.push data = (.ok ps, b') ∧ b'.Tidy ∧ b'.Idle ∧
      (b.extend (data ++ more)).drain.payloads = ps ++ (b'.extend more).drain.payloads ∧
        (b'.extend more).drain.violation = none := by
  have hall := drain_extend (hb.extend data) more
  rw [← extend_append] at hall
  have hnone : (b.extend data).drain.violation = none := by
    rcases hv : (b.extend data).drain.violation with _ | v
    · rfl
    · have hsome := hall.violation
      rw [h, Drained.andThen, hv] at hsome
      simp [hv] at hsome
  obtain ⟨htidy, hidle⟩ := tidy_idle_drain (hb.extend data) hnone
  have hrest := hall.none_iff.1 h
  have hpayloads := hall.payloads
  rw [Drained.andThen, hnone] at hrest hpayloads
  exact ⟨_, _, push_of_drain_none hnone, htidy, hidle, hpayloads, hrest⟩

/-! ### Piece by piece -/

/-- Takes the pieces of a stream one by one and empties the deframer behind each, up to the first
violation. -/
def drainEach (b : Deframer) : List Bytes → Drained
  | [] => ⟨[], none, b⟩
  | c :: cs => (b.extend c).drain.andThen fun b' => b'.drainEach cs

/-- Pieces give what the whole gives. -/
theorem drainEach_alike {b : Deframer} (hb : b.Tidy) (hi : b.Idle) (cs : List Bytes) :
    (b.drainEach cs).Alike (b.extend cs.flatten).drain := by
  induction cs generalizing b with
  | nil =>
    rw [List.flatten_nil, extend_nil, hi.drain]
    exact .refl _
  | cons c cs ih =>
    rw [drainEach, List.flatten_cons, extend_append]
    refine Drained.Alike.trans (.andThen fun hv => ?_) (drain_extend (hb.extend c) _).symm
    obtain ⟨hb', hi'⟩ := tidy_idle_drain (hb.extend c) hv
    exact ih hb' hi'

/-- However a stream is cut into pieces, well-formed or not: a new deframer gives the same payloads,
it meets a violation in both cases or in neither, and where it meets none it is left the same, with
as many bytes held and the same payload awaited. -/
theorem drainEach_eq_of_flatten_eq (framing : Framing) (limit : Nat) {cs ds : List Bytes}
    (h : cs.flatten = ds.flatten) :
    ((empty framing limit).drainEach cs).Alike ((empty framing limit).drainEach ds) := by
  have hb := tidy_empty framing limit
  have hi := idle_empty framing limit
  have hcs := drainEach_alike hb hi cs
  rw [h] at hcs
  exact hcs.trans (drainEach_alike hb hi ds).symm

/-- The stream `1|a3|b|c9x` in one piece, and cut inside a length, inside a payload and in front of
the byte that breaks the framing. -/
theorem drainEach_eq_split_length :
    [[49], [124, 97, 51], [], [124, 98, 124], [99, 57], [120]].flatten
        = [([49, 124, 97, 51, 124, 98, 124, 99, 57, 120] : Bytes)].flatten ∧
      ((empty .lengthPrefixed 8).drainEach
          [[49], [124, 97, 51], [], [124, 98, 124], [99, 57], [120]]).Alike
        ((empty .lengthPrefixed 8).drainEach [[49, 124, 97, 51, 124, 98, 124, 99, 57, 120]]) :=
  ⟨rfl, drainEach_eq_of_flatten_eq .lengthPrefixed 8 rfl⟩

end Deframer
end FramedCall
