import Mathlib.Data.List.Basic
import Mathlib.Data.List.Forall2
import FramedCall.Proofs.Framing.Delivery

/-!
# Every byte of a stream

A deframer that has been fed bytes and asked for payloads, in any order of calls and without a
violation so far (`Deframer.Fed`), has lost none of the bytes, given none twice and moved none: they
are the payloads with what stands around them, and behind these what is still held
(`Deframer.Accounts`). The main statement is `Deframer.Fed.accounts_for_every_byte`.

All of it comes from what one attempt can do (`Deframer.Attempt`, `Deframer.attempt_of_next`).
-/

namespace FramedCall

open Framing (Violation terminator separator)

namespace Framing

/-! ### What stands around a payload -/

/-- The bytes `whole` of a stream bring the payload: it stands behind its length and a bar, or in front
of a line feed. -/
def Encloses (f : Framing) (payload whole : Bytes) : Prop :=
  match f with
  | .lengthPrefixed => ∃ ds, Length.Spells ds payload.length ∧ whole = ds ++ separator :: payload
  | .newline => whole = payload ++ [terminator]

/-- The bytes `front` have been taken out in front of what is held: the length of a payload that is
awaited with its bar, and nothing where none is awaited. -/
def Opens (f : Framing) (awaited : Option Nat) (front : Bytes) : Prop :=
  match awaited with
  | none => front = []
  | some n => f = .lengthPrefixed ∧ ∃ ds, Length.Spells ds n ∧ front = ds ++ [separator]

/-- A payload is followed by a line feed or stands behind a length. -/
theorem Encloses.length_pos {f : Framing} {payload whole : Bytes} (h : f.Encloses payload whole) :
    0 < whole.length := by
  cases f with
  | lengthPrefixed =>
    obtain ⟨ds, -, rfl⟩ := h
    rw [List.length_append, List.length_cons]
    omega
  | newline =>
    obtain rfl : whole = payload ++ [terminator] := h
    rw [List.length_append, List.length_singleton]
    omega

/-- Payloads with what stands around them are no fewer bytes than payloads. -/
theorem length_le_of_encloses {f : Framing} {payloads wholes : List Bytes}
    (h : List.Forall₂ f.Encloses payloads wholes) : payloads.length ≤ wholes.flatten.length := by
  induction h with
  | nil => exact Nat.le_refl _
  | cons hfirst _ ih =>
    have hpos := hfirst.length_pos
    rw [List.length_cons, List.flatten_cons, List.length_append]
    omega

end Framing

namespace Deframer

/-! ### What one attempt can do -/

/-- A payload of `n` bytes is next, and `rest` is held behind its length: the length has been taken out,
or it stands in front of the rest. -/
inductive Expects (b : Deframer) : Nat → Bytes → Prop where
  /-- The length has been taken out. -/
  | awaited {n : Nat} : b.awaited = some n → b.Expects n b.buffered
  /-- The length stands in front. -/
  | spelled {n : Nat} {ds rest : Bytes} : b.awaited = none → b.buffered = ds ++ separator :: rest →
      Framing.Length.Spells ds n → n ≤ b.limit → b.Expects n rest

/-- What an attempt can give, and the deframer behind it. -/
inductive Attempt (b : Deframer) : Option Bytes → Deframer → Prop where
  /-- A line is there. -/
  | line {line rest : Bytes} : b.framing = .newline → b.awaited = none →
      b.buffered = line ++ terminator :: rest → terminator ∉ line → line.length ≤ b.limit →
      b.Attempt (some line) { b with buffered := rest, searched := 0 }
  /-- Some of a line is there. -/
  | partLine : b.framing = .newline → b.awaited = none → terminator ∉ b.buffered → b.size ≤ b.limit →
      b.Attempt none { b with searched := b.size }
  /-- Some of a length is there. -/
  | partLength : b.framing = .lengthPrefixed → b.awaited = none → separator ∉ b.buffered →
      (b.buffered.dropWhile (· = 48)).length ≤ Framing.maxLengthDigits →
      b.Attempt none { b with searched := b.size }
  /-- A payload is there. -/
  | payload {payload rest : Bytes} : b.framing = .lengthPrefixed →
      b.Expects payload.length (payload ++ rest) →
      b.Attempt (some payload) { b with buffered := rest, awaited := none, searched := 0 }
  /-- Some of a payload is there. -/
  | partPayload {n : Nat} {rest : Bytes} : b.framing = .lengthPrefixed → b.Expects n rest →
      rest.length < n → b.Attempt none { b with buffered := rest, awaited := some n, searched := 0 }

/-- Where a byte is found, the bytes in front of it are others. -/
theorem split_of_findIdx? {d : UInt8} {xs : Bytes} {pos : Nat} (h : xs.findIdx? (· == d) = some pos) :
    xs = xs.take pos ++ d :: xs.drop (pos + 1) ∧ d ∉ xs.take pos := by
  obtain ⟨hlt, hd, hbefore⟩ := List.findIdx?_eq_some_iff_getElem.1 h
  have hd : xs[pos] = d := by simpa using hd
  refine ⟨?_, ?_⟩
  · rw [← hd, ← List.drop_eq_getElem_cons, List.take_append_drop]
  · intro hmem
    obtain ⟨i, hi, hid⟩ := List.getElem_of_mem hmem
    rw [List.length_take] at hi
    have hne := hbefore i (by omega)
    rw [List.getElem_take] at hid
    simp [hid] at hne

/-- Where the length of a payload is known, the payload is taken out or awaited. -/
theorem attempt_takePayload {b b' : Deframer} {n : Nat} {rest : Bytes} {p? : Option Bytes}
    (hf : b.framing = .lengthPrefixed) (hexpects : b.Expects n rest)
    (h : takePayload { b with buffered := rest, searched := 0 } n = (p?, b')) : b.Attempt p? b' := by
  unfold takePayload at h
  split at h
  · next hlt =>
    cases h
    exact .partPayload hf hexpects hlt
  · next hlt =>
    cases h
    have hn : (rest.take n).length = n := by
      rw [List.length_take]
      exact Nat.min_eq_left (Nat.le_of_not_lt hlt)
    have hpayload : b.Expects (rest.take n).length (rest.take n ++ rest.drop n) := by
      rwa [List.take_append_drop, hn]
    exact .payload hf hpayload

/-- On a stream of lengths an attempt takes out a payload, or what there is of a length or of a
payload is left. -/
theorem attempt_of_next_prefixed {b b' : Deframer} {p? : Option Bytes} (hb : b.Tidy)
    (hf : b.framing = .lengthPrefixed) (h : b.next = .ok (p?, b')) : b.Attempt p? b' := by
  rcases ha : b.awaited with _ | n
  · rcases hp : b.buffered.findIdx? (· == b.framing.delimiter) with _ | pos
    · rw [next_incomplete hb hf ha hp] at h
      rcases hc : Framing.Length.check b.buffered with v | ⟨⟩
      · rw [hc] at h
        cases h
      · rw [hc] at h
        cases h
        rw [hf] at hp
        exact .partLength hf ha (findIdx?_eq_none_iff_not_mem.1 hp) (Framing.Length.check_eq_ok_iff.1 hc).2
    · rw [next_length hb hf ha hp] at h
      rcases hparse : Framing.Length.parse (b.buffered.take pos) with v | n
      · rw [hparse] at h
        cases h
      · rw [hparse] at h
        simp only [Except.bind] at h
        split at h
        · cases h
        · next hlim =>
          rw [hf] at hp
          have hexpects : b.Expects n (b.buffered.drop (pos + 1)) :=
            .spelled ha (split_of_findIdx? hp).1 (Framing.Length.spells_of_parse hparse)
              (Nat.le_of_not_lt hlim)
          exact attempt_takePayload hf hexpects (Except.ok.inj h)
  · rw [next_awaited hf ha] at h
    -- nothing counts as searched where a payload is awaited
    have hsearched : b = { b with searched := 0 } := by
      rw [← (hb.awaited (by simp [ha])).2]
    rw [hsearched] at h
    exact attempt_takePayload hf (.awaited ha) (Except.ok.inj h)

/-- On a stream of lines an attempt takes out a line, or what there is of one is left. -/
theorem attempt_of_next_line {b b' : Deframer} {p? : Option Bytes} (hb : b.Tidy)
    (hf : b.framing = .newline) (h : b.next = .ok (p?, b')) : b.Attempt p? b' := by
  have ha := hb.awaited_of_newline hf
  rw [next_line hb hf] at h
  rcases hp : b.buffered.findIdx? (· == b.framing.delimiter) with _ | pos
  · rw [hp] at h
    simp only at h
    split at h
    · cases h
    · next hlim =>
      cases h
      rw [hf] at hp
      exact .partLine hf ha (findIdx?_eq_none_iff_not_mem.1 hp) (Nat.le_of_not_lt hlim)
  · rw [hp] at h
    simp only at h
    split at h
    · cases h
    · next hlim =>
      cases h
      rw [hf] at hp
      obtain ⟨hsplit, hmem⟩ := split_of_findIdx? hp
      have hlength : (b.buffered.take pos).length ≤ b.limit := by
        rw [List.length_take]
        omega
      exact .line hf ha hsplit hmem hlength

/-- What an attempt gives is one of these. -/
theorem attempt_of_next {b b' : Deframer} {p? : Option Bytes} (hb : b.Tidy)
    (h : b.next = .ok (p?, b')) : b.Attempt p? b' := by
  rcases hf : b.framing
  · exact attempt_of_next_prefixed hb hf h
  · exact attempt_of_next_line hb hf h

/-- No attempt changes the framing or the limit. -/
theorem Attempt.unchanged {b b' : Deframer} {p? : Option Bytes} (h : b.Attempt p? b') :
    b'.framing = b.framing ∧ b'.limit = b.limit := by
  cases h <;> exact ⟨rfl, rfl⟩

/-! ### Bytes in, payloads out -/

/-- A stream is the payloads taken out of it with what stands around them, and behind these what has
been taken out in front of the bytes held, and these bytes. -/
def Accounts (b : Deframer) (input : Bytes) (taken : List Bytes) : Prop :=
  ∃ wholes front, List.Forall₂ b.framing.Encloses taken wholes ∧ b.framing.Opens b.awaited front ∧
    input = wholes.flatten ++ front ++ b.buffered

variable {b b' : Deframer} {input : Bytes} {taken : List Bytes} {p? : Option Bytes}

/-- The length of the payload that is next stands behind the payloads that were taken out. -/
theorem Accounts.expects (h : b.Accounts input taken) {n : Nat} {rest : Bytes} (he : b.Expects n rest) :
    ∃ wholes ds, List.Forall₂ b.framing.Encloses taken wholes ∧ Framing.Length.Spells ds n ∧
      input = wholes.flatten ++ (ds ++ separator :: rest) := by
  obtain ⟨wholes, front, hall, hopens, rfl⟩ := h
  cases he with
  | awaited ha =>
    rw [ha] at hopens
    obtain ⟨-, ds, hds, rfl⟩ := hopens
    exact ⟨wholes, ds, hall, hds, by simp⟩
  | @spelled ds _ ha hsplit hds hle =>
    rw [ha] at hopens
    obtain rfl : front = [] := hopens
    exact ⟨wholes, ds, hall, hds, by simp [hsplit]⟩

/-- An attempt loses no byte and moves none. -/
theorem Accounts.attempt (h : b.Accounts input taken) (ha : b.Attempt p? b') :
    b'.Accounts input (taken ++ p?.toList) := by
  cases ha with
  | @line line rest hf hawaited hsplit hmem hle =>
    obtain ⟨wholes, front, hall, hopens, rfl⟩ := h
    rw [hawaited] at hopens
    obtain rfl : front = [] := hopens
    have henc : b.framing.Encloses line (line ++ [terminator]) := by
      rw [hf]
      rfl
    refine ⟨wholes ++ [line ++ [terminator]], [], List.rel_append hall (.cons henc .nil), ?_, ?_⟩
    · show b.framing.Opens b.awaited []
      rw [hawaited]
      rfl
    · simp [hsplit]
  | partLine hf hawaited hmem hle =>
    rw [Option.toList_none, List.append_nil]
    exact h
  | partLength hf hawaited hmem hle =>
    rw [Option.toList_none, List.append_nil]
    exact h
  | @payload payload rest hf he =>
    obtain ⟨wholes, ds, hall, hds, rfl⟩ := h.expects he
    have henc : b.framing.Encloses payload (ds ++ separator :: payload) := by
      rw [hf]
      exact ⟨ds, hds, rfl⟩
    refine ⟨wholes ++ [ds ++ separator :: payload], [], List.rel_append hall (.cons henc .nil), rfl, ?_⟩
    simp
  | @partPayload n rest hf he hlt =>
    obtain ⟨wholes, ds, hall, hds, rfl⟩ := h.expects he
    rw [Option.toList_none, List.append_nil]
    -- the length is taken off: it opens what is awaited, and its payload is all that is held
    refine ⟨wholes, ds ++ [separator], hall, ⟨hf, ds, hds, rfl⟩, ?_⟩
    simp

/-- There are at least as many bytes as payloads. -/
theorem Accounts.length_le (h : b.Accounts input taken) : taken.length ≤ input.length := by
  obtain ⟨wholes, front, hall, -, rfl⟩ := h
  have hwholes := Framing.length_le_of_encloses hall
  simp only [List.length_append]
  omega

/-- A payload is accepted: it is not too long, and a line holds no line feed. -/
def Admits (b : Deframer) (payload : Bytes) : Prop :=
  payload.length ≤ b.limit ∧ (b.framing = .newline → terminator ∉ payload)

/-- A payload whose length has been accepted is not longer than the limit. -/
theorem Expects.le_limit {n : Nat} {rest : Bytes} (he : b.Expects n rest)
    (hb : ∀ m ∈ b.awaited, m ≤ b.limit) : n ≤ b.limit := by
  cases he with
  | awaited ha => exact hb n ha
  | spelled _ _ _ hle => exact hle

/-- A payload that is taken out is accepted, and so is the length of one that is awaited. -/
theorem Attempt.admits (h : b.Attempt p? b') (hb : ∀ n ∈ b.awaited, n ≤ b.limit) :
    (∀ p ∈ p?, b.Admits p) ∧ ∀ n ∈ b'.awaited, n ≤ b'.limit := by
  cases h with
  | line hf ha hsplit hmem hle =>
    refine ⟨?_, hb⟩
    rintro p ⟨⟩
    exact ⟨hle, fun _ => hmem⟩
  | partLine => exact ⟨by simp, hb⟩
  | partLength => exact ⟨by simp, hb⟩
  | payload hf he =>
    refine ⟨?_, by simp⟩
    rintro p ⟨⟩
    exact ⟨he.le_limit hb, by simp [hf]⟩
  | partPayload hf he hlt =>
    refine ⟨by simp, ?_⟩
    rintro n ⟨⟩
    exact he.le_limit hb

variable {framing : Framing} {limit : Nat}

/-- What holds of a deframer that has been fed a stream and has given payloads of it. -/
structure Invariant (framing : Framing) (limit : Nat) (b : Deframer) (input : Bytes)
    (taken : List Bytes) : Prop where
  /-- The framing is that of the stream. -/
  framing_eq : b.framing = framing
  /-- The limit is the one that was chosen. -/
  limit_eq : b.limit = limit
  /-- What counts as searched has been searched. -/
  tidy : b.Tidy
  /-- The stream is what was taken out and what is held. -/
  accounts : b.Accounts input taken
  /-- A length that was too long has not been taken out. -/
  awaited_le : ∀ n ∈ b.awaited, n ≤ b.limit
  /-- No payload has been taken out that is not accepted. -/
  admits : ∀ p ∈ taken, b.Admits p

/-- A new deframer has been fed nothing and has given nothing. -/
theorem invariant_empty (framing : Framing) (limit : Nat) :
    (empty framing limit).Invariant framing limit [] [] :=
  ⟨rfl, rfl, tidy_empty framing limit, ⟨[], [], .nil, rfl, rfl⟩, by simp [empty], by simp⟩

namespace Invariant

/-- Bytes that are appended are held. -/
theorem extend (h : b.Invariant framing limit input taken) (data : Bytes) :
    (b.extend data).Invariant framing limit (input ++ data) taken := by
  obtain ⟨wholes, front, hall, hopens, rfl⟩ := h.accounts
  refine ⟨h.framing_eq, h.limit_eq, h.tidy.extend data, ⟨wholes, front, hall, hopens, ?_⟩,
    h.awaited_le, h.admits⟩
  simp [Deframer.extend]

/-- One attempt. -/
theorem next (h : b.Invariant framing limit input taken) (hnext : b.next = .ok (p?, b')) :
    b'.Invariant framing limit input (taken ++ p?.toList) := by
  have ha := attempt_of_next h.tidy hnext
  obtain ⟨hadmits, hawaited⟩ := ha.admits h.awaited_le
  obtain ⟨hf, hl⟩ := ha.unchanged
  refine ⟨hf.trans h.framing_eq, hl.trans h.limit_eq, tidy_next h.tidy hnext, h.accounts.attempt ha,
    hawaited, ?_⟩
  intro p hp
  rw [Admits, hf, hl]
  rcases List.mem_append.1 hp with hp | hp
  · exact h.admits p hp
  · exact hadmits p (Option.mem_toList.1 hp)

end Invariant

/-! ### Taking out what is complete -/

/-- Attempts one after another, each of which gives a payload. -/
inductive Takes : Deframer → List Bytes → Deframer → Prop where
  /-- No attempt. -/
  | nil {b : Deframer} : b.Takes [] b
  /-- One more attempt in front. -/
  | cons {b b' b'' : Deframer} {p : Bytes} {ps : List Bytes} :
      b.next = .ok (some p, b') → b'.Takes ps b'' → b.Takes (p :: ps) b''

/-- A deframer is emptied by attempts up to the first that gives no payload. -/
theorem exists_takes (b : Deframer) : ∃ b', b.Takes b.drain.payloads b' ∧
    match b'.next with
    | .ok (some _, _) => False
    | .ok (none, b'') => b.drain.violation = none ∧ b.drain.rest = b''
    | .error v => b.drain.violation = some v ∧ b.drain.rest = b' := by
  induction b using drain.induct with
  | case1 b v h =>
    rw [drain_of_error h]
    refine ⟨b, .nil, ?_⟩
    rw [h]
    exact ⟨rfl, rfl⟩
  | case2 b b' h =>
    rw [drain_of_none h]
    refine ⟨b, .nil, ?_⟩
    rw [h]
    exact ⟨rfl, rfl⟩
  | case3 b p b' h ih =>
    obtain ⟨b'', htakes, hend⟩ := ih
    rw [drain_of_some h]
    exact ⟨b'', .cons h htakes, hend⟩

/-- A push appends its bytes and takes payload after payload, up to the first attempt that gives none. -/
theorem push_eq (b : Deframer) (data : Bytes) : ∃ ps b', (b.extend data).Takes ps b' ∧
    match b'.next with
    | .ok (some _, _) => False
    | .ok (none, b'') => b.push data = (.ok ps, b'')
    | .error v => b.push data = (.error v, b') := by
  obtain ⟨b', htakes, hend⟩ := exists_takes (b.extend data)
  refine ⟨_, b', htakes, ?_⟩
  rcases hn : b'.next with v | ⟨_ | p, b''⟩
  · rw [hn] at hend
    rw [push, hend.1, hend.2]
  · rw [hn] at hend
    rw [push, hend.1, hend.2]
  · rw [hn] at hend
    exact hend

/-- Payloads that are taken out one after another have been accepted, and no byte is lost. -/
theorem Invariant.takes {ps : List Bytes} (h : b.Invariant framing limit input taken)
    (htakes : b.Takes ps b') : b'.Invariant framing limit input (taken ++ ps) := by
  induction htakes generalizing taken with
  | nil => rwa [List.append_nil]
  | cons hnext _ ih =>
    rw [List.append_cons]
    exact ih (h.next hnext)

/-- A push that meets no violation ends with an attempt that gives nothing. -/
theorem takes_of_push {data : Bytes} {ps : List Bytes} (h : b.push data = (.ok ps, b')) :
    ∃ b₁, (b.extend data).Takes ps b₁ ∧ b₁.next = .ok (none, b') := by
  obtain ⟨qs, b₁, htakes, hend⟩ := b.push_eq data
  rcases hn : b₁.next with v | ⟨_ | p, b₂⟩
  · rw [hn, h] at hend
    cases hend
  · rw [hn, h] at hend
    cases hend
    exact ⟨b₁, htakes, hn⟩
  · rw [hn] at hend
    cases hend

/-- A push appends its bytes and takes out the payloads that it gives. -/
theorem Invariant.push {data : Bytes} {ps : List Bytes} (h : b.Invariant framing limit input taken)
    (hpush : b.push data = (.ok ps, b')) :
    b'.Invariant framing limit (input ++ data) (taken ++ ps) := by
  obtain ⟨b₁, htakes, hnext⟩ := takes_of_push hpush
  have h' := ((h.extend data).takes htakes).next hnext
  rwa [Option.toList_none, List.append_nil] at h'

/-- No payload is complete: none of a line or a length ends, or some of the payload that is awaited is
missing. -/
def Exhausted (b : Deframer) : Prop :=
  match b.awaited with
  | none => b.framing.delimiter ∉ b.buffered
  | some n => b.size < n

/-- An attempt that gives no payload leaves none that is complete. -/
theorem Attempt.exhausted (h : b.Attempt none b') : b'.Exhausted := by
  unfold Exhausted
  cases h with
  | partLine hf ha hmem hle =>
    simp only [ha, hf]
    exact hmem
  | partLength hf ha hmem hle =>
    simp only [ha, hf]
    exact hmem
  | partPayload hf he hlt => exact hlt

/-- The last call has taken out all that is complete: an attempt that gave nothing, or a push. -/
inductive Ends (b : Deframer) : Deframer → Prop where
  /-- An attempt has given nothing. -/
  | next {b' : Deframer} : b.next = .ok (none, b') → b.Ends b'
  /-- Bytes have been pushed. -/
  | push {b' : Deframer} {data : Bytes} {ps : List Bytes} : b.push data = (.ok ps, b') → b.Ends b'

/-- Such a call ends with an attempt that gives nothing. -/
theorem Ends.exists_attempt (h : b.Invariant framing limit input taken) (hends : b.Ends b') :
    ∃ b₁ : Deframer, (∃ input' taken', b₁.Invariant framing limit input' taken') ∧
      b₁.Attempt none b' := by
  cases hends with
  | next hnext => exact ⟨b, ⟨input, taken, h⟩, attempt_of_next h.tidy hnext⟩
  | push hpush =>
    obtain ⟨b₁, htakes, hnext⟩ := takes_of_push hpush
    have h₁ := (h.extend _).takes htakes
    exact ⟨b₁, ⟨_, _, h₁⟩, attempt_of_next h₁.tidy hnext⟩

/-! ### Any order of calls -/

/-- A new deframer has been fed `input` and has given `taken`, by appending, pushing and attempts in any
order, none of which has met a violation. -/
inductive Fed (framing : Framing) (limit : Nat) : Bytes → List Bytes → Deframer → Prop where
  /-- Nothing has happened. -/
  | start : Fed framing limit [] [] (empty framing limit)
  /-- Bytes have been appended. -/
  | extend {input : Bytes} {taken : List Bytes} {b : Deframer} (data : Bytes) :
      Fed framing limit input taken b → Fed framing limit (input ++ data) taken (b.extend data)
  /-- Bytes have been pushed. -/
  | push {input data : Bytes} {taken ps : List Bytes} {b b' : Deframer} :
      Fed framing limit input taken b → b.push data = (.ok ps, b') →
        Fed framing limit (input ++ data) (taken ++ ps) b'
  /-- An attempt has been made. -/
  | next {input : Bytes} {taken : List Bytes} {p? : Option Bytes} {b b' : Deframer} :
      Fed framing limit input taken b → b.next = .ok (p?, b') →
        Fed framing limit input (taken ++ p?.toList) b'

namespace Fed

/-- The books of a deframer are in order after any calls; by induction on them. -/
theorem invariant (h : Fed framing limit input taken b) : b.Invariant framing limit input taken := by
  induction h with
  | start => exact invariant_empty framing limit
  | extend data _ ih => exact ih.extend data
  | push _ hpush ih => exact ih.push hpush
  | next _ hnext ih => exact ih.next hnext

/-- Let a new deframer be fed bytes and asked for payloads, in any order of calls and without a violation
so far. Then the bytes are the payloads it has given, in order and each with what stands around it, and
behind these the bytes it holds, with the length of the payload that is awaited between them if there is
one. Every payload is accepted, and there are no more of them than bytes. A further push comes to an end
after no more payloads than that, at the first attempt that gives none or meets a violation. Where a push
or an attempt has just given all there is, no payload that is complete remains. -/
theorem accounts_for_every_byte (h : Fed framing limit input taken b) :
    (∃ wholes front, List.Forall₂ framing.Encloses taken wholes ∧ framing.Opens b.awaited front ∧
      input = wholes.flatten ++ front ++ b.buffered) ∧
    (∀ p ∈ taken, p.length ≤ limit ∧ (framing = .newline → terminator ∉ p)) ∧
    taken.length ≤ input.length ∧
    (∀ data, ∃ ps b₁, (b.extend data).Takes ps b₁ ∧
      taken.length + ps.length ≤ input.length + data.length ∧
      match b₁.next with
      | .ok (some _, _) => False
      | .ok (none, b₂) => b.push data = (.ok ps, b₂)
      | .error v => b.push data = (.error v, b₁)) ∧
    ∀ b', b.Ends b' → b'.Exhausted := by
  obtain ⟨rfl, rfl, -, haccounts, -, hadmits⟩ := h.invariant
  refine ⟨haccounts, hadmits, haccounts.length_le, ?_, ?_⟩
  · intro data
    obtain ⟨ps, b₁, htakes, hend⟩ := b.push_eq data
    have hlength := ((h.invariant.extend data).takes htakes).accounts.length_le
    rw [List.length_append, List.length_append] at hlength
    exact ⟨ps, b₁, htakes, hlength, hend⟩
  · intro b' hends
    obtain ⟨b₁, -, hattempt⟩ := hends.exists_attempt h.invariant
    exact hattempt.exhausted

/-- A deframer that is given `1|a03|xy` at once and `z2` behind it: the payload `a` comes out of the
push, and `xyz` of the attempt behind the second piece, which leaves the digit of a length. -/
theorem accounts_for_every_byte_padded :
    ∃ b : Deframer, Fed .lengthPrefixed 8 [49, 124, 97, 48, 51, 124, 120, 121, 122, 50]
        [[97], [120, 121, 122]] b ∧ b.buffered = [50] ∧ b.awaited = none ∧
      ∃ wholes front, List.Forall₂ Framing.lengthPrefixed.Encloses [[97], [120, 121, 122]] wholes ∧
        Framing.lengthPrefixed.Opens b.awaited front ∧
        [49, 124, 97, 48, 51, 124, 120, 121, 122, 50] = wholes.flatten ++ front ++ b.buffered := by
  let b₁ : Deframer := ⟨.lengthPrefixed, 8, [120, 121], some 3, 0⟩
  let b₂ : Deframer := ⟨.lengthPrefixed, 8, [50], none, 0⟩
  have hpush : (empty .lengthPrefixed 8).push [49, 124, 97, 48, 51, 124, 120, 121] = (.ok [[97]], b₁) := by
    have hfirst : ((empty .lengthPrefixed 8).extend [49, 124, 97, 48, 51, 124, 120, 121]).next =
        .ok (some [97], ⟨.lengthPrefixed, 8, [48, 51, 124, 120, 121], none, 0⟩) := rfl
    have hsecond : (Deframer.mk .lengthPrefixed 8 [48, 51, 124, 120, 121] none 0).next =
        .ok (none, b₁) := rfl
    rw [Deframer.push, drain_of_some hfirst, drain_of_none hsecond]
    rfl
  have hnext : (b₁.extend [122, 50]).next = .ok (some [120, 121, 122], b₂) := rfl
  have hfed : Fed .lengthPrefixed 8 [49, 124, 97, 48, 51, 124, 120, 121, 122, 50]
      [[97], [120, 121, 122]] b₂ := ((Fed.start.push hpush).extend [122, 50]).next hnext
  exact ⟨b₂, hfed, rfl, rfl, (accounts_for_every_byte hfed).1⟩

end Fed

end Deframer
end FramedCall
