import FramedCall.Proofs.Payload
import FramedCall.Settings
import FramedCall.Tagging

/-!
# Values behind a tag

A tag is one more level around a value and changes nothing else (`Tagging.toWire_wrap`,
`Tagging.depth_wrap`, `Tagging.legible_wrap`), so the deepest values that are accepted are the only ones
that cannot be given back behind a tag (`Tagging.success_of_decode`).

A value stands behind at most one tag (`Tagging.split?_eq_some_iff`), whatever it looks like itself, and
that tag alone says what the outcome was: `Tagging.outcomes_told_apart`. Two equal tags say that it was
a success.
-/

namespace FramedCall

open Json (Value Mismatch maxDepth)

namespace Tagging

variable {t : Tagging}

/-- A tag goes on the wire as it is. -/
theorem toWire_wrap (t : Tagging) (tag : String) (v : Value) : (t.wrap tag v).toWire = t.wrap tag v.toWire := by
  rcases hl : t.layout <;> simp [wrap, hl, Value.toWire, Value.entriesToWire, Value.itemsToWire]

/-- A tag takes one level. -/
theorem depth_wrap (t : Tagging) (tag : String) (v : Value) : (t.wrap tag v).depth = v.depth + 1 := by
  rcases hl : t.layout <;> simp [wrap, hl, Value.depth, Value.entriesDepth, Value.itemsDepth]

/-- A tagged value is read as it was written. -/
theorem legible_wrap {tag : String} (htag : t.layout = .object → tag ≠ Value.numberKey) {v : Value}
    (hv : v.legible = true) : (t.wrap tag v).legible = true := by
  rcases hl : t.layout
  · simp [wrap, hl, Value.legible, Value.entriesLegible, Keyed.ascends, hv, htag hl]
  · simp [wrap, hl, Value.legible, Value.itemsLegible, hv]

/-- What is put behind a tag is found there. -/
theorem split?_wrap (t : Tagging) (tag : String) (v : Value) : t.split? (t.wrap tag v) = some (tag, v) := by
  rcases hl : t.layout <;> simp [wrap, split?, hl]

/-- A success behind its tag comes back as it went on the wire if there is room for the tag. -/
theorem decode_success (hkey : t.layout = .object → t.ok ≠ Value.numberKey) {v : Value}
    (hv : v.legible = true) (hdepth : v.depth < maxDepth) :
    Payload.decode (Payload.encode (t.wrap t.ok v)) = .ok (t.wrap t.ok v.toWire) := by
  rw [Payload.decode_encode (legible_wrap hkey hv) (by rwa [depth_wrap]), toWire_wrap]

/-- There is no room for a tag around a value of the greatest depth. -/
theorem decode_success_of_deep (hkey : t.layout = .object → t.ok ≠ Value.numberKey) {v : Value}
    (hv : v.legible = true) (hdepth : maxDepth ≤ v.depth) :
    Payload.decode (Payload.encode (t.wrap t.ok v)) =
      .error (.decode (Text.decodeLossy (Payload.encode (t.wrap t.ok v)))) :=
  Payload.decode_encode_of_deep (legible_wrap hkey hv) (by rw [depth_wrap]; omega)

/-- What is behind the tag of a success is taken for one. -/
theorem unwrap_success (t : Tagging) (v : Value) : (Envelope.tagged t).unwrap (t.wrap t.ok v) = .ok (.ok v) := by
  simp [Envelope.unwrap, split?_wrap]

/-- The standard tags are not the key that marks the long form of a number. -/
theorem ok_ne_numberKey_of_standard {t : Tagging} (ht : t = standardObject ∨ t = standardPair) :
    t.layout = .object → t.ok ≠ Value.numberKey := by
  intro _
  rcases ht with rfl | rfl <;> decide

/-- The value of an accepted payload, given back as a success in one of the standard taggings. At a
depth of at most 126 the answer is accepted, and taken apart it is the value as it goes on the wire. The
only other depth of an accepted value is 127, and its answer is refused. -/
theorem success_of_decode {t : Tagging} (ht : t = .standardObject ∨ t = .standardPair) {payload : Bytes}
    {v : Value} (hdecode : Payload.decode payload = .ok v) (hkey : v.hasKey Value.numberKey = false) :
    let answer := Payload.encode ((Envelope.tagged t).wrapSuccess v)
    (v.depth ≤ 126 → ∃ w, Payload.decode answer = .ok w ∧
      (Envelope.tagged t).unwrap w = .ok (.ok v.toWire)) ∧
    (126 < v.depth → v.depth = 127 ∧ Payload.decode answer = .error (.decode (Text.decodeLossy answer))) := by
  have hfits := Payload.fits_of_decode hdecode
  have hlegible : v.legible = true := Value.legible_of_sorted v hfits.sorted hkey
  have htag := ok_ne_numberKey_of_standard ht
  constructor
  · intro hdepth
    exact ⟨t.wrap t.ok v.toWire, decode_success htag hlegible (Nat.lt_succ_of_le hdepth),
      t.unwrap_success v.toWire⟩
  · intro hdeep
    exact ⟨Nat.le_antisymm hfits.depth_le hdeep, decode_success_of_deep htag hlegible hdeep⟩

/-- A pair around an unsafe integer, and blanks in the payload. -/
theorem success_of_decode_unsafe :
    let payload : Bytes := Text.encodeChars "[ 9007199254740993, \x7b\"k\": [null]\x7d]\n".toList
    let v : Value := .array [.number (.ofInt 9007199254740993), .object [("k", .array [.null])]]
    Payload.decode payload = .ok v ∧ v.hasKey Value.numberKey = false ∧ v.depth ≤ 126 ∧
      ∃ w, Payload.decode (Payload.encode ((Envelope.tagged standardPair).wrapSuccess v)) = .ok w ∧
        (Envelope.tagged standardPair).unwrap w =
          .ok (.ok (.array [.string "9007199254740993", .object [("k", .array [.null])]])) := by
  intro payload v
  have hdecode : Payload.decode payload = .ok v := by rfl
  have hkey : v.hasKey Value.numberKey = false := by decide
  have hdepth : v.depth ≤ 126 := by decide
  exact ⟨hdecode, hkey, hdepth, (success_of_decode (.inr rfl) hdecode hkey).1 hdepth⟩

/-- Arrays 127 deep are accepted, and the answer that gives them back is refused. -/
theorem success_refused_of_deepest :
    let v : Value := Nat.repeat (fun w => .array [w]) 126 (.array [])
    Payload.decode (Payload.encode v) = .ok v ∧ v.hasKey Value.numberKey = false ∧
      ∀ t, t = standardObject ∨ t = standardPair →
        let answer := Payload.encode ((Envelope.tagged t).wrapSuccess v)
        Payload.decode answer = .error (.decode (Text.decodeLossy answer)) := by
  intro v
  have hlegible : v.legible = true := by decide +kernel
  have hdepth : v.depth = maxDepth := by decide +kernel
  have hkey : v.hasKey Value.numberKey = false := by decide +kernel
  have hwire : v.toWire = v := Value.toWire_of_not_hasUnsafe v (by decide +kernel)
  clear_value v
  refine ⟨?_, hkey, ?_⟩
  · rw [Payload.decode_encode hlegible hdepth.le, hwire]
  · intro t ht
    exact decode_success_of_deep (ok_ne_numberKey_of_standard ht) hlegible hdepth.ge

/-! ### What a tag says -/

/-- A value is taken apart in one way, the way it was put together. -/
theorem split?_eq_some_iff {x : Value} {tag : String} {content : Value} :
    t.split? x = some (tag, content) ↔ x = t.wrap tag content := by
  constructor
  · intro h
    unfold split? at h
    split at h
    · rename_i hl
      cases h
      rw [wrap, hl]
    · rename_i hl
      cases h
      rw [wrap, hl]
    · cases h
  · rintro rfl
    exact split?_wrap t tag content

/-- What is behind the tag of a failure is taken for one, if the tags are different. -/
theorem unwrap_failure (htags : t.ok ≠ t.err) (content : Value) :
    (Envelope.tagged t).unwrap (t.wrap t.err content) = .ok (.err content.plainText) := by
  simp [Envelope.unwrap, split?_wrap, htags.symm]

/-- What is behind neither tag is refused. -/
theorem unwrap_untagged {x : Value} (hok : ∀ v, x ≠ t.wrap t.ok v) (herr : ∀ content, x ≠ t.wrap t.err content) :
    (Envelope.tagged t).unwrap x = .error (.protocol s!"untagged response: {x.compact}") := by
  rcases hsplit : t.split? x with _ | ⟨tag, content⟩
  · simp only [Envelope.unwrap, hsplit]
  · have hx := split?_eq_some_iff.mp hsplit
    have htag : tag ≠ t.ok ∧ tag ≠ t.err :=
      ⟨fun h => hok content (h ▸ hx), fun h => herr content (h ▸ hx)⟩
    simp only [Envelope.unwrap, hsplit, if_neg htag.1, if_neg htag.2]

/-- A value is behind the tag of a success, behind another tag that is the one of a failure, or behind
neither. -/
theorem tagged_cases (t : Tagging) (x : Value) :
    (∃ v, x = t.wrap t.ok v) ∨ (t.ok ≠ t.err ∧ ∃ content, x = t.wrap t.err content) ∨
      ((∀ v, x ≠ t.wrap t.ok v) ∧ ∀ content, x ≠ t.wrap t.err content) := by
  by_cases hok : ∃ v, x = t.wrap t.ok v
  · exact .inl hok
  by_cases herr : ∃ content, x = t.wrap t.err content
  · refine .inr (.inl ⟨fun htags => hok ?_, herr⟩)
    rwa [htags]
  · exact .inr (.inr ⟨not_exists.mp hok, not_exists.mp herr⟩)

/-- For every tagging. A success is taken apart as its value. If the two tags differ, then a failure is
taken apart as its message, and so is the tag of a failure around anything, of which the message is the
plain text. No other value is a success, none is a failure, and none is one at all if the tags are equal:
what is neither tag around something is a protocol error. -/
theorem outcomes_told_apart (t : Tagging) :
    let e := Envelope.tagged t
    (∀ v, e.unwrap (e.wrapSuccess v) = .ok (.ok v)) ∧
      (t.ok ≠ t.err →
        (∀ message, ∃ w, e.wrapFailure message = some w ∧ e.unwrap w = .ok (.err message)) ∧
          ∀ content, e.unwrap (t.wrap t.err content) = .ok (.err content.plainText)) ∧
      (∀ x v, e.unwrap x = .ok (.ok v) → x = e.wrapSuccess v) ∧
      (∀ x message, e.unwrap x = .ok (.err message) →
        t.ok ≠ t.err ∧ ∃ content, x = t.wrap t.err content ∧ message = content.plainText) ∧
      ∀ x, (∀ v, x ≠ e.wrapSuccess v) → (∀ content, x ≠ t.wrap t.err content) →
        e.unwrap x = .error (.protocol s!"untagged response: {x.compact}") := by
  intro e
  refine ⟨t.unwrap_success, ?_, ?_, ?_, fun _ => unwrap_untagged⟩
  · intro htags
    exact ⟨fun message => ⟨_, rfl, unwrap_failure htags (.string message)⟩, unwrap_failure htags⟩
  · intro x v h
    obtain ⟨w, rfl⟩ | ⟨htags, content, rfl⟩ | ⟨hok, herr⟩ := t.tagged_cases x
    · rw [t.unwrap_success] at h
      cases h
      rfl
    · rw [unwrap_failure htags] at h
      cases h
    · rw [unwrap_untagged hok herr] at h
      cases h
  · intro x message h
    obtain ⟨w, rfl⟩ | ⟨htags, content, rfl⟩ | ⟨hok, herr⟩ := t.tagged_cases x
    · rw [t.unwrap_success] at h
      cases h
    · rw [unwrap_failure htags] at h
      cases h
      exact ⟨htags, content, rfl, rfl⟩
    · rw [unwrap_untagged hok herr] at h
      cases h

/-- A success that looks like a failure, a failure, a content that is no text, and another tag. -/
theorem outcomes_told_apart_pair :
    let t : Tagging := ⟨.pair, "r", "f"⟩
    let e := Envelope.tagged t
    let seven : Value := .array [.string "f", .number (.ofInt 7)]
    t.ok ≠ t.err ∧ e.unwrap (e.wrapSuccess seven) = .ok (.ok seven) ∧
      (∃ w, e.wrapFailure "r" = some w ∧ e.unwrap w = .ok (.err "r")) ∧
      e.unwrap seven = .ok (.err "7") ∧
      e.unwrap (.array [.string "g", .null]) = .error (.protocol "untagged response: [\"g\",null]") := by
  intro t e seven
  have htags : t.ok ≠ t.err := by decide
  obtain ⟨hsuccess, hfailure, -, -, hrest⟩ := outcomes_told_apart t
  refine ⟨htags, hsuccess seven, (hfailure htags).1 "r", (hfailure htags).2 (.number (.ofInt 7)), ?_⟩
  have hother : ∀ tag, tag ≠ "g" → ∀ content, Value.array [.string "g", .null] ≠ t.wrap tag content :=
    fun tag htag content h => htag (by cases h; rfl)
  exact hrest _ (hother t.ok (by decide)) (hother t.err (by decide))

/-- Two equal tags are accepted, and then a failure is taken for a success. -/
theorem failure_taken_for_success :
    let t : Tagging := ⟨.object, "r", "r"⟩
    let settings : Value :=
      .object [("tagged", .object [("object", .object [("err", .string "r"), ("ok", .string "r")])])]
    Json.read settings = (.ok (.tagged t) : Except Mismatch Envelope) ∧
      ∃ w, (Envelope.tagged t).wrapFailure "m" = some w ∧
        (Envelope.tagged t).unwrap w = .ok (.ok (.string "m")) := by
  intro t settings
  exact ⟨by rfl, t.wrap t.err (.string "m"), rfl, unwrap_success t (.string "m")⟩

end Tagging

end FramedCall
