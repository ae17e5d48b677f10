import Mathlib.Algebra.Ring.Nat
import FramedCall.Settings
import FramedCall.Proofs.Json.Record
import FramedCall.Proofs.Payload.Typed

/-!
# Settings that are read back

Each single setting is read back from what it is written as (`Framing.standsFor`, `DeliveryOrder.standsFor`,
`Tagging.standsFor`, `Envelope.standsFor`), whatever the tags are. What both ends agree on and what a server
is told are read back from any part of what they are written as: `keeping` has the choice in the fields that
are there, and the standard in the others. The main statement is `settings_read_back`.
-/

namespace FramedCall

open Json (Value Bounded Member Fills ReadBack read write)

/-! ### Single settings -/

/-- The name of a framing is read as that framing. -/
theorem Framing.standsFor (f : Framing) : (Value.string f.name).StandsFor f := by
  cases f with
  | lengthPrefixed => exact ⟨rfl, rfl⟩
  | newline => exact ⟨rfl, rfl⟩

/-- The name of an order is read as that order. -/
theorem DeliveryOrder.standsFor (o : DeliveryOrder) : (Value.string o.name).StandsFor o := by
  cases o with
  | ordered => exact ⟨rfl, rfl⟩
  | unordered => exact ⟨rfl, rfl⟩

namespace Tagging

/-- The tags as they are written. -/
def members (t : Tagging) : List (String × Value) :=
  [("ok", .string t.ok), ("err", .string t.err)]

/-- A tagging is written with both tags. -/
@[simp] theorem keys_members (t : Tagging) : Keyed.keys t.members = ["ok", "err"] := rfl

/-- What a tagging is written as. -/
def written (t : Tagging) : Value :=
  .object [(t.layout.name, .ofFields t.members)]

/-- The tags that have been read when those with the given names are there. -/
def tagsKept (t : Tagging) (names : List String) : PartialTags :=
  ⟨if "ok" ∈ names then some t.ok else none, if "err" ∈ names then some t.err else none⟩

/-- Each tag that is there is read, whichever others are. -/
theorem fills_tags (t : Tagging) :
    Fills [Member.typed "ok" fun ok (p : PartialTags) => { p with ok := some ok },
      Member.typed "err" fun err (p : PartialTags) => { p with err := some err }] t.members t.tagsKept := by
  refine ⟨?_, by simp, ?_⟩
  · refine .cons (Member.takes_typed (a := t.ok) rfl ?_) (.cons (Member.takes_typed (a := t.err) rfl ?_) .nil)
    · intro names
      simp [tagsKept]
    · intro names
      simp [tagsKept]
  · intro names names' h
    simp [tagsKept, h "ok" (by simp), h "err" (by simp)]

/-- Two tags, whatever stands beside them, are the tags of the tagging. -/
theorem ofEntries_eq (t : Tagging) {es : List (String × Value)}
    (hes : ∀ e ∈ es, e.1 ∈ Keyed.keys t.members → e ∈ t.members)
    (hall : ∀ k ∈ Keyed.keys t.members, k ∈ Keyed.keys es) : ofEntries t.layout es = .ok t := by
  have hread := t.fills_tags.readEntries_eq hes []
  have hkept : t.tagsKept (Keyed.keys es ++ []) = ⟨some t.ok, some t.err⟩ := by
    simp [tagsKept, hall "ok" (by simp), hall "err" (by simp)]
  rw [hkept] at hread
  unfold ofEntries
  show (Json.readEntries _ es (t.tagsKept [])).bind _ = _
  rw [hread]
  rfl

/-- A tagging is read from what it is written as. -/
theorem standsFor (t : Tagging) : t.written.StandsFor t := by
  refine ⟨rfl, ?_⟩
  have hread : ofEntries t.layout (Keyed.ofList t.members) = .ok t :=
    t.ofEntries_eq (fun e he _ => Keyed.mem_of_mem_ofList he) fun k hk => Keyed.mem_keys_ofList.2 hk
  obtain ⟨layout, ok, err⟩ := t
  cases layout with
  | object => exact hread
  | pair => exact hread

end Tagging

namespace Envelope

/-- What an envelope is written as. -/
def written : Envelope → Value
  | .raw => .string "raw"
  | .tagged t => .object [("tagged", t.written)]

/-- An envelope is read from what it is written as. -/
theorem standsFor (e : Envelope) : e.written.StandsFor e := by
  cases e with
  | raw => exact ⟨rfl, rfl⟩
  | tagged t =>
    refine ⟨rfl, ?_⟩
    show (read t.written).map Envelope.tagged = _
    rw [t.standsFor.read_eq]
    rfl

end Envelope

/-! ### What both ends agree on -/

namespace Conventions

/-- The fields as they are written, in order. -/
def members (c : Conventions) : List (String × Value) :=
  [("framing", .string c.framing.name), ("envelope", c.envelope.written)]

/-- Conventions are written with both fields. -/
@[simp] theorem keys_members (c : Conventions) : Keyed.keys c.members = ["framing", "envelope"] := rfl

/-- The conventions in the named fields, and the standard in the others. -/
def keeping (c : Conventions) (names : List String) : Conventions where
  framing := if "framing" ∈ names then c.framing else standard.framing
  envelope := if "envelope" ∈ names then c.envelope else standard.envelope

/-- Each field that is there is read into conventions, whichever others are. -/
theorem fills (c : Conventions) : Fills layout.fields c.members c.keeping := by
  refine ⟨?_, by simp, ?_⟩
  · refine .cons (Member.takes_typed c.framing.standsFor.read_eq ?_)
      (.cons (Member.takes_typed c.envelope.standsFor.read_eq ?_) .nil)
    · intro names
      simp [keeping]
    · intro names
      simp [keeping]
  · intro names names' h
    simp [keeping, h "framing" (by simp), h "envelope" (by simp)]

/-- Conventions are read back from any part of what they are written as. -/
theorem readBack (c : Conventions) : ReadBack c c.members c.keeping := by
  apply c.fills.readBack
  · exact fun _ => rfl
  · rfl
  · rfl
  · rfl
  · show (write c.framing).bind _ = _
    rw [c.framing.standsFor.write_eq, c.envelope.standsFor.write_eq]
    rfl
  · simp [keeping]

end Conventions

/-! ### Servers -/

namespace ServerSettings

/-- The fields as they are written, in order. -/
def members (s : ServerSettings) : List (String × Value) :=
  [("framing", .string s.conventions.framing.name), ("envelope", s.conventions.envelope.written),
    ("response_order", .string s.order.name), ("channel_capacity", .number (.ofInt s.queueCapacity)),
    ("max_payload_size", .number (.ofInt s.maxPayload)), ("read_buffer_size", .number (.ofInt s.readSize))]

/-- Settings are written with all six fields. -/
@[simp] theorem keys_members (s : ServerSettings) : Keyed.keys s.members =
    ["framing", "envelope", "response_order", "channel_capacity", "max_payload_size", "read_buffer_size"] :=
  rfl

/-- The settings in the named fields, and the standard in the others. -/
def keeping (s : ServerSettings) (names : List String) : ServerSettings where
  conventions := s.conventions.keeping names
  order := if "response_order" ∈ names then s.order else standard.order
  queueCapacity := if "channel_capacity" ∈ names then s.queueCapacity else standard.queueCapacity
  maxPayload := if "max_payload_size" ∈ names then s.maxPayload else standard.maxPayload
  readSize := if "read_buffer_size" ∈ names then s.readSize else standard.readSize

/-- A size of 64 bits is read as what it is written as. -/
theorem takes_sizeField {kept : List String → ServerSettings} {name : String}
    {put : Nat → ServerSettings → ServerSettings} {n : Nat} (hn : n < 2 ^ 64)
    (hput : ∀ names, put n (kept names) = kept (name :: names)) :
    (sizeField name put).Takes kept (name, .number (.ofInt n)) := by
  have hhigh : (n : Int) ≤ Json.IntegerType.size.high := by
    show (n : Int) ≤ 18446744073709551615
    omega
  let size : Bounded .size := ⟨n, Int.natCast_nonneg n, hhigh⟩
  exact Member.takes_typed (Payload.read_ofInt size) hput

/-- Each field that is there is read into settings, whichever others are. -/
theorem fills {s : ServerSettings} (hqueue : s.queueCapacity < 2 ^ 64) (hpayload : s.maxPayload < 2 ^ 64)
    (hread : s.readSize < 2 ^ 64) : Fills layout.fields s.members s.keeping := by
  refine ⟨?_, by simp, ?_⟩
  · refine .cons (Member.takes_typed s.conventions.framing.standsFor.read_eq ?_)
      (.cons (Member.takes_typed s.conventions.envelope.standsFor.read_eq ?_)
        (.cons (Member.takes_typed s.order.standsFor.read_eq ?_)
          (.cons (takes_sizeField hqueue ?_) (.cons (takes_sizeField hpayload ?_)
            (.cons (takes_sizeField hread ?_) .nil)))))
    -- each field is set, and the others stay as they are
    all_goals
      intro names
      simp [keeping, Conventions.keeping]
  · intro names names' h
    have hconventions : s.conventions.keeping names = s.conventions.keeping names' := by
      apply s.conventions.fills.congr
      intro k hk
      apply h
      simp only [Conventions.keys_members, keys_members, List.mem_cons] at hk ⊢
      exact hk.imp_right fun hk => .inl (by simpa using hk)
    simp [keeping, hconventions, h "response_order" (by simp), h "channel_capacity" (by simp),
      h "max_payload_size" (by simp), h "read_buffer_size" (by simp)]

/-- Settings are read back from any part of what they are written as, if their sizes have 64
bits. -/
theorem readBack {s : ServerSettings} (hqueue : s.queueCapacity < 2 ^ 64) (hpayload : s.maxPayload < 2 ^ 64)
    (hread : s.readSize < 2 ^ 64) : ReadBack s s.members s.keeping := by
  apply (fills hqueue hpayload hread).readBack
  · exact fun _ => rfl
  · rfl
  · rfl
  · rfl
  · show (write s.conventions.framing).bind _ = _
    rw [s.conventions.framing.standsFor.write_eq, s.conventions.envelope.standsFor.write_eq,
      s.order.standsFor.write_eq]
    rfl
  · simp [keeping, Conventions.keeping]

end ServerSettings

/-- The conventions of a pipe, and the settings of a server with sizes of 64 bits, are written as a value
that is read as them. Any of the fields of that value, in an object with whatever stands there under other
keys, or the first of them as the elements of an array, are read as the same choices for these fields and
the standard for all others. -/
theorem settings_read_back :
    (∀ c : Conventions, ReadBack c c.members c.keeping) ∧
      ∀ s : ServerSettings, s.queueCapacity < 2 ^ 64 → s.maxPayload < 2 ^ 64 → s.readSize < 2 ^ 64 →
        ReadBack s s.members s.keeping :=
  ⟨Conventions.readBack, fun _ => ServerSettings.readBack⟩

/-- A server with all settings other than the standard, an empty tag among them. Its settings are read back,
the largest size also between two keys that name no field, and the first two from an array. -/
theorem settings_read_back_in_part :
    let conventions : Conventions := ⟨.lengthPrefixed, .tagged ⟨.pair, "", "\"é\n"⟩⟩
    let s : ServerSettings := ⟨conventions, .unordered, 0, 18446744073709551615, 1⟩
    s.queueCapacity < 2 ^ 64 ∧ s.maxPayload < 2 ^ 64 ∧ s.readSize < 2 ^ 64 ∧
      (∃ v, write s = .ok v ∧ read v = .ok s) ∧
      read (.object [("$serde_json::private::Number", .null),
        ("max_payload_size", .number (.ofInt 18446744073709551615)), ("order", .array [])]) =
          .ok { ServerSettings.standard with maxPayload := 18446744073709551615 } ∧
      read (.array [.string "length-prefixed", conventions.envelope.written]) =
        .ok { ServerSettings.standard with conventions } := by
  intro conventions s
  have hqueue : s.queueCapacity < 2 ^ 64 := by decide
  have hpayload : s.maxPayload < 2 ^ 64 := by decide
  have hread : s.readSize < 2 ^ 64 := by decide
  have hback := settings_read_back.2 s hqueue hpayload hread
  refine ⟨hqueue, hpayload, hread, ⟨_, hback.whole.write_eq, hback.whole.read_eq⟩, ?_, ?_⟩
  · apply hback.entries
    intro e he hk
    simp only [List.mem_cons, List.not_mem_nil, or_false] at he
    rcases he with rfl | rfl | rfl
    · exact absurd hk (by decide)
    · simp [s, ServerSettings.members]
    · exact absurd hk (by decide)
  · exact hback.elements 2

end FramedCall
