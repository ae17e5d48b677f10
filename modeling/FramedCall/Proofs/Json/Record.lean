import Mathlib.Data.List.Forall2
import FramedCall.Json.Record
import FramedCall.Proofs.Keyed

/-!
# Records that are read back

A record is read field by field and has its start in the fields that are not there. `Fills` ties the fields
of a record to the members it is written as, and to what has been read when some of these are there. From
it follows what any entries (`Fills.readEntries_eq`) and any first elements (`Fills.readElements_eq`) are
read as, and for records that have a standard for each field that they are read back from any part of what
they are written as, in either form (`Fills.readBack`).
-/

namespace FramedCall.Json

/-- The value stands for `a`: `a` is written as the value, and the value is read as `a`. -/
structure Value.StandsFor {α : Type} [Readable α] [Writable α] (v : Value) (a : α) : Prop where
  /-- It is what `a` is written as. -/
  write_eq : write a = .ok v
  /-- It is read as `a`. -/
  read_eq : read v = .ok a

/-- A record `a` is written as `members`, in the order of its fields, and any part of these is read as what
`kept` makes of their keys: in an object, whatever stands there under other keys, and as the first elements
of an array. -/
structure ReadBack {α : Type} [Readable α] [Writable α] (a : α) (members : List (String × Value))
    (kept : List String → α) : Prop where
  /-- All members make up the record. -/
  whole : (Value.ofFields members).StandsFor a
  /-- Entries under the keys of members are members. -/
  entries : ∀ es : List (String × Value), (∀ e ∈ es, e.1 ∈ Keyed.keys members → e ∈ members) →
    read (.object es) = .ok (kept (Keyed.keys es))
  /-- Elements are the values of the first members. -/
  elements : ∀ n, read (.array ((members.take n).map (·.2))) = .ok (kept (Keyed.keys (members.take n)))

/-! ### Fields and members -/

variable {σ : Type}

/-- The field takes its member in behind the members under any other keys. -/
structure Member.Takes (kept : List String → σ) (f : Member σ) (m : String × Value) : Prop where
  /-- The member has the field's name. -/
  name_eq : f.name = m.1
  /-- Its value is one for the field. -/
  set_eq : ∀ names, f.set m.2 (kept names) = .ok (kept (m.1 :: names))

/-- A field of a type takes what is read as one of that type. -/
theorem Member.takes_typed {α : Type} [Readable α] {kept : List String → σ} {name : String}
    {put : α → σ → σ} {v : Value} {a : α} (hread : read v = .ok a)
    (hput : ∀ names, put a (kept names) = kept (name :: names)) :
    (Member.typed name put).Takes kept (name, v) := by
  refine ⟨rfl, ?_⟩
  intro names
  simp only [Member.typed, hread]
  show Except.ok (put a (kept names)) = _
  rw [hput]

/-- The fields of a record take these members, in this order, and `kept names` has those members in it that
have one of the names. -/
structure Fills (fields : List (Member σ)) (members : List (String × Value))
    (kept : List String → σ) : Prop where
  /-- Each field takes its member. -/
  takes : List.Forall₂ (Member.Takes kept) fields members
  /-- No two fields have one name. -/
  nodup : (Keyed.keys members).Nodup
  /-- It only matters which members are there. -/
  congr : ∀ {names names' : List String}, (∀ k ∈ Keyed.keys members, k ∈ names ↔ k ∈ names') →
    kept names = kept names'

namespace Fills

variable {fields : List (Member σ)} {members : List (String × Value)} {kept : List String → σ}

/-- The field of a member is found under its key. -/
theorem exists_find? (htakes : List.Forall₂ (Member.Takes kept) fields members)
    (hnodup : (Keyed.keys members).Nodup) {m : String × Value} (hm : m ∈ members) :
    ∃ f, fields.find? (·.name = m.1) = some f ∧ f.Takes kept m := by
  induction htakes with
  | nil => cases hm
  | @cons f m' fs ms hfirst _ ih =>
    rw [Keyed.keys_cons] at hnodup
    obtain ⟨hnot, hrest⟩ := List.nodup_cons.1 hnodup
    rcases List.mem_cons.1 hm with rfl | hm
    · exact ⟨f, List.find?_cons_of_pos (by simpa using hfirst.name_eq), hfirst⟩
    · have hne : f.name ≠ m.1 := by
        intro heq
        apply hnot
        rw [← hfirst.name_eq, heq]
        exact List.mem_map_of_mem hm
      rw [List.find?_cons_of_neg (by simpa using hne)]
      exact ih hrest hm

/-- No field is found under another key. -/
theorem find?_eq_none (htakes : List.Forall₂ (Member.Takes kept) fields members) {k : String}
    (hk : k ∉ Keyed.keys members) : fields.find? (·.name = k) = none := by
  induction htakes with
  | nil => rfl
  | @cons f m fs ms hfirst _ ih =>
    rw [Keyed.keys_cons, List.mem_cons, not_or] at hk
    have hne : f.name ≠ k := fun heq => hk.1 (heq.symm.trans hfirst.name_eq)
    rw [List.find?_cons_of_neg (by simpa using hne)]
    exact ih hk.2

/-- Entries are read as the members that are there; entries under other keys are passed over. -/
theorem readEntries_eq (h : Fills fields members kept) {es : List (String × Value)}
    (hes : ∀ e ∈ es, e.1 ∈ Keyed.keys members → e ∈ members) (names : List String) :
    readEntries fields es (kept names) = .ok (kept (Keyed.keys es ++ names)) := by
  -- behind any members read before, since each entry adds its own to them
  induction es generalizing names with
  | nil => rfl
  | cons e es ih =>
    obtain ⟨hfirst, hrest⟩ := List.forall_mem_cons.1 hes
    obtain ⟨k, v⟩ := e
    rw [readEntries]
    by_cases hk : k ∈ Keyed.keys members
    · obtain ⟨f, hfind, htakes⟩ := exists_find? h.takes h.nodup (hfirst hk)
      simp only [hfind]
      show (f.set v (kept names)).bind (readEntries fields es) = _
      rw [htakes.set_eq]
      show readEntries fields es (kept (k :: names)) = _
      rw [ih hrest, h.congr]
      intro l _
      simp only [Keyed.keys_cons, List.cons_append, List.mem_append, List.mem_cons]
      exact or_left_comm
    · simp only [find?_eq_none h.takes hk]
      rw [ih hrest, h.congr]
      intro l hl
      have hne : l ≠ k := ne_of_mem_of_not_mem hl hk
      simp [Keyed.keys_cons, hne]

/-- Elements are taken for the first fields, and none is left over. -/
theorem readElements_eq (htakes : List.Forall₂ (Member.Takes kept) fields members) (n : Nat)
    (names : List String) :
    readElements fields ((members.take n).map (·.2)) (kept names) =
      .ok (kept ((Keyed.keys (members.take n)).reverse ++ names), false, decide (n < fields.length)) := by
  induction htakes generalizing n names with
  | nil =>
    rw [List.take_nil]
    rfl
  | @cons f m fs ms hfirst _ ih =>
    cases n with
    | zero => rfl
    | succ n =>
      rw [List.take_succ_cons, List.map_cons, readElements, hfirst.set_eq]
      show readElements fs ((ms.take n).map (·.2)) (kept (m.1 :: names)) = _
      rw [ih]
      simp [Keyed.keys_cons]

/-! ### Records with a standard for each field -/

variable {α : Type} [Readable α] [Writable α] {l : Layout α α} {a : α} {kept : List String → α}

/-- A record whose fields may be left out is read back from any part of what it is written as. -/
theorem readBack (h : Fills l.fields members kept) (hread : ∀ v, read v = l.ofValue v)
    (hstart : l.start = kept []) (hfinish : l.finish = .ok) (hdefaults : l.hasDefaults = true)
    (hwrite : write a = .ok (.ofFields members)) (hall : kept (Keyed.keys members) = a) :
    ReadBack a members kept := by
  have hentries : ∀ es : List (String × Value),
      (∀ e ∈ es, e.1 ∈ Keyed.keys members → e ∈ members) →
        read (.object es) = .ok (kept (Keyed.keys es)) := by
    intro es hes
    rw [hread]
    show (readEntries l.fields es l.start).bind l.finish = _
    rw [hstart, h.readEntries_eq hes, hfinish, List.append_nil]
    rfl
  refine ⟨⟨hwrite, ?_⟩, hentries, ?_⟩
  · have hkeys : kept (Keyed.keys (Keyed.ofList members)) = kept (Keyed.keys members) :=
      h.congr fun k _ => Keyed.mem_keys_ofList
    rw [Value.ofFields, hentries _ fun e he _ => Keyed.mem_of_mem_ofList he, hkeys, hall]
  · intro n
    have hkeys : kept (Keyed.keys (members.take n)).reverse = kept (Keyed.keys (members.take n)) :=
      h.congr fun k _ => List.mem_reverse
    rw [hread]
    show l.ofElements _ = _
    rw [Layout.ofElements, hstart, readElements_eq h.takes, List.append_nil, hkeys]
    simp [bind, Except.bind, hdefaults, hfinish]

end Fills
end FramedCall.Json
