import Mathlib.Data.List.Basic
import FramedCall.Json.Reader
import FramedCall.Proofs.Json.Reading
import FramedCall.Proofs.Keyed

/-!
# Values that are accepted

What is read is in order, has no long form of a number left in it and is no deeper than the reader allows
(`Value.fits_of_ofChars?`), because every open level holds only such values and leaves room for them
(`Reader.Fits`, kept by each character: `Reader.Fits.step`). Such a value is read as it was written again
unless one key is in it (`Value.legible_of_sorted`).
-/

namespace FramedCall.Json

namespace Value

/-! ### Items and entries, each by itself -/

/-- Items are in order if each of them is. -/
theorem itemsSorted_iff {vs : List Value} : itemsSorted vs = true ↔ ∀ v ∈ vs, v.Sorted := by
  induction vs with
  | nil => simp [itemsSorted]
  | cons v vs ih => simp [itemsSorted, ih]

/-- The values of an object are in order if each of them is. -/
theorem entriesSorted_iff {es : List (String × Value)} :
    entriesSorted es = true ↔ ∀ e ∈ es, e.2.Sorted := by
  induction es with
  | nil => simp [entriesSorted]
  | cons e es ih =>
    obtain ⟨k, v⟩ := e
    simp [entriesSorted, ih]

mutual

/-- Whether an object inside is the long form of a number: its only key is the one that marks it. -/
def hasLongForm : Value → Bool
  | .array items => itemsHaveLongForm items
  | .object entries => Keyed.keys entries == [numberKey] || entriesHaveLongForm entries
  | .null | .boolean _ | .number _ | .string _ => false

/-- `hasLongForm` for the items of an array. -/
def itemsHaveLongForm : List Value → Bool
  | [] => false
  | v :: vs => v.hasLongForm || itemsHaveLongForm vs

/-- `hasLongForm` for the values of an object. -/
def entriesHaveLongForm : List (String × Value) → Bool
  | [] => false
  | (_, v) :: es => v.hasLongForm || entriesHaveLongForm es

end

/-- Items have no long form in them if none of them has. -/
theorem itemsHaveLongForm_eq_false_iff {vs : List Value} :
    itemsHaveLongForm vs = false ↔ ∀ v ∈ vs, v.hasLongForm = false := by
  induction vs with
  | nil => simp [itemsHaveLongForm]
  | cons v vs ih => simp [itemsHaveLongForm, ih]

/-- The values of an object have no long form in them if none of them has. -/
theorem entriesHaveLongForm_eq_false_iff {es : List (String × Value)} :
    entriesHaveLongForm es = false ↔ ∀ e ∈ es, e.2.hasLongForm = false := by
  induction es with
  | nil => simp [entriesHaveLongForm]
  | cons e es ih =>
    obtain ⟨k, v⟩ := e
    simp [entriesHaveLongForm, ih]

/-- Items are as deep as the deepest of them. -/
theorem itemsDepth_le_iff {vs : List Value} {d : Nat} : itemsDepth vs ≤ d ↔ ∀ v ∈ vs, v.depth ≤ d := by
  induction vs with
  | nil => simp [itemsDepth]
  | cons v vs ih => simp [itemsDepth, ih]

/-- The values of an object are as deep as the deepest of them. -/
theorem entriesDepth_le_iff {es : List (String × Value)} {d : Nat} :
    entriesDepth es ≤ d ↔ ∀ e ∈ es, e.2.depth ≤ d := by
  induction es with
  | nil => simp [entriesDepth]
  | cons e es ih =>
    obtain ⟨k, v⟩ := e
    simp [entriesDepth, ih]

/-- A value that can have been read, with room for it in `room` levels. -/
structure Fits (v : Value) (room : Nat) : Prop where
  /-- It is in order. -/
  sorted : v.Sorted
  /-- The long form of a number is a number. -/
  no_longForm : v.hasLongForm = false
  /-- There is room. -/
  depth_le : v.depth ≤ room

/-- An array of values that fit takes one level more. -/
theorem fits_array {vs : List Value} {room : Nat} (h : ∀ v ∈ vs, v.Fits room) :
    (array vs).Fits (room + 1) := by
  refine ⟨itemsSorted_iff.2 fun v hv => (h v hv).sorted,
    itemsHaveLongForm_eq_false_iff.2 fun v hv => (h v hv).no_longForm, ?_⟩
  exact Nat.succ_le_succ (itemsDepth_le_iff.2 fun v hv => (h v hv).depth_le)

/-- An object of values that fit takes one level more, if its keys ascend and it is not the long
form of a number. -/
theorem fits_object {es : List (String × Value)} {room : Nat} (hascends : Keyed.ascends es = true)
    (hkeys : Keyed.keys es ≠ [numberKey]) (h : ∀ e ∈ es, e.2.Fits room) :
    (object es).Fits (room + 1) := by
  refine ⟨?_, ?_, Nat.succ_le_succ (entriesDepth_le_iff.2 fun e he => (h e he).depth_le)⟩
  · rw [Sorted, sorted, hascends, entriesSorted_iff.2 fun e he => (h e he).sorted]
    rfl
  · rw [hasLongForm, beq_false_of_ne hkeys,
      entriesHaveLongForm_eq_false_iff.2 fun e he => (h e he).no_longForm]
    rfl

/-- An object made of members that fit, or the number that it stands for. -/
theorem fits_of_ofMembers? {ms : List (String × Value)} {v : Value} {room : Nat}
    (h : ofMembers? ms = some v) (hms : ∀ e ∈ ms, e.2.Fits room) : v.Fits (room + 1) := by
  rcases ms with _ | ⟨⟨k, w⟩, ms⟩
  · cases h
    exact fits_object rfl (by simp [Keyed.keys]) (by simp)
  · simp only [ofMembers?] at h
    split at h
    · -- the long form of a number
      split at h
      · obtain ⟨n, -, rfl⟩ := Option.map_eq_some_iff.1 h
        exact ⟨rfl, rfl, Nat.zero_le _⟩
      · cases h
    · next hk =>
      cases h
      -- the first key is still there, and it is another one
      have hkeys : Keyed.keys (Keyed.ofList ((k, w) :: ms)) ≠ [numberKey] := by
        intro heq
        have hmem : k ∈ Keyed.keys (Keyed.ofList ((k, w) :: ms)) :=
          Keyed.mem_keys_ofList.2 List.mem_cons_self
        rw [heq, List.mem_singleton] at hmem
        exact hk hmem
      exact fits_object (Keyed.ascends_ofList Std.lt_trichotomy _) hkeys
        fun e he => hms e (Keyed.mem_of_mem_ofList he)

end Value

/-- The values that a level holds. -/
def Level.values : Level → List Value
  | .array items => items
  | .object members | .member members _ => members.map (·.2)

namespace Reader

/-- The open levels leave room for one another, and for the values that they hold. -/
def LevelsFit : List Level → Prop
  | [] => True
  | l :: ls => (∃ room, ls.length + 1 + room = maxDepth ∧ ∀ v ∈ l.values, v.Fits room) ∧ LevelsFit ls

/-- Where a reader stands it has room for its levels and for what they hold. -/
structure Fits (r : Reader) : Prop where
  /-- The levels. -/
  levels : LevelsFit r.levels
  /-- A literal that is being read is no array or object. -/
  literal : ∀ rest v, r.phase = .literal rest v → v.Fits 0
  /-- A value that has been read to its end. -/
  finished : ∀ v, r.phase = .finished v → v.Fits maxDepth

/-- No more levels are open than are allowed. -/
theorem LevelsFit.length_le {ls : List Level} (h : LevelsFit ls) : ls.length ≤ maxDepth := by
  rcases ls with _ | ⟨l, ls⟩
  · exact Nat.zero_le _
  · obtain ⟨⟨room, hroom, -⟩, -⟩ := h
    rw [List.length_cons]
    omega

/-- One more level takes one place. -/
theorem LevelsFit.cons {ls : List Level} (h : LevelsFit ls) {l : Level} {room : Nat}
    (hroom : ls.length + 1 + room = maxDepth) (hvalues : ∀ v ∈ l.values, v.Fits room) :
    LevelsFit (l :: ls) :=
  ⟨⟨room, hroom, hvalues⟩, h⟩

/-- Between two tokens only the levels count. -/
theorem fits_of_levels {ls : List Level} (h : LevelsFit ls) {phase : Phase}
    (hliteral : ∀ rest v, phase ≠ .literal rest v) (hfinished : ∀ v, phase ≠ .finished v) :
    Fits ⟨ls, phase⟩ :=
  ⟨h, fun rest v hp => absurd hp (hliteral rest v), fun v hp => absurd hp (hfinished v)⟩

/-- A literal fits everywhere. -/
theorem fits_of_literal {ls : List Level} (h : LevelsFit ls) {v : Value} (hv : v.Fits 0)
    (rest : List Char) : Fits ⟨ls, .literal rest v⟩ := by
  refine ⟨h, ?_, by simp⟩
  rintro _ _ ⟨⟩
  exact hv

/-- A value that is complete goes to a level that has room for it. -/
theorem fits_of_complete? {v : Value} {ls : List Level} {r : Reader} {room : Nat}
    (hls : LevelsFit ls) (hroom : ls.length + room = maxDepth) (hv : v.Fits room)
    (h : complete? v ls = some r) : r.Fits := by
  rcases ls with _ | ⟨l, ls⟩
  · cases h
    rw [List.length_nil, Nat.zero_add] at hroom
    refine ⟨trivial, by simp, ?_⟩
    rintro w ⟨⟩
    rwa [← hroom]
  · obtain ⟨⟨room', hroom', hvalues⟩, hrest⟩ := hls
    have heq : room = room' := by
      rw [List.length_cons] at hroom
      omega
    subst heq
    have hmore : ∀ w ∈ v :: l.values, w.Fits room := by
      intro w hw
      rcases List.mem_cons.1 hw with rfl | hw
      · exact hv
      · exact hvalues w hw
    rcases l with items | ms | ⟨ms, k⟩
    · have hnew : LevelsFit (.array (v :: items) :: ls) := hrest.cons hroom' hmore
      cases h
      exact fits_of_levels hnew (by simp) (by simp)
    · cases h
    · have hnew : LevelsFit (.object ((k, v) :: ms) :: ls) := hrest.cons hroom' hmore
      cases h
      exact fits_of_levels hnew (by simp) (by simp)

/-- A value that is no array and no object fits everywhere. -/
theorem fits_of_complete?_scalar {v : Value} {ls : List Level} {r : Reader} (hls : LevelsFit ls)
    (hv : v.Fits 0) (h : complete? v ls = some r) : r.Fits :=
  fits_of_complete? hls (Nat.add_sub_cancel' hls.length_le)
    ⟨hv.sorted, hv.no_longForm, Nat.le_trans hv.depth_le (Nat.zero_le _)⟩ h

/-- A string goes to its level as a key or as a value, and fits there. -/
theorem fits_of_completeString? {s : String} {ls : List Level} {r : Reader} (hls : LevelsFit ls)
    (h : completeString? s ls = some r) : r.Fits := by
  unfold completeString? at h
  split at h
  · next ms ls =>
    have hnew : LevelsFit (.member ms s :: ls) := hls
    cases h
    exact fits_of_levels hnew (by simp) (by simp)
  · exact fits_of_complete?_scalar hls ⟨rfl, rfl, Nat.le_refl _⟩ h

/-- A level is opened only where there is room for it. -/
theorem fits_of_open? {l : Level} {phase : Phase} {ls : List Level} {r : Reader} (hls : LevelsFit ls)
    (hl : l.values = []) (hliteral : ∀ rest v, phase ≠ .literal rest v)
    (hfinished : ∀ v, phase ≠ .finished v) (h : open? l phase ls = some r) : r.Fits := by
  unfold open? at h
  split at h
  · next hlt =>
    cases h
    have hroom : ls.length + 1 + (maxDepth - (ls.length + 1)) = maxDepth := by omega
    refine fits_of_levels (hls.cons hroom ?_) hliteral hfinished
    simp [hl]
  · cases h

/-- What a level holds makes up a value that fits around it. -/
theorem fits_of_close? {c : Char} {ls : List Level} {r : Reader} (hls : LevelsFit ls)
    (h : close? c ls = some r) : r.Fits := by
  rcases ls with _ | ⟨items | ms | ⟨ms, k⟩, ls⟩
  · cases h
  · obtain ⟨⟨room, hroom, hvalues⟩, hrest⟩ := hls
    simp only [close?] at h
    split at h
    · have hv : (Value.array items.reverse).Fits (room + 1) :=
        Value.fits_array fun v hv => hvalues v (List.mem_reverse.1 hv)
      exact fits_of_complete? hrest (by omega) hv h
    · cases h
  · obtain ⟨⟨room, hroom, hvalues⟩, hrest⟩ := hls
    simp only [close?] at h
    split at h
    · obtain ⟨v, hv, h⟩ := Option.bind_eq_some_iff.1 h
      have hfits : v.Fits (room + 1) := Value.fits_of_ofMembers? hv fun e he =>
        hvalues e.2 (List.mem_map_of_mem (List.mem_reverse.1 he))
      exact fits_of_complete? hrest (by omega) hfits h
    · cases h
  · cases h

/-- Whatever a value begins with, there is room for what has been read of it. -/
theorem fits_of_beginValue? {ls : List Level} {c : Char} {r : Reader} (hls : LevelsFit ls)
    (h : beginValue? ls c = some r) : r.Fits := by
  unfold beginValue? at h
  split at h
  · exact fits_of_open? hls rfl (by simp) (by simp) h
  · exact fits_of_open? hls rfl (by simp) (by simp) h
  · cases h
    exact fits_of_levels hls (by simp) (by simp)
  · cases h
    exact fits_of_literal hls ⟨rfl, rfl, Nat.le_refl _⟩ _
  · cases h
    exact fits_of_literal hls ⟨rfl, rfl, Nat.le_refl _⟩ _
  · cases h
    exact fits_of_literal hls ⟨rfl, rfl, Nat.le_refl _⟩ _
  · split at h
    · exact fits_of_close? hls h
    · cases h
  · obtain ⟨s, -, rfl⟩ := Option.map_eq_some_iff.1 h
    exact fits_of_levels hls (by simp) (by simp)

/-- A key takes no room, and neither does the end of an object. -/
theorem fits_of_beginKey? {ls : List Level} {c : Char} {r : Reader} (hls : LevelsFit ls)
    (h : beginKey? ls c = some r) : r.Fits := by
  unfold beginKey? at h
  split at h
  · cases h
    exact fits_of_levels hls (by simp) (by simp)
  · split at h
    · exact fits_of_close? hls h
    · cases h

/-- A comma takes no room, and neither does the end of a level. -/
theorem fits_of_afterItem? {ls : List Level} {c : Char} {r : Reader} (hls : LevelsFit ls)
    (h : afterItem? ls c = some r) : r.Fits := by
  unfold afterItem? at h
  split at h
  · split at h
    · cases h
      exact fits_of_levels hls (by simp) (by simp)
    · cases h
      exact fits_of_levels hls (by simp) (by simp)
    · cases h
  · exact fits_of_close? hls h

/-- A character between tokens. -/
theorem Fits.stepToken {r r' : Reader} {c : Char} (hr : r.Fits) (h : r.stepToken? c = some r') :
    r'.Fits := by
  unfold stepToken? at h
  split at h
  · cases h
    exact hr
  · split at h
    · exact fits_of_beginValue? hr.levels h
    · exact fits_of_beginKey? hr.levels h
    · split at h
      · cases h
        exact fits_of_levels hr.levels (by simp) (by simp)
      · cases h
    · exact fits_of_afterItem? hr.levels h
    · cases h
    · cases h
    · cases h
    · cases h

/-- Any character. -/
theorem Fits.step {r r' : Reader} {c : Char} (hr : r.Fits) (h : r.step? c = some r') : r'.Fits := by
  unfold step? at h
  split at h
  · -- in a string that may end here
    split at h
    · exact fits_of_completeString? hr.levels h
    · obtain ⟨q, -, rfl⟩ := Option.map_eq_some_iff.1 h
      exact fits_of_levels hr.levels (by simp) (by simp)
  · -- in an escape
    obtain ⟨q, -, rfl⟩ := Option.map_eq_some_iff.1 h
    exact fits_of_levels hr.levels (by simp) (by simp)
  · -- in a number, which may end in front of the character
    split at h
    · cases h
      exact fits_of_levels hr.levels (by simp) (by simp)
    · obtain ⟨n, -, h⟩ := Option.bind_eq_some_iff.1 h
      obtain ⟨r₁, hr₁, h⟩ := Option.bind_eq_some_iff.1 h
      have hfits : r₁.Fits := fits_of_complete?_scalar hr.levels ⟨rfl, rfl, Nat.le_refl _⟩ hr₁
      exact hfits.stepToken h
  · cases h
  · -- in a literal
    next d ds v hphase =>
    have hv : v.Fits 0 := hr.literal _ v hphase
    split at h
    · split at h
      · exact fits_of_complete?_scalar hr.levels hv h
      · cases h
        exact fits_of_literal hr.levels hv _
    · cases h
  all_goals exact hr.stepToken h

/-- At the start there is room for all levels. -/
theorem fits_start : start.Fits :=
  ⟨trivial, by simp [start], by simp [start]⟩

/-- Any characters. -/
theorem Fits.run {r r' : Reader} {cs : List Char} (hr : r.Fits) (h : r.run cs = some r') : r'.Fits := by
  induction cs generalizing r with
  | nil =>
    cases h
    exact hr
  | cons c cs ih =>
    rw [run_cons] at h
    obtain ⟨r₁, hr₁, h⟩ := Option.bind_eq_some_iff.1 h
    exact ih (hr.step hr₁) h

end Reader

/-- What a text is read as fits into the room that the reader has. -/
theorem Value.fits_of_ofChars? {cs : List Char} {v : Value} (h : Value.ofChars? cs = some v) :
    v.Fits maxDepth := by
  obtain ⟨r, hr, hfinish⟩ := Option.bind_eq_some_iff.1 h
  have hfits : r.Fits := Reader.fits_start.run hr
  unfold Reader.finish? at hfinish
  split at hfinish
  · next hphase =>
    cases hfinish
    exact hfits.finished v hphase
  · obtain ⟨n, -, rfl⟩ := Option.map_eq_some_iff.1 hfinish
    exact ⟨rfl, rfl, Nat.zero_le _⟩
  · cases hfinish

namespace Value

/-! ### Keys -/

mutual

/-- Whether an object anywhere inside has this key. -/
def hasKey (key : String) : Value → Bool
  | .array items => itemsHaveKey key items
  | .object entries => entriesHaveKey key entries
  | .null | .boolean _ | .number _ | .string _ => false

/-- `hasKey` for the items of an array. -/
def itemsHaveKey (key : String) : List Value → Bool
  | [] => false
  | v :: vs => v.hasKey key || itemsHaveKey key vs

/-- `hasKey` for the entries of an object, their keys included. -/
def entriesHaveKey (key : String) : List (String × Value) → Bool
  | [] => false
  | (k, v) :: es => k == key || v.hasKey key || entriesHaveKey key es

end

/-- A key that is nowhere inside is not the first. -/
theorem head?_ne_of_not_entriesHaveKey {key : String} {es : List (String × Value)}
    (h : entriesHaveKey key es = false) : es.head?.map (·.1) ≠ some key := by
  rcases es with _ | ⟨⟨k, v⟩, es⟩
  · simp
  · simp only [entriesHaveKey, Bool.or_eq_false_iff, beq_eq_false_iff_ne] at h
    simpa using h.1.1

mutual

/-- A value in order is read as it was written unless the key of the long form of a number is in it. -/
theorem legible_of_sorted : (v : Value) → v.Sorted → v.hasKey numberKey = false → v.legible = true
  | .null, _, _ | .boolean _, _, _ | .number _, _, _ | .string _, _, _ => rfl
  | .array items, hv, hkey => itemsLegible_of_sorted items hv hkey
  | .object entries, hv, hkey => by
    obtain ⟨hascends, hentries⟩ := Bool.and_eq_true_iff.1 hv
    have hfirst : entries.head?.map (·.1) ≠ some numberKey := head?_ne_of_not_entriesHaveKey hkey
    rw [legible, hascends, bne_iff_ne.2 hfirst, entriesLegible_of_sorted entries hentries hkey]
    rfl

/-- Items in order, without the marking key inside, are read as they were written. -/
theorem itemsLegible_of_sorted : (vs : List Value) → itemsSorted vs = true →
    itemsHaveKey numberKey vs = false → itemsLegible vs = true
  | [], _, _ => rfl
  | v :: vs, hvs, hkey => by
    obtain ⟨hv, hvs⟩ := Bool.and_eq_true_iff.1 hvs
    obtain ⟨hvkey, hkey⟩ := Bool.or_eq_false_iff.1 hkey
    rw [itemsLegible, legible_of_sorted v hv hvkey, itemsLegible_of_sorted vs hvs hkey]
    rfl

/-- So are the values of an object. -/
theorem entriesLegible_of_sorted : (es : List (String × Value)) → entriesSorted es = true →
    entriesHaveKey numberKey es = false → entriesLegible es = true
  | [], _, _ => rfl
  | (k, v) :: es, hes, hkey => by
    obtain ⟨hv, hes⟩ := Bool.and_eq_true_iff.1 hes
    obtain ⟨hfirst, hkey⟩ := Bool.or_eq_false_iff.1 hkey
    obtain ⟨-, hvkey⟩ := Bool.or_eq_false_iff.1 hfirst
    rw [entriesLegible, legible_of_sorted v hv hvkey, entriesLegible_of_sorted es hes hkey]
    rfl

end

end Value

end FramedCall.Json
