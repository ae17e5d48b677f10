import FramedCall.Proofs.Json.Acceptance
import FramedCall.Proofs.Json.Position
import FramedCall.Proofs.Json.Wire

/-!
# Values that are read again

An object that was read has a key apart from the one that marks the long form of a number, but it need not
have been written with its keys in order. Written again it is, and where the marking key comes first the
object is refused. So the text of a value that was read is read again only if all its objects are read as
objects (`Value.legible_of_reread_toWire`), which is to say that nowhere inside it an object begins with
that key (`Value.legible_iff_at?`).
-/

namespace FramedCall.Json.Value

/-! ### Objects that begin with the marking key -/

/-- More than one member makes no long form of a number. -/
theorem head?_ne_of_ofMembers? {ms : List (String × Value)} {w : Value} (h : ofMembers? ms = some w)
    (hkeys : Keyed.keys ms ≠ [numberKey]) : ms.head?.map (·.1) ≠ some numberKey := by
  rcases ms with _ | ⟨⟨k, v⟩, ms⟩
  · simp
  · intro hk
    obtain rfl : k = numberKey := Option.some.inj hk
    simp only [ofMembers?, if_true] at h
    split at h
    · exact hkeys rfl
    · cases h

/-- On the wire an object has the same keys. -/
theorem keys_entriesToWire (es : List (String × Value)) :
    Keyed.keys (entriesToWire es) = Keyed.keys es := by
  induction es with
  | nil => rfl
  | cons e es ih =>
    obtain ⟨k, v⟩ := e
    rw [entriesToWire, Keyed.keys, List.map_cons]
    exact congrArg _ ih

mutual

/-- The text on the wire of a value that was read is read again only if the objects are read as objects. -/
theorem legible_of_reread_toWire : (v : Value) → v.Sorted → v.hasLongForm = false →
    ∀ {room : Nat} {w : Value}, v.toWire.reread room = some w → v.legible = true
  | .null, _, _, _, _, _ | .boolean _, _, _, _, _, _ | .number _, _, _, _, _, _
  | .string _, _, _, _, _, _ => rfl
  | .array items, hv, hform, 0, w, h => by cases h
  | .array items, hv, hform, room + 1, w, h => by
    rw [toWire, reread] at h
    obtain ⟨ws, hws, -⟩ := Option.map_eq_some_iff.1 h
    exact itemsLegible_of_reread_toWire items hv hform hws
  | .object entries, hv, hform, 0, w, h => by cases h
  | .object entries, hv, hform, room + 1, w, h => by
    obtain ⟨hascends, hentries⟩ := Bool.and_eq_true_iff.1 hv
    obtain ⟨hkeys, hforms⟩ := Bool.or_eq_false_iff.1 hform
    rw [toWire, reread] at h
    obtain ⟨fs, hfs, hmembers⟩ := Option.bind_eq_some_iff.1 h
    have hlegible := entriesLegible_of_reread_toWire entries hentries hforms hfs
    -- the members are the entries, so the marking key is not the first of them
    rw [entriesReread_of_legible _ _ (entriesLegible_entriesToWire entries hlegible)] at hfs
    split at hfs
    · cases hfs
      have hfirst := head?_ne_of_ofMembers? hmembers (by
        rw [keys_entriesToWire]
        exact ne_of_beq_false hkeys)
      rw [head?_entriesToWire] at hfirst
      rw [legible, hascends, bne_iff_ne.2 hfirst, hlegible]
      rfl
    · cases hfs

/-- So it is for items, by induction on them. -/
theorem itemsLegible_of_reread_toWire : (vs : List Value) → itemsSorted vs = true →
    itemsHaveLongForm vs = false → ∀ {room : Nat} {ws : List Value},
    itemsReread (itemsToWire vs) room = some ws → itemsLegible vs = true
  | [], _, _, _, _, _ => rfl
  | v :: vs, hvs, hform, room, ws, h => by
    obtain ⟨hv, hvs⟩ := Bool.and_eq_true_iff.1 hvs
    obtain ⟨hvform, hform⟩ := Bool.or_eq_false_iff.1 hform
    rw [itemsToWire, itemsReread] at h
    obtain ⟨w, hw, h⟩ := Option.bind_eq_some_iff.1 h
    obtain ⟨ws', hws', -⟩ := Option.map_eq_some_iff.1 h
    rw [itemsLegible, legible_of_reread_toWire v hv hvform hw,
      itemsLegible_of_reread_toWire vs hvs hform hws']
    rfl

/-- So it is for the values of an object. -/
theorem entriesLegible_of_reread_toWire : (es : List (String × Value)) → entriesSorted es = true →
    entriesHaveLongForm es = false → ∀ {room : Nat} {fs : List (String × Value)},
    entriesReread (entriesToWire es) room = some fs → entriesLegible es = true
  | [], _, _, _, _, _ => rfl
  | (k, v) :: es, hes, hform, room, fs, h => by
    obtain ⟨hv, hes⟩ := Bool.and_eq_true_iff.1 hes
    obtain ⟨hvform, hform⟩ := Bool.or_eq_false_iff.1 hform
    rw [entriesToWire, entriesReread] at h
    obtain ⟨w, hw, h⟩ := Option.bind_eq_some_iff.1 h
    obtain ⟨fs', hfs', -⟩ := Option.map_eq_some_iff.1 h
    rw [entriesLegible, legible_of_reread_toWire v hv hvform hw,
      entriesLegible_of_reread_toWire es hes hform hfs']
    rfl

end

/-! ### Objects at a position -/

/-- Items are legible if each of them is. -/
theorem itemsLegible_iff {vs : List Value} : itemsLegible vs = true ↔ ∀ v ∈ vs, v.legible = true := by
  induction vs with
  | nil => simp [itemsLegible]
  | cons v vs ih => simp [itemsLegible, ih]

/-- The values of an object are legible if each of them is. -/
theorem entriesLegible_iff {es : List (String × Value)} :
    entriesLegible es = true ↔ ∀ e ∈ es, e.2.legible = true := by
  induction es with
  | nil => simp [entriesLegible]
  | cons e es ih =>
    obtain ⟨k, v⟩ := e
    simp [entriesLegible, ih]

/-- What stands inside a value that is read as it was written is read so too. -/
theorem legible_at? {v u : Value} (hv : v.legible = true) {path : List Step} (h : v.at? path = some u) :
    u.legible = true := by
  induction path generalizing v with
  | nil =>
    cases h
    exact hv
  | cons s path ih =>
    rw [at?_cons] at h
    obtain ⟨w, hw, h⟩ := Option.bind_eq_some_iff.1 h
    refine ih ?_ h
    unfold child? at hw
    split at hw
    · exact itemsLegible_iff.1 hv w (List.mem_of_getElem? hw)
    · simp only [legible, Bool.and_eq_true] at hv
      exact entriesLegible_iff.1 hv.2 _ (Keyed.mem_of_find? hw)
    · cases hw

mutual

/-- A value in order is read as it was written if none of its objects begins with the marking key. -/
theorem legible_of_at? : (v : Value) → v.Sorted →
    (∀ path es, v.at? path = some (.object es) → (Keyed.keys es).head? ≠ some numberKey) →
    v.legible = true
  | .null, _, _ | .boolean _, _, _ | .number _, _, _ | .string _, _, _ => rfl
  | .array items, hv, h => by
    apply itemsLegible_of_at? items hv
    intro v hmem path
    obtain ⟨i, hi⟩ := List.mem_iff_getElem?.1 hmem
    have hat : (array items).at? (.item i :: path) = v.at? path := by
      rw [at?_cons, child?, hi, Option.bind_some]
    rw [← hat]
    exact h _
  | .object entries, hv, h => by
    obtain ⟨hascends, hentries⟩ := Bool.and_eq_true_iff.1 hv
    have hfirst : entries.head?.map (·.1) ≠ some numberKey := by
      rw [← List.head?_map]
      exact h [] entries rfl
    have hlegible : entriesLegible entries = true := by
      apply entriesLegible_of_at? entries hentries
      intro e hmem path
      have hat : (object entries).at? (.entry e.1 :: path) = e.2.at? path := by
        rw [at?_cons, child?, Keyed.find?_of_mem (fun _ _ _ => String.lt_trans) String.lt_irrefl
            hascends hmem, Option.bind_some]
      rw [← hat]
      exact h _
    rw [legible, hascends, bne_iff_ne.2 hfirst, hlegible]
    rfl

/-- Items are legible if no object inside any of them begins with the marking key. -/
theorem itemsLegible_of_at? : (vs : List Value) → itemsSorted vs = true →
    (∀ v ∈ vs, ∀ path es, v.at? path = some (.object es) → (Keyed.keys es).head? ≠ some numberKey) →
    itemsLegible vs = true
  | [], _, _ => rfl
  | v :: vs, hvs, h => by
    obtain ⟨hv, hvs⟩ := Bool.and_eq_true_iff.1 hvs
    rw [itemsLegible, legible_of_at? v hv (h v List.mem_cons_self),
      itemsLegible_of_at? vs hvs fun w hw => h w (List.mem_cons_of_mem _ hw)]
    rfl

/-- So are the values of an object. -/
theorem entriesLegible_of_at? : (es : List (String × Value)) → entriesSorted es = true →
    (∀ e ∈ es, ∀ path fs, e.2.at? path = some (.object fs) → (Keyed.keys fs).head? ≠ some numberKey) →
    entriesLegible es = true
  | [], _, _ => rfl
  | (k, v) :: es, hes, h => by
    obtain ⟨hv, hes⟩ := Bool.and_eq_true_iff.1 hes
    rw [entriesLegible, legible_of_at? v hv (h (k, v) List.mem_cons_self),
      entriesLegible_of_at? es hes fun e he => h e (List.mem_cons_of_mem _ he)]
    rfl

end

/-- A value in order is read as it was written if and only if none of its objects begins with the marking
key. -/
theorem legible_iff_at? {v : Value} (hv : v.Sorted) : v.legible = true ↔
    ∀ path es, v.at? path = some (.object es) → (Keyed.keys es).head? ≠ some numberKey := by
  refine ⟨?_, legible_of_at? v hv⟩
  intro hlegible path es hat
  have hobject := legible_at? hlegible hat
  simp only [legible, Bool.and_eq_true, bne_iff_ne] at hobject
  rw [Keyed.keys, List.head?_map]
  exact hobject.1.2

end FramedCall.Json.Value
