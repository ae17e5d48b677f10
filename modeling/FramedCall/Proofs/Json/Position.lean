import Mathlib.Data.List.Basic
import FramedCall.Json.Normalize
import FramedCall.Proofs.Json.SafeInteger
import FramedCall.Proofs.Json.Wire
import FramedCall.Proofs.Keyed

/-!
# Positions in a value

A position is a path of steps, each to an item of an array or to a value of an object (`Value.at?`).
Going on the wire changes the numbers of a value, each by itself, and leaves them where they stand
(`Value.toWire_eq_mapNumbers`, `Value.at?_toWire_eq`). So does taking the normal form, where there is
one (`Value.at?_normalize`).
-/

namespace FramedCall.Json

namespace Value

/-! ### Numbers in their places -/

mutual

/-- The value with something in place of each number. -/
def mapNumbers (f : Number → Value) : Value → Value
  | .number n => f n
  | .array items => .array (itemsMapNumbers f items)
  | .object entries => .object (entriesMapNumbers f entries)
  | .null => .null
  | .boolean b => .boolean b
  | .string s => .string s

/-- `mapNumbers` for the items of an array. -/
def itemsMapNumbers (f : Number → Value) : List Value → List Value
  | [] => []
  | v :: vs => v.mapNumbers f :: itemsMapNumbers f vs

/-- `mapNumbers` for the values of an object. -/
def entriesMapNumbers (f : Number → Value) : List (String × Value) → List (String × Value)
  | [] => []
  | (k, v) :: es => (k, v.mapNumbers f) :: entriesMapNumbers f es

end

mutual

/-- A value goes on the wire with its numbers as they are there. -/
theorem toWire_eq_mapNumbers : (v : Value) → v.toWire = v.mapNumbers Number.onWire
  | .null | .boolean _ | .string _ => rfl
  | .number n => toWire_number n
  | .array items => by rw [toWire, mapNumbers, itemsToWire_eq items]
  | .object entries => by rw [toWire, mapNumbers, entriesToWire_eq entries]

/-- So do items. -/
theorem itemsToWire_eq : (vs : List Value) → itemsToWire vs = itemsMapNumbers Number.onWire vs
  | [] => rfl
  | v :: vs => by rw [itemsToWire, itemsMapNumbers, toWire_eq_mapNumbers v, itemsToWire_eq vs]

/-- So do the values of an object. -/
theorem entriesToWire_eq : (es : List (String × Value)) →
    entriesToWire es = entriesMapNumbers Number.onWire es
  | [] => rfl
  | (k, v) :: es => by
    rw [entriesToWire, entriesMapNumbers, toWire_eq_mapNumbers v, entriesToWire_eq es]

end

/-! ### Positions -/

/-- A step into a value. -/
inductive Step where
  /-- To an item of an array. -/
  | item (i : Nat)
  /-- To the value under a key of an object. -/
  | entry (key : String)
deriving DecidableEq, Repr

/-- What is one step into a value. -/
def child? : Value → Step → Option Value
  | .array items, .item i => items[i]?
  | .object entries, .entry key => Keyed.find? key entries
  | _, _ => none

/-- What stands at a position. -/
def at? (v : Value) : List Step → Option Value
  | [] => some v
  | s :: path => (v.child? s).bind fun u => u.at? path

/-- Without a step the value itself is there. -/
@[simp] theorem at?_nil (v : Value) : v.at? [] = some v := rfl

/-- The first step leads into a value, and the others go on there. -/
theorem at?_cons (v : Value) (s : Step) (path : List Step) :
    v.at? (s :: path) = (v.child? s).bind (·.at? path) := rfl

/-- Steps are taken one after another. -/
theorem at?_append (v : Value) (front back : List Step) :
    v.at? (front ++ back) = (v.at? front).bind (·.at? back) := by
  induction front generalizing v with
  | nil => rfl
  | cons s front ih =>
    rw [List.cons_append, at?_cons, at?_cons, Option.bind_assoc]
    exact congrArg _ (funext ih)

/-- Nothing stands in a string but itself. -/
theorem at?_string_eq_some {s : String} {path : List Step} {u : Value}
    (h : (string s).at? path = some u) : path = [] ∧ u = .string s := by
  rcases path with _ | ⟨step, path⟩
  · cases h
    exact ⟨rfl, rfl⟩
  · cases h

/-- An item stays in its place. -/
theorem getElem?_itemsMapNumbers {f : Number → Value} {vs : List Value} {i : Nat} {u : Value}
    (h : vs[i]? = some u) : (itemsMapNumbers f vs)[i]? = some (u.mapNumbers f) := by
  induction vs generalizing i with
  | nil => cases h
  | cons v vs ih =>
    rcases i with _ | i
    · cases h
      rfl
    · exact ih h

/-- A value stays under its key. -/
theorem find?_entriesMapNumbers {f : Number → Value} {es : List (String × Value)} {k : String}
    {u : Value} (h : Keyed.find? k es = some u) :
    Keyed.find? k (entriesMapNumbers f es) = some (u.mapNumbers f) := by
  induction es with
  | nil => cases h
  | cons e es ih =>
    obtain ⟨l, v⟩ := e
    rw [Keyed.find?] at h
    rw [entriesMapNumbers, Keyed.find?]
    split at h
    · next hk =>
      cases h
      rw [if_pos hk]
    · next hk =>
      rw [if_neg hk]
      exact ih h

/-- What is one step into a value has its numbers changed there. -/
theorem child?_mapNumbers {f : Number → Value} {v u : Value} {s : Step} (h : v.child? s = some u) :
    (v.mapNumbers f).child? s = some (u.mapNumbers f) := by
  cases v with
  | array items =>
    cases s with
    | item i => exact getElem?_itemsMapNumbers h
    | entry key => cases h
  | object entries =>
    cases s with
    | item i => cases h
    | entry key => exact find?_entriesMapNumbers h
  | null | boolean _ | number _ | string _ => cases h

/-- What stands at a position has its numbers changed there. -/
theorem at?_mapNumbers {f : Number → Value} {v u : Value} {path : List Step} (h : v.at? path = some u) :
    (v.mapNumbers f).at? path = some (u.mapNumbers f) := by
  induction path generalizing v with
  | nil =>
    cases h
    rfl
  | cons s path ih =>
    obtain ⟨w, hw, h⟩ := Option.bind_eq_some_iff.1 h
    rw [at?_cons, child?_mapNumbers hw]
    exact ih h

/-- Each item goes on the wire by itself. -/
theorem itemsToWire_eq_map (vs : List Value) : itemsToWire vs = vs.map toWire := by
  induction vs with
  | nil => rfl
  | cons v vs ih => rw [itemsToWire, ih, List.map_cons]

/-- Under its key a value is found as it goes on the wire. -/
theorem find?_entriesToWire (k : String) (es : List (String × Value)) :
    Keyed.find? k (entriesToWire es) = (Keyed.find? k es).map toWire := by
  induction es with
  | nil => rfl
  | cons e es ih =>
    obtain ⟨l, v⟩ := e
    rw [entriesToWire, Keyed.find?, Keyed.find?]
    split
    · rfl
    · exact ih

/-- What is one step into a value goes on the wire there, and nothing else gets there. -/
theorem child?_toWire (v : Value) (s : Step) : v.toWire.child? s = (v.child? s).map toWire := by
  cases v with
  | number n =>
    rw [toWire]
    split <;> rfl
  | array items =>
    cases s with
    | item i =>
      show (itemsToWire items)[i]? = items[i]?.map toWire
      rw [itemsToWire_eq_map, List.getElem?_map]
    | entry key => rfl
  | object entries =>
    cases s with
    | item i => rfl
    | entry key => exact find?_entriesToWire key entries
  | null | boolean _ | string _ => rfl

/-- At every position of the wire stands what stood there, on the wire, and there are no other
positions. -/
theorem at?_toWire_eq (v : Value) (path : List Step) : v.toWire.at? path = (v.at? path).map toWire := by
  induction path generalizing v with
  | nil => rfl
  | cons s path ih =>
    rw [at?_cons, at?_cons, child?_toWire]
    rcases v.child? s with _ | u
    · rfl
    · exact ih u

/-- What stands at a position goes on the wire there. -/
theorem at?_toWire {v : Value} {n : Number} {path : List Step} (h : v.at? path = some (.number n)) :
    v.toWire.at? path = some n.onWire := by
  rw [at?_toWire_eq, h, Option.map_some, toWire_number]

/-! ### Normal forms in their places -/

/-- A first step that comes to something is done before the rest. -/
theorem of_bind_eq_ok {ε α β : Type} {x : Except ε α} {f : α → Except ε β} {b : β}
    (h : x >>= f = .ok b) : ∃ a, x = .ok a ∧ f a = .ok b := by
  rcases x with e | a
  · cases h
  · exact ⟨a, rfl, h⟩

/-- The normal form of an item stands in its place. -/
theorem getElem?_normalizeItems {vs ws : List Value} (hnormal : normalizeItems vs = .ok ws) {i : Nat}
    {u : Value} (h : vs[i]? = some u) : ∃ u', u.normalize = .ok u' ∧ ws[i]? = some u' := by
  induction vs generalizing ws i with
  | nil => cases h
  | cons v vs ih =>
    rw [normalizeItems] at hnormal
    obtain ⟨v', hv, hnormal⟩ := of_bind_eq_ok hnormal
    obtain ⟨vs', hvs, hnormal⟩ := of_bind_eq_ok hnormal
    cases hnormal
    rcases i with _ | i
    · cases h
      exact ⟨v', hv, rfl⟩
    · exact ih hvs h

/-- The normal form of a value stands under its key. -/
theorem find?_normalizeEntries {es fs : List (String × Value)} (hnormal : normalizeEntries es = .ok fs)
    {k : String} {u : Value} (h : Keyed.find? k es = some u) :
    ∃ u', u.normalize = .ok u' ∧ Keyed.find? k fs = some u' := by
  induction es generalizing fs with
  | nil => cases h
  | cons e es ih =>
    obtain ⟨l, v⟩ := e
    rw [normalizeEntries] at hnormal
    obtain ⟨v', hv, hnormal⟩ := of_bind_eq_ok hnormal
    obtain ⟨es', hes, hnormal⟩ := of_bind_eq_ok hnormal
    cases hnormal
    rw [Keyed.find?] at h
    rw [Keyed.find?]
    split at h
    · next hk =>
      cases h
      exact ⟨v', hv, if_pos hk⟩
    · next hk =>
      rw [if_neg hk]
      exact ih hes h

/-- A number in long form is a text and nothing else. -/
theorem of_longNumber {v w : Value} {others : Nat} (h : longNumber v others = .ok w) :
    others = 0 ∧ ∃ t, v = .string t := by
  unfold longNumber at h
  split at h
  · next t =>
    split at h
    · cases h
    · split at h
      · next hothers => exact ⟨hothers, t, rfl⟩
      · cases h
  · cases h

/-- The items of an array in normal form are the normal forms of its items. -/
theorem of_normalize_array {vs : List Value} {w : Value} (h : (array vs).normalize = .ok w) :
    ∃ ws, normalizeItems vs = .ok ws ∧ w = .array ws := by
  rw [normalize] at h
  rcases hvs : normalizeItems vs with m | ws
  · rw [hvs] at h
    cases h
  · rw [hvs] at h
    cases h
    exact ⟨ws, rfl, rfl⟩

/-- The values of an object in normal form are the normal forms of its values, unless it is a number
in long form. -/
theorem of_normalize_object {es : List (String × Value)} {w : Value} (h : (object es).normalize = .ok w) :
    (∃ t, es = [(numberKey, .string t)]) ∨ ∃ fs, normalizeEntries es = .ok fs ∧ w = .object fs := by
  rcases es with _ | ⟨⟨k, v⟩, es⟩
  · cases h
    exact .inr ⟨[], rfl, rfl⟩
  · rw [normalize] at h
    split at h
    · next hk =>
      obtain ⟨hothers, t, rfl⟩ := of_longNumber h
      rw [hk, List.length_eq_zero_iff.1 hothers]
      exact .inl ⟨t, rfl⟩
    · obtain ⟨v', hv, h⟩ := of_bind_eq_ok h
      obtain ⟨es', hes, h⟩ := of_bind_eq_ok h
      cases h
      refine .inr ⟨(k, v') :: es', ?_, rfl⟩
      rw [normalizeEntries, hv, hes]
      rfl

/-- What is one step into a value is so in its normal form, unless it is the text of a number in long
form. -/
theorem child?_normalize {v w u : Value} (hnormal : v.normalize = .ok w) {s : Step}
    (h : v.child? s = some u) :
    (∃ t, u = .string t) ∨ ∃ u', u.normalize = .ok u' ∧ w.child? s = some u' := by
  cases v with
  | array items =>
    obtain ⟨items', hitems, rfl⟩ := of_normalize_array hnormal
    cases s with
    | item i => exact .inr (getElem?_normalizeItems hitems h)
    | entry key => cases h
  | object entries =>
    cases s with
    | item i => cases h
    | entry key =>
      rcases of_normalize_object hnormal with ⟨t, rfl⟩ | ⟨entries', hentries, rfl⟩
      · rw [child?, Keyed.find?] at h
        split at h
        · cases h
          exact .inl ⟨t, rfl⟩
        · cases h
      · exact .inr (find?_normalizeEntries hentries h)
  | null | boolean _ | number _ | string _ => cases h

/-- A number has its normal form where it stands. -/
theorem at?_normalize {v w : Value} (hnormal : v.normalize = .ok w) {path : List Step} {n : Number}
    (h : v.at? path = some (.number n)) : w.at? path = some (.number n.normalize) := by
  induction path generalizing v w with
  | nil =>
    cases h
    cases hnormal
    rfl
  | cons s path ih =>
    obtain ⟨u, hu, h⟩ := Option.bind_eq_some_iff.1 h
    rcases child?_normalize hnormal hu with ⟨t, rfl⟩ | ⟨u', hnormal', hu'⟩
    · cases (at?_string_eq_some h).2
    · rw [at?_cons, hu']
      exact ih hnormal' h

end Value
end FramedCall.Json
