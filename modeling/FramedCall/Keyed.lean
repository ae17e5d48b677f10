/-!
# Entries in order of their keys

Lists of keys with values, in ascending order and each key once. Binding a key that is present
replaces its value. `Keyed.find?_insert` says what is found afterwards, and `Keyed.ascends_insert`
that the order is kept.
-/

namespace FramedCall.Keyed

variable {κ α : Type} [LT κ] [DecidableLT κ] [DecidableEq κ]

/-- Whether each key is smaller than the one behind it. -/
def ascends : List (κ × α) → Bool
  | [] | [_] => true
  | a :: b :: es => a.1 < b.1 && ascends (b :: es)

/-- The entries with `k` bound to `v`. -/
def insert (k : κ) (v : α) : List (κ × α) → List (κ × α)
  | [] => [(k, v)]
  | (l, w) :: es =>
    if k < l then (k, v) :: (l, w) :: es
    else if k = l then (k, v) :: es
    else (l, w) :: insert k v es

/-- The value bound to a key. -/
def find? (k : κ) : List (κ × α) → Option α
  | [] => none
  | (l, v) :: es => if l = k then some v else find? k es

/-- The keys in order. -/
def keys (es : List (κ × α)) : List κ :=
  es.map (·.1)

/-- What is left when each of the given entries is bound in turn. -/
def ofList (es : List (κ × α)) : List (κ × α) :=
  es.foldl (fun acc e => insert e.1 e.2 acc) []

omit [DecidableEq κ] in
/-- The order of the keys behind the first. -/
theorem ascends_tail {a : κ × α} {es : List (κ × α)} (h : ascends (a :: es) = true) :
    ascends es = true := by
  cases es with
  | nil => rfl
  | cons b es =>
    simp only [ascends, Bool.and_eq_true] at h
    exact h.2

omit [LT κ] [DecidableLT κ] in
/-- Nothing is found where there are no entries. -/
@[simp] theorem find?_nil (k : κ) : find? k ([] : List (κ × α)) = none := rfl

/-- The key just bound has its value. -/
theorem find?_insert_self (k : κ) (v : α) (es : List (κ × α)) :
    find? k (insert k v es) = some v := by
  induction es with
  | nil => simp [insert, find?]
  | cons e es ih =>
    obtain ⟨l, w⟩ := e
    simp only [insert]
    split
    · simp [find?]
    · split
      · simp [find?]
      · next hne => simp [find?, ih, Ne.symm hne]

/-- Every other key keeps its value. -/
theorem find?_insert_of_ne {k l : κ} (h : l ≠ k) (v : α) (es : List (κ × α)) :
    find? l (insert k v es) = find? l es := by
  induction es with
  | nil => simp [insert, find?, Ne.symm h]
  | cons e es ih =>
    obtain ⟨m, w⟩ := e
    simp only [insert]
    split
    · simp [find?, Ne.symm h]
    · split
      · next he =>
        subst he
        simp [find?, Ne.symm h]
      · simp [find?, ih]

/-- What is found behind a binding. -/
theorem find?_insert (k l : κ) (v : α) (es : List (κ × α)) :
    find? l (insert k v es) = if l = k then some v else find? l es := by
  split
  · next h => rw [h, find?_insert_self]
  · next h => exact find?_insert_of_ne h v es

/-- A binding adds one entry at most. -/
theorem length_insert_le (k : κ) (v : α) (es : List (κ × α)) :
    (insert k v es).length ≤ es.length + 1 := by
  induction es with
  | nil => simp [insert]
  | cons e es ih =>
    obtain ⟨l, w⟩ := e
    simp only [insert]
    split
    · simp
    · split
      · simp
      · simpa using ih

/-- Binding a key keeps the order, where of two different keys one is the smaller. -/
theorem ascends_insert (trichotomy : ∀ a b : κ, a < b ∨ a = b ∨ b < a) (k : κ) (v : α)
    (es : List (κ × α)) (h : ascends es = true) : ascends (insert k v es) = true := by
  induction es with
  | nil => rfl
  | cons e es ih =>
    obtain ⟨l, w⟩ := e
    simp only [insert]
    split
    · next hlt => simp [ascends, hlt, h]
    · split
      · next heq =>
        subst heq
        cases es with
        | nil => rfl
        | cons b es => simpa [ascends] using h
      · next hnlt hne =>
        have hlk : l < k := by
          rcases trichotomy k l with h' | h' | h'
          · exact absurd h' hnlt
          · exact absurd h' hne
          · exact h'
        have ih' := ih (ascends_tail h)
        cases es with
        | nil => simp [insert, ascends, hlk]
        | cons b es =>
          obtain ⟨m, x⟩ := b
          have hlm : l < m := by
            simp only [ascends, Bool.and_eq_true, decide_eq_true_eq] at h
            exact h.1
          simp only [insert] at ih' ⊢
          split
          · next hkm => simp_all [ascends]
          · next hkm =>
            rw [if_neg hkm] at ih'
            split
            · next hkm' => simp_all [ascends]
            · next hkm' =>
              rw [if_neg hkm'] at ih'
              simp [ascends, hlm, ih']

end FramedCall.Keyed
