import Mathlib.Data.List.Basic
import FramedCall.Keyed

/-!
# Entries in order of their keys, as sorted lists

`Keyed.ascends` compares neighbours. Where the order of the keys is transitive this is the order of
all pairs (`ascends_iff_pairwise`), and binding a key that is not there yet adds one entry and
changes none (`insert_perm`). Entries that are bound one after another are in order, each of them is one
that was bound, and no key is lost (`ascends_ofList`, `mem_of_mem_ofList`, `mem_keys_ofList`).
-/

namespace FramedCall.Keyed

variable {κ α : Type} [LT κ] [DecidableLT κ]

omit [LT κ] [DecidableLT κ] in
/-- The key of the first entry is the first key. -/
theorem keys_cons (e : κ × α) (es : List (κ × α)) : keys (e :: es) = e.1 :: keys es := rfl

/-- Neighbours in order are pairs in order. -/
theorem ascends_iff_pairwise (trans : ∀ a b c : κ, a < b → b < c → a < c) (es : List (κ × α)) :
    ascends es = true ↔ es.Pairwise (·.1 < ·.1) := by
  induction es with
  | nil => simp [ascends]
  | cons a es ih =>
    cases es with
    | nil => simp [ascends]
    | cons b es =>
      simp only [ascends, Bool.and_eq_true, decide_eq_true_eq, ih, List.pairwise_cons (a := a)]
      constructor
      · rintro ⟨hab, hbs⟩
        refine ⟨?_, hbs⟩
        intro c hc
        rcases List.mem_cons.1 hc with rfl | hc
        · exact hab
        · exact trans _ _ _ hab ((List.pairwise_cons.1 hbs).1 c hc)
      · rintro ⟨ha, hbs⟩
        exact ⟨ha b List.mem_cons_self, hbs⟩

variable [DecidableEq κ]

/-- A key that is not there yet comes in addition to the others. -/
theorem insert_perm {k : κ} {es : List (κ × α)} (h : ∀ e ∈ es, e.1 ≠ k) (v : α) :
    (insert k v es).Perm ((k, v) :: es) := by
  induction es with
  | nil => exact .refl _
  | cons e es ih =>
    obtain ⟨l, w⟩ := e
    have hne : k ≠ l := (h (l, w) List.mem_cons_self).symm
    simp only [insert, hne, if_false]
    split
    · exact .refl _
    · exact ((ih fun e he => h e (List.mem_cons_of_mem _ he)).cons _).trans (.swap _ _ _)

/-- Binding a key keeps the order of all pairs. -/
theorem pairwise_insert (trans : ∀ a b c : κ, a < b → b < c → a < c)
    (trichotomy : ∀ a b : κ, a < b ∨ a = b ∨ b < a) {es : List (κ × α)}
    (h : es.Pairwise (·.1 < ·.1)) (k : κ) (v : α) : (insert k v es).Pairwise (·.1 < ·.1) :=
  (ascends_iff_pairwise trans _).1
    (ascends_insert trichotomy k v es ((ascends_iff_pairwise trans _).2 h))

/-- Binding a key brings in nothing but its own entry. -/
theorem mem_of_mem_insert {k : κ} {v : α} {e : κ × α} {es : List (κ × α)} (h : e ∈ insert k v es) :
    e = (k, v) ∨ e ∈ es := by
  induction es with
  | nil => exact .inl (List.mem_singleton.1 h)
  | cons d es ih =>
    obtain ⟨l, w⟩ := d
    simp only [insert] at h
    split at h
    · exact List.mem_cons.1 h
    · split at h
      · rcases List.mem_cons.1 h with rfl | h
        · exact .inl rfl
        · exact .inr (List.mem_cons_of_mem _ h)
      · rcases List.mem_cons.1 h with rfl | h
        · exact .inr List.mem_cons_self
        · exact (ih h).imp_right (List.mem_cons_of_mem _)

/-- Binding a key adds that key. -/
theorem mem_keys_insert {k l : κ} {v : α} {es : List (κ × α)} :
    l ∈ keys (insert k v es) ↔ l = k ∨ l ∈ keys es := by
  induction es with
  | nil => simp [insert, keys]
  | cons e es ih =>
    obtain ⟨m, w⟩ := e
    simp only [keys, List.map_cons, List.mem_cons] at ih ⊢
    simp only [insert]
    split
    · simp
    · split
      · next hk =>
        subst hk
        simp
      · simp only [List.map_cons, List.mem_cons, ih]
        exact or_left_comm

/-- What holds of no entries, and is kept when one of these is bound, holds when all are. -/
theorem ofList_induction {P : List (κ × α) → Prop} {es : List (κ × α)} (hnil : P [])
    (hinsert : ∀ ds, P ds → ∀ e ∈ es, P (insert e.1 e.2 ds)) : P (ofList es) :=
  List.foldlRecOn es _ hnil hinsert

/-- Keys that are bound one after another are in order. -/
theorem ascends_ofList (trichotomy : ∀ a b : κ, a < b ∨ a = b ∨ b < a) (es : List (κ × α)) :
    ascends (ofList es) = true :=
  ofList_induction (P := fun ds => ascends ds = true) rfl
    fun ds h e _ => ascends_insert trichotomy e.1 e.2 ds h

/-- Sorting adds no entries: each of them was there. -/
theorem mem_of_mem_ofList {d : κ × α} {es : List (κ × α)} (h : d ∈ ofList es) : d ∈ es := by
  have hall : ∀ d ∈ ofList es, d ∈ es := by
    apply ofList_induction (P := fun ds => ∀ d ∈ ds, d ∈ es)
    · simp
    · intro ds hds e he d hd
      rcases mem_of_mem_insert hd with rfl | hd
      · exact he
      · exact hds d hd
  exact hall d h

omit [LT κ] [DecidableLT κ] in
/-- What is found is there. -/
theorem mem_of_find? {k : κ} {v : α} {es : List (κ × α)} (h : find? k es = some v) : (k, v) ∈ es := by
  induction es with
  | nil => cases h
  | cons e es ih =>
    obtain ⟨l, w⟩ := e
    rw [find?] at h
    split at h
    · next hk =>
      cases h
      rw [hk]
      exact List.mem_cons_self
    · exact List.mem_cons_of_mem _ (ih h)

/-- What is there under a key of entries in order is found. -/
theorem find?_of_mem (trans : ∀ a b c : κ, a < b → b < c → a < c) (irrefl : ∀ a : κ, ¬ a < a)
    {es : List (κ × α)} (h : ascends es = true) {e : κ × α} (he : e ∈ es) : find? e.1 es = some e.2 := by
  have hpairs := (ascends_iff_pairwise trans es).1 h
  clear h
  induction es with
  | nil => cases he
  | cons d es ih =>
    obtain ⟨l, w⟩ := d
    obtain ⟨hfirst, hrest⟩ := List.pairwise_cons.1 hpairs
    rw [find?]
    rcases List.mem_cons.1 he with rfl | he
    · rw [if_pos rfl]
    · have hne : l ≠ e.1 := by
        intro heq
        exact irrefl l (heq ▸ hfirst e he)
      rw [if_neg hne, ih he hrest]

/-- The keys are those that were bound. -/
theorem mem_keys_ofList {k : κ} {es : List (κ × α)} : k ∈ keys (ofList es) ↔ k ∈ keys es := by
  have hfold : ∀ ds : List (κ × α),
      k ∈ keys (es.foldl (fun acc e => insert e.1 e.2 acc) ds) ↔ k ∈ keys ds ∨ k ∈ keys es := by
    induction es with
    | nil => simp [keys]
    | cons e es ih =>
      intro ds
      rw [List.foldl_cons, ih, mem_keys_insert]
      simp only [keys, List.map_cons, List.mem_cons]
      rw [or_comm (a := k = e.1), or_assoc]
  rw [ofList, hfold]
  simp [keys]

end FramedCall.Keyed
