import Mathlib.Data.List.Basic
import Mathlib.Data.List.Nodup
import FramedCall.Outbox.Sequencer
import FramedCall.Proofs.Keyed

/-!
# What a sequencer releases

Settlements arrive in any order, each with a number of its own. `Sequencer.addAll` adds them one
after another. In order of the requests the settlements released so far are those numbered
`0, …, k - 1`, where `k` is the least number that has not arrived, and the others are held in
ascending order (`Accounts`, `accounts_addAll`); released and held ones together are all that have
arrived, in the order of their numbers (`Accounts.released_append_held`).
-/

namespace FramedCall

/-- Settlements in the order of their numbers. -/
def Settlement.inOrder (cs : List Settlement) : List Settlement :=
  cs.mergeSort fun a b => a.seq ≤ b.seq

/-- What is to be written of settlements that arrive like this, from first to last. -/
def DeliveryOrder.arrange : DeliveryOrder → List Settlement → List Settlement
  | .ordered, cs => Settlement.inOrder cs
  | .unordered, cs => cs

/-- A list with the same settlements in strictly ascending order is the ordered one. -/
theorem Settlement.inOrder_eq {cs l : List Settlement} (hperm : l.Perm cs)
    (hsorted : (l.map (·.seq)).Pairwise (· < ·)) : Settlement.inOrder cs = l := by
  have hl : l.Pairwise fun a b => a.seq < b.seq := List.pairwise_map.1 hsorted
  have hsort : (Settlement.inOrder cs).Pairwise fun a b => a.seq ≤ b.seq := by
    let le : Settlement → Settlement → Bool := fun a b => a.seq ≤ b.seq
    have htrans : ∀ a b c, le a b → le b c → le a c := by
      simp only [le, decide_eq_true_eq]
      omega
    have htotal : ∀ a b, le a b || le b a := by
      simp only [le, Bool.or_eq_true, decide_eq_true_eq]
      omega
    simpa [Settlement.inOrder, le] using List.pairwise_mergeSort htrans htotal cs
  have hp : (Settlement.inOrder cs).Perm l := (List.mergeSort_perm _ _).trans hperm.symm
  refine hp.eq_of_pairwise ?_ hsort (hl.imp Nat.le_of_lt)
  intro a b ha hb hab hba
  -- numbers do not repeat in `l`
  have hinj : (l.map (·.seq)).Nodup := hsorted.imp Nat.ne_of_lt
  exact List.inj_on_of_nodup_map hinj (hp.subset ha) hb (Nat.le_antisymm hab hba)

namespace Sequencer

/-- Adds settlements one after another: all that they release, and the sequencer behind them. -/
def addAll (s : Sequencer) : List Settlement → List Settlement × Sequencer
  | [] => ([], s)
  | c :: cs => ((s.add c).1 ++ ((s.add c).2.addAll cs).1, ((s.add c).2.addAll cs).2)

/-- Settlements are added one after another. -/
theorem addAll_append (s : Sequencer) (cs ds : List Settlement) :
    s.addAll (cs ++ ds) =
      ((s.addAll cs).1 ++ ((s.addAll cs).2.addAll ds).1, ((s.addAll cs).2.addAll ds).2) := by
  induction cs generalizing s with
  | nil => rfl
  | cons c cs ih => simp only [List.cons_append, addAll, ih, List.append_assoc]

/-- Adding one settlement is adding it. -/
theorem addAll_singleton (s : Sequencer) (c : Settlement) : s.addAll [c] = s.add c := by
  simp [addAll]

/-! ### As they come -/

/-- Without an order all are released as they come, and none is held. -/
theorem addAll_unordered {s : Sequencer} (h : s.order = .unordered) (cs : List Settlement) :
    s.addAll cs = (cs, s) := by
  induction cs with
  | nil => rfl
  | cons c cs ih =>
    have hadd : s.add c = ([c], s) := by simp [add, h]
    simp [addAll, hadd, ih]

/-! ### In the order of the requests -/

/-- The numbers below `m`, taken apart at `n`. -/
theorem range_eq_append_cons {n m : Nat} (h : n < m) :
    List.range m = List.range n ++ n :: List.range' (n + 1) (m - (n + 1)) := by
  have happ := List.range'_append_1 (s := 0) (m := n) (n := m - (n + 1) + 1)
  rw [List.range'_succ, Nat.zero_add, show n + (m - (n + 1) + 1) = m by omega] at happ
  simpa only [List.range_eq_range'] using happ.symm

/-- Of held settlements in ascending order, those without a gap from `n` on are released. -/
theorem release_spec {n : Nat} {held : List (Nat × Settlement)} (hsorted : held.Pairwise (·.1 < ·.1))
    (hn : ∀ e ∈ held, n ≤ e.1) :
    ∃ es n' held', release n held = (es.map (·.2), n', held') ∧ held = es ++ held' ∧ n ≤ n' ∧
      es.map (·.1) = List.range' n (n' - n) ∧ ∀ e ∈ held', n' < e.1 := by
  induction held generalizing n with
  | nil => exact ⟨[], n, [], rfl, rfl, Nat.le_refl n, by simp, by simp⟩
  | cons e held ih =>
    obtain ⟨seq, c⟩ := e
    obtain ⟨hhead, htail⟩ := List.pairwise_cons.1 hsorted
    have hle : n ≤ seq := hn (seq, c) List.mem_cons_self
    -- the first one is next, or it waits and everything behind it with it
    by_cases heq : seq = n
    · subst heq
      obtain ⟨es, n', held', hr, rfl, hnn, hes, hheld⟩ := ih htail fun e he => hhead e he
      refine ⟨(seq, c) :: es, n', held', ?_, rfl, by omega, ?_, hheld⟩
      · simp [release, hr]
      · have hlen : n' - seq = (n' - (seq + 1)) + 1 := by omega
        rw [hlen, List.range'_succ, List.map_cons, hes]
    · refine ⟨[], n, (seq, c) :: held, ?_, rfl, Nat.le_refl n, by simp, ?_⟩
      · simp only [release, if_neg heq, if_neg (Nat.not_lt_of_le hle), List.map_nil]
      · intro e he
        rcases List.mem_cons.1 he with rfl | he
        · show n < seq
          omega
        · exact Nat.lt_of_le_of_lt hle (hhead e he)

/-- The books of a sequencer that keeps to the order of the requests: `cs` has arrived, `out` has
been released. -/
structure Accounts (s : Sequencer) (cs out : List Settlement) : Prop where
  /-- The order is that of the requests. -/
  order : s.order = .ordered
  /-- Released are the first requests, without a gap. -/
  released : out.map (·.seq) = List.range s.next
  /-- Settlements are held under their numbers. -/
  keys : ∀ e ∈ s.held, e.1 = e.2.seq
  /-- They are held in ascending order. -/
  sorted : s.held.Pairwise (·.1 < ·.1)
  /-- The next one is not among them, and no earlier one. -/
  next_lt : ∀ e ∈ s.held, s.next < e.1
  /-- What has arrived has been released or is held. -/
  perm : (out ++ s.held.map (·.2)).Perm cs

/-- At the start nothing has arrived and nothing has been released. -/
theorem accounts_start : (start .ordered).Accounts [] [] :=
  ⟨rfl, rfl, by simp [start], by simp [start], by simp [start], .refl _⟩

namespace Accounts

variable {s : Sequencer} {cs out : List Settlement} (h : s.Accounts cs out)

include h

/-- The numbers under which settlements are held are their own. -/
theorem map_held : (s.held.map (·.2)).map (·.seq) = s.held.map (·.1) := by
  rw [List.map_map]
  exact List.map_congr_left fun e he => (h.keys e he).symm

/-- The numbers of what was released and of what is held ascend. -/
theorem pairwise_seq : ((out ++ s.held.map (·.2)).map (·.seq)).Pairwise (· < ·) := by
  rw [List.map_append, h.map_held, h.released, List.pairwise_append]
  refine ⟨List.pairwise_lt_range, List.pairwise_map.2 h.sorted, ?_⟩
  intro a ha b hb
  obtain ⟨e, he, rfl⟩ := List.mem_map.1 hb
  exact Nat.lt_trans (List.mem_range.1 ha) (h.next_lt e he)

/-- Released and held settlements are all that have arrived, in order. -/
theorem released_append_held : out ++ s.held.map (·.2) = Settlement.inOrder cs :=
  (Settlement.inOrder_eq h.perm h.pairwise_seq).symm

/-- A number has arrived if it is in front of the next one, or held. -/
theorem mem_seq_iff (n : Nat) : n ∈ cs.map (·.seq) ↔ n < s.next ∨ n ∈ s.held.map (·.1) := by
  rw [← (h.perm.map (·.seq)).mem_iff, List.map_append, h.map_held, h.released, List.mem_append,
    List.mem_range]

/-- The next number has not arrived, and all before it have. -/
theorem next_least : s.next ∉ cs.map (·.seq) ∧ ∀ n < s.next, n ∈ cs.map (·.seq) := by
  refine ⟨?_, fun n hn => (h.mem_seq_iff n).2 (.inl hn)⟩
  rw [h.mem_seq_iff]
  rintro (hlt | hmem)
  · omega
  · obtain ⟨e, he, hen⟩ := List.mem_map.1 hmem
    have := h.next_lt e he
    omega

/-- With one more arrived, one more is released or held. -/
theorem perm_append_cons (c : Settlement) : (out ++ c :: s.held.map (·.2)).Perm (cs ++ [c]) :=
  List.perm_middle.trans ((h.perm.cons c).trans (List.perm_append_singleton c cs).symm)

/-- The settlement that is next is released, and the held ones that follow it without a gap. -/
theorem add_next {c : Settlement} (hc : c.seq = s.next) :
    (s.add c).2.Accounts (cs ++ [c]) (out ++ (s.add c).1) := by
  obtain ⟨es, n', held', hr, hheld, hle, hes, hlt⟩ := release_spec h.sorted h.next_lt
  have hadd : s.add c = (c :: es.map (·.2), { s with next := n', held := held' }) := by
    simp [Sequencer.add, h.order, hc, hr]
  have hmem : ∀ e ∈ held', e ∈ s.held := by
    intro e he
    rw [hheld]
    exact List.mem_append_right _ he
  rw [hadd]
  refine ⟨h.order, ?_, fun e he => h.keys e (hmem e he), ?_, hlt, ?_⟩
  · -- the numbers go on without a gap: those before, this one, and the ones it lets go
    have hseq : (es.map (·.2)).map (·.seq) = es.map (·.1) := by
      rw [List.map_map]
      refine List.map_congr_left fun e he => (h.keys e ?_).symm
      rw [hheld]
      exact List.mem_append_left _ he
    rw [List.map_append, List.map_cons, hseq, hes, h.released, hc]
    exact (range_eq_append_cons hle).symm
  · have hs := h.sorted
    rw [hheld] at hs
    exact (List.pairwise_append.1 hs).2.1
  · have hperm := h.perm_append_cons c
    rw [hheld, List.map_append] at hperm
    simpa using hperm

/-- A settlement that comes before its turn is held. -/
theorem add_later {c : Settlement} (hc : s.next < c.seq) (hnew : c.seq ∉ s.held.map (·.1)) :
    (s.add c).2.Accounts (cs ++ [c]) (out ++ (s.add c).1) := by
  have hadd : s.add c = ([], { s with held := Keyed.insert c.seq c s.held }) := by
    simp [Sequencer.add, h.order, Nat.ne_of_gt hc]
  have hfresh : ∀ e ∈ s.held, e.1 ≠ c.seq := by
    intro e he hec
    exact hnew (List.mem_map.2 ⟨e, he, hec⟩)
  have hins := Keyed.insert_perm hfresh c
  have hmem : ∀ e ∈ Keyed.insert c.seq c s.held, e = (c.seq, c) ∨ e ∈ s.held := by
    intro e he
    exact List.mem_cons.1 (hins.subset he)
  rw [hadd, List.append_nil]
  refine ⟨h.order, h.released, ?_, ?_, ?_, ?_⟩
  · intro e he
    rcases hmem e he with rfl | he
    · rfl
    · exact h.keys e he
  · exact Keyed.pairwise_insert (fun _ _ _ => Nat.lt_trans) (fun a b => by omega) h.sorted _ _
  · intro e he
    rcases hmem e he with rfl | he
    · exact hc
    · exact h.next_lt e he
  · have hmap := hins.map (·.2)
    exact (hmap.append_left out).trans (h.perm_append_cons c)

/-- One more settlement, with a number that has not arrived. -/
theorem add {c : Settlement} (hc : c.seq ∉ cs.map (·.seq)) :
    (s.add c).2.Accounts (cs ++ [c]) (out ++ (s.add c).1) := by
  rw [h.mem_seq_iff, not_or] at hc
  obtain ⟨hnlt, hnew⟩ := hc
  rcases Nat.lt_or_eq_of_le (Nat.le_of_not_lt hnlt) with hlt | heq
  · exact h.add_later hlt hnew
  · exact h.add_next heq.symm

end Accounts

/-- The books after any arrivals with different numbers. -/
theorem accounts_addAll {s : Sequencer} {cs out : List Settlement} (h : s.Accounts cs out)
    (ds : List Settlement) (hnodup : ((cs ++ ds).map (·.seq)).Nodup) :
    (s.addAll ds).2.Accounts (cs ++ ds) (out ++ (s.addAll ds).1) := by
  induction ds generalizing s cs out with
  | nil => simpa [addAll] using h
  | cons d ds ih =>
    have hd : d.seq ∉ cs.map (·.seq) := by
      rw [List.map_append, List.nodup_append] at hnodup
      intro hmem
      exact hnodup.2.2 _ hmem _ (by simp) rfl
    have hnext := ih (h.add hd) (by simpa using hnodup)
    simpa [addAll] using hnext

end Sequencer
end FramedCall
