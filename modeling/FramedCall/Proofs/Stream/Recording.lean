import Mathlib.Data.List.Basic
import FramedCall.Stream.Device

/-!
# Writes as a device sees them

A recorded device keeps each write that is done on it, what was offered and what was answered
(`Device.recorded`), and is otherwise the same. `Device.Writes` is what such a record may look like when
slices are written to the end, and `Device.writeSlices_recorded` says that it always does. From it come
what is offered at each write (`Writes.slices`), what has been taken (`Writes.output`), and how the record
ends (`Writes.complete`, `Writes.fails`).
-/

namespace FramedCall.Device

variable {σ ε : Type}

/-! ### Slices -/

/-- What is left when bytes are taken twice. -/
theorem dropBytes_dropBytes (m n : Nat) (ss : List Bytes) :
    dropBytes m (dropBytes n ss) = dropBytes (n + m) ss := by
  induction ss generalizing n with
  | nil => rfl
  | cons s ss ih =>
    by_cases hn : s.length ≤ n
    · rw [dropBytes, if_pos hn, ih, dropBytes, if_pos (Nat.le_add_right_of_le hn), Nat.sub_add_comm hn]
    · -- the second cut goes on in the slice in which the first one ends
      rw [dropBytes, if_neg hn, dropBytes, List.length_drop, dropBytes, List.drop_drop]
      by_cases hm : s.length ≤ n + m
      · rw [if_pos (by omega), if_pos hm]
        congr 1
        omega
      · rw [if_neg (by omega), if_neg hm]

/-- Where no byte is taken, all slices are left. -/
theorem dropBytes_zero {ss : List Bytes} (hne : ∀ p ∈ ss, p ≠ []) : dropBytes 0 ss = ss := by
  cases ss with
  | nil => rfl
  | cons s ss =>
    have hs : 0 < s.length := List.length_pos_iff.2 (hne s List.mem_cons_self)
    rw [dropBytes, if_neg (Nat.not_le.2 hs), List.drop_zero]

/-- No slice that is left is empty if none was. -/
theorem ne_nil_of_mem_dropBytes {n : Nat} {ss : List Bytes} (hne : ∀ p ∈ ss, p ≠ []) :
    ∀ p ∈ dropBytes n ss, p ≠ [] := by
  induction ss generalizing n with
  | nil => simp [dropBytes]
  | cons s ss ih =>
    have hss : ∀ p ∈ ss, p ≠ [] := by
      intro p hp
      exact hne p (List.mem_cons_of_mem s hp)
    unfold dropBytes
    split
    · exact ih hss
    · next hlt =>
      intro p hp
      rcases List.mem_cons.1 hp with rfl | hp
      · simp only [ne_eq, List.drop_eq_nil_iff]
        exact hlt
      · exact hss p hp

/-- Slices that are there are offered. -/
theorem writeSlices_of_ne_nil (d : Device σ ε) (stuck : ε) (s : σ) {ss : List Bytes} (h : ss ≠ []) :
    d.writeSlices stuck s ss = match d.write s ss with
      | (.error e, s') => (.error e, s')
      | (.ok n, s') => if n = 0 then (.error stuck, s') else d.writeSlices stuck s' (dropBytes n ss) := by
  cases ss with
  | nil => exact absurd rfl h
  | cons p ps =>
    rw [writeSlices]
    rfl

/-! ### Records -/

/-- One write: the slices that are offered, and the answer. -/
structure Offer (ε : Type) where
  /-- What is offered. -/
  slices : List Bytes
  /-- How many bytes are taken, or why the write fails. -/
  answer : Except ε Nat
deriving DecidableEq

namespace Offer

/-- How many bytes are taken; none by a write that fails. -/
def count (c : Offer ε) : Nat :=
  match c.answer with
  | .ok n => n
  | .error _ => 0

/-- The bytes that are taken. -/
def bytes (c : Offer ε) : Bytes :=
  c.slices.flatten.take c.count

/-- Why nothing is taken, where `stuck` stands for no reason given. -/
def cause (stuck : ε) (c : Offer ε) : ε :=
  match c.answer with
  | .ok _ => stuck
  | .error e => e

end Offer

/-- How many bytes some writes have taken. -/
def count : List (Offer ε) → Nat
  | [] => 0
  | c :: calls => c.count + count calls

/-- The bytes that some writes have taken. -/
def output (calls : List (Offer ε)) : Bytes :=
  calls.flatMap Offer.bytes

/-- What the first write has taken comes first. -/
@[simp] theorem output_cons (c : Offer ε) (calls : List (Offer ε)) :
    output (c :: calls) = c.bytes ++ output calls := by
  simp [output]

/-- The device with a record of all its writes. -/
def recorded (d : Device σ ε) : Device (σ × List (Offer ε)) ε where
  write := fun (s, calls) ss =>
    let (answer, s') := d.write s ss
    (answer, s', calls ++ [⟨ss, answer⟩])
  flush := fun (s, calls) =>
    let (result, s') := d.flush s
    (result, s', calls)

/-- No write takes more than it is offered. -/
def TakesAtMostOffered (d : Device σ ε) : Prop :=
  ∀ s ss n s', d.write s ss = (.ok n, s') → n ≤ ss.flatten.length

/-! ### Writing to the end -/

/-- The writes of slices to the end, and the result. Each write offers all that is left. -/
inductive Writes (stuck : ε) : List Bytes → List (Offer ε) → Except ε Unit → Prop
  /-- Nothing is left. -/
  | done : Writes stuck [] [] (.ok ())
  /-- A write fails. -/
  | failed {p : Bytes} {ps : List Bytes} (e : ε) : Writes stuck (p :: ps) [⟨p :: ps, .error e⟩] (.error e)
  /-- A write takes nothing. -/
  | stuck {p : Bytes} {ps : List Bytes} : Writes stuck (p :: ps) [⟨p :: ps, .ok 0⟩] (.error stuck)
  /-- A write takes something. -/
  | taken {p : Bytes} {ps : List Bytes} {n : Nat} {calls : List (Offer ε)} {result : Except ε Unit}
      (hpos : 0 < n) (hle : n ≤ (p :: ps).flatten.length)
      (rest : Writes stuck (dropBytes n (p :: ps)) calls result) :
      Writes stuck (p :: ps) (⟨p :: ps, .ok n⟩ :: calls) result

/-- There is one way to split a list of one entry at an entry. -/
theorem eq_of_singleton_eq {α : Type} {a c : α} {before after : List α} (h : [a] = before ++ c :: after) :
    before = [] ∧ c = a ∧ after = [] := by
  cases before with
  | nil =>
    obtain ⟨rfl, hafter⟩ := List.cons.inj h
    exact ⟨rfl, rfl, hafter.symm⟩
  | cons b before => simp at h

/-- Slices are written with a record just as without one, and the record is one of writes to the end. -/
theorem writeSlices_recorded {d : Device σ ε} (hd : d.TakesAtMostOffered) (stuck : ε) (s : σ)
    (before : List (Offer ε)) (ss : List Bytes) :
    ∃ calls, d.recorded.writeSlices stuck (s, before) ss =
        ((d.writeSlices stuck s ss).1, (d.writeSlices stuck s ss).2, before ++ calls) ∧
      Writes stuck ss calls (d.writeSlices stuck s ss).1 := by
  -- nothing is left, the device fails, it takes nothing, or it takes something and the rest follows
  induction s, ss using writeSlices.induct (d := d) generalizing before with
  | case1 s => exact ⟨[], by simp [writeSlices], by simpa [writeSlices] using .done⟩
  | case2 s p ps e s' hw =>
    have hrun : d.writeSlices stuck s (p :: ps) = (.error e, s') := by rw [writeSlices, hw]
    refine ⟨[⟨p :: ps, .error e⟩], ?_, by simpa [hrun] using .failed e⟩
    rw [hrun, writeSlices]
    simp only [recorded, hw]
  | case3 s p ps s' hw =>
    have hrun : d.writeSlices stuck s (p :: ps) = (.error stuck, s') := by
      rw [writeSlices, hw]
      rfl
    refine ⟨[⟨p :: ps, .ok 0⟩], ?_, by simpa [hrun] using .stuck⟩
    rw [hrun, writeSlices]
    simp only [recorded, hw, dif_pos]
  | case4 s p ps n s' hw hn ih =>
    obtain ⟨calls, hcalls, hwrites⟩ := ih (before ++ [⟨p :: ps, .ok n⟩])
    have hrun : d.writeSlices stuck s (p :: ps) = d.writeSlices stuck s' (dropBytes n (p :: ps)) := by
      rw [writeSlices, hw]
      simp only [hn, dif_neg, not_false_eq_true]
    refine ⟨⟨p :: ps, .ok n⟩ :: calls, ?_, ?_⟩
    · rw [writeSlices]
      simp only [recorded, hw, hn, dif_neg, not_false_eq_true]
      rw [hrun]
      rw [List.append_assoc] at hcalls
      exact hcalls
    · rw [hrun]
      exact .taken (Nat.pos_of_ne_zero hn) (hd _ _ _ _ hw) hwrites

namespace Writes

variable {stuck : ε} {ss : List Bytes} {calls : List (Offer ε)} {result : Except ε Unit}

/-- Each write offers what the ones in front of it have left. -/
theorem slices (h : Writes stuck ss calls result) (hne : ∀ p ∈ ss, p ≠ [])
    {before after : List (Offer ε)} {c : Offer ε} (hc : calls = before ++ c :: after) :
    c.slices = dropBytes (count before) ss := by
  induction h generalizing before with
  | done => simp at hc
  | failed e =>
    obtain ⟨rfl, rfl, -⟩ := eq_of_singleton_eq hc
    exact (dropBytes_zero hne).symm
  | stuck =>
    obtain ⟨rfl, rfl, -⟩ := eq_of_singleton_eq hc
    exact (dropBytes_zero hne).symm
  | taken hpos hle rest ih =>
    rcases before with _ | ⟨b, before⟩
    · cases hc
      exact (dropBytes_zero hne).symm
    · obtain ⟨rfl, hrest⟩ := List.cons.inj hc
      rw [ih (ne_nil_of_mem_dropBytes hne) hrest, dropBytes_dropBytes, count]
      rfl

/-- What has been taken is the first of what there was to write. -/
theorem output (h : Writes stuck ss calls result) :
    Device.output calls = ss.flatten.take (count calls) ∧ count calls ≤ ss.flatten.length := by
  induction h with
  | done => exact ⟨rfl, Nat.zero_le _⟩
  | failed e => exact ⟨by simp [Device.output, Device.count, Offer.bytes, Offer.count], Nat.zero_le _⟩
  | stuck => exact ⟨by simp [Device.output, Device.count, Offer.bytes, Offer.count], Nat.zero_le _⟩
  | @taken p ps n calls result hpos hle rest ih =>
    obtain ⟨houtput, hcount⟩ := ih
    rw [flatten_dropBytes] at houtput hcount
    rw [List.length_drop] at hcount
    rw [output_cons, count, houtput]
    refine ⟨(List.take_add ..).symm, ?_⟩
    show n + _ ≤ _
    omega

/-- If every write takes something, all is written. -/
theorem complete (h : Writes stuck ss calls result) (hall : ∀ c ∈ calls, 0 < c.count) :
    result = .ok () ∧ count calls = ss.flatten.length := by
  induction h with
  | done => exact ⟨rfl, rfl⟩
  | failed e => exact absurd (hall _ List.mem_cons_self) (Nat.lt_irrefl 0)
  | stuck => exact absurd (hall _ List.mem_cons_self) (Nat.lt_irrefl 0)
  | @taken p ps n calls result hpos hle rest ih =>
    obtain ⟨hresult, hcount⟩ := ih fun c hc => hall c (List.mem_cons_of_mem _ hc)
    rw [flatten_dropBytes, List.length_drop] at hcount
    refine ⟨hresult, ?_⟩
    rw [count, hcount]
    exact Nat.add_sub_cancel' hle

/-- A write that takes nothing is the last one, and the reason why it does is the result. -/
theorem fails (h : Writes stuck ss calls result) {c : Offer ε} (hc : c ∈ calls) (hnone : c.count = 0) :
    result = .error (c.cause stuck) := by
  induction h with
  | done => cases hc
  | failed e =>
    obtain rfl := List.mem_singleton.1 hc
    rfl
  | stuck =>
    obtain rfl := List.mem_singleton.1 hc
    rfl
  | taken hpos hle rest ih =>
    rcases List.mem_cons.1 hc with rfl | hc
    · exact absurd hnone (Nat.ne_of_gt hpos)
    · exact ih hc

end Writes
end FramedCall.Device
