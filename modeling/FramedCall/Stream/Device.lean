import FramedCall.Text.Utf8

/-!
# Devices

A device takes bytes: each write offers several slices at once and is told how many bytes were
taken, which may be fewer than offered, or none, or why it cannot be done. `Device.writeAll` writes
slices until everything is taken, offering at each write exactly what has not been taken yet.
-/

namespace FramedCall

/-- The two operations of a stream that takes bytes, over states `σ`, with reasons `ε` for which they
are not done. -/
structure Device (σ ε : Type) where
  /-- Offers slices; the answer is the number of bytes taken. -/
  write : σ → List Bytes → Except ε Nat × σ
  /-- Passes on what was taken. -/
  flush : σ → Except ε Unit × σ

namespace Device

/-- What is left of slices when `n` bytes are taken from the front. Slices that are used up, and
empty ones next to them, are left out. -/
def dropBytes : Nat → List Bytes → List Bytes
  | _, [] => []
  | n, s :: ss => if s.length ≤ n then dropBytes (n - s.length) ss else s.drop n :: ss

/-- The bytes and the slices still to be offered. -/
def pending (ss : List Bytes) : Nat :=
  ss.flatten.length + ss.length

/-- One more slice adds its bytes and itself. -/
@[simp] theorem pending_cons (s : Bytes) (ss : List Bytes) :
    pending (s :: ss) = s.length + pending ss + 1 := by
  simp only [pending, List.flatten_cons, List.length_append, List.length_cons]
  omega

/-- Bytes that are taken leave no more to be offered. -/
theorem pending_dropBytes_le (n : Nat) (ss : List Bytes) : pending (dropBytes n ss) ≤ pending ss := by
  induction ss generalizing n with
  | nil => simp [dropBytes]
  | cons s ss ih =>
    unfold dropBytes
    split
    · have := ih (n - s.length)
      simp only [pending_cons]
      omega
    · simp only [pending_cons, List.length_drop]
      omega

/-- Taking at least one byte makes progress. -/
theorem pending_dropBytes_lt {n : Nat} (hn : n ≠ 0) (s : Bytes) (ss : List Bytes) :
    pending (dropBytes n (s :: ss)) < pending (s :: ss) := by
  unfold dropBytes
  split
  · have := pending_dropBytes_le (n - s.length) ss
    simp only [pending_cons]
    omega
  · simp only [pending_cons, List.length_drop]
    omega

/-- What the bytes left are. -/
theorem flatten_dropBytes (n : Nat) (ss : List Bytes) :
    (dropBytes n ss).flatten = ss.flatten.drop n := by
  induction ss generalizing n with
  | nil => simp [dropBytes]
  | cons s ss ih =>
    unfold dropBytes
    split
    · next h => rw [ih, List.flatten_cons, List.drop_append, List.drop_of_length_le h, List.nil_append]
    · next h =>
      rw [List.flatten_cons, List.flatten_cons, List.drop_append,
        Nat.sub_eq_zero_of_le (by omega), List.drop_zero]

variable {σ ε : Type}

/-- Writes slices, none of them empty, to the end. A write that takes nothing fails with `stuck`. -/
def writeSlices (d : Device σ ε) (stuck : ε) (s : σ) : List Bytes → Except ε Unit × σ
  | [] => (.ok (), s)
  | p :: ps =>
    match d.write s (p :: ps) with
    | (.error e, s') => (.error e, s')
    | (.ok n, s') =>
      if _h : n = 0 then (.error stuck, s') else d.writeSlices stuck s' (dropBytes n (p :: ps))
termination_by ps => pending ps
decreasing_by exact pending_dropBytes_lt _h _ _

/-- Writes slices to the end and flushes. -/
def writeAll (d : Device σ ε) (stuck : ε) (s : σ) (ss : List Bytes) : Except ε Unit × σ :=
  match d.writeSlices stuck s (ss.filter (!·.isEmpty)) with
  | (.error e, s') => (.error e, s')
  | (.ok (), s') => d.flush s'

end Device
end FramedCall
