import FramedCall.Text.Utf8

/-!
# Sources

A source gives bytes in the chunks in which they arrived. One read gives bytes of one chunk at most.
Failures and the end of the stream take their place between the chunks; the end stays.
-/

namespace FramedCall

/-- What arrives on a stream. -/
inductive Arrival where
  /-- Some bytes. -/
  | chunk (data : Bytes)
  /-- A failure of one read. -/
  | failure (cause : String)
  /-- The end of the stream. -/
  | eof
deriving DecidableEq, Repr

/-- What has arrived and has not been read. -/
structure Source where
  /-- The arrivals in order. -/
  arrivals : List Arrival

/-- What a read gives. -/
inductive ReadResult where
  /-- Nothing has arrived yet. -/
  | pending
  /-- Some bytes. -/
  | bytes (data : Bytes)
  /-- The read failed. -/
  | failure (cause : String)
  /-- The stream has ended. -/
  | eof

namespace Source

/-- A source on which nothing has arrived. -/
def empty : Source := ⟨[]⟩

/-- One more arrival. A chunk without bytes is none. -/
def arrive (s : Source) (a : Arrival) : Source :=
  match a with
  | .chunk [] => s
  | a => ⟨s.arrivals ++ [a]⟩

/-- Bytes that join those at the end that have not been read. -/
def pour (s : Source) (data : Bytes) : Source :=
  match s.arrivals.getLast? with
  | some (.chunk d) => ⟨s.arrivals.dropLast ++ [.chunk (d ++ data)]⟩
  | some (.failure _) | some .eof | none => s.arrive (.chunk data)

/-- One read of at most `max` bytes. -/
def read (s : Source) (max : Nat) : ReadResult × Source :=
  match s.arrivals with
  | [] => (.pending, s)
  | .failure cause :: as => (.failure cause, ⟨as⟩)
  | .eof :: _ => (.eof, s)
  | .chunk data :: as =>
    (.bytes (data.take max),
      if data.length ≤ max then ⟨as⟩ else ⟨.chunk (data.drop max) :: as⟩)

/-- The number of bytes that can be read. -/
def size (s : Source) : Nat :=
  (s.arrivals.map fun
    | .chunk data => data.length
    | .failure _ | .eof => 0).foldr (· + ·) 0

/-- A read takes what it gives away from what can be read. -/
theorem size_read_bytes {s s' : Source} {max : Nat} {data : Bytes}
    (h : s.read max = (.bytes data, s')) : s'.size + data.length = s.size := by
  obtain ⟨as⟩ := s
  match as with
  | [] => simp [read] at h
  | .failure _ :: _ => simp [read] at h
  | .eof :: _ => simp [read] at h
  | .chunk d :: as =>
    simp only [read, Prod.mk.injEq, ReadResult.bytes.injEq] at h
    obtain ⟨rfl, rfl⟩ := h
    split
    · next hd =>
      simp only [size, List.map_cons, List.foldr_cons, List.take_of_length_le hd]
      omega
    · simp only [size, List.map_cons, List.foldr_cons, List.length_drop, List.length_take]
      omega

/-- No read adds to what can be read. -/
theorem size_read_le (s : Source) (max : Nat) : (s.read max).2.size ≤ s.size := by
  obtain ⟨as⟩ := s
  match as with
  | [] | .eof :: _ => exact Nat.le_refl _
  | .failure _ :: _ => simp [read, size]
  | .chunk d :: as =>
    have h : (read ⟨.chunk d :: as⟩ max) = (.bytes (d.take max), _) := rfl
    exact Nat.le_trans (Nat.le_add_right _ _) (Nat.le_of_eq (size_read_bytes h))

end Source
end FramedCall
