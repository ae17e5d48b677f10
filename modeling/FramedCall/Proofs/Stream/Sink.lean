import Mathlib.Data.List.Basic
import FramedCall.FailureLog
import FramedCall.Outbox
import FramedCall.Proofs.Outbox.Batch

/-!
# What a sink takes

Writing to a sink to the end takes a prefix of what is offered, as long as the sink has room
(`Sink.takes`), however the bytes are cut into slices and however many writes it needs
(`writeAll_device`). So frames that are written one batch after another come out as if they had
been written at once (`bears_append`, `takes_append`). A reliable sink takes everything.
-/

namespace FramedCall

namespace Sink

/-- Whether the sink takes nothing at all. -/
def isStuck (s : Sink) : Bool :=
  s.broken.isSome || s.maxWrite = some 0

/-- How many of `n` bytes the sink still takes. -/
def room (s : Sink) (n : Nat) : Nat :=
  if s.isStuck then 0 else s.clip s.failAfter (s.clip s.zeroAfter n)

/-- What the sink takes of some bytes that are written to the end. -/
def takes (s : Sink) (bs : Bytes) : Bytes :=
  bs.take (s.room bs.length)

/-- The sink behind some bytes that it has taken. -/
def push (s : Sink) (bs : Bytes) : Sink :=
  { s with taken := s.taken ++ bs }

/-- Taking no bytes changes nothing. -/
@[simp] theorem push_nil (s : Sink) : s.push [] = s := by
  simp [push]

/-- Bytes taken one after another are taken behind one another. -/
@[simp] theorem push_push (s : Sink) (a b : Bytes) : (s.push a).push b = s.push (a ++ b) := by
  simp [push]

/-- A limit adds nothing. -/
theorem clip_le (s : Sink) (limit : Option Nat) (n : Nat) : s.clip limit n ≤ n := by
  unfold clip
  split <;> omega

/-- Of no bytes none are left by a limit. -/
@[simp] theorem clip_zero (s : Sink) (limit : Option Nat) : s.clip limit 0 = 0 :=
  Nat.eq_zero_of_le_zero (s.clip_le limit 0)

/-- Of more bytes a limit leaves no fewer. -/
theorem clip_mono (s : Sink) (limit : Option Nat) {m n : Nat} (h : m ≤ n) :
    s.clip limit m ≤ s.clip limit n := by
  unfold clip
  split <;> omega

/-- A limit that has been reached leaves no room. -/
theorem clip_of_reached {s : Sink} {limit : Option Nat} (h : s.reached limit = true) (n : Nat) :
    s.clip limit n = 0 := by
  rcases limit with _ | l
  · simp [reached] at h
  · simp only [reached, Option.any_some, decide_eq_true_eq] at h
    simp only [clip]
    omega

/-- A limit that has not been reached leaves some room. -/
theorem clip_pos {s : Sink} {limit : Option Nat} (h : ¬ s.reached limit = true) {n : Nat}
    (hn : 0 < n) : 0 < s.clip limit n := by
  rcases limit with _ | l
  · exact hn
  · simp only [reached, Option.any_some, decide_eq_true_eq] at h
    simp only [clip]
    omega

/-- Bytes within a limit count against it. -/
theorem clip_push {s : Sink} {limit : Option Nat} {a : Bytes} {n : Nat}
    (h : a.length ≤ s.clip limit (a.length + n)) :
    s.clip limit (a.length + n) = a.length + (s.push a).clip limit n := by
  unfold clip at h ⊢
  rcases limit with _ | l
  · rfl
  · simp only [push, List.length_append] at h ⊢
    omega

/-- There is room for no more bytes than are asked about. -/
theorem room_le (s : Sink) (n : Nat) : s.room n ≤ n := by
  unfold room
  split
  · exact Nat.zero_le n
  · exact Nat.le_trans (s.clip_le _ _) (s.clip_le _ _)

/-- What has been taken counts. -/
theorem room_push {s : Sink} {a : Bytes} {n : Nat} (h : a.length ≤ s.room (a.length + n)) :
    s.room (a.length + n) = a.length + (s.push a).room n := by
  unfold room at h ⊢
  rcases hs : s.isStuck
  · have hs' : (s.push a).isStuck = false := hs
    simp only [hs, hs', Bool.false_eq_true, if_false] at h ⊢
    have hinner : a.length ≤ s.clip s.zeroAfter (a.length + n) := Nat.le_trans h (s.clip_le _ _)
    rw [clip_push hinner] at h ⊢
    exact clip_push h
  · have hs' : (s.push a).isStuck = true := hs
    simp only [hs, hs', if_true] at h ⊢
    omega

/-- Room is for everything or up to a limit. -/
theorem room_eq_min (s : Sink) : (∀ n, s.room n = n) ∨ ∃ l, ∀ n, s.room n = min n l := by
  have hclip : ∀ limit, (∀ n, s.clip limit n = n) ∨ ∃ l, ∀ n, s.clip limit n = min n l := by
    intro limit
    rcases limit with _ | l
    · exact .inl fun _ => rfl
    · exact .inr ⟨l - s.taken.length, fun _ => rfl⟩
  rcases hs : s.isStuck
  · rcases hclip s.failAfter with hf | ⟨f, hf⟩ <;> rcases hclip s.zeroAfter with hz | ⟨z, hz⟩
    · exact .inl fun n => by simp [room, hs, hf, hz]
    · exact .inr ⟨z, fun n => by simp [room, hs, hf, hz]⟩
    · exact .inr ⟨f, fun n => by simp [room, hs, hf, hz]⟩
    · exact .inr ⟨min z f, fun n => by simp [room, hs, hf, hz]⟩
  · exact .inr ⟨0, fun n => by simp [room, hs]⟩

/-- There is as much room for the first bytes as if they were alone. -/
theorem room_eq_self_of_le {s : Sink} {k m : Nat} (hkm : k ≤ m) (h : k ≤ s.room m) :
    s.room k = k := by
  rcases s.room_eq_min with hr | ⟨l, hr⟩
  · exact hr k
  · rw [hr] at h ⊢
    omega

/-- Where the first bytes do not all fit, nothing behind them does. -/
theorem room_eq_of_lt {s : Sink} {k m : Nat} (hkm : k ≤ m) (h : s.room k < k) :
    s.room m = s.room k := by
  rcases s.room_eq_min with hr | ⟨l, hr⟩
  · rw [hr] at h
    omega
  · rw [hr] at h
    rw [hr, hr]
    omega

/-- All bytes are taken where there is room for all. -/
theorem takes_eq_self_iff {s : Sink} {bs : Bytes} :
    s.takes bs = bs ↔ s.room bs.length = bs.length := by
  have hle := s.room_le bs.length
  constructor
  · intro h
    have := congrArg List.length h
    rw [takes, List.length_take] at this
    omega
  · intro h
    rw [takes, h, List.take_length]

/-- Of no bytes none are taken. -/
@[simp] theorem takes_nil (s : Sink) : s.takes [] = [] := by
  simp [takes]

/-- Bytes behind others that were taken. -/
theorem takes_append {s : Sink} {a : Bytes} (ha : s.takes a = a) (b : Bytes) :
    s.takes (a ++ b) = a ++ (s.push a).takes b := by
  have hfit : a.length ≤ s.room (a.length + b.length) := by
    have hroom := takes_eq_self_iff.1 ha
    rcases s.room_eq_min with hr | ⟨l, hr⟩
    · rw [hr]
      omega
    · rw [hr] at hroom ⊢
      omega
  rw [takes, List.length_append, room_push hfit, List.take_append, Nat.add_sub_cancel_left,
    List.take_of_length_le (Nat.le_add_right _ _), takes]

/-- Bytes behind others that did not all fit. -/
theorem takes_append_of_ne {s : Sink} {a : Bytes} (ha : s.takes a ≠ a) (b : Bytes) :
    s.takes (a ++ b) = s.takes a := by
  have hlt : s.room a.length < a.length := by
    have := s.room_le a.length
    rw [Ne, takes_eq_self_iff] at ha
    omega
  rw [takes, List.length_append, room_eq_of_lt (Nat.le_add_right _ _) hlt,
    List.take_append_of_le_length (Nat.le_of_lt hlt), takes]

/-- Where bytes are taken with others behind them, they are taken. -/
theorem takes_eq_of_append {s : Sink} {a b : Bytes} (h : s.takes (a ++ b) = a ++ b) :
    s.takes a = a := by
  by_contra hne
  rw [takes_append_of_ne hne] at h
  have hlen := congrArg List.length h
  have hle := s.room_le a.length
  have hlt : s.room a.length ≠ a.length := by
    intro he
    exact hne (takes_eq_self_iff.2 he)
  simp only [takes, List.length_take, List.length_append] at hlen
  omega

/-! ### Writing to the end -/

/-- A sink that does not refuse every write takes something of one. -/
theorem getD_maxWrite_pos {s : Sink} (h : s.maxWrite ≠ some 0) {n : Nat} (hn : 0 < n) :
    0 < s.maxWrite.getD n := by
  rcases hm : s.maxWrite with _ | k
  · exact hn
  · rw [Option.getD_some]
    apply Nat.pos_of_ne_zero
    rintro rfl
    exact h hm

/-- One write takes a part of what there is room for, and only where there is no room takes
nothing. -/
theorem write_spec (s : Sink) {ss : List Bytes} (hne : ss.flatten ≠ []) :
    (s.room ss.flatten.length = 0 ∧ ((∃ e, s.write ss = (.error e, s)) ∨ s.write ss = (.ok 0, s))) ∨
      ∃ n, 0 < n ∧ n ≤ s.room ss.flatten.length ∧
        s.write ss = (.ok n, s.push (ss.flatten.take n)) := by
  have hpos : 0 < ss.flatten.length := List.length_pos_iff.2 hne
  have hempty : ss.flatten.isEmpty = false := by simpa using hne
  unfold write
  simp only [hempty, Bool.false_eq_true, if_false]
  split
  · next cause hb =>
    exact .inl ⟨by simp [room, isStuck, hb], .inl ⟨cause, rfl⟩⟩
  · next hb =>
    by_cases hf : s.reached s.failAfter
    · refine .inl ⟨?_, .inl ⟨_, by rw [if_pos hf]⟩⟩
      simp [room, clip_of_reached hf]
    · rw [if_neg hf]
      by_cases hz : s.reached s.zeroAfter
      · refine .inl ⟨?_, .inr (by rw [if_pos hz])⟩
        simp [room, clip_of_reached hz]
      · rw [if_neg hz]
        by_cases hmax : s.maxWrite = some 0
        · -- the sink takes nothing at a time
          refine .inl ⟨by simp [room, isStuck, hmax], .inr ?_⟩
          have hmin : min ss.flatten.length (s.maxWrite.getD ss.flatten.length) = 0 := by simp [hmax]
          simp only [hmin, clip_zero, List.take_zero, List.append_nil]
        · have hbroken : s.broken = none := Option.eq_none_iff_forall_ne_some.2 hb
          have hstuck : s.isStuck = false := by simp [isStuck, hbroken, hmax]
          have hsome := getD_maxWrite_pos hmax hpos
          refine .inr ⟨_, clip_pos hf (clip_pos hz (Nat.lt_min.2 ⟨hpos, hsome⟩)), ?_, rfl⟩
          simp only [room, hstuck, Bool.false_eq_true, if_false]
          exact clip_mono _ _ (clip_mono _ _ (Nat.min_le_left _ _))

/-- Without room nothing is taken. -/
theorem takes_of_room_eq_zero {s : Sink} {bs : Bytes} (h : s.room bs.length = 0) : s.takes bs = [] := by
  rw [takes, h, List.take_zero]

/-- Slices that are not empty have bytes. -/
theorem flatten_ne_nil {p : Bytes} {ps : List Bytes} (hne : ∀ q ∈ p :: ps, q ≠ []) :
    (p :: ps).flatten ≠ [] := by
  simp [hne p List.mem_cons_self]

section Write

variable {s s' : Sink} {p : Bytes} {ps : List Bytes}

/-- A write that fails finds no room. -/
theorem takes_of_write_error (hne : ∀ q ∈ p :: ps, q ≠ []) {e : String}
    (h : s.write (p :: ps) = (.error e, s')) : s.takes (p :: ps).flatten = [] ∧ s' = s := by
  rcases write_spec s (flatten_ne_nil hne) with ⟨hroom, ⟨e', he⟩ | hz⟩ | ⟨n, -, -, hok⟩
  · exact ⟨takes_of_room_eq_zero hroom, (Prod.mk.inj (h.symm.trans he)).2⟩
  · cases (Prod.mk.inj (h.symm.trans hz)).1
  · cases (Prod.mk.inj (h.symm.trans hok)).1

/-- A write that takes nothing finds no room. -/
theorem takes_of_write_zero (hne : ∀ q ∈ p :: ps, q ≠ []) (h : s.write (p :: ps) = (.ok 0, s')) :
    s.takes (p :: ps).flatten = [] ∧ s' = s := by
  rcases write_spec s (flatten_ne_nil hne) with ⟨hroom, ⟨e', he⟩ | hz⟩ | ⟨n, hpos, -, hok⟩
  · cases (Prod.mk.inj (h.symm.trans he)).1
  · exact ⟨takes_of_room_eq_zero hroom, (Prod.mk.inj (h.symm.trans hz)).2⟩
  · have hn := Except.ok.inj (Prod.mk.inj (h.symm.trans hok)).1
    omega

/-- A write that takes something takes the first bytes, and leaves the others as they were. -/
theorem takes_of_write (hne : ∀ q ∈ p :: ps, q ≠ []) {n : Nat} (hn : n ≠ 0)
    (h : s.write (p :: ps) = (.ok n, s')) :
    s' = s.push ((p :: ps).flatten.take n) ∧ s.takes (p :: ps).flatten =
      (p :: ps).flatten.take n ++ s'.takes ((p :: ps).flatten.drop n) := by
  rcases write_spec s (flatten_ne_nil hne) with ⟨-, ⟨e', he⟩ | hz⟩ | ⟨m, -, hle, hok⟩
  · cases (Prod.mk.inj (h.symm.trans he)).1
  · exact absurd (Except.ok.inj (Prod.mk.inj (h.symm.trans hz)).1) hn
  · obtain ⟨hnm, hs'⟩ := Prod.mk.inj (h.symm.trans hok)
    obtain rfl := Except.ok.inj hnm
    have hlen := Nat.le_trans hle (s.room_le _)
    have hfirst : s.takes ((p :: ps).flatten.take n) = (p :: ps).flatten.take n := by
      rw [takes_eq_self_iff, List.length_take_of_le hlen]
      exact room_eq_self_of_le hlen hle
    refine ⟨hs', ?_⟩
    rw [hs', ← takes_append hfirst, List.take_append_drop]

end Write

/-- Slices that hold something are written as far as there is room, in whatever pieces the sink takes
them. -/
theorem writeSlices_device (stuck : String) (s : Sink) (ss : List Bytes) (hne : ∀ p ∈ ss, p ≠ []) :
    (device.writeSlices stuck s ss).2 = s.push (s.takes ss.flatten) ∧
      ((device.writeSlices stuck s ss).1 = .ok () ↔ s.takes ss.flatten = ss.flatten) := by
  -- a write that fails or takes nothing shows that there is no room for more, so that the end is the same
  induction s, ss using Device.writeSlices.induct (d := device) with
  | case1 s => simp [Device.writeSlices]
  | case2 s p ps e s' hw =>
    obtain ⟨htakes, rfl⟩ := takes_of_write_error hne hw
    have hend : device.writeSlices stuck s' (p :: ps) = (.error e, s') := by
      rw [Device.writeSlices, hw]
    rw [hend, htakes, push_nil]
    exact ⟨rfl, iff_of_false (by simp) fun h => flatten_ne_nil hne h.symm⟩
  | case3 s p ps s' hw =>
    obtain ⟨htakes, rfl⟩ := takes_of_write_zero hne hw
    have hend : device.writeSlices stuck s' (p :: ps) = (.error stuck, s') := by
      rw [Device.writeSlices, hw]
      rfl
    rw [hend, htakes, push_nil]
    exact ⟨rfl, iff_of_false (by simp) fun h => flatten_ne_nil hne h.symm⟩
  | case4 s p ps n s' hw hn ih =>
    obtain ⟨hs', htakes⟩ := takes_of_write hne hn hw
    obtain ⟨ih₂, ih₁⟩ := ih (Device.ne_nil_of_mem_dropBytes hne)
    rw [Device.flatten_dropBytes] at ih₁ ih₂
    rw [Device.writeSlices, hw]
    simp only [hn, dif_neg, not_false_eq_true]
    rw [ih₂, ih₁, htakes]
    refine ⟨by rw [hs', push_push], ?_⟩
    conv => rhs; rhs; rw [← List.take_append_drop n (p :: ps).flatten]
    exact (List.append_right_inj _).symm

/-- Slices are written as far as there is room, and all is well if that is everything and the sink can
be flushed. -/
theorem writeAll_device (stuck : String) (s : Sink) (ss : List Bytes) :
    (device.writeAll stuck s ss).2 = s.push (s.takes ss.flatten) ∧
      ((device.writeAll stuck s ss).1 = .ok () ↔
        s.takes ss.flatten = ss.flatten ∧ s.flushFails = false) := by
  have hflat : (ss.filter (!·.isEmpty)).flatten = ss.flatten := List.flatten_filter_not_isEmpty
  have hne : ∀ p ∈ ss.filter (!·.isEmpty), p ≠ [] := by simp
  obtain ⟨h₂, h₁⟩ := writeSlices_device stuck s _ hne
  rw [hflat] at h₁ h₂
  unfold Device.writeAll
  rcases hw : device.writeSlices stuck s (ss.filter (!·.isEmpty)) with ⟨e | u, s'⟩
  · rw [hw] at h₁ h₂
    exact ⟨h₂, iff_of_false (by simp) fun h => by simpa using h₁.2 h.1⟩
  · rw [hw] at h₁ h₂
    have hs' : s' = s.push (s.takes ss.flatten) := h₂
    refine ⟨h₂, ?_⟩
    rw [and_iff_right (h₁.1 rfl), hs']
    show (if s.flushFails then (.error "flush failed" : Except String Unit) else .ok ()) = .ok () ↔ _
    rcases s.flushFails <;> simp

/-- What frames put on the wire. -/
def wire (fs : List Frame) : Bytes :=
  fs.flatMap Frame.bytes

/-- Frames are put on the wire one behind the other. -/
@[simp] theorem wire_append (fs gs : List Frame) : wire (fs ++ gs) = wire fs ++ wire gs := by
  simp [wire]

/-- Whether frames can be written and, if there is one, flushed. -/
def Bears (s : Sink) (fs : List Frame) : Prop :=
  s.takes (wire fs) = wire fs ∧ (fs ≠ [] → s.flushFails = false)

instance (s : Sink) (fs : List Frame) : Decidable (s.Bears fs) :=
  inferInstanceAs (Decidable (s.takes (wire fs) = wire fs ∧ (fs ≠ [] → s.flushFails = false)))

/-- No frames can always be written: nothing is flushed behind them. -/
theorem bears_nil (s : Sink) : s.Bears [] :=
  ⟨by simp [wire], fun h => absurd rfl h⟩

/-- Frames behind others are written as if they had been written at once. -/
theorem bears_append {s : Sink} {fs gs : List Frame} :
    s.Bears (fs ++ gs) ↔ s.Bears fs ∧ (s.push (wire fs)).Bears gs := by
  unfold Bears
  rw [wire_append]
  constructor
  · rintro ⟨htakes, hflush⟩
    have hfs := takes_eq_of_append htakes
    rw [takes_append hfs, List.append_right_inj] at htakes
    refine ⟨⟨hfs, fun h => hflush (by simp [h])⟩, htakes, fun h => hflush (by simp [h])⟩
  · rintro ⟨⟨hfs, hflush⟩, hgs, hflush'⟩
    refine ⟨by rw [takes_append hfs, hgs], ?_⟩
    intro h
    by_cases hnil : fs = []
    · exact hflush' (by simpa [hnil] using h)
    · exact hflush hnil

/-- Frames are written as far as there is room. -/
theorem writeFrames_device (s : Sink) (fs : List Frame) :
    (Outbox.writeFrames device s fs).2 = s.push (s.takes (wire fs)) ∧
      ((Outbox.writeFrames device s fs).1 = .ok () ↔ s.Bears fs) := by
  have hwire : (fs.flatMap Frame.parts).flatten = wire fs := Outbox.flatten_parts fs
  rw [Outbox.writeFrames_eq]
  rcases fs with _ | ⟨f, fs⟩
  · exact ⟨by simp [wire], iff_of_true rfl (bears_nil s)⟩
  · obtain ⟨h₂, h₁⟩ := writeAll_device "write_vectored returned 0" s ((f :: fs).flatMap Frame.parts)
    rw [hwire] at h₁ h₂
    refine ⟨h₂, h₁.trans ?_⟩
    simp [Bears]

/-! ### Reliable sinks -/

/-- The sink takes everything, in whatever pieces, and never fails. -/
structure IsReliable (s : Sink) : Prop where
  /-- Somebody reads. -/
  broken : s.broken = none
  /-- A write takes something. -/
  maxWrite : s.maxWrite ≠ some 0
  /-- Writes do not fail. -/
  failAfter : s.failAfter = none
  /-- Writes go on to take something. -/
  zeroAfter : s.zeroAfter = none
  /-- Flushes do not fail. -/
  flushFails : s.flushFails = false

/-- A reliable sink takes all bytes. -/
theorem IsReliable.takes {s : Sink} (h : s.IsReliable) (bs : Bytes) : s.takes bs = bs := by
  rw [takes_eq_self_iff]
  simp [room, isStuck, clip, h.broken, h.maxWrite, h.failAfter, h.zeroAfter]

/-- A reliable sink takes all frames and is flushed. -/
theorem IsReliable.bears {s : Sink} (h : s.IsReliable) (fs : List Frame) : s.Bears fs :=
  ⟨h.takes _, fun _ => h.flushFails⟩

/-- A reliable sink stays reliable, whatever it has taken. -/
theorem IsReliable.push {s : Sink} (h : s.IsReliable) (bs : Bytes) : (s.push bs).IsReliable :=
  ⟨h.broken, h.maxWrite, h.failAfter, h.zeroAfter, h.flushFails⟩

/-- A sink without limits is reliable. -/
theorem isReliable_unlimited : Sink.unlimited.IsReliable :=
  ⟨rfl, by simp [unlimited], rfl, rfl, rfl⟩

end Sink

/-! ### The failure log -/

namespace FailureLog

/-- The lines of some messages. -/
def lines (messages : List String) : Bytes :=
  messages.flatMap fun m => Text.encode (line m)

/-- A log that is switched off, or that takes everything. -/
def IsReliable (l : FailureLog) : Prop :=
  ∀ s ∈ l.sink, s.IsReliable

/-- Messages are added one after another. -/
theorem addAll_append (l : FailureLog) (ms ns : List String) :
    l.addAll (ms ++ ns) = (l.addAll ms).addAll ns :=
  List.foldl_append

/-- A log that takes everything has a line for each message, and none if it is switched off. -/
theorem taken_addAll {l : FailureLog} (h : l.IsReliable) (messages : List String) :
    (l.addAll messages).taken = l.taken ++ if l.isEnabled then lines messages else [] := by
  induction messages generalizing l with
  | nil => simp [addAll, lines]
  | cons m ms ih =>
    have hstep : l.addAll (m :: ms) = (l.add m).2.addAll ms := rfl
    rcases l with ⟨_ | s⟩
    · rw [hstep]
      simpa [isEnabled, add] using ih h
    · have hs : s.IsReliable := h s rfl
      have hadd : (add ⟨some s⟩ m).2 = ⟨some (s.push (Text.encode (line m)))⟩ := by
        have htaken := (Sink.writeAll_device "write zero" s [Text.encode (line m)]).1
        rw [hs.takes] at htaken
        simp only [add, htaken, List.flatten_cons, List.flatten_nil, List.append_nil]
      have hrel : (⟨some (s.push (Text.encode (line m)))⟩ : FailureLog).IsReliable := by
        rintro _ ⟨⟩
        exact hs.push _
      rw [hstep, hadd, ih hrel]
      simp [isEnabled, taken, Sink.push, lines]

end FailureLog
end FramedCall
