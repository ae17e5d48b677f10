import FramedCall.Json.Typed
import FramedCall.Proofs.Payload

/-!
# Typed values that cross the wire

A typed value is converted, encoded, decoded and converted back (`carry`). For an integer that is either
the integer itself or an error: beyond 2⁵³ − 1 in magnitude its digits arrive as a string, and a string is
no integer (`carry_integer`). A list stops at its first such integer (`carry_integers`). The main statement
is `carry_exact_or_refused`; it holds of each type of integers, however wide.
-/

namespace FramedCall.Payload

open Json (Value Number Mismatch Readable Writable IntegerType Bounded read write maxDepth largestSafe)

/-- A typed value converted, encoded, decoded and converted back. -/
def carry {α : Type} [Readable α] [Writable α] (a : α) : Except CallError α := do
  let v ← converted (write a)
  let arrived ← decode (encode v)
  converted (read arrived)

/-- What arrives is the value on the wire, converted back. -/
theorem carry_eq {α : Type} [Readable α] [Writable α] {a : α} {v : Value} (hwrite : write a = .ok v)
    (hlegible : v.legible = true) (hdepth : v.depth ≤ maxDepth) :
    carry a = converted (read v.toWire) := by
  unfold carry
  rw [hwrite]
  show (decode (encode v) >>= fun arrived => converted (read arrived)) = _
  rw [decode_encode hlegible hdepth]
  rfl

/-! ### Integers -/

variable {t : IntegerType}

/-- The integer survives conversions by way of binary64 values. -/
def IsSafe (n : Bounded t) : Prop :=
  n.val.natAbs ≤ 9007199254740991

instance (n : Bounded t) : Decidable (IsSafe n) :=
  inferInstanceAs (Decidable (_ ≤ _))

/-- Why an integer that arrives as a string is refused. -/
def arrivedAsString (n : Bounded t) : Mismatch :=
  .wrongType (.string (toString n.val)) t.name

/-- An integer of a type is written as a number of that type. -/
theorem ofNumber?_ofInt (n : Bounded t) : Bounded.ofNumber? t (.ofInt n.val) = some n := by
  have hsign : ((Number.ofInt n.val).negative && !t.signed) = false := by
    rcases ht : t.signed
    · have hlow := n.low_le
      rw [IntegerType.low, ht] at hlow
      simpa [Number.ofInt] using hlow
    · simp
  rw [Bounded.ofNumber?, hsign, Number.toInt?_ofInt]
  show Bounded.ofInt? t n.val = some n
  unfold Bounded.ofInt?
  exact dif_pos ⟨n.low_le, n.le_high⟩

/-- An integer that is written as a number is read as itself, in each type. -/
theorem read_ofInt (n : Bounded t) :
    (read (Value.number (.ofInt n.val)) : Except Mismatch (Bounded t)) = .ok n := by
  unfold Json.read
  simp only [Json.instReadableBounded, ofNumber?_ofInt]

/-- On the wire an integer is still itself if it is safe; otherwise it is a string. -/
theorem read_toWire_integer (n : Bounded t) :
    (read (Value.number (.ofInt n.val)).toWire : Except Mismatch (Bounded t)) =
      if IsSafe n then .ok n else .error (arrivedAsString n) := by
  rw [Value.toWire_number, Number.onWire, Number.toInt?_ofInt]
  by_cases hsafe : IsSafe n
  · have hnumber : ¬ largestSafe < n.val.natAbs := Nat.not_lt.2 hsafe
    rw [if_pos hsafe]
    simp only [if_neg hnumber]
    exact read_ofInt n
  · have hstring : largestSafe < n.val.natAbs := Nat.lt_of_not_le hsafe
    rw [if_neg hsafe]
    simp only [if_pos hstring]
    rfl

/-- A safe integer arrives, and any other one is refused. -/
theorem carry_integer (n : Bounded t) :
    carry n = if IsSafe n then .ok n else .error (.ofMismatch (arrivedAsString n)) := by
  have hwrite : write n = .ok (.number (.ofInt n.val)) := by rfl
  rw [carry_eq hwrite rfl (Nat.zero_le _), read_toWire_integer]
  split
  · rfl
  · rfl

/-! ### Lists of integers -/

/-- The items of a list are read one after another, up to the first that is not safe. -/
theorem mapM_read_toWire (ns : List (Bounded t)) :
    ((ns.map fun n => (Value.number (.ofInt n.val)).toWire).mapM read : Except Mismatch (List (Bounded t))) =
      match ns.find? (fun n => ¬ IsSafe n) with
      | none => .ok ns
      | some n => .error (arrivedAsString n) := by
  induction ns with
  | nil => rfl
  | cons n ns ih =>
    rw [List.map_cons, List.mapM_cons, ih, read_toWire_integer]
    by_cases hsafe : IsSafe n
    · rw [if_pos hsafe, List.find?_cons_of_neg (by simpa using hsafe)]
      rcases ns.find? (fun n => ¬ IsSafe n) with _ | m
      · rfl
      · rfl
    · rw [if_neg hsafe, List.find?_cons_of_pos (by simpa using hsafe)]
      rfl

/-- A list of integers arrives if all are safe; otherwise its first that is not is refused. -/
theorem carry_integers (ns : List (Bounded t)) :
    carry ns = match ns.find? (fun n => ¬ IsSafe n) with
      | none => .ok ns
      | some n => .error (.ofMismatch (arrivedAsString n)) := by
  have hwrite : write ns = .ok (.array (ns.map fun n => .number (.ofInt n.val))) := by
    have hitems : ns.mapM write = (.ok (ns.map fun n => .number (.ofInt n.val)) : Except Mismatch _) :=
      List.mapM_pure
    show (ns.mapM write : Except Mismatch _).map Value.array = _
    rw [hitems]
    rfl
  have hlegible : (Value.array (ns.map fun n => .number (.ofInt n.val))).legible = true := by
    rw [Value.legible, Value.itemsLegible_iff]
    intro v hv
    obtain ⟨n, -, rfl⟩ := List.mem_map.1 hv
    rfl
  have hdepth : (Value.array (ns.map fun n => .number (.ofInt n.val))).depth ≤ maxDepth := by
    have hitems : Value.itemsDepth (ns.map fun n => .number (.ofInt n.val)) ≤ 0 := by
      rw [Value.itemsDepth_le_iff]
      intro v hv
      obtain ⟨n, -, rfl⟩ := List.mem_map.1 hv
      exact Nat.le_refl 0
    rw [Value.depth]
    exact Nat.le_trans (Nat.add_le_add_right hitems 1) (by decide)
  rw [carry_eq hwrite hlegible hdepth, Value.toWire, Value.itemsToWire_eq_map, List.map_map]
  show converted ((ns.map fun n => (Value.number (.ofInt n.val)).toWire).mapM read) = _
  rw [mapM_read_toWire]
  rcases ns.find? (fun n => ¬ IsSafe n) with _ | m
  · rfl
  · rfl

/-- An integer of any type crosses the wire as itself if it is at most 2⁵³ − 1 in magnitude. Otherwise
converting it back fails, since it arrives as a string. A list of such integers crosses as itself if each of
them does, and otherwise fails at the first that does not. -/
theorem carry_exact_or_refused (t : IntegerType) :
    (∀ n : Bounded t, IsSafe n → carry n = .ok n) ∧
      (∀ n : Bounded t, ¬ IsSafe n → carry n = .error (.json (arrivedAsString n).message)) ∧
      (∀ ns : List (Bounded t), (∀ n ∈ ns, IsSafe n) → carry ns = .ok ns) ∧
      (∀ ns : List (Bounded t), ¬ (∀ n ∈ ns, IsSafe n) → ∃ front n back, ns = front ++ n :: back ∧
        (∀ m ∈ front, IsSafe m) ∧ ¬ IsSafe n ∧ carry ns = .error (.json (arrivedAsString n).message)) := by
  refine ⟨?_, ?_, ?_, ?_⟩
  · intro n hsafe
    rw [carry_integer, if_pos hsafe]
  · intro n hbeyond
    rw [carry_integer, if_neg hbeyond]
    rfl
  · intro ns hsafe
    have hfind : ns.find? (fun n => ¬ IsSafe n) = none := by
      rw [List.find?_eq_none]
      intro n hn
      simpa using hsafe n hn
    rw [carry_integers, hfind]
  · intro ns hsome
    rcases hfind : ns.find? (fun n => ¬ IsSafe n) with _ | n
    · refine absurd ?_ hsome
      intro n hn
      simpa using List.find?_eq_none.1 hfind n hn
    · obtain ⟨hbeyond, front, back, hsplit, hfront⟩ := List.find?_eq_some_iff_append.1 hfind
      refine ⟨front, n, back, hsplit, ?_, by simpa using hbeyond, ?_⟩
      · intro m hm
        simpa using hfront m hm
      · rw [carry_integers, hfind]
        rfl

/-- The ends of the safe integers cross the wire, each by itself and in a list; the ends of the types do
not. -/
theorem carry_exact_or_refused_at_ends :
    let low : Bounded .i64 := ⟨-9007199254740991, by decide, by decide⟩
    let high : Bounded .i64 := ⟨9007199254740991, by decide, by decide⟩
    let least : Bounded .i128 := ⟨-170141183460469231731687303715884105728, by decide, by decide⟩
    let greatest : Bounded .u128 := ⟨340282366920938463463374607431768211455, by decide, by decide⟩
    let one : Bounded .u128 := ⟨1, by decide, by decide⟩
    let beyond : Bounded .u64 := ⟨9007199254740992, by decide, by decide⟩
    carry [low, high, low] = .ok [low, high, low] ∧
      carry least = .error
        (.json "invalid type: string \"-170141183460469231731687303715884105728\", expected i128") ∧
      carry greatest = .error
        (.json "invalid type: string \"340282366920938463463374607431768211455\", expected u128") ∧
      carry beyond = .error (.json "invalid type: string \"9007199254740992\", expected u64") ∧
      ∃ cause, carry [one, greatest] = .error (.json cause) := by
  intro low high least greatest one beyond
  refine ⟨(carry_exact_or_refused .i64).2.2.1 _ (by decide), ?_, ?_, ?_, ?_⟩
  · rw [(carry_exact_or_refused .i128).2.1 least (by decide)]
    decide +kernel
  · rw [(carry_exact_or_refused .u128).2.1 greatest (by decide)]
    decide +kernel
  · rw [(carry_exact_or_refused .u64).2.1 beyond (by decide)]
    decide +kernel
  · obtain ⟨-, n, -, -, -, -, hrefused⟩ :=
      (carry_exact_or_refused .u128).2.2.2 [one, greatest] (by decide)
    exact ⟨(arrivedAsString n).message, hrefused⟩

end FramedCall.Payload
