import Mathlib.Data.Fintype.Basic
import Mathlib.Data.List.Basic
import Mathlib.Tactic.FinCases
import FramedCall.Json.Printer
import FramedCall.Json.Reader
import FramedCall.Proofs.Json.Number
import FramedCall.Proofs.Keyed

/-!
# Reading values that were printed

The text of a value is read item by item, and each object is made anew of its entries
(`Value.ofChars?_chars_eq`). Where the objects are such as a reader makes them (`Value.legible`) it is
read as that value (`Value.ofChars?_chars`), or refused if more of them stand inside one another than the
reader allows (`Value.ofChars?_chars_of_deep`). A number is not complete before the character behind it,
so the place behind a value is not one state of the reader (`Reader.Behind`); all that counts is what the
next character leads to (`Reader.Behind.step?_eq`). `Reader.run_chars` goes through a value with the open
levels around it.
-/

namespace FramedCall.Json

namespace Value

mutual

/-- Whether every object inside is one that is read as an object: its keys ascend, and the first is
not the one that stands for a number. -/
def legible : Value → Bool
  | .array items => itemsLegible items
  | .object entries =>
    Keyed.ascends entries && (entries.head?.map (·.1) != some numberKey) && entriesLegible entries
  | .null | .boolean _ | .number _ | .string _ => true

/-- `legible` for the items of an array. -/
def itemsLegible : List Value → Bool
  | [] => true
  | v :: vs => v.legible && itemsLegible vs

/-- `legible` for the values of an object. -/
def entriesLegible : List (String × Value) → Bool
  | [] => true
  | (_, v) :: es => v.legible && entriesLegible es

end

/-! ### Objects from their entries -/

/-- A greater key than all others comes last. -/
theorem insert_of_gt {k : String} {es : List (String × Value)} (h : ∀ e ∈ es, e.1 < k) (v : Value) :
    Keyed.insert k v es = es ++ [(k, v)] := by
  induction es with
  | nil => rfl
  | cons e es ih =>
    obtain ⟨l, w⟩ := e
    have hlt : l < k := h (l, w) List.mem_cons_self
    have hasymm : ¬ k < l := String.lt_asymm hlt
    have hne : k ≠ l := by
      intro he
      exact String.lt_irrefl l (he ▸ hlt)
    rw [Keyed.insert, if_neg hasymm, if_neg hne, ih fun e he => h e (List.mem_cons_of_mem _ he)]
    rfl

/-- Entries that ascend are bound as they are. -/
theorem ofList_of_ascends {es : List (String × Value)} (h : Keyed.ascends es = true) :
    Keyed.ofList es = es := by
  have hpairs := (Keyed.ascends_iff_pairwise (fun _ _ _ => String.lt_trans) es).1 h
  have hfold : ∀ (ds : List (String × Value)), (ds ++ es).Pairwise (·.1 < ·.1) →
      es.foldl (fun acc e => Keyed.insert e.1 e.2 acc) ds = ds ++ es := by
    clear h hpairs
    induction es with
    | nil => simp
    | cons e es ih =>
      intro ds hds
      have hbelow : ∀ d ∈ ds, d.1 < e.1 := fun d hd =>
        (List.pairwise_append.1 hds).2.2 d hd e List.mem_cons_self
      rw [List.foldl_cons, insert_of_gt hbelow, ih]
      · simp
      · simpa using hds
  exact hfold [] hpairs

/-- Members that are the entries of an object make up that object. -/
theorem ofMembers?_entries {es : List (String × Value)} (hascends : Keyed.ascends es = true)
    (hfirst : es.head?.map (·.1) ≠ some numberKey) : ofMembers? es = some (.object es) := by
  rcases es with _ | ⟨⟨k, v⟩, es⟩
  · rfl
  · have hk : k ≠ numberKey := by simpa using hfirst
    simp only [ofMembers?, hk, if_false, ofList_of_ascends hascends]

/-! ### Reading a value again -/

mutual

/-- What the text of a value is read as where this many levels may be opened: its objects are made anew
of their entries. -/
def reread : Value → Nat → Option Value
  | .array _, 0 | .object _, 0 => none
  | .array items, room + 1 => (itemsReread items room).map .array
  | .object entries, room + 1 => (entriesReread entries room).bind ofMembers?
  | .null, _ => some .null
  | .boolean b, _ => some (.boolean b)
  | .number n, _ => some (.number n)
  | .string s, _ => some (.string s)

/-- `reread` for the items of an array. -/
def itemsReread : List Value → Nat → Option (List Value)
  | [], _ => some []
  | v :: vs, room => (v.reread room).bind fun w => (itemsReread vs room).map (w :: ·)

/-- `reread` for the values of an object. -/
def entriesReread : List (String × Value) → Nat → Option (List (String × Value))
  | [], _ => some []
  | (k, v) :: es, room => (v.reread room).bind fun w => (entriesReread es room).map ((k, w) :: ·)

end

end Value

namespace Reader

/-- The reader behind some characters. -/
def run (r : Reader) (cs : List Char) : Option Reader :=
  cs.foldlM step? r

/-- No characters change nothing. -/
@[simp] theorem run_nil (r : Reader) : r.run [] = some r := rfl

/-- The first character is taken, and then the others. -/
@[simp] theorem run_cons (r : Reader) (c : Char) (cs : List Char) :
    r.run (c :: cs) = (r.step? c).bind (·.run cs) := by
  simp [run, List.foldlM_cons]

/-- Characters are taken one after another. -/
theorem run_append (r : Reader) (cs ds : List Char) :
    r.run (cs ++ ds) = (r.run cs).bind (·.run ds) := by
  simp [run, List.foldlM_append]

/-! ### Strings -/

/-- A digit in base 16 is read as the number it stands for. -/
theorem hexDigit?_digitChar : ∀ n < 16, hexDigit? (Nat.digitChar n) = some n := by
  decide

/-- A character of a string is read as that character. -/
theorem run_escapeChar (ls : List Level) (cs : List Char) (c : Char) :
    run ⟨ls, .quote (.plain cs)⟩ (escapeChar c) = some ⟨ls, .quote (.plain (c :: cs))⟩ := by
  unfold escapeChar
  split
  · next l hl =>
    unfold escapeLetter? at hl
    split at hl <;> cases hl <;> rfl
  · next hl =>
    split
    · next hcontrol =>
      have hhigh := hexDigit?_digitChar (c.toNat / 16) (by omega)
      have hlow := hexDigit?_digitChar (c.toNat % 16) (by omega)
      have hzero : hexDigit? '0' = some 0 := by decide
      have hunit : c.toNat / 16 * 16 + c.toNat % 16 = c.toNat := by omega
      have hclose : Quote.closeUnit? cs c.toNat = some (.plain (c :: cs)) := by
        rw [Quote.closeUnit?, if_pos (by omega), Char.ofNat_toNat]
      simp [step?, Quote.push?, hhigh, hlow, hzero, hunit, hclose]
    · next hshown =>
      have hquote : c ≠ '"' := by
        rintro rfl
        cases hl
      have hbackslash : c ≠ '\\' := by
        rintro rfl
        cases hl
      simp [step?, Quote.push?, hquote, hbackslash, hshown]

/-- The characters of a string are read one after another. -/
theorem run_escaped (ls : List Level) (cs ds : List Char) :
    run ⟨ls, .quote (.plain cs)⟩ (ds.flatMap escapeChar) =
      some ⟨ls, .quote (.plain (ds.reverse ++ cs))⟩ := by
  induction ds generalizing cs with
  | nil => rfl
  | cons d ds ih =>
    rw [List.flatMap_cons, run_append, run_escapeChar, Option.bind_some, ih]
    simp

/-- A string is read to its closing quote. -/
theorem run_string (ls : List Level) (s : String) :
    run ⟨ls, .quote (.plain [])⟩ (s.toList.flatMap escapeChar ++ ['"']) = completeString? s ls := by
  rw [run_append, run_escaped, Option.bind_some, List.append_nil]
  have hclose : step? ⟨ls, .quote (.plain s.toList.reverse)⟩ '"' =
      completeString? (String.ofList s.toList.reverse.reverse) ls := rfl
  rw [run_cons, hclose, List.reverse_reverse, String.ofList_toList]
  simp

/-! ### Behind a value -/

/-- Whether a value may come next in the innermost level. -/
def Awaits : List Level → Prop
  | .object _ :: _ => False
  | [] | .array _ :: _ | .member .. :: _ => True

/-- The reader is behind the value `v`, which goes to the innermost of the levels `ls`: the value is
complete, or it is a number to which more could belong. -/
inductive Behind (v : Value) (ls : List Level) : Reader → Prop where
  /-- The value is complete. -/
  | complete {r : Reader} : complete? v ls = some r → Behind v ls r
  /-- The value is a number to which more could belong. -/
  | number {n : Number} {s : Scan} : v = .number n → s.finish? = some n → Behind v ls ⟨ls, .number s⟩

/-- A value that is complete goes to a level that awaits it. -/
theorem exists_complete {ls : List Level} (h : Awaits ls) (v : Value) :
    ∃ r, complete? v ls = some r ∧ (r.phase = .comma ∨ r.phase = .finished v) := by
  rcases ls with _ | ⟨items | ms | ⟨ms, k⟩, ls⟩
  · exact ⟨_, rfl, .inr rfl⟩
  · exact ⟨_, rfl, .inl rfl⟩
  · cases h
  · exact ⟨_, rfl, .inl rfl⟩

/-- Where a value is followed by a comma or a bracket, the value is completed first. -/
theorem Behind.step?_eq {v : Value} {ls : List Level} {r r' : Reader} (h : Behind v ls r)
    (hls : Awaits ls) (hr' : complete? v ls = some r') {c : Char} (hc : c ∈ [',', ']', '\x7d']) :
    r.step? c = r'.stepToken? c := by
  cases h with
  | complete hr =>
    obtain rfl : r' = r := Option.some.inj (hr'.symm.trans hr)
    obtain ⟨r₁, hr₁, hphase⟩ := exists_complete hls v
    obtain rfl : r₁ = r' := Option.some.inj (hr₁.symm.trans hr')
    rcases hphase with hphase | hphase <;> simp only [step?, hphase]
  | @number n s hv hs =>
    have hpush : s.push? c = none := by
      simp only [List.mem_cons, List.not_mem_nil, or_false] at hc
      rcases hc with rfl | rfl | rfl <;> exact Scan.push?_eq_none hs (by decide) (by decide)
    subst hv
    simp [step?, hpush, hs, hr']

/-- Where the text ends behind a value, that value has been read. -/
theorem Behind.finish?_eq {v : Value} {r : Reader} (h : Behind v [] r) : r.finish? = some v := by
  cases h with
  | complete hr =>
    cases hr
    rfl
  | number hv hs =>
    subst hv
    simp [finish?, hs]

/-! ### Whole values -/

/-- What stands between two items, and behind the last one. -/
theorem Behind.run_array {v : Value} {items : List Value} {ls : List Level} {r : Reader}
    (h : Behind v (.array items :: ls) r) (cs : List Char) :
    r.run (',' :: cs) = run ⟨.array (v :: items) :: ls, .value⟩ cs ∧
      r.run [']'] = complete? (.array (v :: items).reverse) ls := by
  have hr' : complete? v (.array items :: ls) = some ⟨.array (v :: items) :: ls, .comma⟩ := rfl
  constructor
  · rw [run_cons, h.step?_eq trivial hr' (by decide)]
    rfl
  · rw [run_cons, h.step?_eq trivial hr' (by decide)]
    have hclose : stepToken? ⟨.array (v :: items) :: ls, .comma⟩ ']' =
        complete? (.array (v :: items).reverse) ls := rfl
    rw [hclose]
    simp

/-- What stands between two members, and behind the last one. -/
theorem Behind.run_object {v : Value} {ms : List (String × Value)} {k : String} {ls : List Level}
    {r : Reader} (h : Behind v (.member ms k :: ls) r) (cs : List Char) :
    r.run (',' :: cs) = run ⟨.object ((k, v) :: ms) :: ls, .key⟩ cs ∧
      r.run ['\x7d'] = (Value.ofMembers? ((k, v) :: ms).reverse).bind (complete? · ls) := by
  have hr' : complete? v (.member ms k :: ls) = some ⟨.object ((k, v) :: ms) :: ls, .comma⟩ := rfl
  constructor
  · rw [run_cons, h.step?_eq trivial hr' (by decide)]
    rfl
  · rw [run_cons, h.step?_eq trivial hr' (by decide)]
    have hclose : stepToken? ⟨.object ((k, v) :: ms) :: ls, .comma⟩ '\x7d' =
        (Value.ofMembers? ((k, v) :: ms).reverse).bind (complete? · ls) := rfl
    rw [hclose]
    simp

/-- A key is read to the colon behind it. -/
theorem run_key (ms : List (String × Value)) (ls : List Level) (k : String) (cs : List Char) :
    run ⟨.object ms :: ls, .key⟩ (stringChars k ++ ':' :: cs) = run ⟨.member ms k :: ls, .value⟩ cs := by
  have hquote : step? ⟨.object ms :: ls, .key⟩ '"' = some ⟨.object ms :: ls, .quote (.plain [])⟩ := rfl
  have hcolon : step? ⟨.member ms k :: ls, .colon⟩ ':' = some ⟨.member ms k :: ls, .value⟩ := rfl
  have hkey : completeString? k (.object ms :: ls) = some ⟨.member ms k :: ls, .colon⟩ := rfl
  rw [stringChars, List.cons_append, List.cons_append, run_cons, hquote, Option.bind_some, run_append,
    run_string, hkey, Option.bind_some, run_cons, hcolon, Option.bind_some]

/-- A string is read to its end. -/
theorem run_stringChars {ls : List Level} (hls : Awaits ls) (s : String) :
    run ⟨ls, .value⟩ (stringChars s) = complete? (.string s) ls := by
  have hquote : step? ⟨ls, .value⟩ '"' = some ⟨ls, .quote (.plain [])⟩ := rfl
  have hstring : completeString? s ls = complete? (.string s) ls := by
    rcases ls with _ | ⟨items | ms | ⟨ms, k⟩, ls⟩
    · rfl
    · rfl
    · cases hls
    · rfl
  rw [stringChars, List.cons_append, run_cons, hquote, Option.bind_some, run_string, hstring]

/-- The characters of a number go to its scan. -/
theorem run_scan (ls : List Level) {cs : List Char} {s₀ s : Scan}
    (h : cs.foldlM Scan.push? s₀ = some s) :
    run ⟨ls, .number s₀⟩ cs = some ⟨ls, .number s⟩ := by
  induction cs generalizing s₀ with
  | nil =>
    cases h
    rfl
  | cons c cs ih =>
    rw [List.foldlM_cons] at h
    obtain ⟨s₁, hs₁, h⟩ := Option.bind_eq_some_iff.1 h
    have hstep : step? ⟨ls, .number s₀⟩ c = some ⟨ls, .number s₁⟩ := by
      simp only [step?, hs₁]
    rw [run_cons, hstep, Option.bind_some, ih h]

/-- A number is read up to its last digit. -/
theorem run_number (ls : List Level) (n : Number) :
    ∃ r, run ⟨ls, .value⟩ n.chars = some r ∧ Behind (.number n) ls r := by
  obtain ⟨c, cs, s₀, s, hchars, hc, hstart, hrun, hfinish⟩ := Scan.exists_chars n
  have hvalue : step? ⟨ls, .value⟩ c = (Scan.start? c).map fun s => ⟨ls, .number s⟩ := by
    rcases hc with rfl | ⟨d, rfl⟩
    · rfl
    · fin_cases d <;> rfl
  refine ⟨⟨ls, .number s⟩, ?_, .number rfl hfinish⟩
  rw [hchars, run_cons, hvalue, hstart, Option.map_some, Option.bind_some, run_scan ls hrun]

/-- A level is opened where there is room for one more. -/
theorem step?_open {ls : List Level} (h : ls.length < maxDepth) :
    step? ⟨ls, .value⟩ '[' = some ⟨.array [] :: ls, .value⟩ ∧
      step? ⟨ls, .value⟩ '\x7b' = some ⟨.object [] :: ls, .key⟩ := by
  constructor
  · show (if ls.length < maxDepth then _ else _) = _
    rw [if_pos h]
  · show (if ls.length < maxDepth then _ else _) = _
    rw [if_pos h]

/-- No level is opened where there is no room for one more. -/
theorem step?_open_full {ls : List Level} (h : maxDepth ≤ ls.length) :
    step? ⟨ls, .value⟩ '[' = none ∧ step? ⟨ls, .value⟩ '\x7b' = none := by
  constructor
  · show (if ls.length < maxDepth then _ else _) = _
    rw [if_neg (Nat.not_lt.2 h)]
  · show (if ls.length < maxDepth then _ else _) = _
    rw [if_neg (Nat.not_lt.2 h)]

/-- What comes of the text of a value in front of the levels `ls`: the reader is behind what it is read
as, or it has refused a character. -/
def Reads (ls : List Level) : Option Value → Option Reader → Prop
  | some v, r? => ∃ r, r? = some r ∧ Behind v ls r
  | none, r? => r? = none

/-- What is read to its end is complete. -/
theorem reads_of_complete {ls : List Level} (hls : Awaits ls) {o : Option Value} {r? : Option Reader}
    (h : r? = o.bind (complete? · ls)) : Reads ls o r? := by
  rcases o with _ | v
  · exact h
  · obtain ⟨r, hr, -⟩ := exists_complete hls v
    exact ⟨r, h.trans hr, .complete hr⟩

/-- Behind a value comes what stands behind its text. -/
theorem Reads.run_append {ls : List Level} {o : Option Value} {cs rest : List Char}
    (h : Reads ls o (run ⟨ls, .value⟩ cs)) {f : Value → Option Reader}
    (hrest : ∀ v r, Behind v ls r → r.run rest = f v) : run ⟨ls, .value⟩ (cs ++ rest) = o.bind f := by
  rw [Reader.run_append]
  rcases o with _ | v
  · rw [show run ⟨ls, .value⟩ cs = none from h]
    rfl
  · obtain ⟨r, hr, hbehind⟩ := h
    rw [hr, Option.bind_some, Option.bind_some, hrest v r hbehind]

mutual

/-- The text of a value is read as the value is read again, in the room that the levels leave. -/
theorem run_chars : (v : Value) → ∀ (ls : List Level) (room : Nat), Awaits ls →
    ls.length + room = maxDepth → Reads ls (v.reread room) (run ⟨ls, .value⟩ v.chars)
  | .null, ls, _, hls, _ => by
    apply reads_of_complete hls
    have hrun : run ⟨ls, .value⟩ ['n', 'u', 'l', 'l'] = (complete? .null ls).bind (·.run []) := rfl
    rw [Value.chars, hrun]
    simp [Value.reread]
  | .boolean true, ls, _, hls, _ => by
    apply reads_of_complete hls
    have hrun : run ⟨ls, .value⟩ ['t', 'r', 'u', 'e'] =
        (complete? (.boolean true) ls).bind (·.run []) := rfl
    rw [Value.chars, hrun]
    simp [Value.reread]
  | .boolean false, ls, _, hls, _ => by
    apply reads_of_complete hls
    have hrun : run ⟨ls, .value⟩ ['f', 'a', 'l', 's', 'e'] =
        (complete? (.boolean false) ls).bind (·.run []) := rfl
    rw [Value.chars, hrun]
    simp [Value.reread]
  | .number n, ls, _, _, _ => by
    rw [Value.reread]
    exact run_number ls n
  | .string s, ls, _, hls, _ => by
    apply reads_of_complete hls
    rw [Value.chars, run_stringChars hls, Value.reread, Option.bind_some]
  -- all levels are taken: what opens one more is refused, and so is the value read again
  | .array items, ls, 0, hls, hroom => by
    rw [Value.chars, run_cons, (step?_open_full hroom.ge).1, Option.bind_none, Value.reread]
    rfl
  | .array items, ls, room + 1, hls, hroom => by
    apply reads_of_complete hls
    rw [Value.chars, run_cons, (step?_open (by omega)).1, Option.bind_some, Value.reread,
      Option.bind_map]
    exact run_itemsChars items (by omega)
  | .object entries, ls, 0, hls, hroom => by
    rw [Value.chars, run_cons, (step?_open_full hroom.ge).2, Option.bind_none, Value.reread]
    rfl
  | .object entries, ls, room + 1, hls, hroom => by
    apply reads_of_complete hls
    rw [Value.chars, run_cons, (step?_open (by omega)).2, Option.bind_some, Value.reread,
      Option.bind_assoc]
    exact run_entriesChars entries (by omega)

/-- The items of an array are read to its end. -/
theorem run_itemsChars : (vs : List Value) → ∀ {ls : List Level} {room : Nat},
    ls.length + 1 + room = maxDepth → run ⟨.array [] :: ls, .value⟩ (Value.itemsChars vs) =
      (Value.itemsReread vs room).bind fun ws => complete? (.array ws) ls
  | [], ls, room, _ => by
    have hclose : run ⟨.array [] :: ls, .value⟩ [']'] = (complete? (.array []) ls).bind (·.run []) := rfl
    rw [Value.itemsChars, hclose]
    simp [Value.itemsReread]
  | v :: vs, ls, room, hroom => by
    have hv := run_chars v (.array [] :: ls) room trivial hroom
    rw [Value.itemsChars, Value.itemsReread, Option.bind_assoc]
    apply hv.run_append
    intro w r hbehind
    rw [run_moreItemsChars vs hbehind hroom, Option.bind_map]
    rfl

/-- The items behind an item are read to the end of their array. -/
theorem run_moreItemsChars : (vs : List Value) → ∀ {v : Value} {items : List Value} {ls : List Level}
    {room : Nat} {r : Reader}, Behind v (.array items :: ls) r → ls.length + 1 + room = maxDepth →
    r.run (Value.moreItemsChars vs) =
      (Value.itemsReread vs room).bind fun ws => complete? (.array ((v :: items).reverse ++ ws)) ls
  | [], v, items, ls, room, r, h, _ => by
    rw [Value.moreItemsChars, (h.run_array []).2, Value.itemsReread, Option.bind_some, List.append_nil]
  | w :: vs, v, items, ls, room, r, h, hroom => by
    have hw := run_chars w (.array (v :: items) :: ls) room trivial hroom
    rw [Value.moreItemsChars, (h.run_array _).1, Value.itemsReread, Option.bind_assoc]
    apply hw.run_append
    intro w' r' hbehind
    rw [run_moreItemsChars vs hbehind hroom, Option.bind_map]
    simp

/-- The entries of an object are read to its end. -/
theorem run_entriesChars : (es : List (String × Value)) → ∀ {ls : List Level} {room : Nat},
    ls.length + 1 + room = maxDepth → run ⟨.object [] :: ls, .key⟩ (Value.entriesChars es) =
      (Value.entriesReread es room).bind fun fs => (Value.ofMembers? fs).bind (complete? · ls)
  | [], ls, room, _ => by
    have hclose : run ⟨.object [] :: ls, .key⟩ ['\x7d'] = (complete? (.object []) ls).bind (·.run []) :=
      rfl
    rw [Value.entriesChars, hclose]
    simp [Value.entriesReread, Value.ofMembers?]
  | (k, v) :: es, ls, room, hroom => by
    have hv := run_chars v (.member [] k :: ls) room trivial hroom
    rw [Value.entriesChars, run_key, Value.entriesReread, Option.bind_assoc]
    apply hv.run_append
    intro w r hbehind
    rw [run_moreEntriesChars es hbehind hroom, Option.bind_map]
    rfl

/-- The entries behind an entry are read to the end of their object. -/
theorem run_moreEntriesChars : (es : List (String × Value)) → ∀ {v : Value}
    {ms : List (String × Value)} {k : String} {ls : List Level} {room : Nat} {r : Reader},
    Behind v (.member ms k :: ls) r → ls.length + 1 + room = maxDepth →
    r.run (Value.moreEntriesChars es) = (Value.entriesReread es room).bind fun fs =>
      (Value.ofMembers? (((k, v) :: ms).reverse ++ fs)).bind (complete? · ls)
  | [], v, ms, k, ls, room, r, h, _ => by
    rw [Value.moreEntriesChars, (h.run_object []).2, Value.entriesReread, Option.bind_some, List.append_nil]
  | (l, w) :: es, v, ms, k, ls, room, r, h, hroom => by
    have hw := run_chars w (.member ((k, v) :: ms) l :: ls) room trivial hroom
    rw [Value.moreEntriesChars, (h.run_object _).1, run_key, Value.entriesReread, Option.bind_assoc]
    apply hw.run_append
    intro w' r' hbehind
    rw [run_moreEntriesChars es hbehind hroom, Option.bind_map]
    simp

end

end Reader

namespace Value

/-- What the text of a value is read as. -/
theorem ofChars?_chars_eq (v : Value) : ofChars? v.chars = v.reread maxDepth := by
  have hreads := Reader.run_chars v [] maxDepth trivial (Nat.zero_add _)
  show (Reader.start.run v.chars).bind Reader.finish? = _
  rcases hw : v.reread maxDepth with _ | w
  · rw [hw] at hreads
    rw [Reader.start, show Reader.run ⟨[], .value⟩ v.chars = none from hreads, Option.bind_none]
  · rw [hw] at hreads
    obtain ⟨r, hr, hbehind⟩ := hreads
    rw [Reader.start, hr, Option.bind_some, hbehind.finish?_eq]

mutual

/-- A value whose objects are read as objects is read as it is, if there is room for it. -/
theorem reread_of_legible : (v : Value) → ∀ (room : Nat), v.legible = true →
    v.reread room = if v.depth ≤ room then some v else none
  | .null, _, _ | .boolean _, _, _ | .number _, _, _ | .string _, _, _ => by simp [reread, depth]
  | .array _, 0, _ | .object _, 0, _ => by simp [reread, depth]
  | .array items, room + 1, hv => by
    rw [reread, itemsReread_of_legible items room hv, depth]
    simp only [Nat.add_le_add_iff_right]
    split <;> rfl
  | .object entries, room + 1, hv => by
    simp only [legible, Bool.and_eq_true, bne_iff_ne] at hv
    obtain ⟨⟨hascends, hfirst⟩, hentries⟩ := hv
    rw [reread, entriesReread_of_legible entries room hentries, depth]
    simp only [Nat.add_le_add_iff_right]
    split
    · exact ofMembers?_entries hascends hfirst
    · rfl

/-- Items that are legible are read again if there is room for the deepest of them. -/
theorem itemsReread_of_legible : (vs : List Value) → ∀ (room : Nat), itemsLegible vs = true →
    itemsReread vs room = if itemsDepth vs ≤ room then some vs else none
  | [], _, _ => by simp [itemsReread, itemsDepth]
  | v :: vs, room, hvs => by
    simp only [itemsLegible, Bool.and_eq_true] at hvs
    rw [itemsReread, reread_of_legible v room hvs.1, itemsReread_of_legible vs room hvs.2, itemsDepth]
    simp only [Nat.max_le]
    split <;> split <;> simp_all

/-- So are the values of an object. -/
theorem entriesReread_of_legible : (es : List (String × Value)) → ∀ (room : Nat),
    entriesLegible es = true → entriesReread es room = if entriesDepth es ≤ room then some es else none
  | [], _, _ => by simp [entriesReread, entriesDepth]
  | (k, v) :: es, room, hes => by
    simp only [entriesLegible, Bool.and_eq_true] at hes
    rw [entriesReread, reread_of_legible v room hes.1, entriesReread_of_legible es room hes.2,
      entriesDepth]
    simp only [Nat.max_le]
    split <;> split <;> simp_all

end

/-- The text of a value is read as that value. -/
theorem ofChars?_chars {v : Value} (hv : v.legible = true) (hdepth : v.depth ≤ maxDepth) :
    ofChars? v.chars = some v := by
  rw [ofChars?_chars_eq, reread_of_legible v _ hv, if_pos hdepth]

/-- The text of a value that is too deep is not read. -/
theorem ofChars?_chars_of_deep {v : Value} (hv : v.legible = true) (hdeep : maxDepth < v.depth) :
    ofChars? v.chars = none := by
  rw [ofChars?_chars_eq, reread_of_legible v _ hv, if_neg (Nat.not_le.2 hdeep)]

end Value
end FramedCall.Json
