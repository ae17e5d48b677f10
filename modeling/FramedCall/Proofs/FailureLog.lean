import FramedCall.Proofs.Stream.Sink
import FramedCall.Proofs.Text.Utf8

/-!
# Lines of a failure log

A message is written behind its mark as it is. What stands in the log is taken apart at every line feed,
the ones in messages among them (`FailureLog.splitOn_lines`), so there is one line for each message, and
the lines say which messages they are, where no message has a line feed (`FailureLog.splitOn_lines_iff`,
`FailureLog.lines_inj`).
-/

namespace FramedCall

namespace FailureLog

/-- What ends a line. -/
def lineFeed : UInt8 := 10

/-- The line of a message without its end. -/
def entry (message : String) : Bytes :=
  Text.encode (mark ++ message)

/-- The line of a message is its entry with a line feed behind it. -/
theorem encode_line (m : String) : Text.encode (line m) = entry m ++ [lineFeed] := by
  have hend : Text.encode "\n" = [lineFeed] := by decide
  rw [line, Text.encode_append, hend]
  rfl

/-- Different messages have different entries, as the mark is the same. -/
theorem entry_inj {m n : String} (h : entry m = entry n) : m = n := by
  have hmark := Text.encode_inj h
  rw [← String.toList_inj, String.toList_append, String.toList_append] at hmark
  exact String.toList_inj.1 (List.append_cancel_left hmark)

/-- The only line feeds in an entry are those of its message: the mark has none. -/
theorem lineFeed_mem_entry_iff {m : String} : lineFeed ∈ entry m ↔ '\n' ∈ m.toList := by
  have hmark : '\n' ∉ mark.toList := by decide
  show UInt8.ofNat '\n'.toNat ∈ Text.encode (mark ++ m) ↔ _
  rw [Text.mem_encode_iff (by decide), String.toList_append, List.mem_append]
  exact or_iff_right hmark

/-! ### Taking lines apart -/

/-- The entry of the first message comes first. -/
theorem lines_cons (m : String) (ms : List String) : lines (m :: ms) = entry m ++ lineFeed :: lines ms := by
  rw [lines, List.flatMap_cons, encode_line, List.append_assoc]
  rfl

/-- At its line feeds a log falls into the pieces of its entries, and nothing stands behind the last. -/
theorem splitOn_lines (ms : List String) :
    (lines ms).splitOn lineFeed = ms.flatMap (fun m => (entry m).splitOn lineFeed) ++ [[]] := by
  induction ms with
  | nil => exact List.splitOn_nil lineFeed
  | cons m ms ih =>
    rw [lines_cons, List.splitOn_append_cons_self, ih, List.flatMap_cons, List.append_assoc]

/-- There is one piece more than there are places to cut at. -/
theorem length_splitOn (bs : Bytes) : (bs.splitOn lineFeed).length = bs.count lineFeed + 1 := by
  induction bs with
  | nil => rfl
  | cons b bs ih =>
    rw [List.splitOn_cons_eq_if_modifyHead, List.count_cons]
    split
    · rw [List.length_cons, ih]
    · rw [List.length_modifyHead, ih]

/-- The log of some messages has a line for each, and one more for each line feed in a message. -/
theorem count_lines (ms : List String) :
    (lines ms).count lineFeed = ms.length + (ms.flatMap entry).count lineFeed := by
  induction ms with
  | nil => rfl
  | cons m ms ih =>
    rw [lines_cons, List.count_append, List.count_cons_self, ih, List.length_cons, List.flatMap_cons,
      List.count_append]
    omega

/-- There is one line for each message if and only if no message has a line feed. -/
theorem splitOn_lines_iff {ms : List String} :
    (lines ms).splitOn lineFeed = ms.map entry ++ [[]] ↔ ∀ m ∈ ms, '\n' ∉ m.toList := by
  constructor
  · intro h m hm
    have hlength := congrArg List.length h
    rw [length_splitOn, count_lines, List.length_append, List.length_map, List.length_singleton] at hlength
    have hcount : (ms.flatMap entry).count lineFeed = 0 := by omega
    rw [← lineFeed_mem_entry_iff]
    exact fun hmem => List.count_eq_zero.1 hcount (List.mem_flatMap.2 ⟨m, hm, hmem⟩)
  · intro h
    rw [splitOn_lines, List.map_eq_flatMap]
    refine congrArg (· ++ [[]]) (List.flatMap_congr fun m hm => ?_)
    exact List.splitOn_eq_singleton (mt lineFeed_mem_entry_iff.1 (h m hm))

/-- Messages without line feeds can be told from their lines. -/
theorem lines_inj {ms ns : List String} (hms : ∀ m ∈ ms, '\n' ∉ m.toList)
    (hns : ∀ n ∈ ns, '\n' ∉ n.toList) (h : lines ms = lines ns) : ms = ns := by
  have hentries : ms.map entry ++ [[]] = ns.map entry ++ [[]] := by
    rw [← splitOn_lines_iff.2 hms, ← splitOn_lines_iff.2 hns, h]
  exact List.map_injective_iff.2 (fun _ _ => entry_inj) (List.append_cancel_right hentries)

end FailureLog
end FramedCall
