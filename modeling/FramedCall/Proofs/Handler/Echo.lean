import Mathlib.Algebra.Group.Int.Defs
import Mathlib.Data.List.Basic
import FramedCall.Handler.Stock
import FramedCall.Proofs.Exchange
import FramedCall.Proofs.Json.Position

/-!
# Integers that are given back

A handler that gives its input back gives back the normal form of it. An integer of at most 128 bits
is its own normal form. A longer one is too, unless its digits are those in which a binary64 value is
written without an exponent: then it becomes another rendering of that value, which is no integer
(`Number.normalize_of_toInt?`, `Number.onWire_normalize_iff`). The main statement is
`Server.echo_keeps_integer_iff`: it follows an integer at any position of a request through the server
to the same position of the response; `Server.echo_changes_integer` is one that does not arrive.
-/

namespace FramedCall

open Json (Value Number isWide largestSafe)

/-! ### Normal forms of integers -/

namespace Json.Number

/-- A rendering of a binary64 value has a fraction or an exponent. -/
theorem isInteger_ofScaled (negative : Bool) (d : Decimal.Scaled) :
    (ofScaled negative d).isInteger = false := by
  unfold ofScaled
  simp only
  split
  · split
    · rfl
    · next hfraction => simp [isInteger, hfraction]
  · simp [ofScaledExponent, isInteger]

/-- How a binary64 value is written is never an integer. -/
theorem isInteger_ofFloat? {f : Float} {r : Number} (h : ofFloat? f = some r) : r.isInteger = false := by
  obtain ⟨x, -, rfl⟩ := Option.map_eq_some_iff.1 h
  exact isInteger_ofScaled _ _

/-- A value that is written without an exponent is written in the other way too, and that is not an
integer. -/
theorem isInteger_getD_ofFloat? {f : Float} {n : Number} (h : positional? f = some n) (m : Number) :
    ((ofFloat? f).getD m).isInteger = false := by
  obtain ⟨x, hx, -⟩ := Option.map_eq_some_iff.1 h
  have hr : ofFloat? f = some (ofScaled x.1 (x.2.shortest .even)) := Option.map_eq_some_iff.2 ⟨x, hx, rfl⟩
  rw [hr]
  exact isInteger_ofScaled _ _

variable {n : Number} {i : Int}

/-- What stands for an integer is written as one. -/
theorem isInteger_of_toInt? (h : n.toInt? = some i) : n.isInteger = true := by
  unfold toInt? at h
  split at h
  · next hinteger => exact hinteger
  · cases h

/-- Reading an integer as a binary64 value leaves it alone, unless it is written as that value is
without an exponent. -/
theorem viaFloat_of_isInteger (h : n.isInteger = true) :
    normalize.viaFloat n = if positional? n.toFloat = some n then
      (ofFloat? n.toFloat).getD n else n := by
  unfold normalize.viaFloat
  simp only
  rcases hr : ofFloat? n.toFloat with _ | r
  · simp
  · have hne : n ≠ r := by
      intro heq
      rw [← heq] at hr
      rw [isInteger_ofFloat? hr] at h
      cases h
    simp [hne]

/-- An integer is its own normal form if it has at most 128 bits, and otherwise if it is not the
positional rendering of a binary64 value. -/
theorem normalize_of_toInt? (h : n.toInt? = some i) (hi : i ≠ 0) :
    n.normalize = if isWide i = true ∨ positional? n.toFloat ≠ some n then n
      else (ofFloat? n.toFloat).getD n := by
  rw [normalize, h]
  simp only
  split
  · next hwide => rw [if_pos (.inl hwide), ← eq_ofInt_of_toInt? h hi]
  · next hwide =>
    rw [viaFloat_of_isInteger (isInteger_of_toInt? h)]
    by_cases hpositional : positional? n.toFloat = some n
    · simp [hwide, hpositional]
    · simp [hpositional]

/-- The normal form of an unsafe integer goes on the wire as the string of its digits if it is the
integer itself, and only then. -/
theorem onWire_normalize_iff (h : n.toInt? = some i) (hbeyond : largestSafe < i.natAbs) :
    n.normalize.onWire = .string (toString i) ↔
      isWide i = true ∨ positional? n.toFloat ≠ some n := by
  have hi : i ≠ 0 := Int.natAbs_ne_zero.1 (Nat.ne_of_gt (Nat.zero_lt_of_lt hbeyond))
  rw [normalize_of_toInt? h hi]
  split
  · next hkept =>
    rw [onWire_of_beyond h hbeyond]
    simp [hkept]
  · next hchanged =>
    obtain ⟨-, hpositional⟩ := not_or.1 hchanged
    rw [onWire_of_not_isInteger (isInteger_getD_ofFloat? (not_not.1 hpositional) n)]
    simp [hchanged]

end Json.Number

/-! ### Outcomes on the wire -/

namespace Envelope

/-- What the outcome of a request is on the wire, if it goes there. -/
def shown (e : Envelope) : Except CallError Value → Option Value
  | .ok v => some (e.wrapSuccess v).toWire
  | .error cause => (e.wrapFailure cause.message).map Value.toWire

/-- Where the value of a success stands. -/
def contentPath : Envelope → List Value.Step
  | .raw => []
  | .tagged t =>
    match t.layout with
    | .object => [.entry t.ok]
    | .pair => [.item 1]

/-- The value of a success stands there. -/
theorem at?_wrapSuccess (e : Envelope) (v : Value) (path : List Value.Step) :
    (e.wrapSuccess v).at? (e.contentPath ++ path) = v.at? path := by
  rcases e with _ | t
  · rfl
  · rcases hl : t.layout
    · simp [wrapSuccess, contentPath, Tagging.wrap, hl, Value.at?_cons, Value.child?, Keyed.find?]
    · simp [wrapSuccess, contentPath, Tagging.wrap, hl, Value.at?_cons, Value.child?]

/-- A failure has no value, so nothing stands inside of it. -/
theorem eq_nil_of_at?_failure (e : Envelope) (cause : CallError) {path : List Value.Step} {u : Value}
    (h : (e.shown (.error cause)).bind (·.at? (e.contentPath ++ path)) = some u) : path = [] := by
  rcases e with _ | t
  · cases h
  · have hwire : (t.wrap t.err (.string cause.message)).toWire = t.wrap t.err (.string cause.message) :=
      t.toWire_wrap _ _
    obtain ⟨w, hw, h⟩ := Option.bind_eq_some_iff.1 h
    simp only [shown, wrapFailure, Option.map_some, hwire, Option.some.injEq] at hw
    rw [← hw, Value.at?_append] at h
    obtain ⟨content, hcontent, h⟩ := Option.bind_eq_some_iff.1 h
    -- where the value of a success would be, the message stands
    have hstring : content = .string cause.message := by
      rcases hl : t.layout
      · simp only [contentPath, Tagging.wrap, hl, Value.at?_cons, Value.child?, Keyed.find?,
          Option.bind_eq_some_iff] at hcontent
        obtain ⟨x, hx, hcontent⟩ := hcontent
        cases hcontent
        split at hx
        · cases hx
          rfl
        · cases hx
      · simp only [contentPath, Tagging.wrap, hl] at hcontent
        cases hcontent
        rfl
    rw [hstring] at h
    exact (Value.at?_string_eq_some h).1

end Envelope

/-- The frame of a settlement carries the text of what the outcome is on the wire. -/
theorem Conventions.frame_settle (c : Conventions) (seq : Nat) (outcome : Except CallError Value) :
    (c.settle seq outcome).frame =
      (c.envelope.shown outcome).map fun u => c.framing.around (Text.encodeChars u.chars) := by
  cases outcome with
  | ok v =>
    rw [settle, frame_eq, Payload.encode_eq]
    rfl
  | error cause =>
    rw [settle, settleFailure, Envelope.shown]
    rcases c.envelope.wrapFailure cause.message with _ | v
    · rfl
    · simp only [frame_eq, Payload.encode_eq]
      rfl

/-! ### Giving a value back -/

/-- The handler that gives its input back ends with the normal form of it, if it has one. -/
theorem Handler.outcome_echo (v : Value) :
    (echo v).outcome.result = v.normalize.mapError fun m =>
      .handler s!"invalid input: {(CallError.ofMismatch m).message}" := by
  rw [echo, typed, input]
  rcases hv : v.normalize with m | w
  · have hread : (Json.read v : Except Json.Mismatch Value) = .error m := hv
    rw [hread]
    rfl
  · have hread : (Json.read v : Except Json.Mismatch Value) = .ok w := hv
    rw [hread]
    rfl

/-- A request is answered by the handler that it goes to. -/
theorem Server.answer_of_resolve {server : Server} {p : Bytes} {request v : Value} {h : Handler}
    (hdecode : Payload.decode p = .ok request) (hresolve : server.router.resolve request = .ok (h, v)) :
    server.answer p = (h v).outcome.result := by
  rw [answer, hdecode]
  simp only [Except.bind, Router.reply, hresolve]

/-- Let a request go to the handler that gives its input back, by itself or as a command, and let an
integer beyond 2⁵³ − 1 in magnitude stand anywhere in that input. What is on the wire then is the text
of `Envelope.shown`, framed. There the string of exactly the digits of the integer stands in the same
place of what is given back if and only if the input has a normal form and the integer has at most 128
bits or is not the positional rendering of a binary64 value. -/
theorem Server.echo_keeps_integer_iff {server : Server} {p : Bytes} {request v : Value}
    (hdecode : Payload.decode p = .ok request)
    (hresolve : server.router.resolve request = .ok (Handler.echo, v)) {path : List Value.Step}
    {n : Number} {i : Int} (hn : v.at? path = some (.number n)) (hi : n.toInt? = some i)
    (hbeyond : largestSafe < i.natAbs) (seq : Nat) :
    let envelope := server.settings.conventions.envelope
    (server.settlement seq p).frame = (envelope.shown (server.answer p)).map (fun u =>
        server.settings.conventions.framing.around (Text.encodeChars u.chars)) ∧
      ((envelope.shown (server.answer p)).bind (·.at? (envelope.contentPath ++ path)) =
          some (.string (toString i)) ↔
        (∃ w, v.normalize = .ok w) ∧
          (isWide i = true ∨ Number.positional? n.toFloat ≠ some n)) := by
  intro envelope
  refine ⟨Conventions.frame_settle _ _ _, ?_⟩
  have hanswer := Server.answer_of_resolve hdecode hresolve
  rw [Handler.outcome_echo] at hanswer
  rcases hnormal : v.normalize with m | w
  · rw [hnormal] at hanswer
    rw [hanswer]
    constructor
    · intro h
      obtain rfl := envelope.eq_nil_of_at?_failure _ h
      -- a number by itself always has a normal form
      cases hn
      cases hnormal
    · rintro ⟨⟨w, hw⟩, -⟩
      cases hw
  · rw [hnormal] at hanswer
    rw [hanswer]
    have hat : (envelope.wrapSuccess w).at? (envelope.contentPath ++ path) =
        some (.number n.normalize) := by
      rw [Envelope.at?_wrapSuccess]
      exact Value.at?_normalize hnormal hn
    have hshown : (envelope.shown (.ok w)).bind (·.at? (envelope.contentPath ++ path)) =
        some n.normalize.onWire := Value.at?_toWire hat
    have hsome : (some n.normalize.onWire = some (Value.string (toString i))) ↔
        n.normalize.onWire = .string (toString i) := Option.some_inj
    rw [show Except.mapError _ (Except.ok w) = (.ok w : Except CallError Value) from rfl, hshown, hsome,
      Number.onWire_normalize_iff hi hbeyond]
    simp

/-- The integer 10³⁹ + 1 in a command's argument is given back with all its digits. -/
theorem Server.echo_keeps_integer_of_forty_digits :
    let server : Server := ⟨.standard, .byName ⟨[("echo", Handler.echo)]⟩⟩
    let n : Number := .ofInt (10 ^ 39 + 1)
    let v : Value := .object [("k", .array [.null, .number n])]
    let p : Bytes := Text.encode
      "[\"echo\",\x7b\"k\":[null,1000000000000000000000000000000000000001]\x7d]"
    Payload.decode p = .ok (.array [.string "echo", v]) ∧
      server.router.resolve (.array [.string "echo", v]) = .ok (Handler.echo, v) ∧
      v.at? [.entry "k", .item 1] = some (.number n) ∧ n.toInt? = some (10 ^ 39 + 1) ∧
      largestSafe < (10 ^ 39 + 1 : Int).natAbs ∧
      (Envelope.standard.shown (server.answer p)).bind (·.at? [.entry "Ok", .entry "k", .item 1]) =
        some (.string "1000000000000000000000000000000000000001") := by
  intro server n v p
  have hdecode : Payload.decode p = .ok (.array [.string "echo", v]) := rfl
  have hresolve : server.router.resolve (.array [.string "echo", v]) = .ok (Handler.echo, v) := rfl
  have hn : v.at? [.entry "k", .item 1] = some (.number n) := rfl
  have hi : n.toInt? = some (10 ^ 39 + 1) := by decide +kernel
  have hbeyond : largestSafe < (10 ^ 39 + 1 : Int).natAbs := by decide +kernel
  have hpositional : Number.positional? n.toFloat ≠ some n := by decide +kernel
  have hnormal : ∃ w, v.normalize = .ok w := ⟨_, rfl⟩
  refine ⟨hdecode, hresolve, hn, hi, hbeyond, ?_⟩
  exact (echo_keeps_integer_iff hdecode hresolve hn hi hbeyond 0).2.2 ⟨hnormal, .inr hpositional⟩

/-- The integer 10³⁹ is how a binary64 value is written without an exponent. It is given back as that
value is written with one. -/
theorem Server.echo_changes_integer :
    let server : Server := ⟨.standard, .single Handler.echo⟩
    let p : Bytes := Text.encode "1000000000000000000000000000000000000000"
    Payload.decode p = .ok (.number (.ofInt (10 ^ 39))) ∧
      server.answer p = .ok (.number ⟨false, 1, [], some ⟨false, 3, [9]⟩⟩) ∧
      (server.settlement 0 p).frame.map (·.bytes) = some (Text.encode "\x7b\"Ok\":1e+39\x7d\n") := by
  intro server p
  have hdecode : Payload.decode p = .ok (.number (.ofInt (10 ^ 39))) := rfl
  have hnormal : (Number.ofInt (10 ^ 39)).normalize = ⟨false, 1, [], some ⟨false, 3, [9]⟩⟩ := by
    decide +kernel
  have hanswer : server.answer p = .ok (.number ⟨false, 1, [], some ⟨false, 3, [9]⟩⟩) := by
    rw [Server.answer_of_resolve hdecode rfl, Handler.outcome_echo, Value.normalize, hnormal]
    rfl
  refine ⟨hdecode, hanswer, ?_⟩
  rw [settlement, Conventions.frame_settle, hanswer]
  rfl

end FramedCall
