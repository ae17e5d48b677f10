import FramedCall.Handler
import FramedCall.Json.Printer
import FramedCall.Json.Record
import FramedCall.Text.Numeral
import FramedCall.Text.Utf8

/-!
# A stock of handlers

Small handlers to put a server together with: some compute, some take records and variants, some
fail, crash or wait. `Handler.stock` finds them by name.
-/

namespace FramedCall

open Json (Value Bounded IntegerType Readable Writable Member Layout Variants Mismatch)

namespace Handler

/-! ### Computing -/

/-- A result or a message for the lack of one. -/
def orFail {β : Type} (message : String) : Option β → Except String β
  | some b => .ok b
  | none => .error message

/-- Gives the value back. -/
def echo : Handler := typed fun (v : Value) => .ok v

/-- Puts the value under a key. -/
def wrap : Handler := typed fun (v : Value) => .ok (Value.object [("echo", v)])

/-- Adds two integers of 64 bits. -/
def add : Handler := typed fun (p : Bounded .i64 × Bounded .i64) =>
  orFail "overflow" (Bounded.ofInt? .i64 (p.1.val + p.2.val))

/-- The square of an unsigned integer of 64 bits. -/
def square : Handler := typed fun (n : Bounded .u64) =>
  .ok (Value.number (.ofInt (n.val * n.val)))

/-- The cube of an integer of 32 bits. -/
def cube : Handler := typed fun (n : Bounded .i32) =>
  .ok (Value.number (.ofInt (n.val * n.val * n.val)))

/-- The number of bytes of a text. -/
def length : Handler := typed fun (s : String) =>
  .ok (Value.number (.ofInt (Text.encode s).length))

/-- The number below 2⁶⁴ that a text is in some base. -/
def readNumeral (base : Nat) (s : String) : Except String Nat :=
  (Text.Numeral.read base (Nat.pow 2 64 - 1) s).mapError (·.message)

/-- The number that a text is. -/
def parse : Handler := typed fun (s : String) => do
  let n ← readNumeral 10 s
  return Value.number (.ofInt n)

/-- The other truth value. -/
def not : Handler := typed fun (b : Bool) => .ok (!b)

/-- Whether there is an integer. -/
def opt : Handler := typed fun (n : Option (Bounded .u64)) => .ok n.isSome

/-- Half of a binary64 value. -/
def half : Handler := typed fun (x : Float) => .ok (x / 2)

/-- The binary64 value given by its bits in base 16. -/
def readBits (s : String) : Except String Float :=
  (readNumeral 16 s).map fun n => Float.ofBits n.toUInt64

/-- The binary64 value with the given bits in a record; one without a number becomes a text. -/
def reading : Handler := typed fun (s : String) => do
  let x ← readBits s
  return Value.object [("value", .ofFloatOrName x)]

/-- The binary64 value with the given bits. -/
def plainFloat : Handler := typed readBits

/-! ### Records and variants -/

/-- An order to a wallet. -/
inductive WalletOrder where
  /-- Creates an amount. -/
  | mint (amount : Bounded .u64)
  /-- Destroys an amount. -/
  | burn (amount : Bounded .u64)
  /-- Names the address of the wallet. -/
  | setWalletAddress (address : String)

/-- A record with one required field. -/
def onlyField {α β : Type} [Readable α] (name : String) (make : α → β)
    (es : List (String × Value)) : Except Mismatch β := do
  let a? ← Json.readEntries [Member.typed name fun (a : α) _ => some a] es none
  let a ← Json.require name a?
  return make a

instance : Readable WalletOrder where
  read := Variants.ofValue
    [("Mint", .record (onlyField "amount" .mint)),
      ("Burn", .record (onlyField "amount" .burn)),
      ("SetWalletAddress", .record (onlyField "address" .setWalletAddress))]

/-- Tells which order was given. -/
def wallet : Handler := typed fun (o : WalletOrder) =>
  match o with
  | .mint _ => (.ok "Mint" : Except String String)
  | .burn _ => .ok "Burn"
  | .setWalletAddress address =>
    if address = "" then .error "empty wallet address" else .ok "SetWalletAddress"

/-- One of three things to do. -/
inductive Action where
  /-- Say something. -/
  | ping
  /-- Give a value back. -/
  | echo (v : Value)
  /-- Swap two values. -/
  | pair (n : Bounded .i64) (s : String)

instance : Readable Action where
  read := Variants.ofValue
    [("Ping", .unit .ping),
      ("Echo", .single fun v => (Json.read v).map .echo),
      ("Pair", .tuple "Action::Pair" fun vs => do
        let (n, s) ← Json.readPair "tuple variant Action::Pair with 2 elements" vs
        return .pair n s)]

/-- Does what is asked. -/
def action : Handler := typed fun (a : Action) =>
  match a with
  | .ping => (.ok (.string "pong") : Except String Value)
  | .echo v => .ok v
  | .pair n s => .ok (.array [.string s, .number (.ofInt n.val)])

/-- What somebody owns. -/
structure Balance where
  /-- Who. -/
  owner : String
  /-- How much. -/
  amount : Bounded .u64

/-- The fields of a balance, where they have been read. -/
structure PartialBalance where
  /-- Who. -/
  owner : Option String
  /-- How much. -/
  amount : Option (Bounded .u64)

/-- The layout of a balance. -/
def Balance.layout : Layout PartialBalance Balance where
  name := "struct Balance"
  fields :=
    [.typed "owner" fun owner b => { b with owner := some owner },
      .typed "amount" fun amount b => { b with amount := some amount }]
  start := ⟨none, none⟩
  finish b := do
    let owner ← Json.require "owner" b.owner
    let amount ← Json.require "amount" b.amount
    return ⟨owner, amount⟩
  hasDefaults := false

instance : Readable Balance := ⟨Balance.layout.ofValue⟩

instance : Writable Balance where
  write b := .ok (.ofFields [("owner", .string b.owner), ("amount", .number (.ofInt b.amount.val))])

/-- Gives a balance back that has an owner. -/
def balance : Handler := typed fun (b : Balance) =>
  if b.owner = "" then .error "owner required" else .ok b

/-! ### Failing, crashing, waiting -/

/-- Fails with the value as the message. -/
def fail : Handler := typed fun (v : Value) => (.error v.plainText : Except String Value)

/-- Crashes, with a message made from the value or with none. -/
def crash (message : Value → Option String) : Handler := fun v =>
  input v fun (v : Value) => ⟨none, .crashed (message v)⟩

/-- A table whose keys are values. -/
structure ValueTable where
  /-- The entries in order. -/
  entries : List (Value × Value)

instance : Writable ValueTable where
  write t := do
    let members ← t.entries.mapM fun
      | (.string k, v) => .ok (k, v)
      | _ => .error .keyNotString
    return .ofFields members

/-- Answers with a table that has an array as a key. -/
def badOutput : Handler := typed fun (n : Bounded .u64) =>
  let v : Value := .number (.ofInt n.val)
  .ok (ValueTable.mk [(.array [v, v], v)])

/-- A value behind a gate. -/
structure GateRequest where
  /-- The key of the gate. -/
  key : String
  /-- The value. -/
  value : Value

/-- The fields of a gate request, where they have been read. -/
structure PartialGateRequest where
  /-- The key of the gate. -/
  key : Option String
  /-- The value. -/
  value : Option Value

instance : Readable GateRequest where
  read := Layout.ofValue
    { name := "struct Gate"
      fields :=
        [.typed "key" fun key g => { g with key := some key },
          .typed "value" fun value g => { g with value := some value }]
      start := (⟨none, none⟩ : PartialGateRequest)
      finish := fun g => do
        let key ← Json.require "key" g.key
        let value ← Json.require "value" g.value
        return ⟨key, value⟩
      hasDefaults := false }

/-- Waits for the gate, then fails or crashes if the value says so, and gives it back otherwise. -/
def gate : Handler := fun v => input v fun (g : GateRequest) =>
  ⟨some g.key,
    match g.value with
    | .object es =>
      match Keyed.find? "fail" es, Keyed.find? "panic" es with
      | some w, _ => .failed w.plainText
      | none, some w => .crashed (some w.compact)
      | none, none => .returned g.value
    | v => .returned v⟩

/-! ### By name -/

/-- The handlers of the stock with their names. -/
def stockList : List (String × Handler) :=
  [("echo", echo), ("echo_async", echo), ("wrap", wrap), ("add", add), ("square", square),
    ("cube", cube), ("len", length), ("parse", parse), ("not", not), ("opt", opt), ("half", half),
    ("reading", reading), ("plain_float", plainFloat), ("wallet", wallet), ("action", action),
    ("balance", balance), ("fail", fail), ("fail_async", fail),
    ("panic_str", crash fun _ => some "static panic"),
    ("panic_string", crash fun v => some s!"panic: {v.compact}"),
    ("panic_any", crash fun _ => none),
    ("bad_output", badOutput), ("bad_output_async", badOutput), ("gate", gate)]

/-- The handler of the stock with the given name. -/
def stock (name : String) : Option Handler :=
  stockList.lookup name

end Handler
end FramedCall
