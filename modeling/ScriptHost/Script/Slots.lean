import ScriptHost.Script.KeyMap

/-!
# Slots

A table has a slot for every key that it keeps apart from its items. The slots give the keys their
order, and their number says when the table grows: a key that finds no slot makes the table lay out
all of its keys anew. A key that lost its value stays in its slot until another key takes it.

* `Slots.home` : the slot that a key belongs in.
* `Slots.choose?`, `Slots.put` : finds a slot for a new key, and puts the key there.
* `Slots.ofKeys` : slots for some keys, one after the other.
* `Slots.ranks` : the order of the keys.
-/

namespace ScriptHost.Script

/-- The slots of a table. -/
structure Slots where
  /-- The keys by slot; a slot that had no key yet holds nil. -/
  keys : Array Value := #[]
  /-- All slots from here on have had a key. -/
  free : Nat := keys.size
  /-- Some key may have lost its value. -/
  stale : Bool := false
  deriving DecidableEq

namespace Slots

/-- Slots without keys, so many of them. -/
def ofCapacity (capacity : Nat) : Slots := { keys := Array.replicate capacity .nil }

/-! ## Homes -/

/-- A double scattered over thirty-two bits: the thirty-one bits behind the point of its mantissa,
plus its exponent. -/
def scatter (x : Float) : Nat :=
  match Decimal.Binary.ofFloat x with
  | .finite negative m =>
    if m.mantissa = 0 then 0
    else
      let length := m.mantissa.log2 + 1
      let high : Int := Int.ofNat (m.mantissa * Nat.pow 2 31 / Nat.pow 2 length)
      let sum := (m.exponent + length + if negative then -high else high) % Nat.pow 2 32
      let sum := sum.toNat
      if sum < Nat.pow 2 31 then sum else Nat.pow 2 32 - 1 - sum
  | _ => 0

/-- The slot that a key belongs in. Numbers and booleans are spread over the slots; all other keys
belong in the first one. -/
def home (slots : Slots) (key : Value) : Nat :=
  let count := slots.keys.size
  match key with
  | .integer n => n.toUInt64.toNat % max 1 (count - 1)
  | .number x => scatter x % max 1 (count - 1)
  | .boolean true => min 1 (count - 1)
  | _ => 0

/-! ## Placing keys -/

/-- The last slot below a bound that had no key yet. -/
def lastFree? (keys : Array Value) : Nat → Option Nat
  | 0 => none
  | i + 1 => if keys[i]? = some .nil then some i else lastFree? keys i

/-- How a new key takes a slot. -/
structure Placing where
  slot : Nat
  /-- Where the key goes that stands in the slot. -/
  moved? : Option Nat
  /-- All slots from here on have had a key afterwards. -/
  free : Nat

/-- Finds a slot for a new key, when `isLive` says which keys have a value. The key takes its home
if no live key is there. Otherwise the last free slot is used: for the key that is there if its home
is elsewhere, and for the new key if not. -/
def choose? (isLive : Value → Bool) (slots : Slots) (key : Value) : Option Placing :=
  let here := slots.home key
  match slots.keys[here]? with
  | none => none
  | some resident =>
    if !isLive resident then some ⟨here, none, slots.free⟩
    else match lastFree? slots.keys slots.free with
      | none => none
      | some free =>
        if slots.home resident = here then some ⟨free, none, free⟩ else some ⟨here, some free, free⟩

/-- The keys by slot with a new key among them. -/
def putKey (keys : Array Value) (key : Value) (placing : Placing) : Array Value :=
  match placing.moved? with
  | none => keys.setIfInBounds placing.slot key
  | some free =>
    let resident := keys[placing.slot]?.getD .nil
    (keys.setIfInBounds free resident).setIfInBounds placing.slot key

/-- Puts a new key in a slot. -/
def put (slots : Slots) (key : Value) (placing : Placing) : Slots :=
  { slots with keys := putKey slots.keys key placing, free := placing.free }

/-- Finds slots for new keys, one after the other. -/
def placeAll (slots : Slots) (keys : List Value) : Slots :=
  keys.foldl (fun slots key =>
    match slots.choose? (fun key => key ≠ .nil) key with
    | none => slots
    | some placing => slots.put key placing) slots

/-- Slots for some keys, as many as the least power of two that is enough for `count` keys. -/
def ofKeys (count : Nat) (keys : List Value) : Slots :=
  (ofCapacity (if count = 0 then 0 else count.nextPowerOfTwo)).placeAll keys

/-- Whether a key without a value has a slot. -/
def isStale (slots : Slots) (key : Value) : Bool := slots.stale && slots.keys.contains key

/-- The numbers of the slots of all keys. -/
def ranks (slots : Slots) : KeyMap Nat := KeyMap.empty.insertAll slots.keys.toList.zipIdx

end Slots

end ScriptHost.Script
