import Netflector.Foundation.Result
import Mathlib.Data.List.Basic

/-!
# The generational arena

Removing a value bumps its slot's generation, so that a key to the old occupant
resolves to nothing instead of aliasing the next one.
-/

namespace Netflector.Reactor

open Netflector.Foundation

/-- A handle into an arena; stale once its value is removed. -/
structure Key where
  index : UInt32
  generation : UInt32
  deriving DecidableEq, Repr

def Key.toU64 (key : Key) : UInt64 :=
  (key.index.toUInt64 <<< 32) ||| key.generation.toUInt64

def Key.fromU64 (packed : UInt64) : Key :=
  ⟨(packed >>> 32).toUInt32, packed.toUInt32⟩

structure Slot (Value : Type) where
  generation : UInt32
  value : Option Value

/-- A slot value whose handler is taken out for the duration of a call. -/
structure HandlerSlot (Value Handler : Type) where
  slot : Value → Option Handler
  slotMut : Value → Option Handler → Value

structure Arena (Value : Type) where
  slots : List (Slot Value)
  free : List UInt32

namespace Arena

variable {Value : Type}

def new : Arena Value := ⟨[], []⟩

/-- Store the value that `make` builds from the key it will get.  The last
freed index is the first to be reused. -/
def insertFrom (arena : Arena Value) (make : Key → Value) :
    Except Panic (Arena Value × Key) :=
  match arena.free with
  | index :: free =>
      match arena.slots[index.toNat]? with
      | none => .error .outOfRange
      | some slot =>
          let key : Key := ⟨index, slot.generation⟩
          .ok (⟨arena.slots.set index.toNat
            { slot with value := some (make key) }, free⟩, key)
  | [] =>
      if arena.slots.length < 0x100000000 then
        let key : Key := ⟨UInt32.ofNat arena.slots.length, 0⟩
        .ok (⟨arena.slots ++ [⟨0, some (make key)⟩], []⟩, key)
      else .error (.expect "arena index space exhausted")

def insert (arena : Arena Value) (value : Value) :
    Except Panic (Arena Value × Key) :=
  arena.insertFrom fun _ => value

def slot (arena : Arena Value) (key : Key) : Option (Slot Value) :=
  arena.slots[key.index.toNat]?.filter (·.generation = key.generation)

def get (arena : Arena Value) (key : Key) : Option Value :=
  (arena.slot key).bind (·.value)

def contains (arena : Arena Value) (key : Key) : Bool := (arena.get key).isSome

def set (arena : Arena Value) (key : Key) (value : Value) : Arena Value :=
  match arena.get key with
  | none => arena
  | some _ =>
      { arena with slots :=
          arena.slots.set key.index.toNat ⟨key.generation, some value⟩ }

def remove (arena : Arena Value) (key : Key) : Arena Value × Option Value :=
  match arena.get key with
  | none => (arena, none)
  | some value =>
      (⟨arena.slots.set key.index.toNat ⟨key.generation + 1, none⟩,
        key.index :: arena.free⟩, some value)

def iter (arena : Arena Value) : List (Key × Value) :=
  arena.slots.zipIdx.filterMap fun (slot, index) =>
    slot.value.map fun value => (⟨UInt32.ofNat index, slot.generation⟩, value)

def getMut (arena : Arena Value) (key : Key) (change : Value → Value) :
    Arena Value × Option Value :=
  match arena.get key with
  | none => (arena, none)
  | some value => (arena.set key (change value), some value)

variable {Handler : Type}

def takeHandler (field : HandlerSlot Value Handler) (arena : Arena Value)
    (key : Key) : Arena Value × Option Handler :=
  let (arena, value) := arena.getMut key fun value => field.slotMut value none
  (arena, value.bind field.slot)

def restoreHandler (field : HandlerSlot Value Handler) (arena : Arena Value)
    (key : Key) (handler : Handler) : Arena Value :=
  (arena.getMut key fun value => field.slotMut value (some handler)).1

def handlers (field : HandlerSlot Value Handler) (arena : Arena Value) :
    List (Key × Handler) :=
  arena.iter.filterMap fun (key, value) =>
    (field.slot value).map fun handler => (key, handler)

end Arena

end Netflector.Reactor
