import Mathlib.Data.List.MinMax
import Netflector.Foundation.Metered
import Netflector.LinearMap
import Netflector.Net.Packet

/-!
# Reassembly

A few slots, each collecting one datagram's fragments into a reused buffer, and
apart from them a list of datagrams whose remaining fragments are dropped.
Every index is checked, so one out of range is a panic.
-/

namespace Netflector.Dispatch

open Netflector.Foundation
open Netflector.Net

def slots : Nat := 16
def discards : Nat := 64

/-- Two seconds; an instant counts nanoseconds. -/
def expiry : Nat := 2000000000

structure CaptureKey where
  index : UInt32
  deriving DecidableEq

structure DatagramKey where
  ingress : CaptureKey
  source : IpAddr
  dest : IpAddr
  id : UInt32
  deriving DecidableEq

inductive Loss where
  | tooLarge (stop : Nat)
  | inconsistent
  | malformed
  | expired
  | evicted
  deriving DecidableEq

structure Lost where
  ingress : CaptureKey
  source : IpAddr
  dest : IpAddr
  loss : Loss
  deriving DecidableEq

def Lost.new (key : DatagramKey) (loss : Loss) : Lost :=
  ⟨key.ingress, key.source, key.dest, loss⟩

def unitsUpTo (stop : Nat) : Nat := (stop + fragmentUnit - 1) / fragmentUnit

def blocks : Nat := unitsUpTo maxDatagramLen

/-- One datagram's bytes and which fragment units of them have arrived. -/
structure Buffer where
  bytes : Bytes
  received : List Bool
  bytes_length : bytes.length = maxDatagramLen
  received_length : received.length = blocks

def Buffer.new : Buffer where
  bytes := List.replicate maxDatagramLen 0
  received := List.replicate blocks false
  bytes_length := List.length_replicate
  received_length := List.length_replicate

/-- The bytes of an earlier datagram stay in the buffer. -/
def Buffer.reset (buf : Buffer) : Buffer :=
  { buf with
    received := buf.received.map fun _ => false
    received_length := by rw [List.length_map, buf.received_length] }

structure Reassembled where
  first : FragmentHeader
  buf : Buffer
  len : Nat

def Reassembled.packet (done : Reassembled) :
    Except (Stop ParseError) Packet := do
  let datagram ← bytesAt done.buf.bytes 0 done.len
  Packet.reassembled done.first datagram

/-! ## One slot -/

structure Collecting where
  buf : Buffer
  started : Nat
  len : Option Nat
  first : Option FragmentHeader

def Collecting.new (buf : Buffer) (started : Nat) : Collecting :=
  ⟨buf.reset, started, none, none⟩

def anyReceived (received : List Bool) (start stop : Nat) :
    Except Panic Bool :=
  if start ≤ stop ∧ stop ≤ received.length then
    .ok (((received.drop start).take (stop - start)).any id)
  else .error .outOfRange

def Collecting.endsElsewhere (collecting : Collecting) (more : Bool)
    (stop : Nat) : Except Panic Bool :=
  match collecting.len with
  | some len => .ok (if more then stop > len else stop ≠ len)
  | none =>
      if more then .ok false
      else
        anyReceived collecting.buf.received (unitsUpTo stop)
          collecting.buf.received.length

def Buffer.store (buf : Buffer) (offset : Nat) (data : Bytes) :
    Except Panic Buffer :=
  let stop := offset + data.length
  let first := offset / fragmentUnit
  let last := unitsUpTo stop
  if h : stop ≤ buf.bytes.length ∧ first ≤ last ∧
      last ≤ buf.received.length then
    .ok {
      bytes := overwrite buf.bytes offset data
      received := buf.received.take first ++
        List.replicate (last - first) true ++ buf.received.drop last
      bytes_length := by rw [overwrite_length h.1, buf.bytes_length]
      received_length := by
        rw [← buf.received_length]
        simp only [List.length_append, List.length_take, List.length_replicate,
          List.length_drop]
        omega }
  else .error .outOfRange

/-- `offset + data.len()`, which panics where it overflows.  A slice is never
longer than `isize::MAX`. -/
def Fragment.checkedStop (fragment : Fragment) : Except Panic Nat :=
  if fragment.header.offset +
      min fragment.data.length (Usize.maxLen .bits64) < Usize.top .bits64 then
    .ok (fragment.header.offset + fragment.data.length)
  else .error .overflow

def Collecting.add (collecting : Collecting) (fragment : Fragment) :
    Except (Stop Loss) Collecting := do
  let offset := fragment.header.offset
  let more := fragment.header.more
  let data := fragment.data
  let stop ← liftPanic (Fragment.checkedStop fragment)
  if (more ∧ data.length % fragmentUnit ≠ 0) ∨
      (offset = 0 ∧ fragment.headers.isNone) then fail .malformed
  else if stop > maxDatagramLen then fail (.tooLarge stop)
  else
    let elsewhere ← liftPanic (collecting.endsElsewhere more stop)
    if elsewhere then fail .inconsistent
    else
      let overlap ← liftPanic (anyReceived collecting.buf.received
        (offset / fragmentUnit) (unitsUpTo stop))
      if overlap then fail .inconsistent
      else
        let buf ← liftPanic (collecting.buf.store offset data)
        .ok { collecting with
          buf := buf
          len := if more then collecting.len else some stop
          first :=
            if offset = 0 then some fragment.header else collecting.first }

def Collecting.isComplete (collecting : Collecting) : Except Panic Bool :=
  match collecting.first, collecting.len with
  | some _, some len =>
      if unitsUpTo len ≤ collecting.buf.received.length then
        .ok ((collecting.buf.received.take (unitsUpTo len)).all id)
      else .error .outOfRange
  | _, _ => .ok false

def Collecting.finish (collecting : Collecting) :
    Except Panic (Option Reassembled) := do
  let complete ← collecting.isComplete
  if !complete then .ok none
  else
    match collecting.first, collecting.len with
    | some first, some len => .ok (some ⟨first, collecting.buf, len⟩)
    | _, _ => .ok none

/-! ## The reassembler -/

structure Reassembler where
  collecting : LinearMap DatagramKey Collecting
  discarding : LinearMap DatagramKey Nat
  spare : List Buffer
  lost : List Lost

namespace Reassembler

def new : Reassembler := ⟨.new, .new, [], []⟩

/-- At capacity the oldest entry is forgotten. -/
def discard (reassembler : Reassembler) (key : DatagramKey) (now : Nat) :
    Reassembler :=
  let discarding :=
    if discards ≤ reassembler.discarding.len then
      match reassembler.discarding.entries.argmin Prod.snd with
      | some oldest => (reassembler.discarding.remove oldest.1).1
      | none => reassembler.discarding
    else reassembler.discarding
  { reassembler with discarding := discarding.insert key now }

/-- The datagram's later fragments are discarded, not collected again. -/
def giveUp (reassembler : Reassembler) (key : DatagramKey) (loss : Loss)
    (now : Nat) : Reassembler :=
  match reassembler.collecting.remove key with
  | (collecting, some slot) =>
      { reassembler with
        collecting := collecting
        spare := slot.buf :: reassembler.spare
        lost := reassembler.lost ++ [Lost.new key loss] }.discard key now
  | (_, none) => reassembler.discard key now

def makeRoom (reassembler : Reassembler) (now : Nat) : Reassembler :=
  if slots ≤ reassembler.collecting.len then
    match reassembler.collecting.entries.argmin (·.2.started) with
    | some oldest => reassembler.giveUp oldest.1 .evicted now
    | none => reassembler
  else reassembler

def firstExpired (reassembler : Reassembler) (now : Nat) :
    Option DatagramKey :=
  (reassembler.collecting.entries.find? fun entry =>
    expiry ≤ now - entry.2.started).map Prod.fst

/-- The loop of `expire`: a round gives a slot up, so there are no more rounds
than slots taken. -/
def expireSlots : Nat → Reassembler → Nat → Reassembler
  | 0, reassembler, _ => reassembler
  | rounds + 1, reassembler, now =>
      match reassembler.firstExpired now with
      | some key => expireSlots rounds (reassembler.giveUp key .expired now) now
      | none => reassembler

def expire (reassembler : Reassembler) (now : Nat) : Reassembler :=
  let reassembler := { reassembler with
    discarding := reassembler.discarding.retain fun _ since =>
      now - since < expiry }
  expireSlots reassembler.collecting.len reassembler now

def openSlot (reassembler : Reassembler) (key : DatagramKey) (now : Nat) :
    Reassembler :=
  if (reassembler.collecting.get key).isNone then
    let reassembler := reassembler.makeRoom now
    let buf := reassembler.spare.headD Buffer.new
    { reassembler with
      spare := reassembler.spare.tail
      collecting :=
        reassembler.collecting.insert key (Collecting.new buf now) }
  else reassembler

/-- A first fragment that is not wanted drops the rest of its datagram. -/
def refuse (reassembler : Reassembler) (key : DatagramKey) (now : Nat) :
    Reassembler :=
  let reassembler :=
    match reassembler.collecting.remove key with
    | (collecting, some slot) =>
        { reassembler with
          collecting := collecting, spare := slot.buf :: reassembler.spare }
    | (_, none) => reassembler
  reassembler.discard key now

def keyOf (ingress : CaptureKey) (fragment : Fragment) : DatagramKey :=
  ⟨ingress, fragment.header.source, fragment.header.dest, fragment.header.id⟩

def collect (reassembler : Reassembler) (key : DatagramKey)
    (fragment : Fragment) (now : Nat) :
    Except Panic (Reassembler × Option Reassembled) :=
  match reassembler.collecting.get key with
  | none => .ok (reassembler, none)
  | some slot =>
      match slot.add fragment with
      | .error (.panic panic) => .error panic
      | .error (.error loss) => .ok (reassembler.giveUp key loss now, none)
      | .ok slot => do
          let reassembler := { reassembler with
            collecting := reassembler.collecting.insert key slot }
          let complete ← slot.isComplete
          if !complete then .ok (reassembler, none)
          else
            match reassembler.collecting.remove key with
            | (_, none) => .ok (reassembler, none)
            | (collecting, some slot) => do
                let done ← slot.finish
                .ok ({ reassembler with collecting := collecting }, done)

def offer (reassembler : Reassembler) (ingress : CaptureKey)
    (fragment : Fragment) (wanted : Bool) (now : Nat) :
    Except Panic (Reassembler × Option Reassembled) :=
  let reassembler := reassembler.expire now
  let key := keyOf ingress fragment
  if (reassembler.discarding.get key).isSome then .ok (reassembler, none)
  else if !wanted then .ok (reassembler.refuse key now, none)
  else (reassembler.openSlot key now).collect key fragment now

def recycle (reassembler : Reassembler) (done : Reassembled) : Reassembler :=
  { reassembler with spare := done.buf :: reassembler.spare }

def drainLost (reassembler : Reassembler) : Reassembler × List Lost :=
  ({ reassembler with lost := [] }, reassembler.lost)

end Reassembler

end Netflector.Dispatch
