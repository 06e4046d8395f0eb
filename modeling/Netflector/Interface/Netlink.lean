import Netflector.Dispatch.Lifecycle
import Netflector.Foundation.Metered
import Netflector.Foundation.Records

/-!
# Walking netlink and routing-socket buffers

The messages of one datagram from the kernel, and the attributes of one
message.  Lengths come from the buffer, so each walk checks them before it
slices; what it leaves unchecked is a panic here, and so is an alignment
that comes out negative.
-/

namespace Netflector.Interface

open Netflector.Foundation
open Netflector.Dispatch

/-- The platform a walker is built for: its address width, its byte order,
and what `libc::NLMSG_ALIGN` makes of a length. -/
structure Target where
  usize : Usize
  endian : Endian
  nlmsgAlign : Nat → Int

variable (target : Target)

def readAt (buf : Bytes) (offset size : Nat) : Option Bytes :=
  match target.usize.add offset size with
  | none => none
  | some stop => slice? buf offset stop

/-- `usize::try_from(NLMSG_ALIGN(len)).expect(..)`. -/
def nlAlign (len : Nat) : Option Nat :=
  if 0 ≤ target.nlmsgAlign len then some (target.nlmsgAlign len).toNat
  else none

/-! ## Attributes -/

/-- `size_of::<rtattr>()`: a 16-bit length and a 16-bit type. -/
def rtattrLen : Nat := 4

structure Attribute where
  kind : Nat
  data : Bytes
  deriving DecidableEq

def rtattrsNext (msg : Bytes) (offset : Nat) :
    Option (Round Unit Attribute) :=
  match readAt target msg offset rtattrLen with
  | none => some (.stop ())
  | some rta =>
      let rtaLen := target.endian.read16 rta 0
      if rtaLen < rtattrLen then some (.stop ())
      else do
        let stop ← target.usize.add offset rtaLen
        if stop > msg.length then some (.stop ())
        else do
          let start ← target.usize.add offset rtattrLen
          let data ← slice? msg start stop
          let step ← nlAlign target rtaLen
          let next ← target.usize.add offset step
          some (.go [⟨target.endian.read16 rta 2, data⟩] next)

def rtattrs (msg : Bytes) (offset : Nat) : Option (Run Unit Attribute) :=
  walk (rtattrsNext target msg) (msg.length + 1) offset

/-! ## Dumps -/

/-- `size_of::<nlmsghdr>()`: a 32-bit length and a 16-bit type, then flags,
sequence number and sender. -/
def nlmsghdrLen : Nat := 16

def nlmsgError : Nat := 2
def nlmsgDone : Nat := 3

/-- What one datagram of a dump comes to; a failure carries its errno, if it
has one. -/
inductive DumpStep where
  | done
  | failed (errno : Option Int)
  | more
  deriving DecidableEq, Repr

/-- A 32-bit field read as a C `int`. -/
def cInt (value : Nat) : Int :=
  if value < 2147483648 then value else (value : Int) - 4294967296

def saturatingNeg (value : Int) : Int := min (-value) 2147483647

def nlmsgErrorAt (buf : Bytes) (offset : Nat) : Option DumpStep := do
  let header ← nlAlign target nlmsghdrLen
  let body ← target.usize.add offset header
  match readAt target buf body 4 with
  | none => some (.failed none)
  | some field =>
      let errno := cInt (target.endian.read32 field 0)
      some (.failed (if errno = 0 then none else some (saturatingNeg errno)))

def misfits (buf : Bytes) (offset len : Nat) : Bool :=
  len < nlmsghdrLen ||
    match target.usize.add offset len with
    | none => true
    | some stop => decide (stop > buf.length)

def messageAt (buf : Bytes) (offset len : Nat) : Option Bytes := do
  let stop ← target.usize.add offset len
  slice? buf offset stop

def fed (buf : Bytes) (replyType kind offset len : Nat) :
    Option (List Bytes) :=
  if kind = replyType then (messageAt target buf offset len).map (fun m => [m])
  else some []

/-- One round of `walk_dump`; what goes to `on_msg` is handed out. -/
def dumpRound (replyType : Nat) (buf : Bytes) (offset : Nat) :
    Option (Round DumpStep Bytes) :=
  match readAt target buf offset nlmsghdrLen with
  | none => some (.stop .more)
  | some hdr =>
      let len := target.endian.read32 hdr 0
      let kind := target.endian.read16 hdr 4
      if misfits target buf offset len then some (.stop .more)
      else if kind = nlmsgDone then some (.stop .done)
      else if kind = nlmsgError then
        (nlmsgErrorAt target buf offset).map .stop
      else do
        let items ← fed target buf replyType kind offset len
        let step ← nlAlign target len
        let next ← target.usize.add offset step
        some (.go items next)

def walkDump (replyType : Nat) (buf : Bytes) :
    Option (Run DumpStep Bytes) :=
  walk (dumpRound target replyType buf) (buf.length + 1) 0

/-! ## Changes, over netlink -/

def rtmNewlink : Nat := 16
def rtmDellink : Nat := 17
def rtmNewaddr : Nat := 20
def rtmDeladdr : Nat := 21

def ifaddrmsgLen : Nat := 8
def ifinfomsgLen : Nat := 16

def bodyIndexAt : Nat := 4

/-- `report`: an index of zero is dropped. -/
def report (index : Nat) (event : Nat → InterfaceEvent) :
    List InterfaceEvent :=
  if index = 0 then [] else [event index]

/-- `u32::try_from(ifi_index).unwrap_or(0)`. -/
def linkIndex (value : Nat) : Nat := (cInt value).toNat

def changed (buf : Bytes) (kind body stop : Nat) :
    Option (List InterfaceEvent) :=
  if kind = rtmNewaddr ∨ kind = rtmDeladdr then do
    let message ← slice? buf 0 stop
    match readAt target message body ifaddrmsgLen with
    | none => some []
    | some fields =>
        some (report (target.endian.read32 fields bodyIndexAt) .address)
  else if kind = rtmNewlink ∨ kind = rtmDellink then do
    let message ← slice? buf 0 stop
    match readAt target message body ifinfomsgLen with
    | none => some []
    | some fields =>
        some (report (linkIndex (target.endian.read32 fields bodyIndexAt))
          .link)
  else some []

def changeRound (buf : Bytes) (offset : Nat) :
    Option (Round Unit InterfaceEvent) :=
  match readAt target buf offset nlmsghdrLen with
  | none => some (.stop ())
  | some hdr =>
      let len := target.endian.read32 hdr 0
      if misfits target buf offset len then some (.stop ())
      else do
        let header ← nlAlign target nlmsghdrLen
        let body ← target.usize.add offset header
        let stop ← target.usize.add offset len
        let events ← changed target buf (target.endian.read16 hdr 4) body stop
        let step ← nlAlign target len
        let next ← target.usize.add offset step
        some (.go events next)

def forEachChange (buf : Bytes) : Option (Run Unit InterfaceEvent) :=
  walk (changeRound target buf) (buf.length + 1) 0

/-! ## Changes, over a routing socket -/

inductive RouteOs where
  | macos
  | freebsd
  deriving DecidableEq, Repr

def routeHeaderLen : Nat := 4

def routeNewaddr : Nat := 12
def routeDeladdr : Nat := 13
def routeIfinfo : Nat := 14
def routeIfannounce : Nat := 17

def indexOffset : Nat := 12
def announceIndexOffset : Nat := 4

def routeHit (os : RouteOs) (kind : Nat) :
    Option (Nat × (Nat → InterfaceEvent)) :=
  if kind = routeNewaddr ∨ kind = routeDeladdr ∨ kind = routeIfinfo then
    some (indexOffset, .address)
  else if os = .freebsd ∧ kind = routeIfannounce then
    some (announceIndexOffset, .link)
  else none

def nativeAt (buf : Bytes) (offset : Nat) : Option Nat := do
  let first ← buf[offset]?
  let after ← target.usize.add offset 1
  let second ← buf[after]?
  some (target.endian.nat16 first second)

def routeChanged (os : RouteOs) (buf : Bytes) (kind offset msglen : Nat) :
    Option (List InterfaceEvent) :=
  match routeHit os kind with
  | none => some []
  | some (place, event) => do
      let room ← target.usize.add place 2
      if msglen < room then some []
      else do
        let field ← target.usize.add offset place
        let index ← nativeAt target buf field
        some (report index event)

def routeRound (os : RouteOs) (buf : Bytes) (offset : Nat) :
    Option (Round Unit InterfaceEvent) := do
  let header ← target.usize.add offset routeHeaderLen
  if buf.length < header then some (.stop ())
  else do
    let msglen ← nativeAt target buf offset
    let third ← target.usize.add offset 3
    let kind ← buf[third]?
    if msglen < routeHeaderLen then some (.stop ())
    else do
      let stop ← target.usize.add offset msglen
      if stop > buf.length then some (.stop ())
      else do
        let events ← routeChanged target os buf kind.toNat offset msglen
        let next ← target.usize.add offset msglen
        some (.go events next)

def forEachRouteChange (os : RouteOs) (buf : Bytes) :
    Option (Run Unit InterfaceEvent) :=
  walk (routeRound target os buf) (buf.length + 1) 0

end Netflector.Interface
