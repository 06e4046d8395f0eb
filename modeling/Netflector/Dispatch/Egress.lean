import Netflector.Dispatch.InterfaceTable
import Netflector.Net.Frame

/-!
# The egress path

Assembling a UDP datagram for an interface and injecting it, as IP fragments
past the MTU, each distinct datagram once for the packet being routed.  What
the capture answers to each frame is an argument; so is the digest, which the
standard library's hasher computes.
-/

namespace Netflector.Dispatch

open Netflector.Foundation
open Netflector.Net

/-! ## Datagrams -/

inductive DatagramError where
  | noSourceAddress
  | noSourceMac
  | unicastDestination
  | sourceFamilyMismatch
  | frame (error : FrameError)
  deriving DecidableEq

inductive DatagramSource where
  | egress (port : UInt16)
  | exact (addr : SocketAddr)
  deriving DecidableEq

def isMulticast : IpAddr → Bool
  | .v4 addr => addr.isMulticast
  | .v6 addr => addr.isMulticast

/-- Broadcast for the limited broadcast and the egress's own directed one, the
group MAC for multicast. -/
def ethernetDst (dst : IpAddr) (v4DirectedBroadcast : Option Ipv4Addr) :
    Except DatagramError MacAddr :=
  let broadcast :=
    match dst with
    | .v4 addr => addr.isBroadcast || some addr = v4DirectedBroadcast
    | .v6 _ => false
  if broadcast then .ok .broadcast
  else if isMulticast dst then .ok (.multicastFor dst)
  else .error .unicastDestination

def linkHeader (addrs : InterfaceAddresses) (link : LinkType)
    (dstMac : MacAddr) : Except DatagramError LinkHeader :=
  match link with
  | .ethernet =>
      match addrs.mac with
      | some src => .ok (.ethernet dstMac src)
      | none => .error .noSourceMac
  | .dltNull => .ok .dltNull
  | .rawIp => .ok .rawIp

def liftFrame {Value : Type} :
    Except (Stop FrameError) Value → Except (Stop DatagramError) Value
  | .ok value => .ok value
  | .error (.panic panic) => .error (.panic panic)
  | .error (.error error) => .error (.error (.frame error))

def sourceV4 (addrs : InterfaceAddresses) :
    DatagramSource → Except DatagramError SocketAddrV4
  | .egress port =>
      match addrs.v4 with
      | some ip => .ok ⟨ip, port⟩
      | none => .error .noSourceAddress
  | .exact ⟨.v4 ip, port⟩ => .ok ⟨ip, port⟩
  | .exact ⟨.v6 _, _⟩ => .error .sourceFamilyMismatch

def sourceV6 (addrs : InterfaceAddresses) (dst : Ipv6Addr) :
    DatagramSource → Except DatagramError SocketAddrV6
  | .egress port =>
      match addrs.v6 (.of dst) with
      | some ip => .ok ⟨ip, port⟩
      | none => .error .noSourceAddress
  | .exact ⟨.v6 ip, port⟩ => .ok ⟨ip, port⟩
  | .exact ⟨.v4 _, _⟩ => .error .sourceFamilyMismatch

def orFail {Error Value : Type} :
    Except Error Value → Except (Stop Error) Value
  | .ok value => .ok value
  | .error error => .error (.error error)

/-- An IPv4 datagram takes the low sixteen bits of `id`. -/
def buildUdp (addrs : InterfaceAddresses) (link : LinkType) (dst : SocketAddr)
    (dstMac : MacAddr) (source : DatagramSource) (ttl : UInt8) (id : UInt32)
    (payload : Bytes) (mtu : Nat) : Except (Stop DatagramError) UdpFrames :=
  match dst.ip with
  | .v4 ip => do
      let src ← orFail (sourceV4 addrs source)
      let link ← orFail (linkHeader addrs link dstMac)
      liftFrame (UdpFrames.ipv4 link src ⟨ip, dst.port⟩ ttl id.toUInt16
        payload mtu)
  | .v6 ip => do
      let src ← orFail (sourceV6 addrs ip source)
      let link ← orFail (linkHeader addrs link dstMac)
      liftFrame (UdpFrames.ipv6 link src ⟨ip, dst.port⟩ ttl id payload mtu)

/-! ## Sending -/

structure Datagram where
  dst : SocketAddr
  source : DatagramSource
  ttl : UInt8
  payload : Bytes
  deriving DecidableEq

inductive SendError where
  | datagram (error : DatagramError)
  | frame (error : FrameError)
  | notConnected
  | os (errno : Errno)
  deriving DecidableEq

/-- `packet` is the number of the packet being routed, from one on; `nextId`
the IP identification of the next datagram. -/
structure Egress where
  packet : Nat
  routing : Bool
  nextId : UInt32
  deriving DecidableEq

/-- What became of one datagram that a send was asked for: it equals one
already sent, its frames could not be planned, or `frames` were handed to the
capture, with the whole datagram out if `complete`. -/
inductive Fate where
  | suppressed
  | unplanned
  | transmitted (frames : List Bytes) (complete : Bool)
  deriving DecidableEq

structure Sending where
  egress : CaptureKey
  dstMac : MacAddr
  datagram : Datagram
  fate : Fate
  deriving DecidableEq

structure SendResult where
  egress : Egress
  table : InterfaceTable
  sendings : List Sending
  result : Except (Stop SendError) Unit

def fallbackMtu : Nat := 1280

def frameMtu (mtu : Option Nat) : Nat := min (mtu.getD fallbackMtu) maxMtu

namespace Egress

def new (seed : UInt32) : Egress := ⟨0, false, seed⟩

def beginPacket (egress : Egress) : Egress :=
  { egress with packet := egress.packet + 1, routing := true }

def endPacket (egress : Egress) : Egress := { egress with routing := false }

section Sends

variable (digest : MacAddr → Datagram → UInt64)

def alreadySent (egress : Egress) (table : InterfaceTable) (key : CaptureKey)
    (dstMac : MacAddr) (datagram : Datagram) : Bool :=
  egress.routing && table.wasSent key egress.packet (digest dstMac datagram)

/-- No frames: the egress is unknown or taken out for its drain. -/
def plan (egress : Egress) (table : InterfaceTable) (key : CaptureKey)
    (dstMac : MacAddr) (datagram : Datagram) :
    Egress × Except (Stop SendError) (Option UdpFrames) :=
  match table.egressAddrs key, table.capture key with
  | some addrs, some capture =>
      -- A capture whose interface is not bound can still be attached.
      match table.ifindexOf key with
      | none => (egress, .error (.error .notConnected))
      | some _ =>
          ({ egress with nextId := egress.nextId + 1 },
            match buildUdp addrs capture.linkType datagram.dst dstMac
                datagram.source datagram.ttl egress.nextId datagram.payload
                (frameMtu (table.mtuOf key)) with
            | .ok frames => .ok (some frames)
            | .error (.panic panic) => .error (.panic panic)
            | .error (.error error) => .error (.error (.datagram error)))
  | _, _ => (egress, .ok none)

/-- Hand a frame to the capture; a drained or unknown egress drops it. -/
def send (table : InterfaceTable) (key : CaptureKey) (frame : Bytes)
    (inject : Except Errno Unit) : List Bytes × Except (Stop SendError) Unit :=
  match table.capture key with
  | none => ([], .ok ())
  | some _ =>
      ([frame],
        match inject with
        | .ok () => .ok ()
        | .error errno => .error (.error (.os errno)))

/-- The frames from `index` on, `left` of them. -/
def transmitFrom (table : InterfaceTable) (key : CaptureKey)
    (frames : UdpFrames) (inject : Nat → Except Errno Unit) :
    Nat → Nat → List Bytes × Except (Stop SendError) Unit
  | 0, _ => ([], .ok ())
  | left + 1, index =>
      match frames.write index maxFrameLen with
      | .error (.panic panic) => ([], .error (.panic panic))
      | .error (.error error) => ([], .error (.error (.frame error)))
      | .ok frame =>
          match send table key frame (inject index) with
          | (handed, .error error) => (handed, .error error)
          | (handed, .ok ()) =>
              let (more, result) :=
                transmitFrom table key frames inject left (index + 1)
              (handed ++ more, result)

/-- Recorded only once every frame is out. -/
def transmit (egress : Egress) (table : InterfaceTable) (key : CaptureKey)
    (dstMac : MacAddr) (datagram : Datagram) (frames : UdpFrames)
    (inject : Nat → Except Errno Unit) :
    InterfaceTable × List Bytes × Except (Stop SendError) Unit :=
  match transmitFrom table key frames inject frames.count 0 with
  | (handed, .error error) => (table, handed, .error error)
  | (handed, .ok ()) =>
      (if egress.routing then
          table.recordSent key egress.packet (digest dstMac datagram)
        else table,
        handed, .ok ())

/-- `inject` answers the frames of the datagram by their index. -/
def sendUdp (inject : Nat → Except Errno Unit) (egress : Egress)
    (table : InterfaceTable) (key : CaptureKey) (dstMac : MacAddr)
    (datagram : Datagram) : SendResult :=
  if egress.alreadySent digest table key dstMac datagram then
    ⟨egress, table, [⟨key, dstMac, datagram, .suppressed⟩], .ok ()⟩
  else
    match egress.plan table key dstMac datagram with
    | (egress, .error error) =>
        ⟨egress, table, [⟨key, dstMac, datagram, .unplanned⟩], .error error⟩
    | (egress, .ok none) =>
        ⟨egress, table, [⟨key, dstMac, datagram, .unplanned⟩], .ok ()⟩
    | (egress, .ok (some frames)) =>
        let (table, handed, result) :=
          egress.transmit digest table key dstMac datagram frames inject
        ⟨egress, table,
          [⟨key, dstMac, datagram, .transmitted handed result.isOk⟩], result⟩

def sendUdpGroup (inject : Nat → Except Errno Unit) (egress : Egress)
    (table : InterfaceTable) (key : CaptureKey) (datagram : Datagram) :
    SendResult :=
  match ethernetDst datagram.dst.ip
      ((table.egressAddrs key).bind (·.v4DirectedBroadcast)) with
  | .error error => ⟨egress, table, [], .error (.error (.datagram error))⟩
  | .ok dstMac => egress.sendUdp digest inject table key dstMac datagram

/-- The peers of the destination's family in turn.  `inject` answers by the
peer's position and the frame's index. -/
def sendToEach (inject : Nat → Nat → Except Errno Unit) (key : CaptureKey)
    (datagram : Datagram) :
    Nat → List IpAddr → Bool → Option (Stop SendError) → Egress →
      InterfaceTable → SendResult
  | _, [], delivered, failure, egress, table =>
      ⟨egress, table, [],
        match failure with
        | some error => if delivered then .ok () else .error error
        | none => .ok ()⟩
  | position, peer :: peers, delivered, failure, egress, table =>
      let copy := { datagram with dst := ⟨peer, datagram.dst.port⟩ }
      if egress.alreadySent digest table key .broadcast copy then
        let rest := sendToEach inject key datagram (position + 1) peers true
          failure egress table
        { rest with
          sendings := ⟨key, .broadcast, copy, .suppressed⟩ :: rest.sendings }
      else
        match egress.plan table key .broadcast copy with
        | (egress, .error error) =>
            ⟨egress, table, [⟨key, .broadcast, copy, .unplanned⟩],
              .error error⟩
        | (egress, .ok none) =>
            ⟨egress, table, [⟨key, .broadcast, copy, .unplanned⟩], .ok ()⟩
        | (egress, .ok (some frames)) =>
            match egress.transmit digest table key .broadcast copy frames
                (inject position) with
            | (table, handed, .ok ()) =>
                let rest := sendToEach inject key datagram (position + 1)
                  peers true failure egress table
                { rest with
                  sendings := ⟨key, .broadcast, copy,
                    .transmitted handed true⟩ :: rest.sendings }
            | (table, handed, .error (.panic panic)) =>
                ⟨egress, table,
                  [⟨key, .broadcast, copy, .transmitted handed false⟩],
                  .error (.panic panic)⟩
            | (table, handed, .error (.error error)) =>
                let rest := sendToEach inject key datagram (position + 1)
                  peers delivered (some (.error error)) egress table
                { rest with
                  sendings := ⟨key, .broadcast, copy,
                    .transmitted handed false⟩ :: rest.sendings }

def sendUdpToPeers (inject : Nat → Nat → Except Errno Unit) (egress : Egress)
    (table : InterfaceTable) (key : CaptureKey) (peers : List IpAddr)
    (datagram : Datagram) : SendResult :=
  sendToEach digest inject key datagram 0
    (peers.filter fun peer => isIpv6 peer = isIpv6 datagram.dst.ip) false none
    egress table

end Sends

end Egress

end Netflector.Dispatch
