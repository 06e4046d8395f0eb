import Netflector.Dispatch.DialContext
import Netflector.Net.Http.Framing
import Netflector.Net.Ssdp.Dial
import Netflector.Reflector.Dial.Proxy

/-!
# Minting DIAL proxies

A DIAL message's `LOCATION` is rewritten to a listener on the source's side; a
proxy is minted if none is live for the device, and its grace refreshed either
way.
-/

namespace Netflector.Reflector.Dial

open Netflector.Foundation
open Netflector.Net
open Netflector.Net.Http
open Netflector.Net.Ssdp
open Netflector.Reactor
open Netflector.Dispatch

/-- The grace without a `max-age`: thirty minutes. -/
def defaultDescGrace : Nat := 30 * 60 * second

/-- How long one advertisement can pin a proxy: two hours. -/
def maxDescGrace : Nat := 2 * 60 * 60 * second

structure ProxyPlacement where
  sourceCapture : CaptureKey
  source : Ipv4Addr
  targetCapture : CaptureKey
  target : Ipv4Addr
  targetIface : Option InterfaceName

/-- What the calls of a mint answer: this host's addresses, a descriptor and an
ephemeral port for each listener, and the poller's answers. -/
structure MintCalls where
  hostV4Addrs : Except Errno (List Ipv4Addr)
  desc : Except Errno (Nat × UInt16)
  rest : Except Errno (Nat × UInt16)
  poll : Reactor.Poll
  removed : Reactor.Poll

def listen (addr : Ipv4Addr) (answer : Except Errno (Nat × UInt16)) :
    Option ListenSocket :=
  match answer with
  | .ok (fd, port) => some ⟨fd, ⟨addr, port⟩⟩
  | .error _ => none

/-- The listener's address; none at the cap, for a device on this host, or
where listening or registering fails. -/
def mintProxy (calls : MintCalls) (context : DialContext)
    (reactor : Reactor Service) (placement : ProxyPlacement)
    (key : DialProxyKey) (descGrace : Nat) :
    Except Panic (DialContext × Reactor Service × Option SocketAddrV4) :=
  match context.hasCapacity reactor with
  | (context, false) => .ok (context, reactor, none)
  | (context, true) =>
      if namesThisHost calls.hostV4Addrs key.endpoint then
        .ok (context, reactor, none)
      else
        match listen placement.source calls.desc,
            listen placement.source calls.rest with
        | some desc, some rest => do
            let proxy := DialDeviceProxy.new placement.target
              placement.targetIface desc key.endpoint rest
            let (reactor, registered) ← reactor.registerWithFds
              Service.adoptKey (.dialDevice proxy)
              [(desc.fd, 0), (rest.fd, 0)] calls.poll calls.removed
            match registered with
            | .error _ => .ok (context, reactor, none)
            | .ok handler =>
                .ok (context.insert key handler desc.localAddr descGrace,
                  reactor, some desc.localAddr)
        | _, _ => .ok (context, reactor, none)

def descGraceAt (now : Nat) (payload : Bytes) : Nat :=
  now +
    match parseCacheControlMaxAge payload with
    | none => defaultDescGrace
    | some seconds => min (seconds * second) maxDescGrace

/-- The rewritten message, or none where the payload is forwarded
unchanged. -/
def rewriteLocation (calls : MintCalls) (now : Nat) (context : DialContext)
    (reactor : Reactor Service) (payload : Bytes)
    (placement : ProxyPlacement) :
    Except Panic (DialContext × Reactor Service × Option Bytes) :=
  if isDialServiceMessage payload = false then .ok (context, reactor, none)
  else
    match parseDialLocationAuthority payload with
    | none => .ok (context, reactor, none)
    | some location =>
        if isNeverAPeer (.v4 location.endpoint.ip) then
          .ok (context, reactor, none)
        else do
          let descGrace := descGraceAt now payload
          let key : DialProxyKey := ⟨placement.sourceCapture,
            placement.targetCapture, location.endpoint⟩
          let (context, reactor, descAddr) ←
            match context.lookup key reactor descGrace with
            | (context, some addr) => .ok (context, reactor, some addr)
            | (context, none) =>
                mintProxy calls context reactor placement key descGrace
          match descAddr with
          | none => .ok (context, reactor, none)
          | some addr =>
              let rewritten := payload.take location.offset ++
                authorityText addr ++
                payload.drop (location.offset + location.len)
              -- The sink takes one frame at most, and fails past it.
              .ok (context, reactor,
                if rewritten.length ≤ maxFrameLen then some rewritten
                else none)

end Netflector.Reflector.Dial
