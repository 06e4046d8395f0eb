import Netflector.Dispatch.Reassembly
import Netflector.LinearMap
import Netflector.Reactor.Registry

/-!
# The registry of DIAL proxies

One entry for each proxy that was minted.  The reactor owns the proxies: an
entry whose handler the reactor no longer knows is stale, and pruned on the
next lookup, capacity check or eviction.
-/

namespace Netflector.Dispatch

open Netflector.Net
open Netflector.Reactor

/-- The whole daemon's cap on minted proxies. -/
def maxDialProxies : Nat := 64

structure DialProxyKey where
  source : CaptureKey
  target : CaptureKey
  endpoint : SocketAddrV4
  deriving DecidableEq

structure DialEntry where
  handler : Key
  /-- The listener on the source's side that is put into `LOCATION`. -/
  descAddr : SocketAddrV4
  descGrace : Nat
  deriving DecidableEq

structure DialContext where
  proxies : LinearMap DialProxyKey DialEntry

namespace DialContext

variable {Handler : Type}

def new : DialContext := ⟨.new⟩

def isRegistered (reactor : Reactor Handler) (handler : Key) : Bool :=
  reactor.handlers.contains handler

/-- The live proxy's listener, its grace refreshed; a stale entry is pruned and
reads as absent. -/
def lookup (context : DialContext) (key : DialProxyKey)
    (reactor : Reactor Handler) (descGrace : Nat) :
    DialContext × Option SocketAddrV4 :=
  match (context.proxies.get key).filter
      fun entry => isRegistered reactor entry.handler with
  | some entry =>
      (⟨context.proxies.insert key { entry with descGrace := descGrace }⟩,
        some entry.descAddr)
  | none => (⟨(context.proxies.remove key).1⟩, none)

def hasCapacity (context : DialContext) (reactor : Reactor Handler) :
    DialContext × Bool :=
  let proxies := context.proxies.retain fun _ entry =>
    isRegistered reactor entry.handler
  (⟨proxies⟩, proxies.len < maxDialProxies)

def insert (context : DialContext) (key : DialProxyKey) (handler : Key)
    (descAddr : SocketAddrV4) (descGrace : Nat) : DialContext :=
  ⟨context.proxies.insert key ⟨handler, descAddr, descGrace⟩⟩

def nextGrace (context : DialContext) : Option Nat :=
  (context.proxies.entries.map (·.2.descGrace)).min?

/-- The loop of an eviction over the entries: those `evict` picks are
unregistered and dropped, even where the teardown reports an error, and the
others kept while the reactor knows them.  `poll` answers the removals. -/
def evictEach (poll : Reactor.Poll)
    (evict : DialProxyKey → DialEntry → Bool) :
    List (DialProxyKey × DialEntry) → Reactor Handler →
      Reactor Handler × List DialProxyKey
  | [], reactor => (reactor, [])
  | (key, entry) :: entries, reactor =>
      if evict key entry then
        evictEach poll evict entries (reactor.unregister entry.handler poll).1
      else
        let (after, kept) := evictEach poll evict entries reactor
        (after,
          if isRegistered reactor entry.handler then key :: kept else kept)

def evictWhere (context : DialContext) (reactor : Reactor Handler)
    (poll : Reactor.Poll) (evict : DialProxyKey → DialEntry → Bool) :
    DialContext × Reactor Handler :=
  let (reactor, kept) :=
    evictEach poll evict context.proxies.entries reactor
  (⟨context.proxies.retain fun key _ => kept.contains key⟩, reactor)

def sweep (context : DialContext) (now : Nat) (reactor : Reactor Handler)
    (poll : Reactor.Poll) : DialContext × Reactor Handler :=
  context.evictWhere reactor poll fun _ entry => entry.descGrace ≤ now

/-- An address move or recreation on a proxy's source or target strands its
listeners or its connections. -/
def evictOnInterfaceChange (context : DialContext)
    (reactor : Reactor Handler) (poll : Reactor.Poll)
    (changed : List CaptureKey) :
    DialContext × Reactor Handler :=
  context.evictWhere reactor poll fun key _ =>
    changed.contains key.source || changed.contains key.target

end DialContext

end Netflector.Dispatch
