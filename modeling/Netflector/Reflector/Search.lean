import Netflector.Reflector.Simple

/-!
# The search reflector

A search goes out on the target from a reserved port, and a registration routes
each unicast reply to it back to its searcher.  Registrations are no guards: a
session that ends is unregistered by hand.
-/

namespace Netflector.Reflector

open Netflector.Foundation
open Netflector.Net
open Netflector.Reactor
open Netflector.Dispatch

namespace SearchReflector

/-- What routes the replies to a reserved port back to the searcher. -/
def responseLeg (reflector : SearchReflector) (packet : Packet) :
    SimpleReflector where
  egress := reflector.source
  delivery := .unicast packet.source (packet.srcMac.getD .broadcast)
  classify := fun _ => .reflect reflector.protocol.responseType
  emit := .reply reflector.protocol.ttl
  rewrite := reflector.makeReply
  suppress := reflector.protocol.suppress

def responseFilter (reflector : SearchReflector) (reservation : SocketAddr) :
    Filter :=
  { Filter.any with
    dstIp := some [reservation.ip]
    dstPort := some [reservation.port]
    srcMac := reflector.deviceMacs }

/-- Reserve a port on the target's address of the scope the search reaches at
`destination`, and register the reply capture there.  `own` is the reflector's
own registration. -/
def makeSession (calls : PacketCalls) (own : Key)
    (reflector : SearchReflector) (packet : Packet) (destination : IpAddr)
    (dispatcher : PacketDispatcher) (expiry : Nat) (type : MessageType) :
    Except Panic (PacketDispatcher × Except Outcome Session) :=
  if maxSessions ≤ reflector.sessions.len then
    .ok (dispatcher, .error (.dropped type))
  else
    match dispatcher.replySource reflector.target destination with
    | none => .ok (dispatcher, .error (.stalled type))
    | some ourAddr =>
        match calls.reserve with
        | .error _ => .ok (dispatcher, .error (.dropped type))
        | .ok port => do
            let reservation : SocketAddr := ⟨ourAddr, port⟩
            let boundTo := dispatcher.table.ifindexOf reflector.target
            let (dispatcher, responseKey) ← dispatcher.register
              reflector.target (reflector.responseFilter reservation)
              ⟨.simple (reflector.responseLeg packet), some own⟩
            .ok (dispatcher,
              .ok ⟨expiry, reservation, responseKey, boundTo⟩)

def reflectFrom (digest : MacAddr → Datagram → UInt64) (calls : PacketCalls)
    (reflector : SearchReflector) (packet : Packet) (session : Session)
    (dispatcher : PacketDispatcher) :
    Except Panic (PacketDispatcher × Except SendError Unit) :=
  reflector.delivery.send digest calls.inject dispatcher reflector.target
    packet.dest (.exact session.reservation) reflector.protocol.ttl
    packet.payload

/-- A retransmit extends its session, never shortens it. -/
def reuse (digest : MacAddr → Datagram → UInt64) (calls : PacketCalls)
    (reflector : SearchReflector) (packet : Packet) (key : SessionKey)
    (session : Session) (expiry : Nat) (type : MessageType)
    (dispatcher : PacketDispatcher) :
    Except Panic (SearchReflector × PacketDispatcher × Outcome) := do
  let (dispatcher, sent) ←
    reflector.reflectFrom digest calls packet session dispatcher
  match sent with
  | .ok () =>
      .ok ({ reflector with
          sessions := reflector.sessions.insert key
            { session with expiry := max session.expiry expiry } },
        dispatcher, .reflected type)
  | .error _ => .ok (reflector, dispatcher, .dropped type)

/-- A new session is rolled back where its first send fails. -/
def «open» (digest : MacAddr → Datagram → UInt64) (calls : PacketCalls)
    (own : Key) (reflector : SearchReflector) (packet : Packet)
    (destination : IpAddr) (key : SessionKey) (expiry : Nat)
    (type : MessageType) (dispatcher : PacketDispatcher) :
    Except Panic (SearchReflector × PacketDispatcher × Outcome) := do
  let (dispatcher, made) ← reflector.makeSession calls own packet destination
    dispatcher expiry type
  match made with
  | .error outcome => .ok (reflector, dispatcher, outcome)
  | .ok session => do
      let (dispatcher, sent) ←
        reflector.reflectFrom digest calls packet session dispatcher
      match sent with
      | .ok () =>
          .ok ({ reflector with
              sessions := reflector.sessions.insert key session },
            dispatcher, .reflected type)
      | .error _ =>
          .ok (reflector, dispatcher.unregister session.responseKey,
            .dropped type)

def onPacket (digest : MacAddr → Datagram → UInt64) (calls : PacketCalls)
    (own : Key) (reflector : SearchReflector) (packet : Packet)
    (dispatcher : PacketDispatcher) :
    Except Panic (SearchReflector × PacketDispatcher × Outcome) :=
  match reflector.protocol.searchVerdict packet.payload with
  | .skip type => .ok (reflector, dispatcher, .skipped type)
  | .excluded => .ok (reflector, dispatcher, .filtered)
  | .junk => .ok (reflector, dispatcher, .filtered)
  | .reflect type =>
      match reflector.delivery.destination packet.dest.ip with
      | none => .ok (reflector, dispatcher, .filtered)
      | some destination =>
          let expiry := calls.now + reflector.protocol.window packet.payload
          let key : SessionKey := ⟨packet.source, packet.dest⟩
          match reflector.sessions.get key with
          | some session =>
              reflector.reuse digest calls packet key session expiry type
                dispatcher
          | none =>
              reflector.open digest calls own packet destination key expiry
                type dispatcher

def unregisterAll (sessions : List (SessionKey × Session))
    (dispatcher : PacketDispatcher) : PacketDispatcher :=
  sessions.foldl (fun dispatcher entry =>
    dispatcher.unregister entry.2.responseKey) dispatcher

def onDeadline (reflector : SearchReflector) (now : Nat)
    (dispatcher : PacketDispatcher) : SearchReflector × PacketDispatcher :=
  ({ reflector with
      sessions := reflector.sessions.retain fun _ session =>
        !decide (session.expiry ≤ now) },
    unregisterAll (reflector.sessions.entries.filter fun entry =>
      decide (entry.2.expiry ≤ now)) dispatcher)

/-- A change of the target stales every session; the source is resolved at each
send. -/
def onIfaceChange (reflector : SearchReflector) (captures : List CaptureKey)
    (dispatcher : PacketDispatcher) : SearchReflector × PacketDispatcher :=
  if reflector.sessions.len = 0 ∨ captures.contains reflector.target = false
  then (reflector, dispatcher)
  else
    ({ reflector with sessions := .new },
      unregisterAll reflector.sessions.entries dispatcher)

end SearchReflector

end Netflector.Reflector
