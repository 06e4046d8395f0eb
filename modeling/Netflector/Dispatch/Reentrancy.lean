import Netflector.Dispatch.Counters
import Netflector.Dispatch.Daemon
import Netflector.Reactor.Generations

/-!
# Handlers that change the registrations

The dispatcher calls its handlers out of the arena they live in, and a handler
may register and unregister while it runs, itself included.
-/

namespace Netflector.Dispatch.Reentrant

open Netflector.Foundation
open Netflector.Net
open Netflector.Reactor
open Netflector.Reflector

/-! ## The loops over the handlers -/

/-- What the loops use of the state that the handlers change. -/
structure Host (Handler State : Type) where
  registrations : State → Arena (Registration Handler)
  put : State → Arena (Registration Handler) → State
  egressAddrs : State → CaptureKey → Option InterfaceAddresses
  beginPacket : State → State
  endPacket : State → State

/-- What stops a loop: the handler of a registration that just matched is
absent, or a handler panics. -/
inductive Crash where
  | missing
  | inside (panic : Panic)
  deriving DecidableEq

def Crash.panic : Crash → Panic
  | .missing => .expect
      "a registration that just matched is live with its handler present"
  | .inside panic => panic

/-- A key of the snapshot with the state it was reached in; no answer where the
handler was not called. -/
structure Visit (State Answer : Type) where
  key : Key
  reached : State
  answer : Option Answer

structure Turn (State Answer : Type) where
  state : State
  visits : List (Visit State Answer)

section Loops

variable {Handler State Answer : Type} (host : Host Handler State)

def takeHandler (state : State) (key : Key) : State × Option Handler :=
  match (host.registrations state).get key with
  | none => (state, none)
  | some registration =>
      (host.put state ((host.registrations state).set key
        { registration with
          handler := none }), registration.handler)

def restoreHandler (state : State) (key : Key) (handler : Handler) : State :=
  match (host.registrations state).get key with
  | none => state
  | some registration =>
      host.put state ((host.registrations state).set key
        { registration with
          handler := some handler })

def invoke
    (call : Key → Handler → State → Except Panic (Handler × State × Answer))
    (key : Key) (handler : Handler) (taken : State) :
    Except Crash (State × Option Answer) :=
  match call key handler taken with
  | .error panic => .error (.inside panic)
  | .ok (handler, state, answer) =>
      .ok (restoreHandler host state key handler, some answer)

def routeStep
    (call : Key → Handler → State → Except Panic (Handler × State × Answer))
    (ingress : CaptureKey) (packet : Packet)
    (addrs : Option InterfaceAddresses) (key : Key) (state : State) :
    Except Crash (State × Option Answer) :=
  if ((host.registrations state).get key).any
      fun registration => registration.applies ingress packet addrs then
    match takeHandler host state key with
    | (_, none) => .error .missing
    | (taken, some handler) => invoke host call key handler taken
  else .ok (state, none)

def callStep
    (call : Key → Handler → State → Except Panic (Handler × State × Answer))
    (key : Key) (state : State) : Except Crash (State × Option Answer) :=
  match takeHandler host state key with
  | (taken, none) => .ok (taken, none)
  | (taken, some handler) => invoke host call key handler taken

def pass (step : Key → State → Except Crash (State × Option Answer)) :
    List Key → State → Except Crash (Turn State Answer)
  | [], state => .ok ⟨state, []⟩
  | key :: keys, state =>
      match step key state with
      | .error crash => .error crash
      | .ok (next, answer) =>
          match pass step keys next with
          | .error crash => .error crash
          | .ok turn => .ok ⟨turn.state, ⟨key, state, answer⟩ :: turn.visits⟩

def snapshot (state : State) : List Key :=
  (host.registrations state).iter.map Prod.fst

def finalOutcome : Option Outcome → List Outcome → Option Outcome
  | final, [] => final
  | none, outcome :: rest => finalOutcome (some outcome) rest
  | some prev, outcome :: rest => finalOutcome (some (prev.combine outcome).1)
      rest

structure Routed (State : Type) where
  turn : Turn State Outcome
  recorded : List Outcome

def endRoute (turn : Turn State Outcome) : Routed State :=
  ⟨⟨host.endPacket turn.state, turn.visits⟩,
    (finalOutcome none (turn.visits.filterMap (·.answer))).toList⟩

def route
    (call : Packet → Key → Handler → State →
      Except Panic (Handler × State × Outcome))
    (ingress : CaptureKey) (packet : Packet) (state : State) :
    Except Crash (Routed State) :=
  let addrs := host.egressAddrs state ingress
  if isOwnEcho packet.srcMac (addrs.bind (·.mac)) then .ok ⟨⟨state, []⟩, []⟩
  else
    (pass (routeStep host (call packet) ingress packet addrs)
      (snapshot host state) (host.beginPacket state)).map (endRoute host)

def notifyIfaceChange
    (call : List CaptureKey → Key → Handler → State →
      Except Panic (Handler × State × Unit))
    (captures : List CaptureKey) (state : State) :
    Except Crash (Turn State Unit) :=
  if captures = [] then .ok ⟨state, []⟩
  else pass (callStep host (call captures)) (snapshot host state) state

def due (nextDeadline : Handler → Option Nat) (now : Nat) (state : State) :
    List Key :=
  ((host.registrations state).iter.filter fun item =>
    item.2.handler.any fun handler =>
      (nextDeadline handler).any (· ≤ now)).map Prod.fst

def sweepHandlers (nextDeadline : Handler → Option Nat)
    (call : Nat → Key → Handler → State →
      Except Panic (Handler × State × Unit))
    (now : Nat) (state : State) : Except Crash (Turn State Unit) :=
  pass (callStep host (call now)) (due host nextDeadline now state) state

end Loops

/-! ## The daemon's loops are these -/

def daemonHost : Host PacketHandler Daemon where
  registrations := fun daemon => daemon.dispatcher.registrations
  put := fun daemon registrations =>
    { daemon with
      dispatcher := { daemon.dispatcher with registrations := registrations } }
  egressAddrs := fun daemon => daemon.dispatcher.table.egressAddrs
  beginPacket := fun daemon =>
    { daemon with
      dispatcher := { daemon.dispatcher with
        egress := daemon.dispatcher.egress.beginPacket } }
  endPacket := fun daemon =>
    { daemon with
      dispatcher := { daemon.dispatcher with
        egress := daemon.dispatcher.egress.endPacket } }

@[simp]
theorem registrations_daemon (daemon : Daemon) :
    daemonHost.registrations daemon = daemon.dispatcher.registrations :=
  rfl

theorem takeHandler_daemon (daemon : Daemon) (key : Key) :
    takeHandler daemonHost daemon key =
      ({ daemon with
        dispatcher := (daemon.dispatcher.takeHandler key).1 },
        (daemon.dispatcher.takeHandler key).2) := by
  simp only [takeHandler, PacketDispatcher.takeHandler, daemonHost]
  cases daemon.dispatcher.registrations.get key with
  | none => rfl
  | some registration => rfl

theorem restoreHandler_daemon (daemon : Daemon) (key : Key)
    (handler : PacketHandler) :
    restoreHandler daemonHost daemon key handler =
      { daemon with
        dispatcher := daemon.dispatcher.restoreHandler key handler } := by
  simp only [restoreHandler, PacketDispatcher.restoreHandler, daemonHost]
  cases daemon.dispatcher.registrations.get key with
  | none => rfl
  | some registration => rfl

def left {State Answer : Type} (result : Except Crash (Turn State Answer)) :
    Except Panic State :=
  match result with
  | .error crash => .error crash.panic
  | .ok turn => .ok turn.state

theorem left_pass {State Answer : Type}
    (step : Key → State → Except Crash (State × Option Answer))
    (key : Key) (keys : List Key) (state : State) :
    left (pass step (key :: keys) state) =
      match step key state with
      | .error crash => .error crash.panic
      | .ok (next, _) => left (pass step keys next) := by
  rw [pass]
  cases step key state with
  | error crash => rfl
  | ok result =>
      obtain ⟨next, answer⟩ := result
      simp only
      cases pass step keys next with
      | error crash => rfl
      | ok turn => rfl

theorem routeEach_eq (digest : MacAddr → Datagram → UInt64)
    (calls : Key → PacketCalls) (ingress : CaptureKey) (packet : Packet)
    (addrs : Option InterfaceAddresses) (keys : List Key) (daemon : Daemon) :
    routeEach digest calls ingress packet addrs keys daemon =
      left (pass (routeStep daemonHost
        (fun key handler daemon =>
          onPacket digest (calls key) key handler packet daemon)
        ingress packet addrs) keys daemon) := by
  induction keys generalizing daemon with
  | nil => rfl
  | cons key keys ih =>
      rw [left_pass, routeEach, routeStep]
      cases happlies : (daemon.dispatcher.registrations.get key).any
        fun registration => registration.applies ingress packet addrs with
      | false =>
          simp only [registrations_daemon, happlies, Bool.false_eq_true,
            if_false]
          exact ih daemon
      | true =>
          simp only [if_true, routeTo, takeHandler_daemon,
            registrations_daemon, happlies]
          cases htaken : daemon.dispatcher.takeHandler key with
          | mk taken handler =>
              cases handler with
              | none => rfl
              | some handler =>
                  simp only [invoke]
                  cases onPacket digest (calls key) key handler packet
                    { daemon with dispatcher := taken } with
                  | error panic => rfl
                  | ok result =>
                      obtain ⟨handler', daemon', outcome⟩ := result
                      simp only [restoreHandler_daemon]
                      exact ih _

def dispatcherHost : Host PacketHandler PacketDispatcher where
  registrations := (·.registrations)
  put := fun dispatcher registrations =>
    { dispatcher with
      registrations := registrations }
  egressAddrs := fun dispatcher => dispatcher.table.egressAddrs
  beginPacket := fun dispatcher =>
    { dispatcher with
      egress := dispatcher.egress.beginPacket }
  endPacket := fun dispatcher =>
    { dispatcher with
      egress := dispatcher.egress.endPacket }

theorem takeHandler_dispatcher (dispatcher : PacketDispatcher) (key : Key) :
    takeHandler dispatcherHost dispatcher key = dispatcher.takeHandler key := by
  simp only [takeHandler, PacketDispatcher.takeHandler, dispatcherHost]
  cases dispatcher.registrations.get key with
  | none => rfl
  | some registration => rfl

theorem restoreHandler_dispatcher (dispatcher : PacketDispatcher) (key : Key)
    (handler : PacketHandler) :
    restoreHandler dispatcherHost dispatcher key handler =
      dispatcher.restoreHandler key handler := by
  simp only [restoreHandler, PacketDispatcher.restoreHandler, dispatcherHost]
  cases dispatcher.registrations.get key with
  | none => rfl
  | some registration => rfl

theorem callEach_eq
    (call : PacketHandler → PacketDispatcher →
      PacketHandler × PacketDispatcher)
    (keys : List Key) (dispatcher : PacketDispatcher) :
    left (pass (callStep dispatcherHost fun _ handler dispatcher =>
      .ok ((call handler dispatcher).1, (call handler dispatcher).2, ()))
      keys dispatcher) = .ok (callEach call keys dispatcher) := by
  induction keys generalizing dispatcher with
  | nil => rfl
  | cons key keys ih =>
      rw [left_pass, callEach, callStep, takeHandler_dispatcher]
      cases dispatcher.takeHandler key with
      | mk taken handler =>
          cases handler with
          | none => exact ih taken
          | some handler =>
              simp only [invoke, restoreHandler_dispatcher]
              exact ih _

/-! ## Handlers as scripts -/

/-- A handler; `name` tells it from every other. -/
structure Boxed (Object : Type) where
  name : Nat
  object : Object

/-- What a handler does in one call.  It reaches the registrations through
`register` and `unregister` alone; `Rest` is all else that it may read and
change, its sends among it. -/
inductive Script (Object Rest Answer : Type) where
  | done (object : Object) (answer : Answer)
  | fail (panic : Panic)
  | register (ingress : CaptureKey) (filter : Filter) (handler : Boxed Object)
      (next : Key → Script Object Rest Answer)
  | unregister (key : Key) (next : Script Object Rest Answer)
  | act (effect : Rest → Rest) (next : Rest → Script Object Rest Answer)

structure Owner where
  ingress : CaptureKey
  filter : Filter
  name : Option Nat

def ownerOf {Object : Type} (registration : Registration (Boxed Object)) :
    Owner :=
  ⟨registration.ingress, registration.filter, registration.handler.map (·.name)⟩

inductive Change where
  | made (key : Key) (owner : Owner)
  | gone (key : Key)

/-- The registrations with the changes made to them, the last one first; no
handler reads these. -/
structure Table (Object Rest : Type) where
  registrations : Arena (Registration (Boxed Object))
  rest : Rest
  log : List Change

namespace Table

variable {Object Rest : Type}

def register (table : Table Object Rest) (ingress : CaptureKey)
    (filter : Filter) (handler : Boxed Object) :
    Except Panic (Table Object Rest × Key) :=
  match table.registrations.insert ⟨ingress, filter, some handler⟩ with
  | .error panic => .error panic
  | .ok (registrations, key) =>
      .ok (⟨registrations, table.rest,
        .made key ⟨ingress, filter, some handler.name⟩ :: table.log⟩, key)

def unregister (table : Table Object Rest) (key : Key) : Table Object Rest :=
  match table.registrations.remove key with
  | (_, none) => table
  | (registrations, some _) =>
      ⟨registrations, table.rest, .gone key :: table.log⟩

end Table

def Script.run {Object Rest Answer : Type} (name : Nat) :
    Script Object Rest Answer → Table Object Rest →
      Except Panic (Boxed Object × Table Object Rest × Answer)
  | .done object answer, table => .ok (⟨name, object⟩, table, answer)
  | .fail panic, _ => .error panic
  | .register ingress filter handler next, table =>
      match table.register ingress filter handler with
      | .error panic => .error panic
      | .ok (table, key) => (next key).run name table
  | .unregister key next, table => next.run name (table.unregister key)
  | .act effect next, table =>
      (next (effect table.rest)).run name
        { table with
          rest := effect table.rest }

/-- The calls that the dispatcher makes on its handlers, and what it does to
`Rest` around them. -/
structure Handling (Object Rest : Type) where
  onPacket : Object → Packet → Script Object Rest Outcome
  nextDeadline : Object → Option Nat
  onDeadline : Object → Nat → Script Object Rest Unit
  onIfaceChange : Object → List CaptureKey → Script Object Rest Unit
  egressAddrs : Rest → CaptureKey → Option InterfaceAddresses
  beginPacket : Rest → Rest
  endPacket : Rest → Rest

namespace Handling

variable {Object Rest : Type} (handling : Handling Object Rest)

def host : Host (Boxed Object) (Table Object Rest) where
  registrations := (·.registrations)
  put := fun table registrations =>
    { table with
      registrations := registrations }
  egressAddrs := fun table => handling.egressAddrs table.rest
  beginPacket := fun table =>
    { table with
      rest := handling.beginPacket table.rest }
  endPacket := fun table =>
    { table with
      rest := handling.endPacket table.rest }

def route (ingress : CaptureKey) (packet : Packet)
    (table : Table Object Rest) : Except Crash (Routed (Table Object Rest)) :=
  Reentrant.route handling.host
    (fun packet _ handler =>
      (handling.onPacket handler.object packet).run handler.name)
    ingress packet table

def notifyIfaceChange (captures : List CaptureKey)
    (table : Table Object Rest) :
    Except Crash (Turn (Table Object Rest) Unit) :=
  Reentrant.notifyIfaceChange handling.host
    (fun captures _ handler =>
      (handling.onIfaceChange handler.object captures).run handler.name)
    captures table

def sweepHandlers (now : Nat) (table : Table Object Rest) :
    Except Crash (Turn (Table Object Rest) Unit) :=
  Reentrant.sweepHandlers handling.host
    (fun handler => handling.nextDeadline handler.object)
    (fun now _ handler =>
      (handling.onDeadline handler.object now).run handler.name)
    now table

end Handling

end Netflector.Dispatch.Reentrant
