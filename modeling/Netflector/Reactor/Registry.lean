import Netflector.Reactor.Arena

/-!
# The reactor's registry

Handlers and the file descriptors they watch.  A handler is taken out of its
slot while it is called, and may change the registry meanwhile.
-/

set_option linter.dupNamespace false

namespace Netflector.Reactor

open Netflector.Foundation

abbrev RawFd := Int

inductive IoError where
  | notFound (message : String)
  | alreadyExists (message : String)
  | os (code : Nat)
  deriving DecidableEq, Repr

/-- How the kernel fails to add, change or remove its interest in a descriptor;
`none` where it succeeds. -/
abbrev Poll := RawFd → Option IoError

structure Readiness where
  readable : Bool
  writable : Bool
  deriving DecidableEq, Repr

structure ReadyEvent where
  fd : RawFd
  userData : UInt64
  deriving DecidableEq, Repr

/-- The handler is absent only while it is out for a call. -/
structure HandlerEntry (Handler : Type) where
  handler : Option Handler
  regs : List Key

structure Registration where
  fd : RawFd
  handlerKey : Key
  readInterest : Bool
  writeInterest : Bool
  userData : UInt64
  deriving DecidableEq

structure Reactor (Handler : Type) where
  handlers : Arena (HandlerEntry Handler)
  registrations : Arena Registration
  /-- The keys removed so far.  Nothing reads them; they count the reuses of the
  slots. -/
  retiredHandlers : List Key
  retiredRegs : List Key

namespace Reactor

variable {Handler : Type}

def new : Reactor Handler := ⟨.new, .new, [], []⟩

def removeHandler (reactor : Reactor Handler) (key : Key) :
    Reactor Handler × Option (HandlerEntry Handler) :=
  match reactor.handlers.remove key with
  | (handlers, some entry) =>
      ({ reactor with
        handlers := handlers
        retiredHandlers := key :: reactor.retiredHandlers }, some entry)
  | (_, none) => (reactor, none)

def removeRegistration (reactor : Reactor Handler) (key : Key) :
    Reactor Handler × Option Registration :=
  match reactor.registrations.remove key with
  | (registrations, some registration) =>
      ({ reactor with
        registrations := registrations
        retiredRegs := key :: reactor.retiredRegs }, some registration)
  | (_, none) => (reactor, none)

/-! ## What handlers and the outside call -/

/-- `adoptKey` hands the handler its own key. -/
def register (adoptKey : Key → Handler → Handler) (reactor : Reactor Handler)
    (handler : Handler) : Except Panic (Reactor Handler × Key) := do
  let (handlers, key) ← reactor.handlers.insertFrom fun key =>
    ⟨some (adoptKey key handler), []⟩
  .ok ({ reactor with handlers := handlers }, key)

def watch (reactor : Reactor Handler) (handlerKey : Key) (fd : RawFd)
    (userData : UInt64) (poll : Poll) :
    Except Panic (Reactor Handler × Except IoError Key) :=
  match reactor.handlers.get handlerKey with
  | none => .ok (reactor, .error (.notFound "watch: no such handler"))
  | some entry =>
      if reactor.registrations.iter.any fun item => item.2.fd = fd then
        .ok (reactor, .error (.alreadyExists "watch: fd already watched"))
      else do
        let (registrations, regKey) ← reactor.registrations.insert
          ⟨fd, handlerKey, true, false, userData⟩
        let reactor := { reactor with registrations := registrations }
        match poll fd with
        | some error =>
            .ok ((reactor.removeRegistration regKey).1, .error error)
        | none =>
            .ok ({ reactor with
              handlers := reactor.handlers.set handlerKey
                { entry with regs := entry.regs ++ [regKey] } }, .ok regKey)

def unwatch (reactor : Reactor Handler) (regKey : Key) (poll : Poll) :
    Reactor Handler × Except IoError Bool :=
  match reactor.removeRegistration regKey with
  | (_, none) => (reactor, .ok false)
  | (reactor, some registration) =>
      let reactor :=
        match reactor.handlers.get registration.handlerKey with
        | some entry =>
            { reactor with
              handlers := reactor.handlers.set registration.handlerKey
                { entry with regs := entry.regs.filter (· ≠ regKey) } }
        | none => reactor
      match poll registration.fd with
      | some error => (reactor, .error error)
      | none => (reactor, .ok true)

def unwatchAll (poll : Poll) :
    Reactor Handler → List Key → Option IoError →
      Reactor Handler × Option IoError
  | reactor, [], firstErr => (reactor, firstErr)
  | reactor, regKey :: regs, firstErr =>
      match reactor.removeRegistration regKey with
      | (reactor, some registration) =>
          unwatchAll poll reactor regs (firstErr.or (poll registration.fd))
      | (_, none) => unwatchAll poll reactor regs firstErr

def unregister (reactor : Reactor Handler) (handlerKey : Key) (poll : Poll) :
    Reactor Handler × Except IoError Bool :=
  match reactor.removeHandler handlerKey with
  | (_, none) => (reactor, .ok false)
  | (reactor, some entry) =>
      match unwatchAll poll reactor entry.regs none with
      | (reactor, some error) => (reactor, .error error)
      | (reactor, none) => (reactor, .ok true)

def watchAll (handlerKey : Key) (poll removed : Poll) :
    Reactor Handler → List (RawFd × UInt64) →
      Except Panic (Reactor Handler × Except IoError Key)
  | reactor, [] => .ok (reactor, .ok handlerKey)
  | reactor, (fd, userData) :: fds => do
      match ← reactor.watch handlerKey fd userData poll with
      | (reactor, .error error) =>
          .ok ((reactor.unregister handlerKey removed).1, .error error)
      | (reactor, .ok _) => watchAll handlerKey poll removed reactor fds

/-- `removed` answers the removals where a descriptor cannot be watched. -/
def registerWithFds (adoptKey : Key → Handler → Handler)
    (reactor : Reactor Handler) (handler : Handler)
    (fds : List (RawFd × UInt64)) (poll removed : Poll) :
    Except Panic (Reactor Handler × Except IoError Key) := do
  let (reactor, handlerKey) ← reactor.register adoptKey handler
  watchAll handlerKey poll removed reactor fds

/-- Kernel first, the flag only on success. -/
def setWriteInterest (reactor : Reactor Handler) (regKey : Key)
    (enabled : Bool) (poll : Poll) : Reactor Handler × Except IoError Bool :=
  match reactor.registrations.get regKey with
  | none => (reactor, .ok false)
  | some registration =>
      if registration.writeInterest = enabled then (reactor, .ok true)
      else
        match poll registration.fd with
        | some error => (reactor, .error error)
        | none =>
            ({ reactor with
              registrations := reactor.registrations.set regKey
                { registration with writeInterest := enabled } }, .ok true)

def setReadInterest (reactor : Reactor Handler) (regKey : Key)
    (enabled : Bool) (poll : Poll) : Reactor Handler × Except IoError Bool :=
  match reactor.registrations.get regKey with
  | none => (reactor, .ok false)
  | some registration =>
      match poll registration.fd with
      | some error => (reactor, .error error)
      | none =>
          ({ reactor with
            registrations := reactor.registrations.set regKey
              { registration with readInterest := enabled } }, .ok true)

/-! ## Calls to handlers -/

def takeHandler (reactor : Reactor Handler) (key : Key) :
    Reactor Handler × Option Handler :=
  match reactor.handlers.get key with
  | none => (reactor, none)
  | some entry =>
      ({ reactor with
        handlers := reactor.handlers.set key { entry with handler := none } },
        entry.handler)

def restoreHandler (reactor : Reactor Handler) (key : Key)
    (handler : Handler) : Reactor Handler :=
  match reactor.handlers.get key with
  | none => reactor
  | some entry =>
      { reactor with
        handlers := reactor.handlers.set key
          { entry with handler := some handler } }

end Reactor

inductive Call (Handler : Type) where
  | register (handler : Handler)
  | registerWithFds (handler : Handler) (fds : List (RawFd × UInt64))
      (poll removed : Poll)
  | watch (handlerKey : Key) (fd : RawFd) (userData : UInt64) (poll : Poll)
  | unwatch (regKey : Key) (poll : Poll)
  | unregister (handlerKey : Key) (poll : Poll)
  | setWriteInterest (regKey : Key) (enabled : Bool) (poll : Poll)
  | setReadInterest (regKey : Key) (enabled : Bool) (poll : Poll)

structure Callback (Handler : Type) where
  calls : List (Call Handler)
  becomes : Handler → Handler

inductive Moment (Handler : Type) where
  | called (before : Reactor Handler) (call : Call Handler)
      (after : Reactor Handler) (failed : Bool)
  | delivered (reactor : Reactor Handler) (handlerKey : Key)
      (event : ReadyEvent) (writable : Bool)
  | restored (before : Reactor Handler) (handlerKey : Key)
      (after : Reactor Handler)

inductive Turn (Handler : Type) where
  | call (call : Call Handler)
  | event (regKey : Key) (readiness : Readiness)
      (onReadable onWritable : Callback Handler)
  | deadlines (now : Nat) (onDeadline : Key → Callback Handler)
  | control (onControl : Key → Callback Handler)

namespace Reactor

variable {Handler : Type} (adoptKey : Key → Handler → Handler)
  (nextDeadline : Handler → Option Nat)

def failed {Value : Type} : Except IoError Value → Bool
  | .error _ => true
  | .ok _ => false

def perform (reactor : Reactor Handler) (call : Call Handler) :
    Except Panic (Reactor Handler × Bool) :=
  match call with
  | .register handler => do
      let (reactor, _) ← reactor.register adoptKey handler
      .ok (reactor, false)
  | .registerWithFds handler fds poll removed => do
      let (reactor, result) ←
        reactor.registerWithFds adoptKey handler fds poll removed
      .ok (reactor, failed result)
  | .watch handlerKey fd userData poll => do
      let (reactor, result) ← reactor.watch handlerKey fd userData poll
      .ok (reactor, failed result)
  | .unwatch regKey poll =>
      let (reactor, result) := reactor.unwatch regKey poll
      .ok (reactor, failed result)
  | .unregister handlerKey poll =>
      let (reactor, result) := reactor.unregister handlerKey poll
      .ok (reactor, failed result)
  | .setWriteInterest regKey enabled poll =>
      let (reactor, result) := reactor.setWriteInterest regKey enabled poll
      .ok (reactor, failed result)
  | .setReadInterest regKey enabled poll =>
      let (reactor, result) := reactor.setReadInterest regKey enabled poll
      .ok (reactor, failed result)

def performAll : Reactor Handler → List (Call Handler) →
    Except Panic (Reactor Handler × List (Moment Handler))
  | reactor, [] => .ok (reactor, [])
  | reactor, call :: calls => do
      let (after, failed) ← reactor.perform adoptKey call
      let (final, moments) ← performAll after calls
      .ok (final, .called reactor call after failed :: moments)

def deliver (reactor : Reactor Handler) (handlerKey : Key)
    (event : ReadyEvent) (writable fires : Bool) (callback : Callback Handler)
    (handler : Handler) :
    Except Panic (Reactor Handler × Handler × List (Moment Handler)) :=
  if fires then do
    let (after, moments) ← reactor.performAll adoptKey callback.calls
    .ok (after, callback.becomes handler,
      .delivered reactor handlerKey event writable :: moments)
  else .ok (reactor, handler, [])

def dispatch (reactor : Reactor Handler) (regKey : Key)
    (readiness : Readiness) (onReadable onWritable : Callback Handler) :
    Except Panic (Reactor Handler × List (Moment Handler)) :=
  match reactor.registrations.get regKey with
  | none => .ok (reactor, [])
  | some registration =>
      let handlerKey := registration.handlerKey
      let event : ReadyEvent := ⟨registration.fd, registration.userData⟩
      match reactor.takeHandler handlerKey with
      | (reactor, none) => .ok (reactor, [])
      | (reactor, some handler) => do
          let (reactor, handler, read) ← reactor.deliver adoptKey handlerKey
            event false readiness.readable onReadable handler
          -- The read phase may have unwatched it or disarmed write interest.
          let armed := (reactor.registrations.get regKey).any (·.writeInterest)
          let (reactor, handler, written) ← reactor.deliver adoptKey handlerKey
            event true (readiness.writable && armed) onWritable handler
          let restored := reactor.restoreHandler handlerKey handler
          .ok (restored,
            read ++ written ++ [.restored reactor handlerKey restored])

/-- The loop of the deadline and control sweeps.  A handler removed meanwhile
leaves a stale key. -/
def sweep (callback : Key → Callback Handler) :
    Reactor Handler → List Key →
      Except Panic (Reactor Handler × List (Moment Handler))
  | reactor, [] => .ok (reactor, [])
  | reactor, key :: keys =>
      match reactor.takeHandler key with
      | (reactor, none) => sweep callback reactor keys
      | (reactor, some handler) => do
          let (reactor, moments) ←
            reactor.performAll adoptKey (callback key).calls
          let restored :=
            reactor.restoreHandler key ((callback key).becomes handler)
          let (final, rest) ← sweep callback restored keys
          .ok (final, moments ++ .restored reactor key restored :: rest)

def dispatchDeadlines (reactor : Reactor Handler) (now : Nat)
    (onDeadline : Key → Callback Handler) :
    Except Panic (Reactor Handler × List (Moment Handler)) :=
  let due := reactor.handlers.iter.filter fun item =>
    (item.2.handler.bind nextDeadline).any (· ≤ now)
  sweep adoptKey onDeadline reactor (due.map Prod.fst)

def dispatchControl (reactor : Reactor Handler)
    (onControl : Key → Callback Handler) :
    Except Panic (Reactor Handler × List (Moment Handler)) :=
  sweep adoptKey onControl reactor (reactor.handlers.iter.map Prod.fst)

def turn (reactor : Reactor Handler) (turn : Turn Handler) :
    Except Panic (Reactor Handler × List (Moment Handler)) :=
  match turn with
  | .call call => reactor.performAll adoptKey [call]
  | .event regKey readiness onReadable onWritable =>
      reactor.dispatch adoptKey regKey readiness onReadable onWritable
  | .deadlines now onDeadline =>
      reactor.dispatchDeadlines adoptKey nextDeadline now onDeadline
  | .control onControl => reactor.dispatchControl adoptKey onControl

def run : Reactor Handler → List (Turn Handler) →
    Except Panic (Reactor Handler × List (Moment Handler))
  | reactor, [] => .ok (reactor, [])
  | reactor, turn :: turns => do
      let (reactor, moments) ← reactor.turn adoptKey nextDeadline turn
      let (reactor, rest) ← run reactor turns
      .ok (reactor, moments ++ rest)

end Reactor

end Netflector.Reactor
