import Netflector.Reactor.Registry
import Mathlib.Logic.Function.Basic

/-!
# The readiness backends

What the kernel holds of the reactor's interest, through epoll and through
kqueue, and the reactor over either of them.
-/

namespace Netflector.Reactor

open Netflector.Foundation

def ENOENT : Nat := 2

def EEXIST : Nat := 17

/-- Why the kernel turns a system call down that it could have served.  That
something is not registered is no such reason. -/
structure Refusal where
  code : Nat
  real : code ≠ ENOENT

/-- What is turned down of the system calls of one operation, in their order. -/
abbrev Refusals := Nat → Option Refusal

structure PollEvent where
  key : Key
  readiness : Readiness
  deriving DecidableEq, Repr

structure Condition where
  input : Bool
  output : Bool
  error : Bool
  hangup : Bool
  deriving DecidableEq, Repr

/-- One API over both backends. -/
class Poller (P : Type) where
  new : P
  add : P → RawFd → Key → Refusals → P × Option IoError
  setInterest : P → RawFd → Key → Bool → Bool → Refusals → P × Option IoError
  remove : P → RawFd → Refusals → P × Option IoError
  /-- A closed descriptor takes the interest in it with it. -/
  closed : P → RawFd → P
  /-- What a wait returns for a descriptor. -/
  report : P → RawFd → Condition → List PollEvent

/-- `ENOENT` is swallowed. -/
def unlessAbsent : Option Nat → Option IoError
  | none => none
  | some code => if code = ENOENT then none else some (.os code)

/-! ## epoll -/

structure Mask where
  read : Bool
  write : Bool
  deriving DecidableEq, Repr

structure EpollEvent where
  events : Mask
  u64 : UInt64
  deriving DecidableEq, Repr

inductive CtlOp where
  | add
  | mod
  | del
  deriving DecidableEq, Repr

structure Epoll where
  entries : RawFd → Option EpollEvent

namespace Epoll

def ctl (poll : Epoll) (op : CtlOp) (fd : RawFd) (event : EpollEvent)
    (refusal : Option Refusal) : Epoll × Option Nat :=
  match refusal with
  | some refusal => (poll, some refusal.code)
  | none =>
      match op with
      | .add =>
          if (poll.entries fd).isSome then (poll, some EEXIST)
          else (⟨Function.update poll.entries fd (some event)⟩, none)
      | .mod =>
          if (poll.entries fd).isSome then
            (⟨Function.update poll.entries fd (some event)⟩, none)
          else (poll, some ENOENT)
      | .del =>
          if (poll.entries fd).isSome then
            (⟨Function.update poll.entries fd none⟩, none)
          else (poll, some ENOENT)

def add (poll : Epoll) (fd : RawFd) (key : Key) (refuses : Refusals) :
    Epoll × Option IoError :=
  let (poll, failed) := poll.ctl .add fd ⟨⟨true, false⟩, key.toU64⟩ (refuses 0)
  (poll, failed.map .os)

def setInterest (poll : Epoll) (fd : RawFd) (key : Key) (read write : Bool)
    (refuses : Refusals) : Epoll × Option IoError :=
  let (poll, failed) := poll.ctl .mod fd ⟨⟨read, write⟩, key.toU64⟩ (refuses 0)
  (poll, failed.map .os)

def remove (poll : Epoll) (fd : RawFd) (refuses : Refusals) :
    Epoll × Option IoError :=
  let (poll, failed) := poll.ctl .del fd ⟨⟨false, false⟩, 0⟩ (refuses 0)
  (poll, unlessAbsent failed)

/-- An error and a hangup are reported whatever the mask, and count as
readable. -/
def report (poll : Epoll) (fd : RawFd) (condition : Condition) :
    List PollEvent :=
  match poll.entries fd with
  | none => []
  | some event =>
      let input := condition.input && event.events.read
      let output := condition.output && event.events.write
      if input || output || condition.error || condition.hangup then
        [⟨Key.fromU64 event.u64,
          ⟨input || condition.error || condition.hangup, output⟩⟩]
      else []

end Epoll

instance : Poller Epoll where
  new := ⟨fun _ => none⟩
  add := Epoll.add
  setInterest := Epoll.setInterest
  remove := Epoll.remove
  closed poll fd := ⟨Function.update poll.entries fd none⟩
  report := Epoll.report

/-! ## kqueue -/

structure Kevent where
  udata : UInt64
  enabled : Bool
  deriving DecidableEq, Repr

inductive Change where
  | add
  | enable
  | disable
  | delete
  deriving DecidableEq, Repr

structure Filters where
  read : Option Kevent
  write : Option Kevent
  deriving DecidableEq, Repr

structure Kqueue where
  filters : RawFd → Filters

namespace Kqueue

def change (filter : Option Kevent) (flags : Change) (token : UInt64)
    (refusal : Option Refusal) : Option Kevent × Option Nat :=
  match refusal with
  | some refusal => (filter, some refusal.code)
  | none =>
      match flags with
      | .add => (some ⟨token, true⟩, none)
      | .enable =>
          if filter.isSome then (some ⟨token, true⟩, none)
          else (none, some ENOENT)
      | .disable =>
          if filter.isSome then (some ⟨token, false⟩, none)
          else (none, some ENOENT)
      | .delete =>
          if filter.isSome then (none, none) else (none, some ENOENT)

def changeRead (poll : Kqueue) (fd : RawFd) (flags : Change) (token : UInt64)
    (refusal : Option Refusal) : Kqueue × Option Nat :=
  let (read, failed) := change (poll.filters fd).read flags token refusal
  (⟨Function.update poll.filters fd { poll.filters fd with read := read }⟩,
    failed)

def changeWrite (poll : Kqueue) (fd : RawFd) (flags : Change) (token : UInt64)
    (refusal : Option Refusal) : Kqueue × Option Nat :=
  let (write, failed) := change (poll.filters fd).write flags token refusal
  (⟨Function.update poll.filters fd { poll.filters fd with write := write }⟩,
    failed)

def add (poll : Kqueue) (fd : RawFd) (key : Key) (refuses : Refusals) :
    Kqueue × Option IoError :=
  let (poll, failed) := poll.changeRead fd .add key.toU64 (refuses 0)
  (poll, failed.map .os)

def setInterest (poll : Kqueue) (fd : RawFd) (key : Key) (read write : Bool)
    (refuses : Refusals) : Kqueue × Option IoError :=
  let readFlag := if read then Change.enable else .disable
  match poll.changeRead fd readFlag key.toU64 (refuses 0) with
  | (poll, some code) => (poll, some (.os code))
  | (poll, none) =>
      let writeFlags := if write then Change.add else .delete
      let (poll, failed) :=
        poll.changeWrite fd writeFlags key.toU64 (refuses 1)
      -- Without write interest the filter may never have been armed.
      (poll, if write then failed.map .os else unlessAbsent failed)

/-- The write filter is there only while write interest is armed. -/
def remove (poll : Kqueue) (fd : RawFd) (refuses : Refusals) :
    Kqueue × Option IoError :=
  let (poll, failed) := poll.changeRead fd .delete 0 (refuses 0)
  match unlessAbsent failed with
  | some error => (poll, some error)
  | none =>
      let (poll, failed) := poll.changeWrite fd .delete 0 (refuses 1)
      (poll, unlessAbsent failed)

/-- Both filters report the end of the stream. -/
def report (poll : Kqueue) (fd : RawFd) (condition : Condition) :
    List PollEvent :=
  let fires (filter : Option Kevent) (ready : Bool) : Option Key :=
    (filter.filter fun kevent =>
      kevent.enabled && (ready || condition.error || condition.hangup)).map
      fun kevent => Key.fromU64 kevent.udata
  ((fires (poll.filters fd).read condition.input).map
      fun key => ⟨key, ⟨true, false⟩⟩).toList ++
    ((fires (poll.filters fd).write condition.output).map
      fun key => ⟨key, ⟨false, true⟩⟩).toList

end Kqueue

instance : Poller Kqueue where
  new := ⟨fun _ => ⟨none, none⟩⟩
  add := Kqueue.add
  setInterest := Kqueue.setInterest
  remove := Kqueue.remove
  closed poll fd := ⟨Function.update poll.filters fd ⟨none, none⟩⟩
  report := Kqueue.report

/-! ## The reactor over a backend -/

structure Polled (P Handler : Type) where
  reactor : Reactor Handler
  poll : P
  /-- The registrations whose read interest a call changed in the kernel and,
  as it then failed, not in the reactor.  Nothing reads them. -/
  torn : List Key
  /-- The registrations whose descriptor was closed under them, retired ones
  among them.  Nothing reads them. -/
  orphaned : List Key

/-- What is called on the reactor, with what the kernel turns down of it, and a
descriptor that its owner closes, watched or not. -/
inductive Request (Handler : Type) where
  | register (handler : Handler)
  | registerWithFds (handler : Handler) (fds : List (RawFd × UInt64))
      (refuses removed : RawFd → Refusals)
  | watch (handlerKey : Key) (fd : RawFd) (userData : UInt64)
      (refuses : Refusals)
  | unwatch (regKey : Key) (refuses : Refusals)
  | unregister (handlerKey : Key) (refuses : RawFd → Refusals)
  | setWriteInterest (regKey : Key) (enabled : Bool) (refuses : Refusals)
  | setReadInterest (regKey : Key) (enabled : Bool) (refuses : Refusals)
  | close (fd : RawFd)

structure Reaction (Handler : Type) where
  requests : List (Request Handler)
  becomes : Handler → Handler

inductive Sight where
  | answered (error : Option IoError)
  | delivered (regKey handlerKey : Key) (event : ReadyEvent) (writable : Bool)

def EVENT_CAPACITY : Nat := 64

def errorOf {Value : Type} : Except IoError Value → Option IoError
  | .error error => some error
  | .ok _ => none

namespace Polled

variable {P Handler : Type} [Poller P]

def new : Polled P Handler := ⟨.new, Poller.new, [], []⟩

/-- What is torn after a call that failed: the first of its system calls, where
that was served, set the read interest that was asked for. -/
def tear (torn : List Key) (regKey : Key) (asked stored : Bool)
    (refuses : Refusals) : List Key :=
  if (refuses 0).isSome then torn
  else if asked = stored then torn.filter (· ≠ regKey)
  else regKey :: torn

def watch (polled : Polled P Handler) (handlerKey : Key) (fd : RawFd)
    (userData : UInt64) (refuses : Refusals) :
    Except Panic (Polled P Handler × Except IoError Key) :=
  match polled.reactor.handlers.get handlerKey with
  | none => .ok (polled, .error (.notFound "watch: no such handler"))
  | some entry =>
      if polled.reactor.registrations.iter.any fun item => item.2.fd = fd then
        .ok (polled, .error (.alreadyExists "watch: fd already watched"))
      else do
        let (registrations, regKey) ← polled.reactor.registrations.insert
          ⟨fd, handlerKey, true, false, userData⟩
        let reactor := { polled.reactor with registrations := registrations }
        match Poller.add polled.poll fd regKey refuses with
        | (poll, some error) =>
            .ok ({ polled with
              reactor := (reactor.removeRegistration regKey).1
              poll := poll }, .error error)
        | (poll, none) =>
            .ok ({ polled with
              reactor := { reactor with
                handlers := reactor.handlers.set handlerKey
                  { entry with regs := entry.regs ++ [regKey] } }
              poll := poll }, .ok regKey)

def unwatch (polled : Polled P Handler) (regKey : Key) (refuses : Refusals) :
    Polled P Handler × Except IoError Bool :=
  match polled.reactor.removeRegistration regKey with
  | (_, none) => (polled, .ok false)
  | (reactor, some registration) =>
      let reactor :=
        match reactor.handlers.get registration.handlerKey with
        | some entry =>
            { reactor with
              handlers := reactor.handlers.set registration.handlerKey
                { entry with regs := entry.regs.filter (· ≠ regKey) } }
        | none => reactor
      match Poller.remove polled.poll registration.fd refuses with
      | (poll, some error) =>
          ({ polled with reactor := reactor, poll := poll }, .error error)
      | (poll, none) =>
          ({ polled with reactor := reactor, poll := poll }, .ok true)

def unwatchAll (refuses : RawFd → Refusals) :
    Polled P Handler → List Key → Option IoError →
      Polled P Handler × Option IoError
  | polled, [], firstErr => (polled, firstErr)
  | polled, regKey :: regs, firstErr =>
      match polled.reactor.removeRegistration regKey with
      | (reactor, some registration) =>
          let (poll, failed) := Poller.remove polled.poll registration.fd
            (refuses registration.fd)
          unwatchAll refuses { polled with reactor := reactor, poll := poll }
            regs (firstErr.or failed)
      | (_, none) => unwatchAll refuses polled regs firstErr

def unregister (polled : Polled P Handler) (handlerKey : Key)
    (refuses : RawFd → Refusals) : Polled P Handler × Except IoError Bool :=
  match polled.reactor.removeHandler handlerKey with
  | (_, none) => (polled, .ok false)
  | (reactor, some entry) =>
      match unwatchAll refuses { polled with reactor := reactor } entry.regs
        none with
      | (polled, some error) => (polled, .error error)
      | (polled, none) => (polled, .ok true)

def watchAll (handlerKey : Key) (refuses removed : RawFd → Refusals) :
    Polled P Handler → List (RawFd × UInt64) →
      Except Panic (Polled P Handler × Except IoError Key)
  | polled, [] => .ok (polled, .ok handlerKey)
  | polled, (fd, userData) :: fds => do
      match ← polled.watch handlerKey fd userData (refuses fd) with
      | (polled, .error error) =>
          .ok ((polled.unregister handlerKey removed).1, .error error)
      | (polled, .ok _) => watchAll handlerKey refuses removed polled fds

def registerWithFds (adoptKey : Key → Handler → Handler)
    (polled : Polled P Handler) (handler : Handler)
    (fds : List (RawFd × UInt64)) (refuses removed : RawFd → Refusals) :
    Except Panic (Polled P Handler × Except IoError Key) := do
  let (reactor, handlerKey) ← polled.reactor.register adoptKey handler
  watchAll handlerKey refuses removed { polled with reactor := reactor } fds

/-- Kernel first, the flag only on success. -/
def setWriteInterest (polled : Polled P Handler) (regKey : Key)
    (enabled : Bool) (refuses : Refusals) :
    Polled P Handler × Except IoError Bool :=
  match polled.reactor.registrations.get regKey with
  | none => (polled, .ok false)
  | some registration =>
      if registration.writeInterest = enabled then (polled, .ok true)
      else
        match Poller.setInterest polled.poll registration.fd regKey
          registration.readInterest enabled refuses with
        | (poll, some error) =>
            ({ polled with
              poll := poll
              torn := tear polled.torn regKey registration.readInterest
                registration.readInterest refuses }, .error error)
        | (poll, none) =>
            ({ polled with
              reactor := { polled.reactor with
                registrations := polled.reactor.registrations.set regKey
                  { registration with writeInterest := enabled } }
              poll := poll
              torn := polled.torn.filter (· ≠ regKey) }, .ok true)

def setReadInterest (polled : Polled P Handler) (regKey : Key)
    (enabled : Bool) (refuses : Refusals) :
    Polled P Handler × Except IoError Bool :=
  match polled.reactor.registrations.get regKey with
  | none => (polled, .ok false)
  | some registration =>
      match Poller.setInterest polled.poll registration.fd regKey enabled
        registration.writeInterest refuses with
      | (poll, some error) =>
          ({ polled with
            poll := poll
            torn := tear polled.torn regKey enabled registration.readInterest
              refuses }, .error error)
      | (poll, none) =>
          ({ polled with
            reactor := { polled.reactor with
              registrations := polled.reactor.registrations.set regKey
                { registration with readInterest := enabled } }
            poll := poll
            torn := polled.torn.filter (· ≠ regKey) }, .ok true)

/-- The reactor is not told. -/
def close (polled : Polled P Handler) (fd : RawFd) : Polled P Handler :=
  { polled with
    poll := Poller.closed polled.poll fd
    orphaned := ((polled.reactor.registrations.iter.filter fun item =>
      item.2.fd = fd).map Prod.fst) ++ polled.orphaned }

def takeHandler (polled : Polled P Handler) (key : Key) :
    Polled P Handler × Option Handler :=
  let (reactor, handler) := polled.reactor.takeHandler key
  ({ polled with reactor := reactor }, handler)

def restoreHandler (polled : Polled P Handler) (key : Key)
    (handler : Handler) : Polled P Handler :=
  { polled with reactor := polled.reactor.restoreHandler key handler }

variable (adoptKey : Key → Handler → Handler)
  (nextDeadline : Handler → Option Nat)

def perform (polled : Polled P Handler) (request : Request Handler) :
    Except Panic (Polled P Handler × Option IoError) :=
  match request with
  | .register handler => do
      let (reactor, _) ← polled.reactor.register adoptKey handler
      .ok ({ polled with reactor := reactor }, none)
  | .registerWithFds handler fds refuses removed => do
      let (polled, result) ←
        polled.registerWithFds adoptKey handler fds refuses removed
      .ok (polled, errorOf result)
  | .watch handlerKey fd userData refuses => do
      let (polled, result) ← polled.watch handlerKey fd userData refuses
      .ok (polled, errorOf result)
  | .unwatch regKey refuses =>
      let (polled, result) := polled.unwatch regKey refuses
      .ok (polled, errorOf result)
  | .unregister handlerKey refuses =>
      let (polled, result) := polled.unregister handlerKey refuses
      .ok (polled, errorOf result)
  | .setWriteInterest regKey enabled refuses =>
      let (polled, result) := polled.setWriteInterest regKey enabled refuses
      .ok (polled, errorOf result)
  | .setReadInterest regKey enabled refuses =>
      let (polled, result) := polled.setReadInterest regKey enabled refuses
      .ok (polled, errorOf result)
  | .close fd => .ok (polled.close fd, none)

def performAll : Polled P Handler → List (Request Handler) →
    Except Panic (Polled P Handler × List Sight)
  | polled, [] => .ok (polled, [])
  | polled, request :: requests => do
      let (polled, error) ← polled.perform adoptKey request
      let (polled, sights) ← performAll polled requests
      .ok (polled, .answered error :: sights)

def deliver (polled : Polled P Handler) (regKey handlerKey : Key)
    (event : ReadyEvent) (writable fires : Bool) (reaction : Reaction Handler)
    (handler : Handler) :
    Except Panic (Polled P Handler × Handler × List Sight) :=
  if fires then do
    let (polled, sights) ← polled.performAll adoptKey reaction.requests
    .ok (polled, reaction.becomes handler,
      .delivered regKey handlerKey event writable :: sights)
  else .ok (polled, handler, [])

def dispatch (polled : Polled P Handler) (regKey : Key)
    (readiness : Readiness) (onReadable onWritable : Reaction Handler) :
    Except Panic (Polled P Handler × List Sight) :=
  match polled.reactor.registrations.get regKey with
  | none => .ok (polled, [])
  | some registration =>
      let handlerKey := registration.handlerKey
      let event : ReadyEvent := ⟨registration.fd, registration.userData⟩
      match polled.takeHandler handlerKey with
      | (polled, none) => .ok (polled, [])
      | (polled, some handler) => do
          let (polled, handler, read) ← polled.deliver adoptKey regKey
            handlerKey event false readiness.readable onReadable handler
          -- The read phase may have unwatched it or disarmed write interest.
          let armed :=
            (polled.reactor.registrations.get regKey).any (·.writeInterest)
          let (polled, handler, written) ← polled.deliver adoptKey regKey
            handlerKey event true (readiness.writable && armed) onWritable
            handler
          .ok (polled.restoreHandler handlerKey handler, read ++ written)

/-- The loop of `pollOnce`; the nth event is met with the nth reactions. -/
def dispatchAll : (Nat → Reaction Handler × Reaction Handler) →
    Polled P Handler → List PollEvent →
      Except Panic (Polled P Handler × List Sight)
  | _, polled, [] => .ok (polled, [])
  | reactions, polled, event :: events => do
      let (polled, sights) ← polled.dispatch adoptKey event.key
        event.readiness (reactions 0).1 (reactions 0).2
      let (polled, rest) ←
        dispatchAll (fun index => reactions (index + 1)) polled events
      .ok (polled, sights ++ rest)

/-- The kernel looks at some descriptors, in an order of its own; at none where
the wait is interrupted. -/
def waited (polled : Polled P Handler)
    (conditions : List (RawFd × Condition)) : List PollEvent :=
  (conditions.flatMap fun item =>
    Poller.report polled.poll item.1 item.2).take EVENT_CAPACITY

def pollOnce (polled : Polled P Handler)
    (conditions : List (RawFd × Condition))
    (reactions : Nat → Reaction Handler × Reaction Handler) :
    Except Panic (Polled P Handler × List Sight) :=
  dispatchAll adoptKey reactions polled (polled.waited conditions)

def sweep (reaction : Key → Reaction Handler) :
    Polled P Handler → List Key →
      Except Panic (Polled P Handler × List Sight)
  | polled, [] => .ok (polled, [])
  | polled, key :: keys =>
      match polled.takeHandler key with
      | (polled, none) => sweep reaction polled keys
      | (polled, some handler) => do
          let (polled, sights) ←
            polled.performAll adoptKey (reaction key).requests
          let (polled, rest) ← sweep reaction
            (polled.restoreHandler key ((reaction key).becomes handler)) keys
          .ok (polled, sights ++ rest)

def dispatchDeadlines (polled : Polled P Handler) (now : Nat)
    (onDeadline : Key → Reaction Handler) :
    Except Panic (Polled P Handler × List Sight) :=
  let due := polled.reactor.handlers.iter.filter fun item =>
    (item.2.handler.bind nextDeadline).any (· ≤ now)
  sweep adoptKey onDeadline polled (due.map Prod.fst)

def dispatchControl (polled : Polled P Handler)
    (onControl : Key → Reaction Handler) :
    Except Panic (Polled P Handler × List Sight) :=
  sweep adoptKey onControl polled
    (polled.reactor.handlers.iter.map Prod.fst)

inductive Turn (Handler : Type) where
  | request (request : Request Handler)
  | wait (conditions : List (RawFd × Condition))
      (reactions : Nat → Reaction Handler × Reaction Handler)
  | deadlines (now : Nat) (onDeadline : Key → Reaction Handler)
  | control (onControl : Key → Reaction Handler)

def turn (polled : Polled P Handler) (turn : Turn Handler) :
    Except Panic (Polled P Handler × List Sight) :=
  match turn with
  | .request request => polled.performAll adoptKey [request]
  | .wait conditions reactions =>
      polled.pollOnce adoptKey conditions reactions
  | .deadlines now onDeadline =>
      polled.dispatchDeadlines adoptKey nextDeadline now onDeadline
  | .control onControl => polled.dispatchControl adoptKey onControl

def run : Polled P Handler → List (Turn Handler) →
    Except Panic (Polled P Handler × List Sight)
  | polled, [] => .ok (polled, [])
  | polled, turn :: turns => do
      let (polled, sights) ← polled.turn adoptKey nextDeadline turn
      let (polled, rest) ← run polled turns
      .ok (polled, sights ++ rest)

end Polled

end Netflector.Reactor
