import Netflector.Dispatch.Filter
import Netflector.Dispatch.InterfaceTable
import Netflector.Reactor.Arena

/-!
# Routing

A packet is offered to every registration of its ingress whose filter matches.
A fragment is collected first; what the fragments make is routed like a packet
that came whole.
-/

namespace Netflector.Dispatch

open Netflector.Foundation
open Netflector.Net
open Netflector.Reactor

/-- A routing registration.  The handler is absent only while it is called. -/
structure Registration (Handler : Type) where
  ingress : CaptureKey
  filter : Filter
  handler : Option Handler

variable {Handler : Type}

def Registration.applies (registration : Registration Handler)
    (ingress : CaptureKey) (packet : Packet)
    (addrs : Option InterfaceAddresses) : Bool :=
  registration.ingress = ingress && registration.filter.matches packet addrs

def wouldRoute (registrations : Arena (Registration Handler))
    (addrs : CaptureKey → Option InterfaceAddresses) (ingress : CaptureKey)
    (packet : Packet) : Bool :=
  registrations.iter.any fun entry =>
    entry.2.applies ingress packet (addrs ingress)

/-- Whether a registration would route the fragment's datagram, as far as the
fragment shows. -/
def wanted (registrations : Arena (Registration Handler))
    (addrs : CaptureKey → Option InterfaceAddresses) (ingress : CaptureKey)
    (fragment : Fragment) : Bool :=
  match fragment.headers with
  | none => true
  | some packet => wouldRoute registrations addrs ingress packet

def reassembleAndRoute (registrations : Arena (Registration Handler))
    (addrs : CaptureKey → Option InterfaceAddresses)
    (reassembly : Reassembler) (ingress : CaptureKey) (fragment : Fragment)
    (now : Nat) : Except Panic (Reassembler × Option Packet) := do
  let (reassembly, done) ← reassembly.offer ingress fragment
    (wanted registrations addrs ingress fragment) now
  let (reassembly, _) := reassembly.drainLost
  match done with
  | none => .ok (reassembly, none)
  | some done =>
      match done.packet with
      | .error (.panic panic) => .error panic
      | .error (.error _) => .ok (reassembly.recycle done, none)
      | .ok packet => .ok (reassembly.recycle done, some packet)

/-! ## Draining a capture -/

def maxFramesPerEvent : Nat := 64

inductive Read where
  | frame (frame : Bytes)
  | oversized
  deriving DecidableEq

/-- One turn of the drain: whether the capture still has buffered records, and
what its next read answers. -/
structure Poll where
  buffered : Bool
  next : Except Errno (Option Read)

structure Drained where
  frames : Nat
  oversized : Nat
  error : Option Errno
  deriving DecidableEq

section Drain

variable {State : Type} (route : Packet → State → State)
    (reassemble : Fragment → State → State)

/-- The loop of a drain.  The frames of a capture whose interface is not bound
are read, but never routed. -/
def drainLoop (bound : Bool) (link : LinkType) :
    List Poll → Drained → State → State × Drained
  | [], drained, state => (state, drained)
  | poll :: polls, drained, state =>
      if maxFramesPerEvent ≤ drained.frames ∧ poll.buffered = false then
        (state, drained)
      else
        match poll.next with
        | .error error => (state, { drained with error := some error })
        | .ok none => (state, drained)
        | .ok (some .oversized) =>
            drainLoop bound link polls
              { drained with
                frames := drained.frames + 1
                oversized := drained.oversized + 1 } state
        | .ok (some (.frame frame)) =>
            let state :=
              if bound then
                match Parsed.parse link frame with
                | .ok (.datagram packet) => route packet state
                | .ok (.fragment fragment) => reassemble fragment state
                | .error _ => state
              else state
            drainLoop bound link polls
              { drained with frames := drained.frames + 1 } state

end Drain

/-- Drain a capture that is readable.  It is taken out of the table for the
drain, so that handlers send on the others. -/
def drainAndRoute {State : Type} (tableOf : State → InterfaceTable)
    (withTable : State → InterfaceTable → State)
    (route : Packet → State → State) (reassemble : Fragment → State → State)
    (ingress : CaptureKey) (polls : List Poll) (state : State) :
    State × Drained :=
  match (tableOf state).take ingress with
  | (_, none) => (state, ⟨0, 0, none⟩)
  | (table, some capture) =>
      let (state, drained) := drainLoop route reassemble
        (table.ifindexOf ingress).isSome capture.linkType polls ⟨0, 0, none⟩
        (withTable state table)
      (withTable state ((tableOf state).restore ingress capture), drained)

end Netflector.Dispatch
