import Netflector.Net.Address
import Mathlib.Data.List.Basic

/-!
# Multicast memberships

The groups one interface is to join, each with its state, and the sockets that
hold them: one for each family, opened on first use.  What a system call
answers is an argument.  Times are nanoseconds; what only the logs read (the
labels, the levels and the problem last reported) is left out.
-/

namespace Netflector.Dispatch

open Netflector.Net

inductive Platform where
  | linux
  | macos
  | freebsd
  deriving DecidableEq, Repr

inductive Errno where
  | addrInUse
  | noDev
  | addrNotAvail
  | inval
  | afNoSupport
  | noBufs
  | other (code : Nat)
  deriving DecidableEq, Repr

def second : Nat := 1000000000

def u32Max : Nat := 0xffffffff

/-- The wait before retrying what failed `attempts` times before: one second
doubling to thirty. -/
def retryDelay (attempts : Nat) : Nat :=
  if attempts < 32 then min ((1 <<< attempts) * second) (30 * second)
  else 30 * second

theorem retryDelay_pos (attempts : Nat) : 0 < retryDelay attempts := by
  simp only [retryDelay]
  split
  · have hpow : 0 < 1 <<< attempts := by
      rw [Nat.one_shiftLeft]
      exact Nat.two_pow_pos attempts
    rw [Nat.lt_min]
    exact ⟨Nat.mul_pos hpow (by decide), by decide⟩
  · decide

/-- Why a live interface takes no membership as it is. -/
inductive Wait where
  | noAddress
  | noFamily
  | notMulticast
  deriving DecidableEq, Repr

structure Wanted where
  required : Bool
  deriving DecidableEq, Repr

inductive JoinError where
  | gone
  | noFamily
  | failed (source : Errno) (capped : Bool)
  deriving DecidableEq, Repr

inductive MembershipState where
  | pending
  | joined
  | waiting (wait : Wait)
  | failed (attempts : Nat) (retryAt : Nat)
  deriving DecidableEq, Repr

inductive JoinOutcome where
  | joined
  | waits (wait : Wait)
  | failed (source : Errno) (capped : Bool)
  deriving DecidableEq, Repr

structure Membership where
  group : IpAddr
  state : MembershipState
  deriving DecidableEq

namespace Membership

def settle (membership : Membership) (outcome : JoinOutcome) (now : Nat) :
    Membership :=
  match outcome with
  | .joined => { membership with state := .joined }
  | .waits wait => { membership with state := .waiting wait }
  | .failed _ _ =>
      let attempts :=
        match membership.state with
        | .failed attempts _ => min (attempts + 1) u32Max
        | _ => 0
      { membership with
        state := .failed attempts (now + retryDelay attempts) }

/-- Joined, or failed with its retry not due yet. -/
def isSettled (membership : Membership) (now : Nat) : Bool :=
  match membership.state with
  | .joined => true
  | .failed _ retryAt => now < retryAt
  | _ => false

def retryAt (membership : Membership) : Option Nat :=
  match membership.state with
  | .failed _ retryAt => some retryAt
  | _ => none

end Membership

/-! ## Sockets -/

/-- What the calls of one attempt answer: opening a socket, joining the group
and looking the interface's name up again. -/
structure JoinCalls where
  openSocket : Except Errno Unit
  setsockopt : Except Errno Unit
  lookup : Except Errno (Option Nat)

structure Sockets where
  v4 : Bool
  v6 : Bool
  deriving DecidableEq, Repr

def Sockets.none : Sockets := ⟨false, false⟩

def isIpv6 : IpAddr → Bool
  | .v4 _ => false
  | .v6 _ => true

/-- What a refused join means; no value: the index names no interface any
more. -/
def classify (platform : Platform) (err : Errno) (group : IpAddr)
    (live : Except Errno Bool) : Option JoinOutcome :=
  let ifLive (wait : Wait) : Option JoinOutcome :=
    match live with
    | .ok true => some (.waits wait)
    | .ok false => none
    | .error _ => some (.failed err false)
  match err with
  | .addrInUse => some .joined
  | .noDev => ifLive .noFamily
  | .addrNotAvail =>
      if platform ≠ .linux then ifLive .notMulticast
      else some (.failed err false)
  | .inval =>
      if isIpv6 group ∧ platform = .linux then some (.waits .noFamily)
      else if isIpv6 group ∧ platform = .macos then some (.waits .noAddress)
      else some (.failed err false)
  | .afNoSupport =>
      if platform = .macos then some (.waits .noAddress)
      else some (.failed err false)
  | .noBufs =>
      some (.failed err (platform = .linux ∧ isIpv6 group = false))
  | .other _ => some (.failed err false)

def Sockets.holds (sockets : Sockets) (group : IpAddr) : Bool :=
  if isIpv6 group then sockets.v6 else sockets.v4

def Sockets.hold (sockets : Sockets) (group : IpAddr) : Sockets :=
  if isIpv6 group then { sockets with v6 := true }
  else { sockets with v4 := true }

/-- Join `group` on the interface at `ifindex`, opening the family's socket if
it is not held. -/
def Sockets.join (platform : Platform) (calls : JoinCalls) (sockets : Sockets)
    (group : IpAddr) (ifindex : Nat) : Sockets × Option JoinOutcome :=
  let attempt : Option JoinOutcome :=
    match calls.setsockopt with
    | .ok () => some .joined
    | .error err =>
        classify platform err group
          (calls.lookup.map fun current => current = some ifindex)
  if sockets.holds group then (sockets, attempt)
  else
    match calls.openSocket with
    | .error source => (sockets, some (.failed source false))
    | .ok () => (sockets.hold group, attempt)

/-! ## Memberships -/

structure Memberships where
  sockets : Sockets
  groups : List Membership
  deriving DecidableEq

namespace Memberships

def new : Memberships := ⟨.none, []⟩

def add (memberships : Memberships) (group : IpAddr) : Memberships × Nat :=
  match memberships.groups.findIdx? (·.group = group) with
  | some index => (memberships, index)
  | none =>
      ({ memberships with
          groups := memberships.groups ++ [⟨group, .pending⟩] },
        memberships.groups.length)

/-- Want `group` and join it: the startup path. -/
def join (platform : Platform) (calls : JoinCalls) (memberships : Memberships)
    (group : IpAddr) (wanted : Wanted) (ifindex : Nat) (now : Nat) :
    Memberships × Except JoinError Unit :=
  let (memberships, index) := memberships.add group
  match memberships.groups[index]? with
  | none => (memberships, .ok ())
  | some membership =>
      match membership.state with
      | .waiting .noFamily =>
          if wanted.required then (memberships, .error .noFamily)
          else (memberships, .ok ())
      | .pending =>
          let (sockets, outcome) :=
            memberships.sockets.join platform calls group ifindex
          let memberships := { memberships with sockets := sockets }
          match outcome with
          | none => (memberships, .error .gone)
          | some (.failed source capped) =>
              (memberships, .error (.failed source capped))
          | some outcome =>
              if outcome = .waits .noFamily ∧ wanted.required then
                (memberships, .error .noFamily)
              else
                ({ memberships with
                  groups := memberships.groups.set index
                    (membership.settle outcome now) }, .ok ())
      | _ => (memberships, .ok ())

/-- The loop of a pass: attempt every group that is not settled, up to the
first that finds the index gone.  `calls` answers the attempt on the group at
a position. -/
def convergeFrom (platform : Platform) (calls : Nat → JoinCalls)
    (ifindex : Nat) (now : Nat) :
    Nat → Sockets → List Membership → Memberships × Bool
  | _, sockets, [] => (⟨sockets, []⟩, false)
  | position, sockets, membership :: rest =>
      if membership.isSettled now then
        let (after, gone) := convergeFrom platform calls ifindex now
          (position + 1) sockets rest
        (⟨after.sockets, membership :: after.groups⟩, gone)
      else
        match sockets.join platform (calls position) membership.group
            ifindex with
        -- Off the retry timer: only the rebuild can help.
        | (sockets, none) =>
            (⟨sockets, { membership with state := .pending } :: rest⟩, true)
        | (sockets, some outcome) =>
            let (after, gone) := convergeFrom platform calls ifindex now
              (position + 1) sockets rest
            (⟨after.sockets, membership.settle outcome now :: after.groups⟩,
              gone)

def converge (platform : Platform) (calls : Nat → JoinCalls)
    (memberships : Memberships) (ifindex : Nat) (now : Nat) :
    Memberships × Bool :=
  convergeFrom platform calls ifindex now 0 memberships.sockets
    memberships.groups

/-- Drop the sockets, and every membership with them. -/
def rebase (memberships : Memberships) : Memberships where
  sockets := .none
  groups := memberships.groups.map fun membership =>
    { membership with state := .pending }

def nextRetry (memberships : Memberships) : Option Nat :=
  (memberships.groups.filterMap Membership.retryAt).min?

end Memberships

end Netflector.Dispatch
