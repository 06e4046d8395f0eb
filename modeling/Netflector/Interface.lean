import Netflector.Net.Packet

/-!
# Interface addresses

The source addresses an interface currently has; any may be absent.
-/

namespace Netflector

open Netflector.Foundation
open Netflector.Net

structure InterfaceAddresses where
  mac : Option MacAddr
  v4 : Option Ipv4Addr
  v4Prefix : Option UInt8
  v6Any : Option Ipv6Addr
  v6Routable : Option Ipv6Addr
  deriving DecidableEq

/-- An IPv6 destination's scope, coarsened to what source selection needs. -/
inductive Ipv6Scope where
  | linkLocal
  | routable
  deriving DecidableEq, Repr

/-- The scope nibble alone also matches unicast addresses. -/
def isMulticastLinkLocal (addr : Ipv6Addr) : Bool :=
  addr.isMulticast && (addr.octets.getD 1 0) &&& 0x0f = 0x02

def Ipv6Scope.of (addr : Ipv6Addr) : Ipv6Scope :=
  if isMulticastLinkLocal addr || addr.isUnicastLinkLocal then .linkLocal
  else .routable

namespace InterfaceAddresses

def default : InterfaceAddresses := ⟨none, none, none, none, none⟩

/-- The directed broadcast of the v4 subnet; a /31 or /32 has none. -/
def v4DirectedBroadcast (addrs : InterfaceAddresses) : Option Ipv4Addr := do
  let addr ← addrs.v4
  let length ← addrs.v4Prefix
  if length > 30 then none
  else some (.ofBits (addr.toBits ||| (0xffffffff >>> length.toUInt32)))

/-- The v6 source for a destination of `destScope`, falling back to the other
scope's address. -/
def v6 (addrs : InterfaceAddresses) (destScope : Ipv6Scope) :
    Option Ipv6Addr :=
  match destScope with
  | .linkLocal => addrs.v6Any
  | .routable => addrs.v6Routable.or addrs.v6Any

def has (addrs : InterfaceAddresses) (ip : IpAddr) : Bool :=
  match ip with
  | .v4 v4 => addrs.v4 = some v4
  | .v6 v6 => addrs.v6Any = some v6 || addrs.v6Routable = some v6

def hasV6 (addrs : InterfaceAddresses) : Bool := addrs.v6Any.isSome

end InterfaceAddresses

/-! ## Scans -/

/-- Worst to best.  Link-local is preferred because the traffic reflected is
link-local. -/
inductive V6Rank where
  | notASource
  | global
  | uniqueLocal
  | linkLocal
  deriving DecidableEq, Repr

def V6Rank.level : V6Rank → Nat
  | .notASource => 0
  | .global => 1
  | .uniqueLocal => 2
  | .linkLocal => 3

def isUniqueLocal (addr : Ipv6Addr) : Bool :=
  (addr.octets.getD 0 0) &&& 0xfe = 0xfc

def v6Rank (addr : Ipv6Addr) : V6Rank :=
  if addr.isMulticast || addr.isUnspecified || addr.isLoopback then
    .notASource
  else if addr.isUnicastLinkLocal then .linkLocal
  else if isUniqueLocal addr then .uniqueLocal
  else .global

structure V6Pick where
  bestRank : V6Rank
  bestRoutableRank : V6Rank

namespace V6Pick

def default : V6Pick := ⟨.notASource, .notASource⟩

def considerAny (pick : V6Pick) (addrs : InterfaceAddresses)
    (addr : Ipv6Addr) : V6Pick × InterfaceAddresses :=
  if addrs.v6Any = none ∨ pick.bestRank.level < (v6Rank addr).level then
    ({ pick with bestRank := v6Rank addr }, { addrs with v6Any := some addr })
  else (pick, addrs)

def considerRoutable (pick : V6Pick) (addrs : InterfaceAddresses)
    (addr : Ipv6Addr) : V6Pick × InterfaceAddresses :=
  if (v6Rank addr).level < V6Rank.linkLocal.level ∧
      (addrs.v6Routable = none ∨
        pick.bestRoutableRank.level < (v6Rank addr).level) then
    ({ pick with bestRoutableRank := v6Rank addr },
      { addrs with v6Routable := some addr })
  else (pick, addrs)

def consider (pick : V6Pick) (addrs : InterfaceAddresses) (addr : Ipv6Addr) :
    V6Pick × InterfaceAddresses :=
  if v6Rank addr = .notASource then (pick, addrs)
  else
    let (pick, addrs) := pick.considerAny addrs addr
    pick.considerRoutable addrs addr

end V6Pick

inductive Finding where
  | v4 (addr : Ipv4Addr) (length : Option UInt8)
  | v6 (addr : Ipv6Addr)
  | link (mac : Option MacAddr)

/-- Of the IPv4 addresses the first wins. -/
def scanOne : V6Pick × InterfaceAddresses → Finding →
    V6Pick × InterfaceAddresses
  | (pick, addrs), .v4 addr length =>
      if addrs.v4 = none then
        (pick, { addrs with v4 := some addr, v4Prefix := length })
      else (pick, addrs)
  | (pick, addrs), .v6 addr => pick.consider addrs addr
  | (pick, addrs), .link mac => (pick, { addrs with mac := mac })

def resolve (found : List Finding) : InterfaceAddresses :=
  (found.foldl scanOne (V6Pick.default, .default)).2

namespace InterfaceAddresses

def Scanned (addrs : InterfaceAddresses) : Prop :=
  ∃ found, addrs = resolve found

theorem scanned_default : Scanned .default := ⟨[], rfl⟩

/-- A routable address is never the only one. -/
def Covered (addrs : InterfaceAddresses) : Prop :=
  addrs.v6Any = none → addrs.v6Routable = none

theorem Covered.scanOne {state : V6Pick × InterfaceAddresses}
    (h : state.2.Covered) (finding : Finding) :
    (scanOne state finding).2.Covered := by
  obtain ⟨pick, addrs⟩ := state
  cases finding with
  | v4 addr length =>
      simp only [Netflector.scanOne]
      split
      · exact h
      · exact h
  | link mac => exact h
  | v6 addr =>
      simp only [Netflector.scanOne, V6Pick.consider]
      split
      · exact h
      · -- The address that is considered is kept if there was none.
        have hsome : (pick.considerAny addrs addr).2.v6Any ≠ none := by
          unfold V6Pick.considerAny
          split
          · simp
          · rename_i hkept
            rw [not_or] at hkept
            exact hkept.1
        intro hnone
        unfold V6Pick.considerRoutable at hnone
        split at hnone
        · exact absurd hnone hsome
        · exact absurd hnone hsome

theorem Scanned.covered {addrs : InterfaceAddresses} (h : addrs.Scanned) :
    addrs.Covered := by
  obtain ⟨found, rfl⟩ := h
  have hfold : ∀ (found : List Finding) (state : V6Pick × InterfaceAddresses),
      state.2.Covered → (found.foldl Netflector.scanOne state).2.Covered := by
    intro found
    induction found with
    | nil => exact fun _ h => h
    | cons finding found ih => exact fun _ h => ih _ (h.scanOne finding)
  exact hfold found _ fun _ => rfl

theorem Scanned.v6_isSome {addrs : InterfaceAddresses} (h : addrs.Scanned)
    (destScope : Ipv6Scope) :
    (addrs.v6 destScope).isSome = addrs.v6Any.isSome := by
  cases destScope with
  | linkLocal => rfl
  | routable =>
      cases hany : addrs.v6Any with
      | none => simp [v6, hany, h.covered hany]
      | some addr => cases hroutable : addrs.v6Routable <;>
          simp [v6, hany, hroutable]

end InterfaceAddresses

end Netflector
