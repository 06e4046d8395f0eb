import Netflector.Dispatch.Daemon
import Netflector.Reactor.Shedding
import Netflector.Reflector.Dial.Disarming

/-!
# Whose registrations these are

The sockets a proxy has open, and what the reactor holds for each of them.
-/

namespace Netflector.Reflector.Dial

open Netflector.Foundation
open Netflector.Net
open Netflector.Reactor
open Netflector.Dispatch

/-! ## Sockets -/

/-- An open socket of a proxy: a listener, or a side of a live connection. -/
inductive Socket where
  | desc
  | rest
  | client (connKey : Key)
  | device (connKey : Key)
  deriving DecidableEq

namespace Socket

def Listens : Socket → Prop
  | .desc | .rest => True
  | .client _ | .device _ => False

def Of (connKey : Key) : Socket → Prop
  | .desc | .rest => False
  | .client key | .device key => key = connKey

instance (connKey : Key) (socket : Socket) : Decidable (socket.Of connKey) := by
  unfold Of
  cases socket <;> infer_instance

def userData : Socket → UInt64
  | .desc | .rest => 0
  | .client connKey | .device connKey => keyToU64 connKey

def side (connKey : Key) : Direction → Socket
  | .clientToDevice => .client connKey
  | .deviceToClient => .device connKey

theorem of_iff {connKey : Key} {socket : Socket} :
    socket.Of connKey ↔ ∃ direction, socket = side connKey direction := by
  constructor
  · intro h
    cases socket with
    | desc => cases h
    | rest => cases h
    | client key =>
        cases h
        exact ⟨.clientToDevice, rfl⟩
    | device key =>
        cases h
        exact ⟨.deviceToClient, rfl⟩
  · rintro ⟨direction, rfl⟩
    cases direction <;> rfl

end Socket

namespace DialDeviceProxy

def fdOf (proxy : DialDeviceProxy) : Socket → Option Nat
  | .desc => some proxy.desc.fd
  | .rest => some proxy.rest.fd
  | .client connKey =>
      (proxy.conns.get connKey).map fun connection => connection.client.fd
  | .device connKey =>
      (proxy.conns.get connKey).map fun connection => connection.device.fd

def regOf (proxy : DialDeviceProxy) : Socket → Option Key
  | .desc | .rest => none
  | .client connKey => (proxy.conns.get connKey).bind fun connection =>
      connection.clientReg.map RegKey.key
  | .device connKey => (proxy.conns.get connKey).bind fun connection =>
      connection.deviceReg.map RegKey.key

variable {proxy : DialDeviceProxy} {connKey : Key} {connection : Connection}

theorem fdOf_side (h : proxy.conns.get connKey = some connection)
    (direction : Direction) : proxy.fdOf (.side connKey direction) =
      some (connection.context direction).source.fd := by
  cases direction with
  | clientToDevice =>
      simp only [Socket.side, fdOf, h, Option.map_some]
      rfl
  | deviceToClient =>
      simp only [Socket.side, fdOf, h, Option.map_some]
      rfl

theorem regOf_side (h : proxy.conns.get connKey = some connection)
    (direction : Direction) : proxy.regOf (.side connKey direction) =
      (connection.context direction).sourceReg.map RegKey.key := by
  cases direction with
  | clientToDevice =>
      simp only [Socket.side, regOf, h, Option.bind_some]
      rfl
  | deviceToClient =>
      simp only [Socket.side, regOf, h, Option.bind_some]
      rfl

end DialDeviceProxy

/-! ## The invariant -/

/-- The handler `key` has no registration but those of its open sockets and
those of `stale`, which are no open socket's any more. -/
structure Accounted (key : Key) (stale : List Key) (proxy : DialDeviceProxy)
    (reactor : Reactor Service) : Prop where
  sane : Sane reactor
  key_eq : proxy.key = some key
  wf : proxy.conns.Wf
  apart : ∀ socket socket' fd, proxy.fdOf socket = some fd →
    proxy.fdOf socket' = some fd → socket = socket'
  held : ∀ socket reg, proxy.regOf socket = some reg →
    ∃ fd : Nat, proxy.fdOf socket = some fd ∧
      reactor.origin reg = some ((fd : Int), key, socket.userData)
  registered : ∀ reg fd data, reactor.origin reg = some (fd, key, data) →
    reg ∈ stale ∨ ∃ socket, ∃ open_ : Nat, proxy.fdOf socket = some open_ ∧
      fd = open_ ∧ data = socket.userData ∧
      (socket.Listens ∨ proxy.regOf socket = some reg)
  lasting : ∀ reg ∈ stale, ∃ fd data, reactor.origin reg = some (fd, key, data)
  strange : ∀ reg fd owner data, reactor.origin reg = some (fd, owner, data) →
    owner ≠ key ∨ reg ∈ stale →
    ∀ socket, ∀ open_ : Nat, proxy.fdOf socket = some open_ → fd ≠ open_

section Accounted

variable {key : Key} {stale : List Key} {proxy proxy' : DialDeviceProxy}
  {reactor reactor' : Reactor Service} {connKey : Key}
  {connection connection' : Connection}

theorem Accounted.congr (h : Accounted key stale proxy reactor)
    (hsane : Sane reactor') (hkey : proxy'.key = proxy.key)
    (hwf : proxy'.conns.Wf) (hfd : ∀ socket, proxy'.fdOf socket =
      proxy.fdOf socket) (hreg : ∀ socket, proxy'.regOf socket =
      proxy.regOf socket) (horigin : ∀ reg, reactor'.origin reg =
      reactor.origin reg) : Accounted key stale proxy' reactor' := by
  constructor
  · exact hsane
  · rw [hkey]
    exact h.key_eq
  · exact hwf
  · intro socket socket' fd
    rw [hfd, hfd]
    exact h.apart socket socket' fd
  · intro socket reg
    rw [hreg, hfd, horigin]
    exact h.held socket reg
  · intro reg fd data
    rw [horigin]
    intro hfound
    obtain hstale | ⟨socket, open_, hopen, hrest⟩ :=
      h.registered reg fd data hfound
    · exact .inl hstale
    · refine .inr ⟨socket, open_, ?_, ?_⟩
      · rw [hfd, hopen]
      · rw [hreg]
        exact hrest
  · intro reg hmem
    rw [horigin]
    exact h.lasting reg hmem
  · intro reg fd owner data
    rw [horigin]
    intro hfound hstrange socket open_
    rw [hfd]
    exact h.strange reg fd owner data hfound hstrange socket open_

theorem Accounted.regOf_inj (h : Accounted key stale proxy reactor)
    {socket socket' : Socket} {reg : Key}
    (hreg : proxy.regOf socket = some reg)
    (hreg' : proxy.regOf socket' = some reg) : socket = socket' := by
  obtain ⟨fd, hfd, horigin⟩ := h.held socket reg hreg
  obtain ⟨fd', hfd', horigin'⟩ := h.held socket' reg hreg'
  rw [horigin] at horigin'
  simp only [Option.some.injEq, Prod.mk.injEq, Int.natCast_inj] at horigin'
  rw [← horigin'.1] at hfd'
  exact h.apart socket socket' fd hfd hfd'

theorem Accounted.not_stale (h : Accounted key stale proxy reactor)
    {socket : Socket} {reg : Key} (hreg : proxy.regOf socket = some reg) :
    reg ∉ stale := by
  intro hmem
  obtain ⟨fd, hfd, horigin⟩ := h.held socket reg hreg
  exact h.strange reg fd key socket.userData horigin (.inr hmem) socket fd hfd
    rfl

/-! ## One connection goes -/

structure Without (connKey : Key) (proxy proxy' : DialDeviceProxy) : Prop where
  key_eq : proxy'.key = proxy.key
  wf : proxy'.conns.Wf
  fdOf : ∀ socket, proxy'.fdOf socket =
    if socket.Of connKey then none else proxy.fdOf socket
  regOf : ∀ socket, proxy'.regOf socket =
    if socket.Of connKey then none else proxy.regOf socket

theorem without_of_get (hkey : proxy'.key = proxy.key)
    (hdesc : proxy'.desc = proxy.desc) (hrest : proxy'.rest = proxy.rest)
    (hwf : proxy'.conns.Wf)
    (hget : ∀ other, proxy'.conns.get other =
      if other = connKey then none else proxy.conns.get other) :
    Without connKey proxy proxy' := by
  refine ⟨hkey, hwf, ?_, ?_⟩
  · intro socket
    cases socket with
    | desc => simp [DialDeviceProxy.fdOf, Socket.Of, hdesc]
    | rest => simp [DialDeviceProxy.fdOf, Socket.Of, hrest]
    | client other =>
        by_cases hsame : other = connKey
        · simp [DialDeviceProxy.fdOf, Socket.Of, hget, hsame]
        · simp [DialDeviceProxy.fdOf, Socket.Of, hget, hsame]
    | device other =>
        by_cases hsame : other = connKey
        · simp [DialDeviceProxy.fdOf, Socket.Of, hget, hsame]
        · simp [DialDeviceProxy.fdOf, Socket.Of, hget, hsame]
  · intro socket
    cases socket with
    | desc => simp [DialDeviceProxy.regOf, Socket.Of]
    | rest => simp [DialDeviceProxy.regOf, Socket.Of]
    | client other =>
        by_cases hsame : other = connKey
        · simp [DialDeviceProxy.regOf, Socket.Of, hget, hsame]
        · simp [DialDeviceProxy.regOf, Socket.Of, hget, hsame]
    | device other =>
        by_cases hsame : other = connKey
        · simp [DialDeviceProxy.regOf, Socket.Of, hget, hsame]
        · simp [DialDeviceProxy.regOf, Socket.Of, hget, hsame]

theorem Without.fdOf_some (h : Without connKey proxy proxy')
    {socket : Socket} {fd : Nat} (hfd : proxy'.fdOf socket = some fd) :
    ¬ socket.Of connKey ∧ proxy.fdOf socket = some fd := by
  rw [h.fdOf] at hfd
  split at hfd
  · cases hfd
  · rename_i hother
    exact ⟨hother, hfd⟩

theorem Without.regOf_some (h : Without connKey proxy proxy')
    {socket : Socket} {reg : Key} (hreg : proxy'.regOf socket = some reg) :
    ¬ socket.Of connKey ∧ proxy.regOf socket = some reg := by
  rw [h.regOf] at hreg
  split at hreg
  · cases hreg
  · rename_i hother
    exact ⟨hother, hreg⟩

theorem Accounted.without {gone leaked : List Key}
    (h : Accounted key stale proxy reactor)
    (hproxy : Without connKey proxy proxy')
    (hdrops : Drops gone reactor reactor')
    (hgone : ∀ reg ∈ gone, ∃ socket, socket.Of connKey ∧
      proxy.regOf socket = some reg)
    (hleaked : ∀ reg ∈ leaked, reg ∉ gone ∧ ∃ socket, socket.Of connKey ∧
      proxy.regOf socket = some reg)
    (hall : ∀ socket reg, socket.Of connKey → proxy.regOf socket = some reg →
      reg ∈ gone ∨ reg ∈ leaked) :
    Accounted key (stale ++ leaked) proxy' reactor' := by
  constructor
  · exact hdrops.sane
  · rw [hproxy.key_eq]
    exact h.key_eq
  · exact hproxy.wf
  · intro socket socket' fd hfd hfd'
    exact h.apart socket socket' fd (hproxy.fdOf_some hfd).2
      (hproxy.fdOf_some hfd').2
  · intro socket reg hreg
    obtain ⟨hother, hreg⟩ := hproxy.regOf_some hreg
    obtain ⟨fd, hfd, horigin⟩ := h.held socket reg hreg
    refine ⟨fd, by rw [hproxy.fdOf, if_neg hother, hfd], ?_⟩
    rw [hdrops.origin, if_neg, horigin]
    intro hmem
    obtain ⟨socket', hof, hreg'⟩ := hgone reg hmem
    rw [h.regOf_inj hreg hreg'] at hother
    exact hother hof
  · intro reg fd data horigin
    obtain ⟨hkept, horigin⟩ := hdrops.origin_some horigin
    obtain hstale | ⟨socket, open_, hopen, hfd, hdata, howner⟩ :=
      h.registered reg fd data horigin
    · exact .inl (List.mem_append_left leaked hstale)
    · by_cases hof : socket.Of connKey
      · left
        rcases howner with hlistens | hreg
        · cases socket <;> cases hlistens <;> cases hof
        · rcases hall socket reg hof hreg with hmem | hmem
          · exact absurd hmem hkept
          · exact List.mem_append_right stale hmem
      · refine .inr ⟨socket, open_, ?_, hfd, hdata, ?_⟩
        · rw [hproxy.fdOf, if_neg hof, hopen]
        · rw [hproxy.regOf, if_neg hof]
          exact howner
  · intro reg hmem
    rcases List.mem_append.mp hmem with hmem | hmem
    · obtain ⟨fd, data, horigin⟩ := h.lasting reg hmem
      refine ⟨fd, data, ?_⟩
      rw [hdrops.origin, if_neg, horigin]
      intro hgone'
      obtain ⟨socket, _, hreg⟩ := hgone reg hgone'
      exact h.not_stale hreg hmem
    · obtain ⟨hkept, socket, _, hreg⟩ := hleaked reg hmem
      obtain ⟨fd, _, horigin⟩ := h.held socket reg hreg
      exact ⟨fd, socket.userData, by rw [hdrops.origin, if_neg hkept, horigin]⟩
  · intro reg fd owner data horigin hstrange socket open_ hopen
    obtain ⟨hkept, horigin⟩ := hdrops.origin_some horigin
    obtain ⟨hother, hopen⟩ := hproxy.fdOf_some hopen
    have hold : owner ≠ key ∨ reg ∈ stale →
        fd ≠ open_ := fun hstrange =>
      h.strange reg fd owner data horigin hstrange socket open_ hopen
    rcases hstrange with hforeign | hmem
    · exact hold (.inl hforeign)
    · rcases List.mem_append.mp hmem with hmem | hmem
      · exact hold (.inr hmem)
      · -- A leaked registration is on the descriptor of what went.
        obtain ⟨_, socket', hof, hreg⟩ := hleaked reg hmem
        obtain ⟨fd', hfd', horigin'⟩ := h.held socket' reg hreg
        rw [horigin] at horigin'
        simp only [Option.some.injEq, Prod.mk.injEq] at horigin'
        rintro rfl
        have hsame : open_ = fd' := Int.natCast_inj.mp horigin'.1
        rw [← hsame] at hfd'
        rw [h.apart socket socket' open_ hopen hfd'] at hother
        exact hother hof

end Accounted

end Netflector.Reflector.Dial
