import Netflector.Reflector.Dial.Behind
import Netflector.Reflector.Dial.Learning

/-!
# The life of a connection

Each turn of a proxy logs from an empty log on.  What happened on a connection
over all turns is its life, and the invariants of a single long run hold of it.
-/

namespace Netflector.Reflector.Dial

open Netflector.Foundation
open Netflector.Net
open Netflector.Net.Http
open Netflector.Reactor

/-- A connection between two turns of its proxy: it is alive, its framers are
of their sides' kinds, and what it learned was taken off it. -/
structure Living (connection : Connection) (life : List Event) : Prop where
  alive : ∃ setup, Alive setup connection life
  request : connection.c2u.framer.kind = .request
  response : connection.u2c.framer.kind = .response
  learned : connection.learnedRest = none

section Life

variable {setup : Setup} {connection connection' : Connection}
  {life : List Event} {world world' : World} {edge : Edge} {outcome : Outcome}

theorem living_connection (setup : Setup) : Living setup.connection [] :=
  ⟨⟨setup, alive_connection setup⟩, rfl, rfl, rfl⟩

theorem Alive.forget (h : Alive setup connection life) :
    Alive setup { connection with learnedRest := none } life := by
  refine ⟨⟨h.whole.client, h.whole.device, ?_⟩, ?_, h.unfinished⟩
  · intro direction
    have hspliced := h.whole.spliced direction
    cases direction <;> exact hspliced.congr rfl rfl rfl
  · intro direction
    have hregistered := h.registered direction
    cases direction <;> exact hregistered

theorem Whole.hears (h : Whole setup connection life) :
    connection.Hears life := by
  intro direction
  obtain ⟨live, hlive, hread⟩ := (h.spliced direction).carried.recv
  exact ⟨live, hlive, _, hread⟩

theorem onEdge_behind (connection : Connection) (edge : Edge) (world : World)
    (past : List Event) :
    connection.onEdge edge (world.behind past) =
      (connection.onEdge edge world).map (later past) := by
  cases edge with
  | readable fd => exact connection.readable_behind world past fd
  | writable fd => exact connection.writable_behind world past fd

def Connection.edgeDirection (connection : Connection) : Edge → Direction
  | .readable fd =>
      if connection.client.fd = fd then .clientToDevice else .deviceToClient
  | .writable fd =>
      if connection.device.fd = fd then .clientToDevice else .deviceToClient

theorem onEdge_tends (hhears : connection.Hears world.log)
    (h : connection.onEdge edge world = .ok (connection', world', outcome)) :
    Tends (connection.edgeDirection edge) connection world connection'
      world' := by
  cases edge with
  | readable fd => exact forward_tends hhears h
  | writable fd => exact (onWritable_tends h).1

structure Lived (connection : Connection) (life : List Event) (edge : Edge)
    (connection' : Connection) (events : List Event) (outcome : Outcome) :
    Prop where
  keeps : outcome = .keep →
    Living { connection' with learnedRest := none } (life ++ events)
  within : ∀ event ∈ events, event.Within connection.regs
  learned : ∀ endpoint, connection'.learnedRest = some endpoint →
    connection.edgeDirection edge = .deviceToClient ∧
      (∃ fd, edge = .readable fd) ∧
      Learned connection.device.fd connection.client.fd endpoint
        (life ++ events)

theorem Living.lived {kernel : Kernel} (h : Living connection life)
    (hrun : connection.onEdge edge ⟨kernel, []⟩ =
      .ok (connection', world', outcome)) :
    Lived connection life edge connection' world'.log outcome := by
  obtain ⟨setup, halive⟩ := h.alive
  have hlog : ((⟨kernel, []⟩ : World).behind life).log = life :=
    List.append_nil life
  have hbehind : connection.onEdge edge ((⟨kernel, []⟩ : World).behind life) =
      .ok (connection', world'.behind life, outcome) := by
    rw [onEdge_behind, hrun]
    rfl
  have halive' : Alive setup connection
      ((⟨kernel, []⟩ : World).behind life).log := by
    rw [hlog]
    exact halive
  have htends := onEdge_tends halive'.whole.hears hbehind
  have hkinds : ∀ side, (connection.context side).flow.framer.kind =
      .response → side = .deviceToClient := by
    intro side hresponse
    cases side with
    | clientToDevice =>
        rw [Connection.context, h.request] at hresponse
        cases hresponse
    | deviceToClient => rfl
  constructor
  · intro hkeep
    subst hkeep
    refine ⟨⟨setup, (halive'.onEdge hbehind).forget⟩, ?_, ?_, rfl⟩
    · exact (htends.kind .clientToDevice).trans h.request
    · exact (htends.kind .deviceToClient).trans h.response
  · obtain ⟨events, hevents, hwithin⟩ := htends.log
    rw [hlog] at hevents
    rw [List.append_cancel_left hevents]
    exact hwithin
  · intro endpoint hsome
    rcases htends.learned with hsame | ⟨found, hfound, hresponse, hlearned⟩
    · rw [hsame, h.learned] at hsome
      cases hsome
    · rw [hsome] at hfound
      cases hfound
      have hdirection := hkinds _ hresponse
      rw [hdirection] at hlearned
      refine ⟨hdirection, ?_, hlearned⟩
      cases edge with
      | readable fd => exact ⟨fd, rfl⟩
      | writable fd =>
          have hmute := (onWritable_tends hbehind).2
          rw [hsome, h.learned] at hmute
          cases hmute

theorem Living.total (h : Living connection life) (kernel : Kernel)
    (hreg : (edge.fd = connection.client.fd ∧ connection.clientReg ≠ none) ∨
      (edge.fd = connection.device.fd ∧ connection.deviceReg ≠ none)) :
    ∃ answer, connection.onEdge edge ⟨kernel, []⟩ = .ok answer := by
  obtain ⟨setup, halive⟩ := h.alive
  have hlog : ((⟨kernel, []⟩ : World).behind life).log = life :=
    List.append_nil life
  have halive' : Alive setup connection
      ((⟨kernel, []⟩ : World).behind life).log := by
    rw [hlog]
    exact halive
  have hne : connection.client.fd ≠ connection.device.fd :=
    halive.whole.fds .clientToDevice
  have htotal : ∃ answer, connection.onEdge edge
      ((⟨kernel, []⟩ : World).behind life) = .ok answer := by
    cases edge with
    | readable fd =>
        apply (connection_forward_spec halive'.whole _).total
        refine ⟨?_, ?_⟩
        · rcases hreg with ⟨hfd, hreg⟩ | ⟨hfd, hreg⟩
          · rw [if_pos (show connection.client.fd = fd from hfd.symm)]
            exact hreg
          · rw [if_neg (fun hsame => hne (hsame.trans hfd))]
            exact hreg
        · intro hopened
          rw [halive'.destReg_of_opened hopened]
          nofun
    | writable fd =>
        apply (onWritable_spec halive'.whole _).total
        rcases hreg with ⟨hfd, hreg⟩ | ⟨hfd, hreg⟩
        · rw [if_neg (fun hsame => hne (hfd.symm.trans hsame.symm))]
          exact hreg
        · rw [if_pos (show connection.device.fd = fd from hfd.symm)]
          exact hreg
  rw [onEdge_behind] at htotal
  cases hrun : connection.onEdge edge ⟨kernel, []⟩ with
  | error panic =>
      rw [hrun] at htotal
      obtain ⟨answer, hanswer⟩ := htotal
      cases hanswer
  | ok answer => exact ⟨answer, rfl⟩

end Life

end Netflector.Reflector.Dial
