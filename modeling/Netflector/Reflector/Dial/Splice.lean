import Netflector.Foundation.History
import Netflector.Reflector.Dial.Connection

/-!
# The splice loses and reorders nothing

What a destination accepted, followed by the send buffer, is what the framer
produced; what the framer consumed, followed by the receive buffer, is what was
read.  Each direction keeps this and does not touch the other one's history.
-/

namespace Netflector.Reflector.Dial

open Netflector.Foundation
open Netflector.Net
open Netflector.Net.Http
open Netflector.Reactor

/-! ## What a log says -/

def Event.readFrom (fd : Nat) : Event → Bytes
  | .recv fd' (.ready bytes) => if fd' = fd then bytes else []
  | _ => []

def Event.acceptedBy (fd : Nat) : Event → Bytes
  | .send fd' offered (.ready count) =>
      if fd' = fd then offered.take count else []
  | _ => []

def Event.producedFor (fd : Nat) : Event → Bytes
  | .framed fd' _ message =>
      if fd' = fd then message.header ++ message.body else []
  | _ => []

def Event.consumedFor (fd : Nat) : Event → Bytes
  | .framed fd' input message =>
      if fd' = fd then input.take message.consumed else []
  | _ => []

def readFrom (fd : Nat) (log : List Event) : Bytes :=
  log.flatMap (Event.readFrom fd)

def acceptedBy (fd : Nat) (log : List Event) : Bytes :=
  log.flatMap (Event.acceptedBy fd)

def producedFor (fd : Nat) (log : List Event) : Bytes :=
  log.flatMap (Event.producedFor fd)

def consumedFor (fd : Nat) (log : List Event) : Bytes :=
  log.flatMap (Event.consumedFor fd)

def Event.Elsewhere (source dest : Nat) : Event → Prop
  | .recv fd _ => fd ≠ source
  | .send fd _ _ => fd ≠ dest
  | .shutdownWrite fd => fd ≠ dest
  | .framed fd _ _ => fd ≠ dest
  | _ => True

theorem flatMap_append_eq {events : List Event} {said : Event → Bytes}
    (hevents : ∀ event ∈ events, said event = []) (log : List Event) :
    (log ++ events).flatMap said = log.flatMap said := by
  rw [List.flatMap_append, List.flatMap_eq_nil_iff.mpr hevents,
    List.append_nil]

section Elsewhere

variable {source dest : Nat} {event : Event}

theorem Event.Elsewhere.readFrom (h : event.Elsewhere source dest) :
    event.readFrom source = [] := by
  cases event with
  | recv fd answer =>
      cases answer with
      | ready bytes => exact if_neg h
      | _ => rfl
  | _ => rfl

theorem Event.Elsewhere.acceptedBy (h : event.Elsewhere source dest) :
    event.acceptedBy dest = [] := by
  cases event with
  | send fd offered answer =>
      cases answer with
      | ready count => exact if_neg h
      | _ => rfl
  | _ => rfl

theorem Event.Elsewhere.producedFor (h : event.Elsewhere source dest) :
    event.producedFor dest = [] := by
  cases event with
  | framed fd input message => exact if_neg h
  | _ => rfl

theorem Event.Elsewhere.consumedFor (h : event.Elsewhere source dest) :
    event.consumedFor dest = [] := by
  cases event with
  | framed fd input message => exact if_neg h
  | _ => rfl

end Elsewhere

/-! ## The invariant of a direction -/

/-- No byte is lost, doubled or reordered between the sockets. -/
structure Carried (source dest : Nat) (recv send : StreamBuffer)
    (log : List Event) : Prop where
  recv : ∃ live, recv.Holds live ∧
    consumedFor dest log ++ live = readFrom source log
  send : ∃ live, send.Holds live ∧
    acceptedBy dest log ++ live = producedFor dest log

theorem Carried.elsewhere {source dest : Nat} {recv send : StreamBuffer}
    {log events : List Event} (h : Carried source dest recv send log)
    (hevents : ∀ event ∈ events, event.Elsewhere source dest) :
    Carried source dest recv send (log ++ events) := by
  obtain ⟨live, hholds, hlive⟩ := h.recv
  obtain ⟨backlog, hbacklog, hsend⟩ := h.send
  constructor
  · refine ⟨live, hholds, ?_⟩
    rw [consumedFor, readFrom,
      flatMap_append_eq fun event hevent => (hevents event hevent).consumedFor,
      flatMap_append_eq fun event hevent => (hevents event hevent).readFrom]
    exact hlive
  · refine ⟨backlog, hbacklog, ?_⟩
    rw [acceptedBy, producedFor,
      flatMap_append_eq fun event hevent => (hevents event hevent).acceptedBy,
      flatMap_append_eq fun event hevent => (hevents event hevent).producedFor]
    exact hsend

def Connected (start : TcpSocket) (log : List Event) : Prop :=
  start.connecting = false ∨ .finishConnect start.fd true ∈ log

/-- When the write half of `start` may be shut. -/
structure MayFinish (source : Nat) (start : TcpSocket) (log : List Event) :
    Prop where
  fresh : .shutdownWrite start.fd ∉ log
  eof : .recv source (.ready []) ∈ log
  flushed : acceptedBy start.fd log = producedFor start.fd log
  connected : Connected start log

structure Finished (source : Nat) (start dest : TcpSocket) (state : FlowState)
    (log : List Event) : Prop where
  fd : dest.fd = start.fd
  eof : state = .sourceClosed → .recv source (.ready []) ∈ log
  once : .shutdownWrite start.fd ∈ log → state = .done
  guarded : Guarded (.shutdownWrite start.fd) (MayFinish source start) log
  connected : dest.connecting = false → Connected start log

theorem Connected.append {start : TcpSocket} {log : List Event}
    (h : Connected start log) (events : List Event) :
    Connected start (log ++ events) := by
  rcases h with hstart | hmem
  · exact .inl hstart
  · exact .inr (List.mem_append_left events hmem)

theorem Finished.append {source : Nat} {start dest : TcpSocket}
    {state : FlowState} {log events : List Event}
    (h : Finished source start dest state log)
    (hevents : .shutdownWrite start.fd ∉ events) :
    Finished source start dest state (log ++ events) := by
  constructor
  · exact h.fd
  · intro hstate
    exact List.mem_append_left events (h.eof hstate)
  · intro hmem
    rcases List.mem_append.mp hmem with hmem | hmem
    · exact h.once hmem
    · exact absurd hmem hevents
  · exact h.guarded.append hevents
  · intro hconnected
    exact (h.connected hconnected).append events

theorem not_mem_of_elsewhere {source dest : Nat} {events : List Event}
    (hevents : ∀ event ∈ events, event.Elsewhere source dest) :
    .shutdownWrite dest ∉ events := by
  intro hmem
  exact hevents _ hmem rfl

/-! ## Sending -/

theorem splitRemainder_spec {header body : Bytes} {sent : Nat}
    (hsent : sent ≤ header.length + body.length) :
    ∃ headerTail bodyTail,
      splitRemainder header body sent = .ok (headerTail, bodyTail) ∧
        headerTail ++ bodyTail = (header ++ body).drop sent := by
  unfold splitRemainder
  split
  · rename_i hheader
    have hslice : slice? body (sent - header.length) body.length =
        some (body.drop (sent - header.length)) := by
      rw [slice?_eq_some_iff]
      refine ⟨by omega, Nat.le_refl _, ?_⟩
      symm
      apply List.take_of_length_le
      exact Nat.le_of_eq List.length_drop
    simp only [hslice, orPanic_some]
    refine ⟨[], _, rfl, ?_⟩
    rw [List.nil_append, List.drop_append,
      List.drop_of_length_le (by omega : header.length ≤ sent),
      List.nil_append]
  · rename_i hbody
    refine ⟨_, _, rfl, ?_⟩
    rw [List.drop_append_of_le_length (by omega)]

theorem bufferTail_spec {send : StreamBuffer} {backlog : Bytes}
    (hsend : send.Holds backlog) (header body : Bytes) :
    ∃ send' outcome, bufferTail send header body = .ok (send', outcome) ∧
      (outcome = .keep → send'.Holds (backlog ++ (header ++ body))) := by
  unfold bufferTail
  rcases hsend.append header with ⟨_, hfull⟩ | ⟨_, first, hfirst, hholds, _⟩
  · refine ⟨send, .close, ?_, ?_⟩
    · rw [hfull]
      rfl
    · intro hkeep
      cases hkeep
  · rcases hholds.append body with ⟨_, hfull⟩ | ⟨_, second, hsecond, hboth, _⟩
    · refine ⟨first, .close, ?_, ?_⟩
      · simp only [hfirst, hfull, bind, Except.bind]
      · intro hkeep
        cases hkeep
    · refine ⟨second, .keep, ?_, ?_⟩
      · simp only [hfirst, hsecond, bind, Except.bind]
      · intro _
        rw [← List.append_assoc]
        exact hboth

def DirectionContext.sending (ctx : DirectionContext) (send : StreamBuffer)
    (deadline : Nat) : DirectionContext :=
  { ctx with flow := { ctx.flow with send := send }, deadline := deadline }

def Handed (ctx : DirectionContext) (world : World) (backlog bytes : Bytes)
    (ctx' : DirectionContext) (world' : World) : Prop :=
  ∃ send deadline events backlog',
    ctx' = ctx.sending send deadline ∧ send.Holds backlog' ∧
    world'.log = world.log ++ events ∧
    (∀ event ∈ events, ∃ offered answer,
      event = .send ctx.dest.fd offered answer) ∧
    acceptedBy ctx.dest.fd events ++ backlog' = backlog ++ bytes

theorem world_send_spec (world : World) (socket : TcpSocket)
    (offered : Bytes) :
    ∃ answer,
      world.send socket offered =
        (world.record (.send socket.fd offered answer), answer) ∧
      ∀ sent, answer.sent = some sent → sent ≤ offered.length := by
  refine ⟨_, rfl, ?_⟩
  intro sent hsent
  cases hkernel : world.kernel.send world.log.length with
  | ready count =>
      simp only [hkernel, IoResult.sent, Option.some.injEq] at hsent
      omega
  | wouldBlock =>
      simp only [hkernel, IoResult.sent, Option.some.injEq] at hsent
      omega
  | failed =>
      simp only [hkernel, IoResult.sent] at hsent
      cases hsent

theorem acceptedBy_send {fd sent : Nat} {offered : Bytes}
    {answer : IoResult Nat} (h : answer.sent = some sent) :
    acceptedBy fd [.send fd offered answer] = offered.take sent := by
  cases answer with
  | ready count =>
      cases h
      simp [acceptedBy, Event.acceptedBy]
  | wouldBlock =>
      cases h
      simp [acceptedBy, Event.acceptedBy]
  | failed => cases h

theorem handed_send {ctx : DirectionContext} {world : World}
    {offered bytes backlog backlog' : Bytes} {answer : IoResult Nat}
    {sent : Nat} {send : StreamBuffer} (hsent : answer.sent = some sent)
    (hholds : send.Holds backlog')
    (hrest : offered.take sent ++ backlog' = backlog ++ bytes)
    (deadline : Nat) :
    Handed ctx world backlog bytes (ctx.sending send deadline)
      (world.record (.send ctx.dest.fd offered answer)) := by
  refine ⟨send, deadline, [_], backlog', rfl, hholds, rfl, ?_, ?_⟩
  · intro event hevent
    rw [List.mem_singleton] at hevent
    exact ⟨offered, answer, hevent⟩
  · rw [acceptedBy_send hsent]
    exact hrest

theorem sendFramed_spec (ctx : DirectionContext) (world : World)
    (header body : Bytes) {backlog : Bytes}
    (hsend : ctx.flow.send.Holds backlog) :
    ∃ ctx' world' outcome,
      ctx.sendFramed world header body = .ok (ctx', world', outcome) ∧
        (outcome = .keep →
          Handed ctx world backlog (header ++ body) ctx' world') := by
  unfold DirectionContext.sendFramed
  by_cases hbuffered : !ctx.flow.send.isEmpty ∨ ctx.dest.connecting
  · rw [if_pos hbuffered]
    obtain ⟨send, outcome, htail, hholds⟩ := bufferTail_spec hsend header body
    simp only [htail, bind, Except.bind]
    refine ⟨_, _, outcome, rfl, ?_⟩
    intro hkeep
    refine ⟨send, ctx.deadline, [], _, rfl, hholds hkeep, ?_, ?_, rfl⟩
    · rw [List.append_nil]
    · intro event hevent
      cases hevent
  rw [if_neg hbuffered]
  have hempty : backlog = [] := by
    rw [← hsend.isEmpty_iff]
    cases hback : ctx.flow.send.isEmpty with
    | true => rfl
    | false => simp [hback] at hbuffered
  subst hempty
  obtain ⟨answer, hanswer, hbound⟩ :=
    world_send_spec world ctx.dest (header ++ body)
  simp only [hanswer]
  cases hsent : answer.sent with
  | none =>
      refine ⟨_, _, _, rfl, ?_⟩
      intro hkeep
      cases hkeep
  | some sent =>
      have hle := hbound sent hsent
      rw [List.length_append] at hle
      simp only
      generalize hdeadline : (if 0 < sent then
        { ctx with deadline := _ } else ctx) = moved
      obtain ⟨deadline, rfl⟩ : ∃ deadline,
          moved = ctx.sending ctx.flow.send deadline := by
        rw [← hdeadline]
        split
        · exact ⟨_, rfl⟩
        · exact ⟨_, rfl⟩
      by_cases hall : sent = header.length + body.length
      · rw [if_pos hall]
        refine ⟨_, _, _, rfl, ?_⟩
        intro _
        apply handed_send hsent hsend
        rw [List.append_nil, List.nil_append, List.take_of_length_le]
        rw [List.length_append]
        omega
      · rw [if_neg hall]
        obtain ⟨headerTail, bodyTail, hsplit, htails⟩ :=
          splitRemainder_spec hle
        obtain ⟨send, outcome, htail, hholds⟩ :=
          bufferTail_spec hsend headerTail bodyTail
        simp only [DirectionContext.sending, hsplit, htail, bind, Except.bind]
        refine ⟨_, _, outcome, rfl, ?_⟩
        intro hkeep
        apply handed_send hsent (hholds hkeep)
        rw [List.nil_append, List.nil_append, htails, List.take_append_drop]

/-! ## One direction at work -/

/-- The invariant of a direction whose destination was `start` at first. -/
structure Spliced (start : TcpSocket) (ctx : DirectionContext)
    (log : List Event) : Prop where
  carried : Carried ctx.source.fd ctx.dest.fd ctx.flow.recv ctx.flow.send log
  finished : Finished ctx.source.fd start ctx.dest ctx.flow.state log

structure Advanced (ctx : DirectionContext) (world : World)
    (ctx' : DirectionContext) (world' : World) : Prop where
  source : ctx'.source = ctx.source
  sourceReg : ctx'.sourceReg = ctx.sourceReg
  dest : ctx'.dest = ctx.dest
  destReg : ctx'.destReg = ctx.destReg
  log : ∃ events, world'.log = world.log ++ events ∧
    ∀ event ∈ events, event.Elsewhere ctx.dest.fd ctx.source.fd ∧
      ∀ reg answer, event ≠ .unwatch reg answer

theorem Advanced.refl (ctx : DirectionContext) (world : World) :
    Advanced ctx world ctx world := by
  refine ⟨rfl, rfl, rfl, rfl, [], ?_, ?_⟩
  · rw [List.append_nil]
  · intro event hevent
    cases hevent

theorem Advanced.trans {ctx between ctx' : DirectionContext}
    {world middle world' : World} (h : Advanced ctx world between middle)
    (h' : Advanced between middle ctx' world') :
    Advanced ctx world ctx' world' := by
  obtain ⟨events, hlog, hevents⟩ := h.log
  obtain ⟨events', hlog', hevents'⟩ := h'.log
  constructor
  · rw [h'.source, h.source]
  · rw [h'.sourceReg, h.sourceReg]
  · rw [h'.dest, h.dest]
  · rw [h'.destReg, h.destReg]
  · refine ⟨events ++ events', ?_, ?_⟩
    · rw [hlog', hlog, List.append_assoc]
    · intro event hevent
      rcases List.mem_append.mp hevent with hevent | hevent
      · exact hevents event hevent
      · have := hevents' event hevent
        rwa [h.dest, h.source] at this

theorem Advanced.record {ctx : DirectionContext} (world : World)
    (event : Event) (hevent : event.Elsewhere ctx.dest.fd ctx.source.fd)
    (hwatch : ∀ reg answer, event ≠ .unwatch reg answer) (flow : Flow)
    (learnedRest : Option SocketAddrV4) (deadline : Nat) :
    Advanced ctx world
      { ctx with flow := flow, learnedRest := learnedRest, deadline := deadline }
      (world.record event) := by
  refine ⟨rfl, rfl, rfl, rfl, [event], rfl, ?_⟩
  intro event' hevent'
  rw [List.mem_singleton] at hevent'
  subst hevent'
  exact ⟨hevent, hwatch⟩

theorem Handed.advanced {ctx ctx' : DirectionContext} {world world' : World}
    {backlog bytes : Bytes} (h : Handed ctx world backlog bytes ctx' world')
    (hne : ctx.source.fd ≠ ctx.dest.fd) : Advanced ctx world ctx' world' := by
  obtain ⟨send, deadline, events, backlog', rfl, _, hlog, hevents, _⟩ := h
  refine ⟨rfl, rfl, rfl, rfl, events, hlog, ?_⟩
  intro event hevent
  obtain ⟨offered, answer, rfl⟩ := hevents event hevent
  refine ⟨hne.symm, ?_⟩
  intro reg answer' hunwatch
  cases hunwatch

theorem Handed.silent {ctx ctx' : DirectionContext} {world world' : World}
    {backlog bytes : Bytes} (h : Handed ctx world backlog bytes ctx' world') :
    readFrom ctx.source.fd world'.log = readFrom ctx.source.fd world.log ∧
    consumedFor ctx.dest.fd world'.log = consumedFor ctx.dest.fd world.log ∧
    producedFor ctx.dest.fd world'.log = producedFor ctx.dest.fd world.log := by
  obtain ⟨send, deadline, events, backlog', rfl, _, hlog, hevents, _⟩ := h
  rw [hlog]
  refine ⟨flatMap_append_eq ?_ _, flatMap_append_eq ?_ _,
    flatMap_append_eq ?_ _⟩
  all_goals
    intro event hevent
    obtain ⟨offered, answer, rfl⟩ := hevents event hevent
    rfl

theorem Handed.send {ctx ctx' : DirectionContext} {world world' : World}
    {backlog bytes : Bytes} (h : Handed ctx world backlog bytes ctx' world')
    (hproduced : acceptedBy ctx.dest.fd world.log ++ (backlog ++ bytes) =
      producedFor ctx.dest.fd world.log) :
    ∃ live, ctx'.flow.send.Holds live ∧
      acceptedBy ctx.dest.fd world'.log ++ live =
        producedFor ctx.dest.fd world'.log := by
  obtain ⟨_, _, hquiet⟩ := h.silent
  obtain ⟨send, deadline, events, backlog', rfl, hholds, hlog, _, hrest⟩ := h
  refine ⟨backlog', hholds, ?_⟩
  rw [hquiet, ← hproduced, ← hrest, hlog, acceptedBy, acceptedBy, acceptedBy,
    List.flatMap_append, List.append_assoc]

theorem Handed.finished {source : Nat} {start dest : TcpSocket}
    {state : FlowState} {ctx ctx' : DirectionContext} {world world' : World}
    {backlog bytes : Bytes} (h : Handed ctx world backlog bytes ctx' world')
    (hfinished : Finished source start dest state world.log) :
    Finished source start dest state world'.log := by
  obtain ⟨send, deadline, events, backlog', rfl, _, hlog, hevents, _⟩ := h
  rw [hlog]
  apply hfinished.append
  intro hmem
  obtain ⟨offered, answer, hsend⟩ := hevents _ hmem
  cases hsend

theorem Handed.spliced {start : TcpSocket} {ctx ctx' : DirectionContext}
    {world world' : World} {live backlog bytes : Bytes} {recv : StreamBuffer}
    (h : Handed ctx world backlog bytes ctx' world') (hlive : recv.Holds live)
    (hconsumed : consumedFor ctx.dest.fd world.log ++ live =
      readFrom ctx.source.fd world.log)
    (hproduced : acceptedBy ctx.dest.fd world.log ++ (backlog ++ bytes) =
      producedFor ctx.dest.fd world.log)
    (hfinished : Finished ctx.source.fd start ctx.dest ctx.flow.state
      world.log) :
    Spliced start { ctx' with flow := { ctx'.flow with recv := recv } }
      world'.log := by
  obtain ⟨hread, hquiet, _⟩ := h.silent
  have hsend := h.send hproduced
  have hfinal := h.finished hfinished
  obtain ⟨send, deadline, events, backlog', rfl, _⟩ := h
  refine ⟨⟨⟨live, hlive, ?_⟩, hsend⟩, hfinal⟩
  rw [← hread, ← hquiet] at hconsumed
  exact hconsumed

theorem carried_framed {ctx : DirectionContext} {world : World}
    {live backlog : Bytes}
    (hconsumed : consumedFor ctx.dest.fd world.log ++ live =
      readFrom ctx.source.fd world.log)
    (hproduced : acceptedBy ctx.dest.fd world.log ++ backlog =
      producedFor ctx.dest.fd world.log) (message : Framed) :
    let log := (world.record (.framed ctx.dest.fd live message)).log
    consumedFor ctx.dest.fd log ++ live.drop message.consumed =
        readFrom ctx.source.fd log ∧
      acceptedBy ctx.dest.fd log ++ (backlog ++ (message.header ++ message.body)) =
        producedFor ctx.dest.fd log := by
  intro log
  constructor
  · simp only [log, World.record, consumedFor, readFrom, List.flatMap_append,
      List.flatMap_singleton, Event.consumedFor, Event.readFrom, if_true,
      List.append_nil, List.append_assoc, List.take_append_drop]
    exact hconsumed
  · simp only [log, World.record, acceptedBy, producedFor,
      List.flatMap_append, List.flatMap_singleton, Event.acceptedBy,
      Event.producedFor, if_true, List.append_nil]
    rw [← List.append_assoc]
    congr 1

theorem forwardFramed_spec {start : TcpSocket} (rounds : Nat)
    {ctx : DirectionContext} {world : World}
    (h : Spliced start ctx world.log) (hne : ctx.source.fd ≠ ctx.dest.fd) :
    ∃ ctx' world' forwarded,
      DirectionContext.forwardFramed rounds ctx world =
        .ok (ctx', world', forwarded) ∧
      forwarded ≠ .sourceEof ∧
      (forwarded = .opened →
        Spliced start ctx' world'.log ∧ Advanced ctx world ctx' world' ∧
          ctx'.flow.state = ctx.flow.state) := by
  induction rounds generalizing ctx world with
  | zero =>
      refine ⟨ctx, world, .opened, rfl, nofun, ?_⟩
      intro _
      exact ⟨h, .refl ctx world, rfl⟩
  | succ rounds ih =>
      obtain ⟨live, hlive, hconsumed⟩ := h.carried.recv
      obtain ⟨backlog, hbacklog, hproduced⟩ := h.carried.send
      simp only [DirectionContext.forwardFramed, hlive.pending, bind,
        Except.bind]
      cases hfeed : ctx.flow.framer.feed live with
      | error error =>
          refine ⟨ctx, world, .failed, rfl, nofun, ?_⟩
          intro hopened
          cases hopened
      | ok fed =>
          obtain ⟨framer, message⟩ := fed
          let event := Event.framed ctx.dest.fd live message
          let fedCtx := { ctx with
            flow := { ctx.flow with framer := framer }
            learnedRest := message.applicationUrl.or ctx.learnedRest }
          obtain ⟨hconsumed', hproduced'⟩ :=
            carried_framed hconsumed hproduced message
          have hadvanced : Advanced ctx world fedCtx (world.record event) :=
            Advanced.record world event hne.symm nofun _ _ _
          have hfinished : Finished ctx.source.fd start ctx.dest
              ctx.flow.state (world.record event).log := by
            apply h.finished.append
            simp [event]
          simp only
          split
          · rename_i hnone
            obtain ⟨hheader, hbody⟩ := feed_nothing hfeed hnone
            refine ⟨fedCtx, _, .opened, rfl, nofun, ?_⟩
            intro _
            refine ⟨⟨⟨⟨live, hlive, ?_⟩, backlog, hbacklog, ?_⟩, hfinished⟩,
              hadvanced, rfl⟩
            · rw [hnone, List.drop_zero] at hconsumed'
              exact hconsumed'
            · rw [hheader, hbody, List.append_nil, List.append_nil]
                at hproduced'
              exact hproduced'
          · obtain ⟨sentCtx, sentWorld, outcome, hsent, hhanded⟩ :=
              sendFramed_spec fedCtx (world.record event) message.header
                message.body hbacklog
            simp only [fedCtx, event] at hsent
            simp only [hsent]
            cases outcome with
            | close =>
                refine ⟨sentCtx, sentWorld, .failed, rfl, nofun, ?_⟩
                intro hopened
                cases hopened
            | keep =>
                have hspliced := (hhanded rfl).spliced
                  (hlive.consume message.consumed) hconsumed' hproduced'
                  hfinished
                have hsentAdvanced := (hhanded rfl).advanced hne
                obtain ⟨send, deadline, _, _, rfl, _⟩ := hhanded rfl
                obtain ⟨ctx', world', forwarded, hrun, heof, hopened⟩ :=
                  ih hspliced hne
                refine ⟨ctx', world', forwarded, hrun, heof, ?_⟩
                intro hforwarded
                obtain ⟨hfinal, hrest, hstate⟩ := hopened hforwarded
                refine ⟨hfinal, ?_, hstate⟩
                exact (hadvanced.trans hsentAdvanced).trans
                  ⟨hrest.source, hrest.sourceReg, hrest.dest, hrest.destReg,
                    hrest.log⟩

theorem Spliced.received {start : TcpSocket} {ctx : DirectionContext}
    {log : List Event} (h : Spliced start ctx log) {live : Bytes}
    (hconsumed : consumedFor ctx.dest.fd log ++ live =
      readFrom ctx.source.fd log) {recv : StreamBuffer}
    (answer : IoResult Bytes)
    (hrecv : recv.Holds (live ++
      (Event.recv ctx.source.fd answer).readFrom ctx.source.fd)) :
    Spliced start { ctx with flow := { ctx.flow with recv := recv } }
      (log ++ [.recv ctx.source.fd answer]) := by
  obtain ⟨backlog, hbacklog, hproduced⟩ := h.carried.send
  refine ⟨⟨⟨_, hrecv, ?_⟩, backlog, hbacklog, ?_⟩, h.finished.append (by simp)⟩
  · simp only [consumedFor, readFrom, List.flatMap_append,
      List.flatMap_singleton, Event.consumedFor, List.append_nil,
      ← List.append_assoc]
    congr 1
  · simp only [acceptedBy, producedFor, List.flatMap_append,
      List.flatMap_singleton, Event.acceptedBy, Event.producedFor,
      List.append_nil]
    exact hproduced

theorem world_recv_spec (world : World) (socket : TcpSocket) (room : Nat) :
    ∃ answer,
      world.recv socket room =
        (world.record (.recv socket.fd answer), answer) ∧
      ∀ bytes, answer = .ready bytes → bytes.length ≤ room := by
  refine ⟨_, rfl, ?_⟩
  intro bytes hbytes
  cases hkernel : world.kernel.recv world.log.length with
  | ready read =>
      simp only [hkernel, IoResult.ready.injEq] at hbytes
      subst hbytes
      exact List.length_take_le _ _
  | wouldBlock =>
      rw [hkernel] at hbytes
      cases hbytes
  | failed =>
      rw [hkernel] at hbytes
      cases hbytes

theorem forward_spec {start : TcpSocket} {ctx : DirectionContext}
    {world : World} (h : Spliced start ctx world.log)
    (hne : ctx.source.fd ≠ ctx.dest.fd) :
    ∃ ctx' world' forwarded,
      ctx.forward world = .ok (ctx', world', forwarded) ∧
      (forwarded ≠ .failed →
        Spliced start ctx' world'.log ∧ Advanced ctx world ctx' world' ∧
          ctx'.flow.state = ctx.flow.state) ∧
      (forwarded = .sourceEof →
        .recv ctx.source.fd (.ready []) ∈ world'.log) := by
  obtain ⟨live, hlive, hconsumed⟩ := h.carried.recv
  obtain ⟨recv, room, hfree, hrecv, _, hallocated, hroom, _⟩ :=
    hlive.freeTailMut
  simp only [DirectionContext.forward, hfree, bind, Except.bind]
  split
  · exact ⟨_, _, .failed, rfl, nofun, nofun⟩
  obtain ⟨answer, hanswer, hbound⟩ := world_recv_spec world ctx.source room
  simp only [hanswer]
  have hadvanced (flow : Flow) : Advanced ctx world
      { ctx with flow := flow } (world.record (.recv ctx.source.fd answer)) :=
    Advanced.record world (.recv ctx.source.fd answer) hne nofun flow _ _
  cases answer with
  | failed => exact ⟨_, _, .failed, rfl, nofun, nofun⟩
  | wouldBlock =>
      refine ⟨_, _, .opened, rfl, ?_, nofun⟩
      intro _
      refine ⟨h.received hconsumed .wouldBlock ?_, hadvanced _, rfl⟩
      show recv.Holds (live ++ [])
      rwa [List.append_nil]
  | ready bytes =>
      have hread : (Event.recv ctx.source.fd (.ready bytes)).readFrom
          ctx.source.fd = bytes := if_pos rfl
      simp only
      split
      · rename_i hempty
        rw [List.length_eq_zero_iff] at hempty
        subst hempty
        refine ⟨_, _, .sourceEof, rfl, ?_, ?_⟩
        · intro _
          refine ⟨h.received hconsumed (.ready []) ?_, hadvanced _, rfl⟩
          rwa [hread, List.append_nil]
        · intro _
          exact List.mem_append_right _ (List.mem_singleton_self _)
      · have hfits : recv.filled + bytes.length ≤ recv.capacity := by
          have := hbound bytes rfl
          omega
        let filled := (recv.fillTail bytes).commit bytes.length
        have hspliced : Spliced start
            { ctx with flow := { ctx.flow with recv := filled } }
            (world.record (.recv ctx.source.fd (.ready bytes))).log := by
          apply h.received hconsumed
          rw [hread]
          exact hrecv.receive hallocated hfits
        obtain ⟨ctx', world', forwarded, hrun, heof, hopened⟩ :=
          forwardFramed_spec (filled.len + 1) hspliced hne
        refine ⟨ctx', world', forwarded, hrun, ?_, ?_⟩
        · intro hforwarded
          have hopen : forwarded = .opened := by
            cases forwarded with
            | opened => rfl
            | sourceEof => exact absurd rfl heof
            | failed => exact absurd rfl hforwarded
          obtain ⟨hfinal, hrest, hstate⟩ := hopened hopen
          exact ⟨hfinal, (hadvanced _).trans hrest, hstate⟩
        · intro hforwarded
          exact absurd hforwarded heof

/-! ## Settling -/

theorem world_ask_spec (world : World) (event : Bool → Event) :
    ∃ answer, world.ask event = (world.record (event answer), answer) :=
  ⟨_, rfl⟩

theorem Spliced.noted {start : TcpSocket} {ctx : DirectionContext}
    {log : List Event} (h : Spliced start ctx log) {event : Event}
    (hevent : event.Elsewhere ctx.source.fd ctx.dest.fd) :
    Spliced start ctx (log ++ [event]) := by
  have hevents : ∀ event' ∈ [event],
      event'.Elsewhere ctx.source.fd ctx.dest.fd := by
    intro event' hevent'
    rw [List.mem_singleton] at hevent'
    rwa [hevent']
  refine ⟨h.carried.elsewhere hevents, h.finished.append ?_⟩
  rw [← h.finished.fd]
  exact not_mem_of_elsewhere hevents

theorem syncWriteInterest_spec {start : TcpSocket} {ctx : DirectionContext}
    {world : World} (h : Spliced start ctx world.log) {reg : RegKey}
    (hreg : ctx.destReg = some reg) :
    ∃ world' outcome,
      ctx.syncWriteInterest world = .ok (world', outcome) ∧
        Spliced start ctx world'.log ∧ Advanced ctx world ctx world' := by
  let armed := !ctx.flow.send.isEmpty || ctx.dest.connecting
  obtain ⟨answer, hanswer⟩ :=
    world_ask_spec world (.setWriteInterest reg armed)
  simp only [DirectionContext.syncWriteInterest, hreg, orPanic_some, bind,
    Except.bind, armed] at hanswer ⊢
  rw [hanswer]
  refine ⟨_, _, rfl, h.noted trivial, ?_⟩
  exact Advanced.record world (.setWriteInterest reg _ answer) trivial nofun
    ctx.flow _ _

/-- The write half is shut: the one place where it is. -/
theorem Spliced.shut {start : TcpSocket} {ctx : DirectionContext}
    {log : List Event} (h : Spliced start ctx log)
    (hstate : ctx.flow.state = .sourceClosed)
    (hempty : ctx.flow.send.isEmpty = true)
    (hconnected : ctx.dest.connecting = false) :
    Spliced start { ctx with flow := { ctx.flow with state := .done } }
      (log ++ [.shutdownWrite ctx.dest.fd]) := by
  obtain ⟨live, hlive, hconsumed⟩ := h.carried.recv
  obtain ⟨backlog, hbacklog, hproduced⟩ := h.carried.send
  have hflushed : acceptedBy ctx.dest.fd log = producedFor ctx.dest.fd log := by
    rw [hbacklog.isEmpty_iff.mp hempty, List.append_nil] at hproduced
    exact hproduced
  constructor
  · refine ⟨⟨live, hlive, ?_⟩, backlog, hbacklog, ?_⟩
    · simpa [consumedFor, readFrom, Event.consumedFor, Event.readFrom]
        using hconsumed
    · simpa [acceptedBy, producedFor, Event.acceptedBy, Event.producedFor]
        using hproduced
  · have hfinished := h.finished
    have hfresh : .shutdownWrite start.fd ∉ log := by
      intro hmem
      rw [hfinished.once hmem] at hstate
      cases hstate
    rw [hfinished.fd] at hflushed ⊢
    constructor
    · exact hfinished.fd
    · intro hclosed
      cases hclosed
    · intro _
      rfl
    · refine Guarded.mark ?_ hfresh
      exact ⟨hfresh, hfinished.eof hstate, hflushed,
        hfinished.connected hconnected⟩
    · intro _
      exact (hfinished.connected hconnected).append _

def Settles (state state' : FlowState) : Prop :=
  state' = state ∨ (state = .sourceClosed ∧ state' = .done)

theorem settle_spec {start : TcpSocket} {ctx : DirectionContext}
    {world : World} (h : Spliced start ctx world.log)
    (hne : ctx.source.fd ≠ ctx.dest.fd) {reg : RegKey}
    (hreg : ctx.destReg = some reg) :
    ∃ ctx' world' outcome,
      ctx.settle world = .ok (ctx', world', outcome) ∧
        Spliced start ctx' world'.log ∧ Advanced ctx world ctx' world' ∧
        Settles ctx.flow.state ctx'.flow.state := by
  unfold DirectionContext.settle
  by_cases hshut : ctx.flow.state = .sourceClosed ∧ ctx.flow.send.isEmpty ∧
      !ctx.dest.connecting
  · obtain ⟨hstate, hempty, hconnected⟩ := hshut
    have hspliced := h.shut hstate hempty (by simpa using hconnected)
    let shutCtx := { ctx with flow := { ctx.flow with state := .done } }
    let shutWorld := world.shutdownWrite ctx.dest
    have hadvanced : Advanced ctx world shutCtx shutWorld :=
      Advanced.record world (.shutdownWrite ctx.dest.fd) hne.symm nofun _ _ _
    obtain ⟨world', outcome, hsync, hfinal, hrest⟩ :=
      syncWriteInterest_spec (show Spliced start shutCtx shutWorld.log
        from hspliced) hreg
    rw [if_pos ⟨hstate, hempty, hconnected⟩]
    simp only [shutCtx, shutWorld] at hsync
    simp only [hsync, bind, Except.bind]
    exact ⟨_, world', outcome, rfl, hfinal, hadvanced.trans hrest,
      .inr ⟨hstate, rfl⟩⟩
  · obtain ⟨world', outcome, hsync, hfinal, hadvanced⟩ :=
      syncWriteInterest_spec h hreg
    rw [if_neg hshut]
    simp only [hsync, bind, Except.bind]
    exact ⟨ctx, world', outcome, rfl, hfinal, hadvanced, .inl rfl⟩

theorem halfClose_spec {start : TcpSocket} {ctx : DirectionContext}
    {world : World} (h : Spliced start ctx world.log)
    (hne : ctx.source.fd ≠ ctx.dest.fd) (hstate : ctx.flow.state = .opened)
    (heof : .recv ctx.source.fd (.ready []) ∈ world.log)
    {sourceReg destReg : RegKey} (hsource : ctx.sourceReg = some sourceReg)
    (hdest : ctx.destReg = some destReg) :
    ∃ ctx' world' outcome,
      ctx.halfClose world = .ok (ctx', world', outcome) ∧
        (outcome = .keep →
          Spliced start ctx' world'.log ∧ Advanced ctx world ctx' world' ∧
            ctx'.flow.state ≠ .opened) := by
  obtain ⟨answer, hanswer⟩ :=
    world_ask_spec world (.setReadInterest sourceReg false)
  simp only [DirectionContext.halfClose, hsource, orPanic_some, bind,
    Except.bind, hanswer]
  have hnoted : Spliced start ctx
      (world.record (.setReadInterest sourceReg false answer)).log :=
    h.noted trivial
  have hadvanced (flow : Flow) : Advanced ctx world { ctx with flow := flow }
      (world.record (.setReadInterest sourceReg false answer)) :=
    Advanced.record world (.setReadInterest sourceReg false answer) trivial
      nofun flow _ _
  cases answer with
  | false => exact ⟨_, _, .close, rfl, nofun⟩
  | true =>
      let closedCtx := { ctx with
        flow := { ctx.flow with state := .sourceClosed } }
      have hclosed : Spliced start closedCtx
          (world.record (.setReadInterest sourceReg false true)).log := by
        refine ⟨hnoted.carried, ?_⟩
        have hfinished := hnoted.finished
        constructor
        · exact hfinished.fd
        · intro _
          exact List.mem_append_left _ heof
        · intro hmem
          have hdone := hfinished.once hmem
          rw [hstate] at hdone
          cases hdone
        · exact hfinished.guarded
        · exact hfinished.connected
      obtain ⟨ctx', world', outcome, hsettle, hfinal, hrest, hstates⟩ :=
        settle_spec hclosed hne hdest
      refine ⟨ctx', world', outcome, ?_, ?_⟩
      · simpa only [closedCtx, hsource, if_true] using hsettle
      intro _
      refine ⟨hfinal, (hadvanced _).trans hrest, ?_⟩
      rcases hstates with hsame | ⟨_, hdone⟩
      · rw [hsame]
        nofun
      · rw [hdone]
        nofun

theorem drain_spec {start : TcpSocket} {ctx : DirectionContext}
    {world : World} (h : Spliced start ctx world.log)
    (hne : ctx.source.fd ≠ ctx.dest.fd) :
    ∃ ctx' world' outcome,
      ctx.drain world = .ok (ctx', world', outcome) ∧
        (outcome = .keep →
          Spliced start ctx' world'.log ∧ Advanced ctx world ctx' world' ∧
            ctx'.flow.state = ctx.flow.state) := by
  unfold DirectionContext.drain
  split
  · refine ⟨ctx, world, .keep, rfl, ?_⟩
    intro _
    exact ⟨h, .refl ctx world, rfl⟩
  obtain ⟨live, hlive, hconsumed⟩ := h.carried.recv
  obtain ⟨backlog, hbacklog, hproduced⟩ := h.carried.send
  obtain ⟨answer, hanswer, _⟩ := world_send_spec world ctx.dest backlog
  simp only [hbacklog.pending, hanswer, bind, Except.bind]
  -- Whatever the write took leaves the backlog at its front.
  have hhanded {sent : Nat} (hsent : answer.sent = some sent)
      {send : StreamBuffer} (hholds : send.Holds (backlog.drop sent))
      (deadline : Nat) :
      Spliced start (ctx.sending send deadline)
          (world.record (.send ctx.dest.fd backlog answer)).log ∧
        Advanced ctx world (ctx.sending send deadline)
          (world.record (.send ctx.dest.fd backlog answer)) := by
    have htook : Handed ctx world backlog [] (ctx.sending send deadline)
        (world.record (.send ctx.dest.fd backlog answer)) := by
      apply handed_send hsent hholds
      rw [List.take_append_drop, List.append_nil]
    refine ⟨?_, htook.advanced hne⟩
    apply htook.spliced hlive hconsumed _ h.finished
    rw [List.append_nil]
    exact hproduced
  cases answer with
  | failed => exact ⟨_, _, .close, rfl, nofun⟩
  | wouldBlock =>
      refine ⟨_, _, .keep, rfl, ?_⟩
      intro _
      obtain ⟨hspliced, hadvanced⟩ := hhanded rfl hbacklog ctx.deadline
      exact ⟨hspliced, hadvanced, rfl⟩
  | ready count =>
      refine ⟨_, _, .keep, rfl, ?_⟩
      intro _
      have hholds := hbacklog.consume count
      split
      · obtain ⟨hspliced, hadvanced⟩ := hhanded rfl hholds _
        exact ⟨hspliced, hadvanced, rfl⟩
      · obtain ⟨hspliced, hadvanced⟩ := hhanded rfl hholds ctx.deadline
        exact ⟨hspliced, hadvanced, rfl⟩

end Netflector.Reflector.Dial
