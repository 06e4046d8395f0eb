import Netflector.Reflector.Dial.Registrations

/-!
# What an edge gives up

Whatever an edge makes of a connection, it stays on its two descriptors, and a
registration it gives up is unwatched, unless the poller refused to disarm the
other side's read interest first.
-/

namespace Netflector.Reflector.Dial

open Netflector.Foundation
open Netflector.Net
open Netflector.Net.Http
open Netflector.Reactor

/-! ## One direction -/

/-- A context keeps its sockets and its registrations and unwatches nothing. -/
structure Quiet (ctx : DirectionContext) (world : World)
    (ctx' : DirectionContext) (world' : World) : Prop where
  source : ctx'.source = ctx.source
  sourceReg : ctx'.sourceReg = ctx.sourceReg
  dest : ctx'.dest = ctx.dest
  destReg : ctx'.destReg = ctx.destReg
  log : ∃ events, world'.log = world.log ++ events ∧
    ∀ reg answer, .unwatch reg answer ∉ events

theorem Quiet.refl (ctx : DirectionContext) (world : World) :
    Quiet ctx world ctx world :=
  ⟨rfl, rfl, rfl, rfl, [], (List.append_nil _).symm, fun _ _ =>
    List.not_mem_nil⟩

theorem Quiet.trans {ctx between ctx' : DirectionContext}
    {world middle world' : World} (h : Quiet ctx world between middle)
    (h' : Quiet between middle ctx' world') : Quiet ctx world ctx' world' := by
  obtain ⟨events, hlog, hevents⟩ := h.log
  obtain ⟨events', hlog', hevents'⟩ := h'.log
  constructor
  · rw [h'.source, h.source]
  · rw [h'.sourceReg, h.sourceReg]
  · rw [h'.dest, h.dest]
  · rw [h'.destReg, h.destReg]
  · refine ⟨events ++ events', ?_, ?_⟩
    · rw [hlog', hlog, List.append_assoc]
    · intro reg answer hmem
      rcases List.mem_append.mp hmem with hmem | hmem
      · exact hevents reg answer hmem
      · exact hevents' reg answer hmem

theorem Quiet.record (ctx : DirectionContext) (world : World) (event : Event)
    (hevent : ∀ reg answer, event ≠ .unwatch reg answer) (flow : Flow)
    (learned : Option SocketAddrV4) (deadline : Nat) :
    Quiet ctx world
      { ctx with flow := flow, learnedRest := learned, deadline := deadline }
      (world.record event) := by
  refine ⟨rfl, rfl, rfl, rfl, [event], rfl, ?_⟩
  intro reg answer hmem
  exact hevent reg answer (List.mem_singleton.mp hmem).symm

theorem Quiet.still (ctx : DirectionContext) (world : World) (flow : Flow)
    (learned : Option SocketAddrV4) (deadline : Nat) :
    Quiet ctx world
      { ctx with flow := flow, learnedRest := learned, deadline := deadline }
      world :=
  ⟨rfl, rfl, rfl, rfl, [], (List.append_nil _).symm, fun _ _ =>
    List.not_mem_nil⟩

variable {ctx ctx' : DirectionContext} {world world' : World}

theorem sendFramed_quiet {header body : Bytes} {outcome : Outcome}
    (h : ctx.sendFramed world header body = .ok (ctx', world', outcome)) :
    Quiet ctx world ctx' world' := by
  unfold DirectionContext.sendFramed at h
  split at h
  · obtain ⟨⟨send, buffered⟩, _, hrest⟩ := except_bind_ok h
    cases hrest
    exact .still ctx world _ _ _
  · obtain ⟨answer, hanswer, _⟩ :=
      world_send_spec world ctx.dest (header ++ body)
    rw [hanswer] at h
    have hsend (flow : Flow) (deadline : Nat) := Quiet.record ctx world
      (.send ctx.dest.fd (header ++ body) answer) nofun flow
      ctx.learnedRest deadline
    cases hsent : answer.sent with
    | none =>
        simp only [hsent] at h
        cases h
        exact hsend _ _
    | some sent =>
        simp only [hsent] at h
        obtain ⟨deadline, hdeadline⟩ : ∃ deadline,
            (if 0 < sent then
              { ctx with deadline := (world.record (.send ctx.dest.fd
                (header ++ body) answer)).now + idleTimeout }
            else ctx) = { ctx with deadline := deadline } := by
          split
          · exact ⟨_, rfl⟩
          · exact ⟨ctx.deadline, rfl⟩
        rw [hdeadline] at h
        split at h
        · cases h
          exact hsend _ _
        · obtain ⟨⟨headerTail, bodyTail⟩, _, hrest⟩ := except_bind_ok h
          obtain ⟨⟨send, buffered⟩, _, hlast⟩ := except_bind_ok hrest
          cases hlast
          exact hsend _ _

theorem forwardFramed_quiet (rounds : Nat) {forwarded : Forwarded}
    (h : ctx.forwardFramed rounds world = .ok (ctx', world', forwarded)) :
    Quiet ctx world ctx' world' := by
  induction rounds generalizing ctx world with
  | zero =>
      cases h
      exact .refl _ _
  | succ rounds ih =>
      obtain ⟨pending, _, hfeed⟩ := except_bind_ok h
      cases hfed : ctx.flow.framer.feed pending with
      | error error =>
          simp only [hfed] at hfeed
          cases hfeed
          exact .refl _ _
      | ok answer =>
          obtain ⟨framer, framed⟩ := answer
          simp only [hfed] at hfeed
          have hframed (flow : Flow) (learned : Option SocketAddrV4) :=
            Quiet.record ctx world (.framed ctx.dest.fd pending framed)
              nofun flow learned ctx.deadline
          split at hfeed
          · cases hfeed
            exact hframed _ _
          · obtain ⟨⟨between, middle, outcome⟩, hsend, hrest⟩ :=
              except_bind_ok hfeed
            have hsent := (hframed _ _).trans (sendFramed_quiet hsend)
            split at hrest
            · cases hrest
              exact hsent
            · exact (hsent.trans (.still between middle _ _ _)).trans (ih hrest)

theorem forward_quiet {forwarded : Forwarded}
    (h : ctx.forward world = .ok (ctx', world', forwarded)) :
    Quiet ctx world ctx' world' := by
  obtain ⟨⟨recv, room⟩, _, hread⟩ := except_bind_ok h
  dsimp only at hread
  split at hread
  · cases hread
    exact .still ctx world _ _ _
  · obtain ⟨answer, hanswer, _⟩ := world_recv_spec world ctx.source room
    have hrecv (flow : Flow) := Quiet.record ctx world
      (.recv ctx.source.fd answer) nofun flow ctx.learnedRest
      ctx.deadline
    simp only [hanswer] at hread
    cases answer with
    | failed =>
        cases hread
        exact hrecv _
    | wouldBlock =>
        cases hread
        exact hrecv _
    | ready bytes =>
        simp only at hread
        split at hread
        · cases hread
          exact hrecv _
        · exact (hrecv _).trans (forwardFramed_quiet _ hread)

theorem syncWriteInterest_quiet {outcome : Outcome}
    (h : ctx.syncWriteInterest world = .ok (world', outcome)) :
    Quiet ctx world ctx world' := by
  obtain ⟨reg, _, hask⟩ := except_bind_ok h
  obtain ⟨answer, hanswer⟩ := world_ask_spec world
    (.setWriteInterest reg (!ctx.flow.send.isEmpty || ctx.dest.connecting))
  rw [hanswer] at hask
  cases hask
  exact .record ctx world (.setWriteInterest reg _ answer) nofun ctx.flow
    ctx.learnedRest ctx.deadline

theorem settle_quiet {outcome : Outcome}
    (h : ctx.settle world = .ok (ctx', world', outcome)) :
    Quiet ctx world ctx' world' := by
  unfold DirectionContext.settle at h
  by_cases hshut : ctx.flow.state = .sourceClosed ∧ ctx.flow.send.isEmpty ∧
      !ctx.dest.connecting
  · simp only [if_pos hshut] at h
    obtain ⟨⟨synced, answer⟩, hsync, hrest⟩ := except_bind_ok h
    cases hrest
    have hshutdown := Quiet.record ctx world (.shutdownWrite ctx.dest.fd) nofun
      { ctx.flow with state := .done } ctx.learnedRest ctx.deadline
    exact hshutdown.trans (syncWriteInterest_quiet hsync)
  · simp only [if_neg hshut] at h
    obtain ⟨⟨synced, answer⟩, hsync, hrest⟩ := except_bind_ok h
    cases hrest
    exact syncWriteInterest_quiet hsync

theorem halfClose_quiet {outcome : Outcome}
    (h : ctx.halfClose world = .ok (ctx', world', outcome)) :
    Quiet ctx world ctx' world' := by
  obtain ⟨reg, _, hask⟩ := except_bind_ok h
  obtain ⟨answer, hanswer⟩ :=
    world_ask_spec world (.setReadInterest reg false)
  simp only [hanswer] at hask
  have hdisarm (flow : Flow) := Quiet.record ctx world
    (.setReadInterest reg false answer) nofun flow ctx.learnedRest
    ctx.deadline
  split at hask
  · exact (hdisarm _).trans (settle_quiet hask)
  · cases hask
    exact hdisarm _

theorem drain_quiet {outcome : Outcome}
    (h : ctx.drain world = .ok (ctx', world', outcome)) :
    Quiet ctx world ctx' world' := by
  unfold DirectionContext.drain at h
  split at h
  · cases h
    exact .refl ctx world
  · obtain ⟨pending, _, hsend⟩ := except_bind_ok h
    obtain ⟨answer, hanswer, _⟩ := world_send_spec world ctx.dest pending
    have hsent (flow : Flow) (deadline : Nat) := Quiet.record ctx world
      (.send ctx.dest.fd pending answer) nofun flow ctx.learnedRest
      deadline
    simp only [hanswer] at hsend
    cases answer with
    | failed =>
        cases hsend
        exact hsent _ _
    | wouldBlock =>
        cases hsend
        exact hsent _ _
    | ready count =>
        simp only at hsend
        split at hsend
        · cases hsend
          exact hsent _ _
        · cases hsend
          exact hsent _ _

/-! ## One connection -/

structure Edged (connection connection' : Connection) (events : List Event) :
    Prop where
  fd : ∀ side, (connection'.context side).source.fd =
    (connection.context side).source.fd
  reg : ∀ side, (connection'.context side).sourceReg =
      (connection.context side).sourceReg ∨
    (connection'.context side).sourceReg = none
  unwatched : ∀ reg answer, .unwatch reg answer ∈ events →
    ∃ side, (connection.context side).sourceReg = some reg ∧
      (connection'.context side).sourceReg = none

def Releases (connection connection' : Connection) (events : List Event) :
    Prop :=
  ∀ side reg, (connection.context side).sourceReg = some reg →
    (connection'.context side).sourceReg = none →
      ∃ answer, .unwatch reg answer ∈ events

structure Retains (connection connection' : Connection)
    (events : List Event) : Prop where
  fd : ∀ side, (connection'.context side).source.fd =
    (connection.context side).source.fd
  reg : ∀ side, (connection'.context side).sourceReg =
    (connection.context side).sourceReg
  quiet : ∀ reg answer, .unwatch reg answer ∉ events

variable {connection between connection' : Connection}
  {events events' : List Event}

theorem Retains.edged (h : Retains connection connection' events) :
    Edged connection connection' events :=
  ⟨h.fd, fun side => .inl (h.reg side), fun reg answer hmem =>
    absurd hmem (h.quiet reg answer)⟩

theorem Retains.releases (h : Retains connection connection' events) :
    Releases connection connection' events := by
  intro side reg hreg hnone
  rw [h.reg, hreg] at hnone
  cases hnone

theorem Edged.after (h : Edged between connection' events')
    (h' : Retains connection between events) :
    Edged connection connection' (events ++ events') := by
  constructor
  · intro side
    rw [h.fd, h'.fd]
  · intro side
    rw [← h'.reg]
    exact h.reg side
  · intro reg answer hmem
    rcases List.mem_append.mp hmem with hmem | hmem
    · exact absurd hmem (h'.quiet reg answer)
    · obtain ⟨side, hreg, hnone⟩ := h.unwatched reg answer hmem
      exact ⟨side, by rw [← h'.reg, hreg], hnone⟩

theorem Releases.after (h : Releases between connection' events')
    (h' : Retains connection between events) :
    Releases connection connection' (events ++ events') := by
  intro side reg hreg hnone
  rw [← h'.reg] at hreg
  obtain ⟨answer, hmem⟩ := h side reg hreg hnone
  exact ⟨answer, List.mem_append_right _ hmem⟩

theorem Edged.before (h : Edged connection between events)
    (h' : Retains between connection' events') :
    Edged connection connection' (events ++ events') := by
  constructor
  · intro side
    rw [h'.fd, h.fd]
  · intro side
    rw [h'.reg]
    exact h.reg side
  · intro reg answer hmem
    rcases List.mem_append.mp hmem with hmem | hmem
    · obtain ⟨side, hreg, hnone⟩ := h.unwatched reg answer hmem
      exact ⟨side, hreg, by rw [h'.reg, hnone]⟩
    · exact absurd hmem (h'.quiet reg answer)

theorem Releases.before (h : Releases connection between events)
    (h' : Retains between connection' events') :
    Releases connection connection' (events ++ events') := by
  intro side reg hreg hnone
  rw [h'.reg] at hnone
  obtain ⟨answer, hmem⟩ := h side reg hreg hnone
  exact ⟨answer, List.mem_append_left _ hmem⟩

theorem Quiet.absorbed {direction : Direction}
    (h : Quiet (connection.context direction) world ctx' world') :
    ∃ events, world'.log = world.log ++ events ∧
      Retains connection (connection.absorb direction ctx') events := by
  obtain ⟨events, hlog, hevents⟩ := h.log
  refine ⟨events, hlog, ?_, ?_, hevents⟩
  · intro side
    cases direction <;> cases side <;> rfl
  · intro side
    cases direction <;> cases side <;> rfl

theorem edged_abandon {direction : Direction} {reg : RegKey}
    (hreg : (connection.context direction).sourceReg = some reg)
    (hevents : ∀ reg' answer, .unwatch reg' answer ∈ events → reg' = reg) :
    Edged connection (connection.abandon direction) events := by
  have hnone :
      ((connection.abandon direction).context direction).sourceReg = none := by
    cases direction <;> rfl
  constructor
  · intro side
    cases direction <;> cases side <;> rfl
  · intro side
    rcases eq_or_eq_reverse direction side with rfl | rfl
    · exact .inr hnone
    · left
      cases direction <;> rfl
  · intro reg' answer hmem
    rw [hevents reg' answer hmem]
    exact ⟨direction, hreg, hnone⟩

theorem releases_abandon {direction : Direction} {reg : RegKey}
    (hreg : (connection.context direction).sourceReg = some reg)
    {answer : Bool} (hmem : .unwatch reg answer ∈ events) :
    Releases connection (connection.abandon direction) events := by
  intro side reg' hreg' hnone
  rcases eq_or_eq_reverse direction side with rfl | rfl
  · rw [hreg] at hreg'
    cases hreg'
    exact ⟨answer, hmem⟩
  · have hkept : ((connection.abandon direction).context
        direction.reverse).sourceReg =
        (connection.context direction.reverse).sourceReg := by
      cases direction <;> rfl
    rw [hkept, hreg'] at hnone
    cases hnone

theorem peerGone_edged {direction : Direction} {outcome : Outcome}
    (h : connection.peerGone direction world =
      .ok (connection', world', outcome)) :
    ∃ events, world'.log = world.log ++ events ∧
      Edged connection connection' events ∧
      (outcome = .keep ∨ world.kernel.accepts world.log.length = true →
        Releases connection connection' events) := by
  obtain ⟨disarmReg, _, h⟩ := except_bind_ok h
  obtain ⟨unwatchReg, hunwatch, h⟩ := except_bind_ok h
  have hreg := orPanic_ok hunwatch
  cases hdisarmed : world.kernel.accepts world.log.length with
  | false =>
      simp only [World.ask, hdisarmed, Bool.false_eq_true, if_false] at h
      cases h
      refine ⟨[.setReadInterest disarmReg false false], rfl,
        edged_abandon hreg ?_, by simp⟩
      intro reg' answer hmem
      cases List.mem_singleton.mp hmem
  | true =>
      let quiet := world.record (.setReadInterest disarmReg false true)
      obtain ⟨unwatched, hask⟩ := world_ask_spec quiet (.unwatch unwatchReg)
      have hdisarm : world.ask (.setReadInterest disarmReg false) =
          (quiet, true) := by
        simp only [World.ask, hdisarmed, quiet]
      let asked := [.setReadInterest disarmReg false true,
        Event.unwatch unwatchReg unwatched]
      have hlog : (quiet.record (.unwatch unwatchReg unwatched)).log =
          world.log ++ asked := by
        simp only [quiet, asked, World.record, List.append_assoc,
          List.cons_append, List.nil_append]
      have hmem : .unwatch unwatchReg unwatched ∈ asked :=
        List.mem_cons_of_mem _ (List.mem_singleton_self _)
      have hedged : Edged connection (connection.abandon direction) asked := by
        apply edged_abandon hreg
        intro reg' answer hmem'
        rcases List.mem_cons.mp hmem' with hsame | hmem'
        · cases hsame
        · cases List.mem_singleton.mp hmem'
          rfl
      have hreleases := releases_abandon hreg hmem
      simp only [hdisarm, if_true, hask] at h
      split at h
      · obtain ⟨⟨ctx, settled, answer⟩, hsettle, h⟩ := except_bind_ok h
        obtain ⟨events, hsettled, hretains⟩ :=
          (settle_quiet hsettle).absorbed
        have hall : settled.log = world.log ++ (asked ++ events) := by
          rw [hsettled, hlog, List.append_assoc]
        simp only at h
        split at h
        · cases h
          exact ⟨_, hall, hedged.before hretains, fun _ =>
            hreleases.before hretains⟩
        · cases h
          exact ⟨_, hall, hedged.before hretains, fun _ =>
            hreleases.before hretains⟩
      · cases h
        exact ⟨_, hlog, hedged, fun _ => hreleases⟩

theorem forwardOpened_retains {direction : Direction} {outcome : Outcome}
    (h : connection.forwardOpened direction world =
      .ok (connection', world', outcome)) :
    ∃ events, world'.log = world.log ++ events ∧
      Retains connection connection' events := by
  obtain ⟨⟨read, middle, forwarded⟩, hforward, h⟩ := except_bind_ok h
  obtain ⟨⟨ctx, final, closed⟩, hwork, h⟩ := except_bind_ok h
  cases h
  have hread := forward_quiet hforward
  cases forwarded with
  | failed =>
      cases hwork
      exact hread.absorbed
  | sourceEof => exact (hread.trans (halfClose_quiet hwork)).absorbed
  | opened =>
      obtain ⟨⟨synced, answer⟩, hsync, hrest⟩ := except_bind_ok hwork
      cases hrest
      exact (hread.trans (syncWriteInterest_quiet hsync)).absorbed

/-! ## One edge -/

/-- A readable edge of `direction`'s source that finds the flow no longer open,
and the other side still watched: the peer hung up. -/
def Connection.windsDown (connection : Connection) (direction : Direction) :
    Bool :=
  (connection.context direction).flow.state ≠ .opened &&
    (connection.context direction).destReg.isSome

/-- The poller refuses to disarm the other side's read interest, which winding
down a hung-up peer begins with.  A connect that is pending completes first. -/
def Connection.disarmRefused (connection : Connection)
    (direction : Direction) (world : World) : Bool :=
  connection.windsDown direction &&
    if direction = .deviceToClient ∧ connection.device.connecting then
      world.kernel.accepts world.log.length &&
        !world.kernel.accepts (world.log.length + 1)
    else !world.kernel.accepts world.log.length

theorem finishDeviceConnect_retains (connection : Connection)
    (world : World) :
    ∃ opened, connection.finishDeviceConnect world =
        (opened, world.record (.finishConnect connection.device.fd
          (world.kernel.accepts world.log.length)),
          if world.kernel.accepts world.log.length then .keep else .close) ∧
      Retains connection opened [.finishConnect connection.device.fd
        (world.kernel.accepts world.log.length)] ∧
      ∀ direction, opened.windsDown direction =
        connection.windsDown direction := by
  unfold Connection.finishDeviceConnect
  cases hanswer : world.kernel.accepts world.log.length with
  | false =>
      simp only [World.ask, hanswer]
      refine ⟨_, rfl, ⟨fun _ => rfl, fun _ => rfl, ?_⟩, fun _ => rfl⟩
      intro reg answer hmem
      cases List.mem_singleton.mp hmem
  | true =>
      simp only [World.ask, hanswer]
      refine ⟨_, rfl, ⟨?_, ?_, ?_⟩, ?_⟩
      · intro side
        cases side <;> rfl
      · intro side
        cases side <;> rfl
      · intro reg answer hmem
        cases List.mem_singleton.mp hmem
      · intro direction
        cases direction <;> rfl

theorem connected_edged {direction : Direction} {outcome : Outcome}
    (h : (if (connection.context direction).flow.state ≠ .opened then
        if (connection.context direction).destReg.isNone then
          .ok (connection, world, .close)
        else connection.peerGone direction world
      else connection.forwardOpened direction world) =
      .ok (connection', world', outcome)) :
    ∃ events, world'.log = world.log ++ events ∧
      Edged connection connection' events ∧
      (outcome = .keep ∨ (connection.windsDown direction = true →
          world.kernel.accepts world.log.length = true) →
        Releases connection connection' events) := by
  by_cases hclosed : (connection.context direction).flow.state ≠ .opened
  · rw [if_pos hclosed] at h
    cases hdest : (connection.context direction).destReg with
    | none =>
        rw [hdest] at h
        cases h
        have hretains : Retains connection connection [] :=
          ⟨fun _ => rfl, fun _ => rfl, fun _ _ => List.not_mem_nil⟩
        exact ⟨[], (List.append_nil _).symm, hretains.edged, fun _ =>
          hretains.releases⟩
    | some reg =>
        have hwinds : connection.windsDown direction = true := by
          simp [Connection.windsDown, hclosed, hdest]
        rw [hdest] at h
        obtain ⟨events, hlog, hedged, hreleases⟩ := peerGone_edged h
        exact ⟨events, hlog, hedged, fun haccepts =>
          hreleases (haccepts.imp_right fun h => h hwinds)⟩
  · rw [if_neg hclosed] at h
    obtain ⟨events, hlog, hretains⟩ := forwardOpened_retains h
    exact ⟨events, hlog, hretains.edged, fun _ => hretains.releases⟩

theorem forward_edged {direction : Direction} {outcome : Outcome}
    (h : connection.forward direction world =
      .ok (connection', world', outcome)) :
    ∃ events, world'.log = world.log ++ events ∧
      Edged connection connection' events ∧
      (outcome = .keep ∨ connection.disarmRefused direction world = false →
        Releases connection connection' events) := by
  unfold Connection.forward at h
  unfold Connection.disarmRefused
  by_cases hconnects : direction = .deviceToClient ∧
      connection.device.connecting = true
  · obtain ⟨opened, hfinish, hretains, hwinds⟩ :=
      finishDeviceConnect_retains connection world
    simp only [if_pos hconnects, hfinish] at h ⊢
    cases hanswer : world.kernel.accepts world.log.length with
    | false =>
        simp only [hanswer, Bool.false_eq_true, if_false, if_true] at h
        cases h
        rw [hanswer] at hretains
        exact ⟨_, rfl, hretains.edged, fun _ => hretains.releases⟩
    | true =>
        simp only [hanswer, if_true, reduceCtorEq, if_false] at h
        obtain ⟨events, hlog, hedged, hreleases⟩ := connected_edged h
        refine ⟨_, ?_, hedged.after hretains, ?_⟩
        · rw [hlog]
          simp only [World.record, List.append_assoc, hanswer]
        · intro hspared
          refine Releases.after (hreleases ?_) hretains
          refine hspared.imp_right fun hspared hdown => ?_
          rw [hwinds] at hdown
          simpa [World.record, hdown] using hspared
  · simp only [if_neg hconnects, reduceCtorEq, if_false] at h ⊢
    obtain ⟨events, hlog, hedged, hreleases⟩ := connected_edged h
    refine ⟨events, hlog, hedged, fun hspared => hreleases ?_⟩
    refine hspared.imp_right fun hspared hdown => ?_
    simpa [hdown] using hspared

theorem drained_retains {direction : Direction} {outcome : Outcome}
    (h : ((connection.context direction).drain world >>= fun drained =>
        if drained.2.2 = .close then
          .ok (connection.absorb direction drained.1, drained.2.1, .close)
        else drained.1.settle drained.2.1 >>= fun settled =>
          .ok (connection.absorb direction settled.1, settled.2.1,
            (connection.absorb direction settled.1).closeIfComplete
              settled.2.2)) =
      Except.ok (connection', world', outcome)) :
    ∃ events, world'.log = world.log ++ events ∧
      Retains connection connection' events := by
  obtain ⟨⟨ctx, middle, drained⟩, hdrain, h⟩ := except_bind_ok h
  have hquiet := drain_quiet hdrain
  split at h
  · cases h
    exact hquiet.absorbed
  · obtain ⟨⟨ctx', settled, answer⟩, hsettle, h⟩ := except_bind_ok h
    cases h
    exact (hquiet.trans (settle_quiet hsettle)).absorbed

theorem onWritable_retains {direction : Direction} {outcome : Outcome}
    (h : connection.onWritable direction world =
      .ok (connection', world', outcome)) :
    ∃ events, world'.log = world.log ++ events ∧
      Retains connection connection' events := by
  unfold Connection.onWritable at h
  by_cases hconnects : direction = .clientToDevice ∧
      connection.device.connecting = true
  · obtain ⟨opened, hfinish, hretains, _⟩ :=
      finishDeviceConnect_retains connection world
    simp only [if_pos hconnects, hfinish] at h
    cases hanswer : world.kernel.accepts world.log.length with
    | false =>
        simp only [hanswer, Bool.false_eq_true, if_false, if_true] at h
        cases h
        rw [hanswer] at hretains
        exact ⟨_, rfl, hretains⟩
    | true =>
        simp only [hanswer, if_true, reduceCtorEq, if_false] at h
        obtain ⟨events, hlog, hrest⟩ := drained_retains h
        refine ⟨.finishConnect connection.device.fd true :: events, ?_, ?_⟩
        · rw [hlog]
          simp only [World.record, List.append_assoc, List.cons_append,
            List.nil_append]
        · rw [hanswer] at hretains
          refine ⟨?_, ?_, ?_⟩
          · intro side
            rw [hrest.fd, hretains.fd]
          · intro side
            rw [hrest.reg, hretains.reg]
          · intro reg answer hmem
            rcases List.mem_cons.mp hmem with hsame | hmem
            · cases hsame
            · exact hrest.quiet reg answer hmem
  · simp only [if_neg hconnects, reduceCtorEq, if_false] at h
    exact drained_retains h

def Connection.readDirection (connection : Connection) (fd : Nat) :
    Direction :=
  if connection.client.fd = fd then .clientToDevice else .deviceToClient

theorem readable_edged {fd : Nat} {outcome : Outcome}
    (h : connection.readable fd world = .ok (connection', world', outcome)) :
    ∃ events, world'.log = world.log ++ events ∧
      Edged connection connection' events ∧
      (outcome = .keep ∨
          connection.disarmRefused (connection.readDirection fd) world =
            false →
        Releases connection connection' events) :=
  forward_edged h

theorem writable_retains {fd : Nat} {outcome : Outcome}
    (h : connection.writable fd world = .ok (connection', world', outcome)) :
    ∃ events, world'.log = world.log ++ events ∧
      Retains connection connection' events :=
  onWritable_retains h

end Netflector.Reflector.Dial
