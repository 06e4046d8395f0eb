import Mathlib.Logic.Relation
import Netflector.Reflector.Dial.Splice

/-!
# The lifetime of a connection

From the attached registrations on, through any order of edges and any answers
of the sockets and the poller, until an edge closes the connection.
-/

namespace Netflector.Reflector.Dial

open Netflector.Foundation
open Netflector.Net
open Netflector.Net.Http
open Netflector.Reactor

/-- A connection about to run: two open sockets and their registrations. -/
structure Setup where
  client : TcpSocket
  device : TcpSocket
  fds : client.fd ≠ device.fd
  clientReg : RegKey
  deviceReg : RegKey
  regs : clientReg ≠ deviceReg
  deviceEndpoint : SocketAddrV4
  restListener : SocketAddrV4
  ownListener : SocketAddrV4
  now : Nat

def Setup.connection (setup : Setup) : Connection :=
  (Connection.new setup.client setup.device setup.deviceEndpoint
    setup.restListener setup.ownListener setup.now).attachRegistrations
      setup.clientReg setup.deviceReg

inductive Edge where
  | readable (fd : Nat)
  | writable (fd : Nat)
  deriving DecidableEq

def Edge.fd : Edge → Nat
  | .readable fd => fd
  | .writable fd => fd

def Connection.onEdge (connection : Connection) (edge : Edge)
    (world : World) : Except Panic (Connection × World × Outcome) :=
  match edge with
  | .readable fd => connection.readable fd world
  | .writable fd => connection.writable fd world

/-! ## Both directions -/

def Setup.dest (setup : Setup) : Direction → TcpSocket
  | .clientToDevice => setup.device
  | .deviceToClient => setup.client

structure Whole (setup : Setup) (connection : Connection)
    (log : List Event) : Prop where
  client : connection.client.fd = setup.client.fd
  device : connection.device.fd = setup.device.fd
  spliced : ∀ direction,
    Spliced (setup.dest direction) (connection.context direction) log

theorem Whole.fds {setup : Setup} {connection : Connection}
    {log : List Event} (h : Whole setup connection log)
    (direction : Direction) :
    (connection.context direction).source.fd ≠
      (connection.context direction).dest.fd := by
  cases direction with
  | clientToDevice =>
      show connection.client.fd ≠ connection.device.fd
      rw [h.client, h.device]
      exact setup.fds
  | deviceToClient =>
      show connection.device.fd ≠ connection.client.fd
      rw [h.client, h.device]
      exact setup.fds.symm

theorem spliced_new {start : TcpSocket}
    {ctx : DirectionContext} {kind : Kind} {rewrite : RewritePolicy}
    (hdest : ctx.dest = start) (hflow : ctx.flow = Flow.new kind rewrite) :
    Spliced start ctx [] := by
  rw [← hdest]
  constructor
  · rw [hflow]
    constructor
    · exact ⟨[], StreamBuffer.holds_withCapacity _, rfl⟩
    · exact ⟨[], StreamBuffer.holds_withCapacity _, rfl⟩
  · rw [hflow]
    constructor
    · rfl
    · intro hstate
      cases hstate
    · intro hmem
      cases hmem
    · exact guarded_nil _ _
    · exact .inl

theorem whole_connection (setup : Setup) :
    Whole setup setup.connection [] := by
  refine ⟨rfl, rfl, ?_⟩
  intro direction
  cases direction with
  | clientToDevice => exact spliced_new rfl rfl
  | deviceToClient => exact spliced_new rfl rfl

theorem Spliced.congr {start : TcpSocket} {ctx ctx' : DirectionContext}
    {log : List Event} (h : Spliced start ctx log)
    (hsource : ctx'.source.fd = ctx.source.fd) (hdest : ctx'.dest = ctx.dest)
    (hflow : ctx'.flow = ctx.flow) : Spliced start ctx' log := by
  obtain ⟨hcarried, hfinished⟩ := h
  rw [← hsource, ← hdest, ← hflow] at hcarried hfinished
  exact ⟨hcarried, hfinished⟩

theorem Spliced.beside {start : TcpSocket} {ctx other : DirectionContext}
    {ctx' : DirectionContext} {world world' : World}
    (h : Spliced start other world.log) (hstep : Advanced ctx world ctx' world')
    (hsource : other.source.fd = ctx.dest.fd)
    (hdest : other.dest.fd = ctx.source.fd) :
    Spliced start other world'.log := by
  obtain ⟨events, hlog, hevents⟩ := hstep.log
  have helsewhere : ∀ event ∈ events,
      event.Elsewhere other.source.fd other.dest.fd := by
    intro event hevent
    rw [hsource, hdest]
    exact (hevents event hevent).1
  rw [hlog]
  refine ⟨h.carried.elsewhere helsewhere, h.finished.append ?_⟩
  rw [← h.finished.fd]
  exact not_mem_of_elsewhere helsewhere

theorem Whole.absorb {setup : Setup} {connection : Connection}
    {world world' : World} {direction : Direction} {ctx' : DirectionContext}
    (h : Whole setup connection world.log)
    (hspliced : Spliced (setup.dest direction) ctx' world'.log)
    (hstep : Advanced (connection.context direction) world ctx' world') :
    Whole setup (connection.absorb direction ctx') world'.log := by
  refine ⟨?_, ?_, ?_⟩
  · cases direction <;> exact h.client
  · cases direction <;> exact h.device
  · intro direction'
    cases direction with
    | clientToDevice =>
        cases direction' with
        | clientToDevice =>
            apply hspliced.congr
            · rw [hstep.source]
              rfl
            · rw [hstep.dest]
              rfl
            · rfl
        | deviceToClient =>
            have hother := (h.spliced .deviceToClient).beside hstep rfl rfl
            exact hother.congr rfl rfl rfl
    | deviceToClient =>
        cases direction' with
        | clientToDevice =>
            have hother := (h.spliced .clientToDevice).beside hstep rfl rfl
            exact hother.congr rfl rfl rfl
        | deviceToClient =>
            apply hspliced.congr
            · rw [hstep.source]
              rfl
            · rw [hstep.dest]
              rfl
            · rfl

theorem Whole.noted {setup : Setup} {connection : Connection}
    {log : List Event} (h : Whole setup connection log) (event : Event)
    (hevent : ∀ source dest, event.Elsewhere source dest) :
    Whole setup connection (log ++ [event]) :=
  ⟨h.client, h.device, fun direction =>
    (h.spliced direction).noted (hevent _ _)⟩

theorem Whole.connected {setup : Setup} {connection : Connection}
    {log : List Event} (h : Whole setup connection log) (deadline : Nat) :
    Whole setup
      { connection with
        device := { connection.device with connecting := false }
        deadline := deadline }
      (log ++ [.finishConnect connection.device.fd true]) := by
  have hnoted := h.noted (.finishConnect connection.device.fd true)
    (fun _ _ => trivial)
  refine ⟨h.client, h.device, ?_⟩
  intro direction
  cases direction with
  | deviceToClient =>
      exact (hnoted.spliced .deviceToClient).congr rfl rfl rfl
  | clientToDevice =>
      have hspliced := hnoted.spliced .clientToDevice
      refine ⟨hspliced.carried, ?_⟩
      have hfinished := hspliced.finished
      constructor
      · exact hfinished.fd
      · exact hfinished.eof
      · exact hfinished.once
      · exact hfinished.guarded
      · intro _
        right
        rw [← hfinished.fd]
        exact List.mem_append_right _ (List.mem_singleton_self _)

/-- A flow that is given up is done without a shutdown of its own. -/
theorem Whole.abandon {setup : Setup} {connection connection' : Connection}
    {log : List Event} (h : Whole setup connection log)
    (hclient : connection'.client = connection.client)
    (hdevice : connection'.device = connection.device)
    (hflow : ∀ direction,
      (connection'.context direction).flow =
        (connection.context direction).flow ∨
      (connection'.context direction).flow =
        { (connection.context direction).flow with state := .done }) :
    Whole setup connection' log := by
  have hsockets : ∀ direction,
      (connection'.context direction).source =
        (connection.context direction).source ∧
      (connection'.context direction).dest =
        (connection.context direction).dest := by
    intro direction
    cases direction with
    | clientToDevice => exact ⟨hclient, hdevice⟩
    | deviceToClient => exact ⟨hdevice, hclient⟩
  refine ⟨?_, ?_, ?_⟩
  · rw [hclient]
    exact h.client
  · rw [hdevice]
    exact h.device
  · intro direction
    obtain ⟨hsource, hdest⟩ := hsockets direction
    have hspliced := h.spliced direction
    rcases hflow direction with hsame | hdone
    · exact hspliced.congr (by rw [hsource]) hdest hsame
    · refine ⟨?_, ?_⟩
      · rw [hdone, hsource, hdest]
        exact hspliced.carried
      · rw [hdone, hsource, hdest]
        have hfinished := hspliced.finished
        constructor
        · exact hfinished.fd
        · intro hclosed
          cases hclosed
        · intro _
          rfl
        · exact hfinished.guarded
        · exact hfinished.connected

/-! ## One edge -/

structure Progress (state state' : FlowState) : Prop where
  done : state = .done → state' = .done
  closed : state ≠ .opened → state' ≠ .opened

theorem Progress.refl (state : FlowState) : Progress state state :=
  ⟨id, id⟩

theorem Progress.trans {state between state' : FlowState}
    (h : Progress state between) (h' : Progress between state') :
    Progress state state' :=
  ⟨fun hdone => h'.done (h.done hdone),
    fun hclosed => h'.closed (h.closed hclosed)⟩

theorem Settles.progress {state state' : FlowState} (h : Settles state state') :
    Progress state state' := by
  rcases h with rfl | ⟨rfl, rfl⟩
  · exact .refl _
  · exact ⟨nofun, fun _ => nofun⟩

structure Stepped (connection : Connection) (log : List Event)
    (connection' : Connection) (log' : List Event) : Prop where
  destReg : ∀ direction, (connection'.context direction).destReg =
    (connection.context direction).destReg
  progress : ∀ direction, Progress (connection.context direction).flow.state
    (connection'.context direction).flow.state
  log : ∃ events, log' = log ++ events

theorem Stepped.trans {connection between connection' : Connection}
    {log middle log' : List Event} (h : Stepped connection log between middle)
    (h' : Stepped between middle connection' log') :
    Stepped connection log connection' log' := by
  obtain ⟨events, hlog⟩ := h.log
  obtain ⟨events', hlog'⟩ := h'.log
  constructor
  · intro direction
    rw [h'.destReg, h.destReg]
  · intro direction
    exact (h.progress direction).trans (h'.progress direction)
  · exact ⟨events ++ events', by rw [hlog', hlog, List.append_assoc]⟩

theorem stepped_absorb {connection : Connection} {world world' : World}
    {direction : Direction} {ctx' : DirectionContext}
    (hstep : Advanced (connection.context direction) world ctx' world')
    (hprogress : Progress (connection.context direction).flow.state
      ctx'.flow.state) :
    Stepped connection world.log (connection.absorb direction ctx')
      world'.log := by
  obtain ⟨events, hlog, _⟩ := hstep.log
  constructor
  · intro direction'
    cases direction <;> cases direction' <;> rfl
  · intro direction'
    cases direction with
    | clientToDevice =>
        cases direction' with
        | clientToDevice => exact hprogress
        | deviceToClient => exact .refl _
    | deviceToClient =>
        cases direction' with
        | clientToDevice => exact .refl _
        | deviceToClient => exact hprogress
  · exact ⟨events, hlog⟩

def Direction.reverse : Direction → Direction
  | .clientToDevice => .deviceToClient
  | .deviceToClient => .clientToDevice

structure HungUp (direction : Direction) (connection : Connection)
    (connection' : Connection) (log log' : List Event) : Prop where
  closed : (connection.context direction).flow.state ≠ .opened
  taken : ∃ reg, (connection.context direction).sourceReg = some reg ∧
    .unwatch reg true ∈ log'
  sourceReg : (connection'.context direction).sourceReg = none
  live : (connection.context direction).destReg ≠ none
  destReg : (connection'.context direction).destReg =
    (connection.context direction).destReg
  abandoned : (connection'.context direction.reverse).flow.state = .done
  progress : Progress (connection.context direction).flow.state
    (connection'.context direction).flow.state
  log : ∃ events, log' = log ++ events

def Connection.Unfinished (connection : Connection) : Prop :=
  ¬ (connection.c2u.state = .done ∧ connection.u2c.state = .done)

theorem closeIfComplete_keep {connection : Connection} {outcome : Outcome}
    (h : connection.closeIfComplete outcome = .keep) :
    outcome = .keep ∧ connection.Unfinished := by
  unfold Connection.closeIfComplete at h
  split at h
  · cases h
  · rename_i hopen
    constructor
    · cases outcome with
      | keep => rfl
      | close => exact absurd (.inl rfl) hopen
    · intro hdone
      exact hopen (.inr hdone)

structure Opened (connection : Connection) (log : List Event)
    (connection' : Connection) (log' : List Event) : Prop where
  flow : ∀ direction, (connection'.context direction).flow =
    (connection.context direction).flow
  sourceReg : ∀ direction, (connection'.context direction).sourceReg =
    (connection.context direction).sourceReg
  destReg : ∀ direction, (connection'.context direction).destReg =
    (connection.context direction).destReg
  log : ∃ events, log' = log ++ events

theorem Opened.stepped {connection connection' : Connection}
    {log log' : List Event} (h : Opened connection log connection' log') :
    Stepped connection log connection' log' := by
  refine ⟨h.destReg, ?_, h.log⟩
  intro direction
  rw [h.flow]
  exact .refl _

theorem finishDeviceConnect_spec {setup : Setup} {connection : Connection}
    {world : World} (h : Whole setup connection world.log) (edge : Prop)
    [Decidable edge] :
    ∃ connection' world' outcome,
      (if edge then connection.finishDeviceConnect world
        else (connection, world, .keep)) = (connection', world', outcome) ∧
      (outcome = .keep →
        Whole setup connection' world'.log ∧
        Opened connection world.log connection' world'.log) := by
  split
  · obtain ⟨answer, hanswer⟩ :=
      world_ask_spec world (.finishConnect connection.device.fd)
    unfold Connection.finishDeviceConnect
    rw [hanswer]
    cases answer with
    | false => exact ⟨_, _, .close, rfl, nofun⟩
    | true =>
        refine ⟨_, _, .keep, rfl, ?_⟩
        intro _
        refine ⟨h.connected _, ⟨?_, ?_, ?_, _, rfl⟩⟩
        all_goals
          intro direction
          cases direction <;> rfl
  · refine ⟨_, _, .keep, rfl, ?_⟩
    intro _
    exact ⟨h, fun _ => rfl, fun _ => rfl, fun _ => rfl, [],
      (List.append_nil _).symm⟩

theorem settle_without_reg {ctx : DirectionContext} (world : World)
    (h : ctx.destReg = none) : ∃ panic, ctx.settle world = .error panic := by
  unfold DirectionContext.settle
  by_cases hshut : ctx.flow.state = .sourceClosed ∧ ctx.flow.send.isEmpty ∧
      !ctx.dest.connecting
  · simp only [if_pos hshut, DirectionContext.syncWriteInterest, h]
    exact ⟨_, rfl⟩
  · simp only [if_neg hshut, DirectionContext.syncWriteInterest, h]
    exact ⟨_, rfl⟩

/-- What an edge's answer says: it is an answer when the registrations it needs
are there, and after it the connection is whole. -/
structure EdgeSpec (setup : Setup) (connection : Connection) (world : World)
    (needs : Prop)
    (result : Except Panic (Connection × World × Outcome)) : Prop where
  total : needs → ∃ answer, result = .ok answer
  keeps : ∀ connection' world', result = .ok (connection', world', .keep) →
    Whole setup connection' world'.log ∧ connection'.Unfinished ∧
      (Stepped connection world.log connection' world'.log ∨
        ∃ direction, HungUp direction connection connection' world.log
          world'.log)

theorem edgeSpec_close {setup : Setup} {connection connection' : Connection}
    {world world' : World} {needs : Prop} :
    EdgeSpec setup connection world needs
      (.ok (connection', world', .close)) := by
  constructor
  · intro _
    exact ⟨_, rfl⟩
  · intro connection'' world'' hkeep
    simp at hkeep

theorem edgeSpec_panic {setup : Setup} {connection : Connection}
    {world : World} {needs : Prop} {panic : Panic} (h : ¬ needs) :
    EdgeSpec setup connection world needs (.error panic) := by
  constructor
  · intro hneeds
    exact absurd hneeds h
  · intro connection' world' hkeep
    cases hkeep

theorem EdgeSpec.after_opened {setup : Setup}
    {connection opened : Connection} {world openedWorld : World}
    {needs : Prop} {result : Except Panic (Connection × World × Outcome)}
    (h : EdgeSpec setup opened openedWorld needs result)
    (hopened : Opened connection world.log opened openedWorld.log) :
    EdgeSpec setup connection world needs result := by
  refine ⟨h.total, ?_⟩
  intro connection' world' hkeep
  obtain ⟨hwhole, hunfinished, hstepped | ⟨direction, hhung⟩⟩ :=
    h.keeps connection' world' hkeep
  · exact ⟨hwhole, hunfinished, .inl (hopened.stepped.trans hstepped)⟩
  · refine ⟨hwhole, hunfinished, .inr ⟨direction, ?_⟩⟩
    obtain ⟨events, hlog⟩ := hopened.log
    obtain ⟨events', hlog'⟩ := hhung.log
    constructor
    · rw [← hopened.flow]
      exact hhung.closed
    · rw [← hopened.sourceReg]
      exact hhung.taken
    · exact hhung.sourceReg
    · rw [← hopened.destReg]
      exact hhung.live
    · rw [hhung.destReg, hopened.destReg]
    · exact hhung.abandoned
    · rw [← hopened.flow]
      exact hhung.progress
    · exact ⟨events ++ events', by rw [hlog', hlog, List.append_assoc]⟩

theorem edgeSpec_absorb {setup : Setup} {connection : Connection}
    {world world' : World} {direction : Direction} {ctx' : DirectionContext}
    {outcome : Outcome} {needs : Prop}
    (h : Whole setup connection world.log)
    (hwork : outcome = .keep →
      Spliced (setup.dest direction) ctx' world'.log ∧
      Advanced (connection.context direction) world ctx' world' ∧
      Progress (connection.context direction).flow.state ctx'.flow.state) :
    EdgeSpec setup connection world needs
      (.ok (connection.absorb direction ctx', world',
        (connection.absorb direction ctx').closeIfComplete outcome)) := by
  refine ⟨fun _ => ⟨_, rfl⟩, ?_⟩
  intro connection' final hresult
  simp only [Except.ok.injEq, Prod.mk.injEq] at hresult
  obtain ⟨rfl, rfl, hkeep⟩ := hresult
  obtain ⟨houtcome, hunfinished⟩ := closeIfComplete_keep hkeep
  obtain ⟨hspliced, hadvanced, hprogress⟩ := hwork houtcome
  exact ⟨h.absorb hspliced hadvanced, hunfinished,
    .inl (stepped_absorb hadvanced hprogress)⟩

theorem onWritable_spec {setup : Setup} {connection : Connection}
    {world : World} (h : Whole setup connection world.log)
    (direction : Direction) :
    EdgeSpec setup connection world
      ((connection.context direction).destReg ≠ none)
      (connection.onWritable direction world) := by
  unfold Connection.onWritable
  obtain ⟨opened, openedWorld, connected, hconnect, hconnected⟩ :=
    finishDeviceConnect_spec h
      (direction = .clientToDevice ∧ connection.device.connecting)
  rw [hconnect]
  cases connected with
  | close =>
      simp only [if_true]
      exact edgeSpec_close
  | keep =>
      obtain ⟨hwhole, hopened⟩ := hconnected rfl
      rw [← hopened.destReg]
      apply EdgeSpec.after_opened _ hopened
      obtain ⟨ctx, drainedWorld, drained, hdrain, hdrained⟩ :=
        drain_spec (hwhole.spliced direction) (hwhole.fds direction)
      simp only [reduceCtorEq, if_false, hdrain, bind, Except.bind]
      cases drained with
      | close =>
          simp only [if_true]
          exact edgeSpec_close
      | keep =>
          obtain ⟨hspliced, hadvanced, hstate⟩ := hdrained rfl
          cases hreg : ctx.destReg with
          | none =>
              obtain ⟨panic, hpanic⟩ := settle_without_reg drainedWorld hreg
              rw [hadvanced.destReg] at hreg
              simp only [reduceCtorEq, if_false, hpanic]
              exact edgeSpec_panic fun hneeds => hneeds hreg
          | some reg =>
              have hne : ctx.source.fd ≠ ctx.dest.fd := by
                rw [hadvanced.source, hadvanced.dest]
                exact hwhole.fds direction
              obtain ⟨ctx', world', outcome, hsettle, hfinal, hrest, hstates⟩ :=
                settle_spec hspliced hne hreg
              simp only [reduceCtorEq, if_false, hsettle]
              refine edgeSpec_absorb hwhole (fun _ => ?_)
              refine ⟨hfinal, hadvanced.trans hrest, ?_⟩
              rw [← hstate]
              exact hstates.progress

theorem Whole.abandoned {setup : Setup} {connection : Connection}
    {log : List Event} (h : Whole setup connection log)
    (direction : Direction) :
    Whole setup (connection.abandon direction) log := by
  cases direction with
  | clientToDevice =>
      refine h.abandon rfl rfl fun direction => ?_
      cases direction with
      | clientToDevice => exact .inl rfl
      | deviceToClient => exact .inr rfl
  | deviceToClient =>
      refine h.abandon rfl rfl fun direction => ?_
      cases direction with
      | clientToDevice => exact .inr rfl
      | deviceToClient => exact .inl rfl

theorem peerGone_spec {setup : Setup} {connection : Connection}
    {world : World} (h : Whole setup connection world.log)
    (direction : Direction)
    (hclosed : (connection.context direction).flow.state ≠ .opened)
    (hlive : (connection.context direction).destReg ≠ none) :
    EdgeSpec setup connection world
      ((connection.context direction).sourceReg ≠ none)
      (connection.peerGone direction world) := by
  obtain ⟨disarmReg, hdest⟩ := Option.ne_none_iff_exists'.mp hlive
  unfold Connection.peerGone
  cases hsource : (connection.context direction).sourceReg with
  | none =>
      simp only [hdest, hsource, orPanic, bind, Except.bind]
      apply edgeSpec_panic
      simp
  | some unwatchReg =>
      obtain ⟨disarmed, hdisarm⟩ :=
        world_ask_spec world (.setReadInterest disarmReg false)
      simp only [hdest, hsource, orPanic_some, bind, Except.bind, hdisarm]
      cases disarmed with
      | false => exact edgeSpec_close
      | true =>
          let quiet := world.record (.setReadInterest disarmReg false true)
          obtain ⟨unwatched, hunwatch⟩ :=
            world_ask_spec quiet (.unwatch unwatchReg)
          simp only [quiet, if_true] at hunwatch ⊢
          simp only [hunwatch]
          cases unwatched with
          | false => exact edgeSpec_close
          | true =>
              have hwhole : Whole setup (connection.abandon direction)
                  (quiet.record (.unwatch unwatchReg true)).log :=
                ((h.noted (.setReadInterest disarmReg false true)
                  fun _ _ => trivial).noted (.unwatch unwatchReg true)
                    fun _ _ => trivial).abandoned direction
              have hctx : ((connection.abandon direction).context
                  direction).destReg = some disarmReg := by
                rw [← hdest]
                cases direction <;> rfl
              obtain ⟨ctx', world', outcome, hsettle, hfinal, hrest, hstates⟩ :=
                settle_spec (hwhole.spliced direction) (hwhole.fds direction)
                  hctx
              simp only [quiet] at hsettle
              simp only [if_true, hsettle]
              split
              · exact edgeSpec_close
              refine ⟨fun _ => ⟨_, rfl⟩, ?_⟩
              intro connection' final hresult
              simp only [Except.ok.injEq, Prod.mk.injEq] at hresult
              obtain ⟨rfl, rfl, hkeep⟩ := hresult
              refine ⟨hwhole.absorb hfinal hrest,
                (closeIfComplete_keep hkeep).2, .inr ⟨direction, ?_⟩⟩
              obtain ⟨events, hlog, _⟩ := hrest.log
              constructor
              · exact hclosed
              · refine ⟨unwatchReg, hsource, ?_⟩
                rw [hlog]
                apply List.mem_append_left
                exact List.mem_append_right _ (List.mem_singleton_self _)
              · cases direction <;> rfl
              · exact hlive
              · cases direction <;> rfl
              · cases direction <;> rfl
              · have hprogress := hstates.progress
                cases direction <;> exact hprogress
              · refine ⟨[.setReadInterest disarmReg false true,
                  .unwatch unwatchReg true] ++ events, ?_⟩
                rw [hlog]
                simp [quiet, World.record]

theorem halfClose_without_reg {ctx : DirectionContext} (world : World)
    (h : ctx.sourceReg = none ∨ ctx.destReg = none) :
    (∃ panic, ctx.halfClose world = .error panic) ∨
      ∃ world', ctx.halfClose world = .ok (ctx, world', .close) := by
  unfold DirectionContext.halfClose
  cases hsource : ctx.sourceReg with
  | none => exact .inl ⟨_, rfl⟩
  | some reg =>
      have hdest : ctx.destReg = none := by
        rcases h with hnone | hnone
        · rw [hnone] at hsource
          cases hsource
        · exact hnone
      obtain ⟨answer, hanswer⟩ :=
        world_ask_spec world (.setReadInterest reg false)
      simp only [orPanic_some, bind, Except.bind, hanswer]
      cases answer with
      | false => exact .inr ⟨_, rfl⟩
      | true =>
          left
          exact settle_without_reg _ hdest

theorem forwardOpened_spec {setup : Setup} {connection : Connection}
    {world : World} {direction : Direction}
    (h : Whole setup connection world.log)
    (hstate : (connection.context direction).flow.state = .opened) :
    EdgeSpec setup connection world
      ((connection.context direction).sourceReg ≠ none ∧
        ((connection.context direction).flow.state = .opened →
          (connection.context direction).destReg ≠ none))
      (connection.forwardOpened direction world) := by
  unfold Connection.forwardOpened
  have hne := h.fds direction
  obtain ⟨ctx, read, forwarded, hforward, hwork, heof⟩ :=
    forward_spec (h.spliced direction) hne
  simp only [hforward, bind, Except.bind]
  cases forwarded with
  | failed =>
      apply edgeSpec_absorb h
      intro hkeep
      cases hkeep
  | opened =>
      obtain ⟨hspliced, hadvanced, hsame⟩ := hwork (by decide)
      cases hreg : ctx.destReg with
      | none =>
          have hmissing := hreg
          rw [hadvanced.destReg] at hmissing
          simp only [DirectionContext.syncWriteInterest, hreg, bind,
            Except.bind, orPanic]
          exact edgeSpec_panic fun hneeds => hneeds.2 hstate hmissing
      | some reg =>
          obtain ⟨world', outcome, hsync, hfinal, hrest⟩ :=
            syncWriteInterest_spec hspliced hreg
          simp only [hsync]
          apply edgeSpec_absorb h
          intro _
          refine ⟨hfinal, hadvanced.trans hrest, ?_⟩
          rw [hsame]
          exact .refl _
  | sourceEof =>
      obtain ⟨hspliced, hadvanced, hsame⟩ := hwork (by decide)
      by_cases hregs : ctx.sourceReg = none ∨ ctx.destReg = none
      · have hmissing : ¬ ((connection.context direction).sourceReg ≠ none ∧
            ((connection.context direction).flow.state = .opened →
              (connection.context direction).destReg ≠ none)) := by
          rw [hadvanced.sourceReg, hadvanced.destReg] at hregs
          rintro ⟨hsource, hdest⟩
          exact hregs.elim hsource (hdest hstate)
        rcases halfClose_without_reg read hregs with
          ⟨panic, hpanic⟩ | ⟨closed, hclose⟩
        · simp only [hpanic]
          exact edgeSpec_panic hmissing
        · simp only [hclose]
          apply edgeSpec_absorb h
          intro hkeep
          cases hkeep
      · obtain ⟨hsource, hdest⟩ := not_or.mp hregs
        obtain ⟨sourceReg, hsource⟩ := Option.ne_none_iff_exists'.mp hsource
        obtain ⟨destReg, hdest⟩ := Option.ne_none_iff_exists'.mp hdest
        have hctxNe : ctx.source.fd ≠ ctx.dest.fd := by
          rw [hadvanced.source, hadvanced.dest]
          exact hne
        have hctxEof : .recv ctx.source.fd (.ready []) ∈ read.log := by
          rw [hadvanced.source]
          exact heof rfl
        obtain ⟨ctx', world', outcome, hhalf, hclosed⟩ :=
          halfClose_spec hspliced hctxNe (hsame.trans hstate) hctxEof hsource
            hdest
        simp only [hhalf]
        apply edgeSpec_absorb h
        intro hkeep
        obtain ⟨hfinal, hrest, hnotOpen⟩ := hclosed hkeep
        refine ⟨hfinal, hadvanced.trans hrest, ?_, fun _ => hnotOpen⟩
        intro hdone
        rw [hstate] at hdone
        cases hdone

theorem connection_forward_spec {setup : Setup} {connection : Connection}
    {world : World} (h : Whole setup connection world.log)
    (direction : Direction) :
    EdgeSpec setup connection world
      ((connection.context direction).sourceReg ≠ none ∧
        ((connection.context direction).flow.state = .opened →
          (connection.context direction).destReg ≠ none))
      (connection.forward direction world) := by
  unfold Connection.forward
  obtain ⟨opened, openedWorld, connected, hconnect, hconnected⟩ :=
    finishDeviceConnect_spec h
      (direction = .deviceToClient ∧ connection.device.connecting)
  rw [hconnect]
  cases connected with
  | close =>
      simp only [if_true]
      exact edgeSpec_close
  | keep =>
      obtain ⟨hwhole, hopened⟩ := hconnected rfl
      rw [← hopened.destReg, ← hopened.sourceReg, ← hopened.flow]
      apply EdgeSpec.after_opened _ hopened
      simp only [reduceCtorEq, if_false]
      split
      · rename_i hclosed
        cases hreg : (opened.context direction).destReg with
        | none => exact edgeSpec_close
        | some reg =>
            have hspec := peerGone_spec hwhole direction hclosed
              (by rw [hreg]; exact nofun)
            exact ⟨fun hneeds => hspec.total hneeds.1, hspec.keeps⟩
      · rename_i hopen
        have hstate : (opened.context direction).flow.state = .opened := by
          by_contra hclosed
          exact hopen hclosed
        exact forwardOpened_spec hwhole hstate

theorem onEdge_keeps {setup : Setup} {connection connection' : Connection}
    {world world' : World} {edge : Edge}
    (h : Whole setup connection world.log)
    (hedge : connection.onEdge edge world = .ok (connection', world', .keep)) :
    Whole setup connection' world'.log ∧ connection'.Unfinished ∧
      (Stepped connection world.log connection' world'.log ∨
        ∃ direction, HungUp direction connection connection' world.log
          world'.log) := by
  cases edge with
  | readable fd => exact (connection_forward_spec h _).keeps _ _ hedge
  | writable fd => exact (onWritable_spec h _).keeps _ _ hedge

/-! ## Runs -/

def Kept (state state' : Connection × World) : Prop :=
  ∃ edge, state.1.onEdge edge state.2 = .ok (state'.1, state'.2, .keep)

theorem whole_of_run {setup : Setup} {kernel : Kernel}
    {state : Connection × World}
    (h : Relation.ReflTransGen Kept (setup.connection, ⟨kernel, []⟩) state) :
    Whole setup state.1 state.2.log := by
  induction h with
  | refl => exact whole_connection setup
  | tail _ hstep ih =>
      obtain ⟨edge, hedge⟩ := hstep
      exact (onEdge_keeps ih hedge).1

/-- The splice is lossless and in order, and a destination's write half is
shut at most once, and only when all of a finished source has reached it. -/
theorem splice_lossless (setup : Setup) (kernel : Kernel)
    (connection : Connection) (world : World)
    (hrun : Relation.ReflTransGen Kept (setup.connection, ⟨kernel, []⟩)
      (connection, world)) (direction : Direction) :
    let source := (connection.context direction).source.fd
    let dest := (connection.context direction).dest.fd
    let flow := (connection.context direction).flow
    (∃ backlog, flow.send.pending = .ok backlog ∧
      acceptedBy dest world.log ++ backlog = producedFor dest world.log) ∧
    (∃ unframed, flow.recv.pending = .ok unframed ∧
      consumedFor dest world.log ++ unframed = readFrom source world.log) ∧
    world.log.count (.shutdownWrite dest) ≤ 1 ∧
    (∀ before after, world.log = before ++ .shutdownWrite dest :: after →
      .recv source (.ready []) ∈ before ∧
      acceptedBy dest before = producedFor dest before ∧
      Connected (setup.dest direction) before) := by
  intro source dest flow
  obtain ⟨hcarried, hfinished⟩ := (whole_of_run hrun).spliced direction
  obtain ⟨unframed, hunframed, hconsumed⟩ := hcarried.recv
  obtain ⟨backlog, hbacklog, hproduced⟩ := hcarried.send
  have hguarded := hfinished.guarded
  rw [← hfinished.fd] at hguarded
  refine ⟨⟨backlog, hbacklog.pending, hproduced⟩,
    ⟨unframed, hunframed.pending, hconsumed⟩, ?_, ?_⟩
  · apply hguarded.count_le_one
    intro before hmay
    rw [hfinished.fd]
    exact hmay.fresh
  · intro before after hsplit
    have hmay := hguarded before after hsplit
    have hflushed := hmay.flushed
    rw [← hfinished.fd] at hflushed
    exact ⟨hmay.eof, hflushed, hmay.connected⟩

def Connection.run (connection : Connection) (world : World) :
    List Edge → Option (Connection × World)
  | [] => some (connection, world)
  | edge :: edges =>
      match connection.onEdge edge world with
      | .ok (connection, world, .keep) => run connection world edges
      | _ => none

theorem reflTransGen_of_run {connection : Connection} {world : World}
    {edges : List Edge} {state : Connection × World}
    (h : connection.run world edges = some state) :
    Relation.ReflTransGen Kept (connection, world) state := by
  induction edges generalizing connection world with
  | nil =>
      cases h
      exact .refl
  | cons edge edges ih =>
      simp only [Connection.run] at h
      split at h
      · rename_i connection' world' hedge
        exact .head ⟨edge, hedge⟩ (ih h)
      · cases h

def exampleEndpoint : SocketAddrV4 := ⟨⟨[10, 0, 0, 9], rfl⟩, 80⟩

def exampleSetup : Setup :=
  { client := ⟨3, false⟩
    device := ⟨4, true⟩
    fds := by decide
    clientReg := ⟨⟨0, 0⟩⟩
    deviceReg := ⟨⟨1, 0⟩⟩
    regs := by decide
    deviceEndpoint := exampleEndpoint
    restListener := exampleEndpoint
    ownListener := exampleEndpoint
    now := 0 }

/-- One request and the end of the stream; the device takes ten bytes at
first. -/
def exampleKernel : Kernel :=
  { recv := fun position =>
      if position = 0 then
        .ready (ascii "GET / HTTP/1.1\r\nHost: 10.0.0.2:8008\r\n\r\n")
      else .ready []
    send := fun position => if position = 5 then .ready 10 else .ready 1000
    accepts := fun _ => true
    now := id }

def exampleEdges : List Edge :=
  [.readable 3, .writable 4, .readable 3, .writable 4]

theorem splice_lossless_exampleEdges :
    ∃ connection world,
      exampleSetup.connection.run ⟨exampleKernel, []⟩ exampleEdges =
        some (connection, world) ∧
      .shutdownWrite 4 ∈ world.log ∧
      acceptedBy 4 world.log =
        ascii "GET / HTTP/1.1\r\nHost: 10.0.0.9:80\r\n\r\n" ∧
      world.log.count (.shutdownWrite
        (connection.context .clientToDevice).dest.fd) ≤ 1 := by
  have hsome : (exampleSetup.connection.run ⟨exampleKernel, []⟩
      exampleEdges).isSome = true := by decide +kernel
  have hlog : ((exampleSetup.connection.run ⟨exampleKernel, []⟩
      exampleEdges).map fun state => (decide (.shutdownWrite 4 ∈ state.2.log),
        acceptedBy 4 state.2.log)) = some (true,
          ascii "GET / HTTP/1.1\r\nHost: 10.0.0.9:80\r\n\r\n") := by
    decide +kernel
  obtain ⟨⟨connection, world⟩, hrun⟩ := Option.isSome_iff_exists.mp hsome
  simp only [hrun, Option.map_some, Option.some.injEq, Prod.mk.injEq,
    decide_eq_true_eq] at hlog
  have hwhole := splice_lossless exampleSetup exampleKernel connection world
    (reflTransGen_of_run hrun) .clientToDevice
  exact ⟨connection, world, hrun, hlog.1, hlog.2, hwhole.2.2.1⟩

end Netflector.Reflector.Dial
