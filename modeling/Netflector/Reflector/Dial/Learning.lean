import Netflector.Net.Http.Growth
import Netflector.Net.Http.Rewriting
import Netflector.Reflector.Dial.Serving

/-!
# What an edge learns

An endpoint is learned from a response alone: from the first `Application-URL`
of a complete header block that was read off the device's socket.  An edge asks
the reactor for nothing but what concerns its own connection's registrations.
-/

namespace Netflector.Reflector.Dial

open Netflector.Foundation
open Netflector.Net
open Netflector.Net.Http
open Netflector.Reactor

/-! ## One feed -/

/-- Behind empty lines, `input` begins with a complete header block in which
the first line that parses as an `Application-URL` names `endpoint`. -/
def Names (input : Bytes) (endpoint : SocketAddrV4) : Prop :=
  ∃ stop start texts,
    findHeaderEnd (input.drop (skipCrlfs input)) = some stop ∧
    (input.drop (skipCrlfs input)).take stop = joinLines (start :: texts) ∧
    Unbroken (start :: texts) ∧
    texts.findSome? applicationUrlOf = some endpoint

theorem setBodyPhase_kind (framer : HttpFraming) (status : Nat)
    (contentLength : Option Nat) (chunked : Bool) :
    (framer.setBodyPhase status contentLength chunked).kind =
      framer.kind := by
  unfold HttpFraming.setBodyPhase
  dsimp only
  split
  · rfl
  · split
    · rfl
    · split
      · split <;> rfl
      · split <;> rfl

theorem takeBody_kind {rounds : Nat} {framer framer' : HttpFraming}
    {rest : Bytes} {taken : Nat}
    (h : HttpFraming.takeBody rounds framer rest = .ok (framer', taken)) :
    framer'.kind = framer.kind := by
  induction rounds generalizing framer rest taken with
  | zero =>
      cases h
      rfl
  | succ rounds ih =>
      have hmore : ∀ {next : HttpFraming} {taken' : Nat},
          (HttpFraming.takeBody rounds next (rest.drop taken') >>= fun more =>
            .ok (more.1, taken' + more.2)) = .ok (framer', taken) →
          next.kind = framer.kind → framer'.kind = framer.kind := by
        intro next taken' hloop hkind
        obtain ⟨⟨final, more⟩, hrest, hloop⟩ := except_bind_ok hloop
        cases hloop
        exact (ih hrest).trans hkind
      rw [HttpFraming.takeBody] at h
      split at h
      · cases h
        rfl
      split at h
      · cases h
        rfl
      · cases h
        rfl
      · cases h
        rfl
      · split at h
        · dsimp only at h
          split at h
          · cases h
            rfl
          · exact hmore h rfl
        · split at h
          · split at h
            · cases h
            · cases h
              rfl
          · obtain ⟨size, _, h⟩ := except_bind_ok h
            dsimp only at h
            split at h
            · exact hmore h rfl
            · split at h
              · cases h
              · exact hmore h rfl
      · split at h
        · split at h
          · cases h
          · cases h
            rfl
        · exact hmore h rfl

theorem feed_url {framer framer' : HttpFraming} {input : Bytes}
    {framed : Framed} (h : framer.feed input = .ok (framer', framed)) :
    framer'.kind = framer.kind ∧
      ∀ endpoint, framed.applicationUrl = some endpoint →
        framer.kind = .response ∧ Names input endpoint := by
  simp only [HttpFraming.feed] at h
  split at h
  · split at h
    · split at h
      · cases h
      · cases h
        refine ⟨rfl, ?_⟩
        intro endpoint hurl
        cases hurl
    · rename_i stop hstop
      split at h
      · cases h
      obtain ⟨⟨next, header, url⟩, hscan, h⟩ := except_bind_ok h
      obtain ⟨⟨final, taken⟩, hbody, h⟩ := except_bind_ok h
      cases h
      obtain ⟨start, texts, hblock, hunbroken⟩ :=
        split_joinLines (findHeaderEnd_ends hstop)
      rw [hblock, scanAndRewriteHeader_joinLines framer hunbroken] at hscan
      obtain ⟨scan, hfold, hset⟩ := except_bind_ok hscan
      obtain ⟨begun, hline, hrest⟩ := except_bind_ok hfold
      rw [HeaderScan.line_start hline] at hrest
      have hfolded := HeaderScan.foldLines_folded rfl hrest
      split at hset
      · cases hset
      · cases hset
        refine ⟨(takeBody_kind hbody).trans (setBodyPhase_kind _ _ _ _), ?_⟩
        intro endpoint hurl
        have hnamed : (if framer.kind = .request then none
            else texts.findSome? applicationUrlOf) = some endpoint := by
          rw [← findSome_dialedBy, ← hurl, hfolded.applicationUrl]
          rfl
        cases hkind : framer.kind with
        | request =>
            rw [hkind] at hnamed
            cases hnamed
        | response =>
            rw [hkind] at hnamed
            exact ⟨rfl, stop, start, texts, hstop, hblock, hunbroken, hnamed⟩
  · obtain ⟨⟨final, taken⟩, hbody, h⟩ := except_bind_ok h
    cases h
    refine ⟨takeBody_kind hbody, ?_⟩
    intro endpoint hurl
    cases hurl

/-! ## One direction -/

def Event.Within (regs : List Key) : Event → Prop
  | .setReadInterest reg _ _ => reg.key ∈ regs
  | .setWriteInterest reg _ _ => reg.key ∈ regs
  | .unwatch reg _ => reg.key ∈ regs
  | _ => True

def DirectionContext.regs (ctx : DirectionContext) : List Key :=
  ctx.sourceReg.toList.map RegKey.key ++ ctx.destReg.toList.map RegKey.key

/-- A message framed for `dest` named `endpoint`, and its bytes are the last
that were read from `source`. -/
def Learned (source dest : Nat) (endpoint : SocketAddrV4)
    (log : List Event) : Prop :=
  ∃ input framed, .framed dest input framed ∈ log ∧
    framed.applicationUrl = some endpoint ∧ input <:+ readFrom source log ∧
    Names input endpoint

theorem Learned.append {source dest : Nat} {endpoint : SocketAddrV4}
    {log events : List Event} (h : Learned source dest endpoint log)
    (hsilent : readFrom source events = []) :
    Learned source dest endpoint (log ++ events) := by
  obtain ⟨input, framed, hmem, hurl, hsuffix, hnames⟩ := h
  refine ⟨input, framed, List.mem_append_left events hmem, hurl, ?_, hnames⟩
  rw [readFrom, List.flatMap_append, ← readFrom, ← readFrom, hsilent,
    List.append_nil]
  exact hsuffix

structure Attends (ctx : DirectionContext) (world : World)
    (ctx' : DirectionContext) (world' : World) : Prop where
  source : ctx'.source = ctx.source
  sourceReg : ctx'.sourceReg = ctx.sourceReg
  dest : ctx'.dest = ctx.dest
  destReg : ctx'.destReg = ctx.destReg
  kind : ctx'.flow.framer.kind = ctx.flow.framer.kind
  log : ∃ events, world'.log = world.log ++ events ∧
    ∀ event ∈ events, event.Within ctx.regs
  learned : ctx'.learnedRest = ctx.learnedRest ∨
    ∃ endpoint, ctx'.learnedRest = some endpoint ∧
      ctx.flow.framer.kind = .response ∧
      Learned ctx.source.fd ctx.dest.fd endpoint world'.log

structure Still (ctx : DirectionContext) (world : World)
    (ctx' : DirectionContext) (world' : World) : Prop
    extends Attends ctx world ctx' world' where
  silent : ∀ events, world'.log = world.log ++ events →
    readFrom ctx.source.fd events = []

structure Mute (ctx : DirectionContext) (world : World)
    (ctx' : DirectionContext) (world' : World) : Prop
    extends Still ctx world ctx' world' where
  unlearned : ctx'.learnedRest = ctx.learnedRest

variable {ctx between ctx' : DirectionContext} {world middle world' : World}

theorem Attends.trans (h : Attends ctx world between middle)
    (h' : Still between middle ctx' world') :
    Attends ctx world ctx' world' := by
  obtain ⟨events, hlog, hevents⟩ := h.log
  obtain ⟨events', hlog', hevents'⟩ := h'.log
  have hsilent := h'.silent events' hlog'
  have hregs : between.regs = ctx.regs := by
    rw [DirectionContext.regs, h.sourceReg, h.destReg]
    rfl
  constructor
  · rw [h'.source, h.source]
  · rw [h'.sourceReg, h.sourceReg]
  · rw [h'.dest, h.dest]
  · rw [h'.destReg, h.destReg]
  · rw [h'.kind, h.kind]
  · refine ⟨events ++ events', ?_, ?_⟩
    · rw [hlog', hlog, List.append_assoc]
    · intro event hmem
      rcases List.mem_append.mp hmem with hmem | hmem
      · exact hevents event hmem
      · rw [← hregs]
        exact hevents' event hmem
  · rcases h'.learned with hsame | hlearned
    · rw [hsame]
      rcases h.learned with hold | ⟨endpoint, hsome, hkind, hlearned⟩
      · exact .inl hold
      · refine .inr ⟨endpoint, hsome, hkind, ?_⟩
        rw [hlog']
        rw [h.source] at hsilent
        exact hlearned.append hsilent
    · rw [h.kind, h.source, h.dest] at hlearned
      exact .inr hlearned

theorem Still.trans (h : Still ctx world between middle)
    (h' : Still between middle ctx' world') : Still ctx world ctx' world' := by
  refine ⟨h.toAttends.trans h', ?_⟩
  intro all hall
  obtain ⟨events, hlog, _⟩ := h.log
  obtain ⟨events', hlog', _⟩ := h'.log
  have hsilent := h'.silent events' hlog'
  rw [h.source] at hsilent
  rw [hlog', hlog, List.append_assoc, List.append_cancel_left_eq] at hall
  rw [← hall, readFrom, List.flatMap_append, ← readFrom, ← readFrom,
    h.silent events hlog, hsilent, List.append_nil]

theorem Mute.trans (h : Mute ctx world between middle)
    (h' : Mute between middle ctx' world') : Mute ctx world ctx' world' :=
  ⟨h.toStill.trans h'.toStill, h'.unlearned.trans h.unlearned⟩

theorem Mute.idle (ctx : DirectionContext) (world : World) (flow : Flow)
    (deadline : Nat) (hkind : flow.framer.kind = ctx.flow.framer.kind) :
    Mute ctx world { ctx with flow := flow, deadline := deadline } world where
  source := rfl
  sourceReg := rfl
  dest := rfl
  destReg := rfl
  kind := hkind
  log := ⟨[], (List.append_nil _).symm, fun _ hmem =>
    absurd hmem List.not_mem_nil⟩
  learned := .inl rfl
  silent events hlog := by
    rw [List.self_eq_append_right.mp hlog]
    rfl
  unlearned := rfl

theorem Mute.refl (ctx : DirectionContext) (world : World) :
    Mute ctx world ctx world :=
  .idle ctx world ctx.flow ctx.deadline rfl

theorem Attends.record (ctx : DirectionContext) (world : World)
    {event : Event} (hwithin : event.Within ctx.regs) (flow : Flow)
    (deadline : Nat) (hkind : flow.framer.kind = ctx.flow.framer.kind) :
    Attends ctx world { ctx with flow := flow, deadline := deadline }
      (world.record event) where
  source := rfl
  sourceReg := rfl
  dest := rfl
  destReg := rfl
  kind := hkind
  log := ⟨[event], rfl, fun _ hmem => by
    rw [List.mem_singleton.mp hmem]
    exact hwithin⟩
  learned := .inl rfl

theorem Mute.record (ctx : DirectionContext) (world : World)
    {event : Event} (hwithin : event.Within ctx.regs)
    (hread : event.readFrom ctx.source.fd = []) (flow : Flow)
    (deadline : Nat) (hkind : flow.framer.kind = ctx.flow.framer.kind) :
    Mute ctx world { ctx with flow := flow, deadline := deadline }
      (world.record event) := by
  refine ⟨⟨.record ctx world hwithin flow deadline hkind, ?_⟩, rfl⟩
  intro events hlog
  rw [← List.append_cancel_left hlog, readFrom, List.flatMap_singleton, hread]

theorem Still.readFrom (h : Still ctx world ctx' world') :
    readFrom ctx.source.fd world'.log = readFrom ctx.source.fd world.log := by
  obtain ⟨events, hlog, _⟩ := h.log
  rw [hlog, Dial.readFrom, List.flatMap_append, ← Dial.readFrom,
    ← Dial.readFrom, h.silent events hlog, List.append_nil]

theorem sendFramed_mute {header body : Bytes} {outcome : Outcome}
    (h : ctx.sendFramed world header body = .ok (ctx', world', outcome)) :
    Mute ctx world ctx' world' ∧ ctx'.flow.recv = ctx.flow.recv := by
  unfold DirectionContext.sendFramed at h
  split at h
  · obtain ⟨⟨send, buffered⟩, _, hrest⟩ := except_bind_ok h
    cases hrest
    exact ⟨.idle ctx world _ _ rfl, rfl⟩
  · obtain ⟨answer, hanswer, _⟩ :=
      world_send_spec world ctx.dest (header ++ body)
    rw [hanswer] at h
    have hsend (send : StreamBuffer) (deadline : Nat) :
        Mute ctx world
          { ctx with
            flow := { ctx.flow with send := send }, deadline := deadline }
          (world.record (.send ctx.dest.fd (header ++ body) answer)) := by
      apply Mute.record
      · exact True.intro
      · rfl
      · rfl
    cases hsent : answer.sent with
    | none =>
        simp only [hsent] at h
        cases h
        exact ⟨hsend _ _, rfl⟩
    | some sent =>
        simp only [hsent] at h
        obtain ⟨deadline, hdeadline⟩ : ∃ deadline,
            (if 0 < sent then
              { ctx with deadline := (world.record (.send ctx.dest.fd
                (header ++ body) answer)).now + idleTimeout }
            else ctx) = { ctx with deadline := deadline } := by
          split
          · exact ⟨_, rfl⟩
          · exact ⟨ctx.deadline, rfl⟩
        rw [hdeadline] at h
        split at h
        · cases h
          exact ⟨hsend _ _, rfl⟩
        · obtain ⟨⟨headerTail, bodyTail⟩, _, hrest⟩ := except_bind_ok h
          obtain ⟨⟨send, buffered⟩, _, hlast⟩ := except_bind_ok hrest
          cases hlast
          exact ⟨hsend _ _, rfl⟩

/-- The bytes fed are the last that were read, so what they name is learned
from them. -/
theorem framed_still {live : Bytes} {framer : HttpFraming} {framed : Framed}
    (hsuffix : live <:+ readFrom ctx.source.fd world.log)
    (hfeed : ctx.flow.framer.feed live = .ok (framer, framed)) :
    Still ctx world
      { ctx with
        flow := { ctx.flow with framer := framer }
        learnedRest := framed.applicationUrl.or ctx.learnedRest }
      (world.record (.framed ctx.dest.fd live framed)) := by
  obtain ⟨hkind, hurl⟩ := feed_url hfeed
  have hrecord : Mute ctx world
      { ctx with
        flow := { ctx.flow with framer := framer }, deadline := ctx.deadline }
      (world.record (.framed ctx.dest.fd live framed)) := by
    apply Mute.record
    · exact True.intro
    · rfl
    · exact hkind
  refine ⟨⟨rfl, rfl, rfl, rfl, hkind, hrecord.log, ?_⟩, hrecord.silent⟩
  cases happ : framed.applicationUrl with
  | none => exact .inl rfl
  | some endpoint =>
      obtain ⟨hresponse, hnames⟩ := hurl endpoint happ
      refine .inr ⟨endpoint, rfl, hresponse, live, framed,
        List.mem_append_right _ (List.mem_singleton_self _), happ, ?_, hnames⟩
      rw [hrecord.readFrom]
      exact hsuffix

theorem forwardFramed_still (rounds : Nat) (live : Bytes)
    {forwarded : Forwarded} (hlive : ctx.flow.recv.Holds live)
    (hsuffix : live <:+ readFrom ctx.source.fd world.log)
    (h : ctx.forwardFramed rounds world = .ok (ctx', world', forwarded)) :
    Still ctx world ctx' world' := by
  induction rounds generalizing ctx world live with
  | zero =>
      cases h
      exact (Mute.refl _ _).toStill
  | succ rounds ih =>
      rw [DirectionContext.forwardFramed, hlive.pending] at h
      obtain ⟨pending, hpending, h⟩ := except_bind_ok h
      cases hpending
      cases hfed : ctx.flow.framer.feed live with
      | error error =>
          simp only [hfed] at h
          cases h
          exact (Mute.refl _ _).toStill
      | ok answer =>
          obtain ⟨framer, framed⟩ := answer
          simp only [hfed] at h
          have hframed := framed_still hsuffix hfed
          split at h
          · cases h
            exact hframed
          · obtain ⟨⟨between, middle, outcome⟩, hsend, h⟩ := except_bind_ok h
            obtain ⟨hsend, hrecv⟩ := sendFramed_mute hsend
            have hsent := hframed.trans hsend.toStill
            split at h
            · cases h
              exact hsent
            · have hconsumed := Mute.idle between middle { between.flow with
                recv := between.flow.recv.consume framed.consumed }
                between.deadline rfl
              refine (hsent.trans hconsumed.toStill).trans
                (ih (live.drop framed.consumed) ?_ ?_ h)
              · rw [hrecv]
                exact hlive.consume framed.consumed
              · rw [hsent.source, hsent.readFrom]
                exact (List.drop_suffix _ _).trans hsuffix

theorem forward_attends {live : Bytes} {forwarded : Forwarded}
    (hlive : ctx.flow.recv.Holds live)
    (hsuffix : live <:+ readFrom ctx.source.fd world.log)
    (h : ctx.forward world = .ok (ctx', world', forwarded)) :
    Attends ctx world ctx' world' := by
  obtain ⟨recv, room, hfree, hrecv, _, hallocated, hroom, _⟩ :=
    hlive.freeTailMut
  rw [DirectionContext.forward, hfree] at h
  obtain ⟨free, hsame, h⟩ := except_bind_ok h
  cases hsame
  dsimp only at h
  split at h
  · cases h
    exact (Mute.idle ctx world { ctx.flow with recv := recv } ctx.deadline
      rfl).toAttends
  · obtain ⟨answer, hanswer, hbound⟩ := world_recv_spec world ctx.source room
    have hread (recv : StreamBuffer) : Attends ctx world
        { ctx with
          flow := { ctx.flow with recv := recv }, deadline := ctx.deadline }
        (world.record (.recv ctx.source.fd answer)) := by
      apply Attends.record
      · exact True.intro
      · rfl
    simp only [hanswer] at h
    cases answer with
    | failed =>
        cases h
        exact hread _
    | wouldBlock =>
        cases h
        exact hread _
    | ready bytes =>
        simp only at h
        split at h
        · cases h
          exact hread _
        · have hfits : recv.filled + bytes.length ≤ recv.capacity := by
            have := hbound bytes rfl
            omega
          refine (hread _).trans (forwardFramed_still _ (live ++ bytes)
            (hrecv.receive hallocated hfits) ?_ h)
          obtain ⟨before, hbefore⟩ := hsuffix
          refine ⟨before, ?_⟩
          simp only [World.record, readFrom, List.flatMap_append,
            List.flatMap_singleton, Event.readFrom, if_true]
          rw [← readFrom, ← hbefore, List.append_assoc]

theorem mem_destReg {reg : RegKey} (h : ctx.destReg = some reg) :
    reg.key ∈ ctx.regs := by
  rw [DirectionContext.regs, h]
  exact List.mem_append_right _ (List.mem_singleton_self _)

theorem mem_sourceReg {reg : RegKey} (h : ctx.sourceReg = some reg) :
    reg.key ∈ ctx.regs := by
  rw [DirectionContext.regs, h]
  exact List.mem_append_left _ (List.mem_singleton_self _)

theorem syncWriteInterest_mute {outcome : Outcome}
    (h : ctx.syncWriteInterest world = .ok (world', outcome)) :
    Mute ctx world ctx world' := by
  obtain ⟨reg, hreg, hask⟩ := except_bind_ok h
  obtain ⟨answer, hanswer⟩ := world_ask_spec world
    (.setWriteInterest reg (!ctx.flow.send.isEmpty || ctx.dest.connecting))
  rw [hanswer] at hask
  cases hask
  apply Mute.record ctx world _ _ ctx.flow ctx.deadline
  · rfl
  · exact mem_destReg (orPanic_ok hreg)
  · rfl

theorem settle_mute {outcome : Outcome}
    (h : ctx.settle world = .ok (ctx', world', outcome)) :
    Mute ctx world ctx' world' := by
  unfold DirectionContext.settle at h
  by_cases hshut : ctx.flow.state = .sourceClosed ∧ ctx.flow.send.isEmpty ∧
      !ctx.dest.connecting
  · simp only [if_pos hshut] at h
    obtain ⟨⟨synced, answer⟩, hsync, hrest⟩ := except_bind_ok h
    cases hrest
    have hshutdown : Mute ctx world
        { ctx with
          flow := { ctx.flow with state := .done }, deadline := ctx.deadline }
        (world.record (.shutdownWrite ctx.dest.fd)) := by
      apply Mute.record
      · exact True.intro
      · rfl
      · rfl
    exact hshutdown.trans (syncWriteInterest_mute hsync)
  · simp only [if_neg hshut] at h
    obtain ⟨⟨synced, answer⟩, hsync, hrest⟩ := except_bind_ok h
    cases hrest
    exact syncWriteInterest_mute hsync

theorem halfClose_mute {outcome : Outcome}
    (h : ctx.halfClose world = .ok (ctx', world', outcome)) :
    Mute ctx world ctx' world' := by
  obtain ⟨reg, hreg, hask⟩ := except_bind_ok h
  obtain ⟨answer, hanswer⟩ :=
    world_ask_spec world (.setReadInterest reg false)
  have hdisarm (flow : Flow) (hkind : flow.framer.kind =
      ctx.flow.framer.kind) : Mute ctx world
      { ctx with flow := flow, deadline := ctx.deadline }
      (world.record (.setReadInterest reg false answer)) := by
    apply Mute.record
    · exact mem_sourceReg (orPanic_ok hreg)
    · rfl
    · exact hkind
  simp only [hanswer] at hask
  split at hask
  · exact (hdisarm { ctx.flow with state := .sourceClosed } rfl).trans
      (settle_mute hask)
  · cases hask
    exact hdisarm ctx.flow rfl

theorem drain_mute {outcome : Outcome}
    (h : ctx.drain world = .ok (ctx', world', outcome)) :
    Mute ctx world ctx' world' := by
  unfold DirectionContext.drain at h
  split at h
  · cases h
    exact .refl _ _
  · obtain ⟨pending, _, hsend⟩ := except_bind_ok h
    obtain ⟨answer, hanswer, _⟩ := world_send_spec world ctx.dest pending
    have hsent (send : StreamBuffer) (deadline : Nat) : Mute ctx world
        { ctx with
          flow := { ctx.flow with send := send }, deadline := deadline }
        (world.record (.send ctx.dest.fd pending answer)) := by
      apply Mute.record
      · exact True.intro
      · rfl
      · rfl
    simp only [hanswer] at hsend
    cases answer with
    | failed =>
        cases hsend
        exact hsent _ _
    | wouldBlock =>
        cases hsend
        exact hsent _ _
    | ready count =>
        simp only at hsend
        split at hsend
        · cases hsend
          exact hsent _ _
        · cases hsend
          exact hsent _ _

/-! ## One connection -/

def Connection.Hears (connection : Connection) (log : List Event) : Prop :=
  ∀ direction, ∃ live,
    (connection.context direction).flow.recv.Holds live ∧
    live <:+ readFrom (connection.context direction).source.fd log

structure Tends (direction : Direction) (connection : Connection)
    (world : World) (connection' : Connection) (world' : World) : Prop where
  kind : ∀ side, (connection'.context side).flow.framer.kind =
    (connection.context side).flow.framer.kind
  log : ∃ events, world'.log = world.log ++ events ∧
    ∀ event ∈ events, event.Within connection.regs
  learned : connection'.learnedRest = connection.learnedRest ∨
    ∃ endpoint, connection'.learnedRest = some endpoint ∧
      (connection.context direction).flow.framer.kind = .response ∧
      Learned (connection.context direction).source.fd
        (connection.context direction).dest.fd endpoint world'.log

variable {connection opened connection' : Connection}

theorem Tends.refl (direction : Direction) (connection : Connection)
    (world : World) :
    Tends direction connection world connection world where
  kind _ := rfl
  log := ⟨[], (List.append_nil _).symm, fun _ hmem =>
    absurd hmem List.not_mem_nil⟩
  learned := .inl rfl

theorem Event.Within.mono {regs regs' : List Key} {event : Event}
    (h : event.Within regs) (hsub : ∀ reg ∈ regs, reg ∈ regs') :
    event.Within regs' := by
  cases event with
  | setReadInterest reg armed answer => exact hsub _ h
  | setWriteInterest reg armed answer => exact hsub _ h
  | unwatch reg answer => exact hsub _ h
  | _ => exact True.intro

theorem mem_context_regs {direction : Direction} {reg : Key} :
    reg ∈ (connection.context direction).regs ↔ reg ∈ connection.regs := by
  cases direction with
  | clientToDevice => exact Iff.rfl
  | deviceToClient =>
      simp only [DirectionContext.regs, Connection.regs, Connection.context,
        List.mem_append, or_comm]

theorem absorb_learned {direction : Direction} :
    (connection.absorb direction ctx').learnedRest = ctx'.learnedRest := by
  cases direction <;> rfl

theorem context_learned {direction : Direction} :
    (connection.context direction).learnedRest =
      connection.learnedRest := by
  cases direction <;> rfl

theorem Attends.tends {direction : Direction}
    (h : Attends (connection.context direction) world ctx' world') :
    Tends direction connection world (connection.absorb direction ctx')
      world' := by
  constructor
  · intro side
    cases direction with
    | clientToDevice =>
        cases side with
        | clientToDevice => exact h.kind
        | deviceToClient => rfl
    | deviceToClient =>
        cases side with
        | clientToDevice => rfl
        | deviceToClient => exact h.kind
  · obtain ⟨events, hlog, hevents⟩ := h.log
    refine ⟨events, hlog, ?_⟩
    intro event hmem
    exact (hevents event hmem).mono fun reg => mem_context_regs.mp
  · rw [absorb_learned, ← context_learned]
    rcases h.learned with hsame | ⟨endpoint, hlearned⟩
    · exact .inl hsame
    · exact .inr ⟨endpoint, hlearned⟩

structure Precedes (connection : Connection) (world : World)
    (opened : Connection) (middle : World) : Prop where
  kind : ∀ direction, (opened.context direction).flow.framer.kind =
    (connection.context direction).flow.framer.kind
  recv : ∀ direction, (opened.context direction).flow.recv =
    (connection.context direction).flow.recv
  source : ∀ direction, (opened.context direction).source.fd =
    (connection.context direction).source.fd
  dest : ∀ direction, (opened.context direction).dest.fd =
    (connection.context direction).dest.fd
  regs : ∀ reg ∈ opened.regs, reg ∈ connection.regs
  learned : opened.learnedRest = connection.learnedRest
  log : ∃ events, middle.log = world.log ++ events ∧
    ∀ event ∈ events, event.Within connection.regs ∧
      ∀ fd, event.readFrom fd = []

theorem Precedes.hears (h : Precedes connection world opened middle)
    (hhears : connection.Hears world.log) : opened.Hears middle.log := by
  intro direction
  obtain ⟨live, hlive, before, hbefore⟩ := hhears direction
  obtain ⟨events, hlog, hevents⟩ := h.log
  refine ⟨live, ?_, before, ?_⟩
  · rw [h.recv]
    exact hlive
  · rw [h.source, hlog, readFrom,
      flatMap_append_eq fun event hmem => (hevents event hmem).2 _]
    exact hbefore

theorem Precedes.tends {direction : Direction}
    (h : Precedes connection world opened middle)
    (h' : Tends direction opened middle connection' world') :
    Tends direction connection world connection' world' := by
  obtain ⟨events, hlog, hevents⟩ := h.log
  obtain ⟨events', hlog', hevents'⟩ := h'.log
  constructor
  · intro direction
    rw [h'.kind, h.kind]
  · refine ⟨events ++ events', ?_, ?_⟩
    · rw [hlog', hlog, List.append_assoc]
    · intro event hmem
      rcases List.mem_append.mp hmem with hmem | hmem
      · exact (hevents event hmem).1
      · exact (hevents' event hmem).mono h.regs
  · rcases h'.learned with hsame | ⟨endpoint, hlearned⟩
    · exact .inl (hsame.trans h.learned)
    · rw [h.kind, h.source, h.dest] at hlearned
      exact .inr ⟨endpoint, hlearned⟩

theorem connected_precedes (connection : Connection) (world : World)
    (edge : Prop) [Decidable edge] :
    ∃ opened middle outcome,
      (if edge then connection.finishDeviceConnect world
        else (connection, world, .keep)) = (opened, middle, outcome) ∧
      Precedes connection world opened middle := by
  split
  · obtain ⟨answer, hanswer⟩ :=
      world_ask_spec world (.finishConnect connection.device.fd)
    have hlog : ∃ events, (world.record (.finishConnect connection.device.fd
        answer)).log = world.log ++ events ∧ ∀ event ∈ events,
          event.Within connection.regs ∧ ∀ fd, event.readFrom fd = [] := by
      refine ⟨_, rfl, ?_⟩
      intro event hmem
      rw [List.mem_singleton.mp hmem]
      exact ⟨True.intro, fun _ => rfl⟩
    unfold Connection.finishDeviceConnect
    rw [hanswer]
    cases answer with
    | false =>
        exact ⟨_, _, _, rfl, fun _ => rfl, fun _ => rfl, fun _ => rfl,
          fun _ => rfl, fun _ hmem => hmem, rfl, hlog⟩
    | true =>
        refine ⟨_, _, _, rfl, ?_, ?_, ?_, ?_, fun _ hmem => hmem, rfl, hlog⟩
        all_goals
          intro direction
          cases direction <;> rfl
  · exact ⟨_, _, _, rfl, fun _ => rfl, fun _ => rfl, fun _ => rfl,
      fun _ => rfl, fun _ hmem => hmem, rfl, [], (List.append_nil _).symm,
      fun _ hmem => absurd hmem List.not_mem_nil⟩

theorem forwardOpened_tends {direction : Direction} {outcome : Outcome}
    (hhears : connection.Hears world.log)
    (h : connection.forwardOpened direction world =
      .ok (connection', world', outcome)) :
    Tends direction connection world connection' world' := by
  obtain ⟨live, hlive, hsuffix⟩ := hhears direction
  obtain ⟨⟨read, middle, forwarded⟩, hforward, h⟩ := except_bind_ok h
  obtain ⟨⟨ctx, final, closed⟩, hwork, h⟩ := except_bind_ok h
  cases h
  have hread := forward_attends hlive hsuffix hforward
  cases forwarded with
  | failed =>
      cases hwork
      exact hread.tends
  | sourceEof => exact (hread.trans (halfClose_mute hwork).toStill).tends
  | opened =>
      obtain ⟨⟨synced, answer⟩, hsync, hrest⟩ := except_bind_ok hwork
      cases hrest
      exact (hread.trans (syncWriteInterest_mute hsync).toStill).tends

theorem abandon_regs {direction : Direction} {reg : Key}
    (h : reg ∈ (connection.abandon direction).regs) :
    reg ∈ connection.regs := by
  cases direction with
  | clientToDevice => exact List.mem_append_right _ h
  | deviceToClient =>
      rw [Connection.regs, Connection.abandon] at h
      exact List.mem_append_left _ (by simpa using h)

theorem abandon_precedes (direction : Direction) {events : List Event}
    (hlog : middle.log = world.log ++ events)
    (hevents : ∀ event ∈ events, event.Within connection.regs ∧
      ∀ fd, event.readFrom fd = []) :
    Precedes connection world (connection.abandon direction) middle := by
  refine ⟨?_, ?_, ?_, ?_, fun reg => abandon_regs, ?_, events, hlog, hevents⟩
  · intro side
    cases direction <;> cases side <;> rfl
  · intro side
    cases direction <;> cases side <;> rfl
  · intro side
    cases direction <;> cases side <;> rfl
  · intro side
    cases direction <;> cases side <;> rfl
  · cases direction <;> rfl

theorem peerGone_tends {direction : Direction} {outcome : Outcome}
    (h : connection.peerGone direction world =
      .ok (connection', world', outcome)) :
    Tends direction connection world connection' world' := by
  obtain ⟨disarmReg, hdisarm, h⟩ := except_bind_ok h
  obtain ⟨unwatchReg, hunwatch, h⟩ := except_bind_ok h
  obtain ⟨disarmed, hasked⟩ :=
    world_ask_spec world (.setReadInterest disarmReg false)
  obtain ⟨unwatched, hasked'⟩ := world_ask_spec
    (world.record (.setReadInterest disarmReg false disarmed))
    (.unwatch unwatchReg)
  have hdisarmMem : disarmReg.key ∈ connection.regs :=
    mem_context_regs.mp (mem_destReg (orPanic_ok hdisarm))
  have hunwatchMem : unwatchReg.key ∈ connection.regs :=
    mem_context_regs.mp (mem_sourceReg (orPanic_ok hunwatch))
  have hfirst : Precedes connection world (connection.abandon direction)
      (world.record (.setReadInterest disarmReg false disarmed)) := by
    apply abandon_precedes direction rfl
    intro event hmem
    rw [List.mem_singleton.mp hmem]
    exact ⟨hdisarmMem, fun _ => rfl⟩
  have hboth : Precedes connection world (connection.abandon direction)
      ((world.record (.setReadInterest disarmReg false disarmed)).record
        (.unwatch unwatchReg unwatched)) := by
    apply abandon_precedes direction (List.append_assoc _ _ _)
    intro event hmem
    rcases List.mem_cons.mp hmem with rfl | hmem
    · exact ⟨hdisarmMem, fun _ => rfl⟩
    · rw [List.mem_singleton.mp hmem]
      exact ⟨hunwatchMem, fun _ => rfl⟩
  simp only [hasked, hasked'] at h
  split at h
  · split at h
    · obtain ⟨⟨ctx, settled, answer⟩, hsettle, h⟩ := except_bind_ok h
      have hsettled := hboth.tends (settle_mute hsettle).toAttends.tends
      split at h
      · cases h
        exact hsettled
      · cases h
        exact hsettled
    · cases h
      exact hboth.tends (.refl _ _ _)
  · cases h
    exact hfirst.tends (.refl _ _ _)

theorem forward_tends {direction : Direction} {outcome : Outcome}
    (hhears : connection.Hears world.log)
    (h : connection.forward direction world =
      .ok (connection', world', outcome)) :
    Tends direction connection world connection' world' := by
  obtain ⟨opened, middle, connected, hconnect, hprecedes⟩ :=
    connected_precedes connection world
      (direction = .deviceToClient ∧ connection.device.connecting)
  unfold Connection.forward at h
  rw [hconnect] at h
  dsimp only at h
  split at h
  · cases h
    exact hprecedes.tends (.refl _ _ _)
  · split at h
    · split at h
      · cases h
        exact hprecedes.tends (.refl _ _ _)
      · exact hprecedes.tends (peerGone_tends h)
    · exact hprecedes.tends (forwardOpened_tends (hprecedes.hears hhears) h)

theorem onWritable_tends {direction : Direction} {outcome : Outcome}
    (h : connection.onWritable direction world =
      .ok (connection', world', outcome)) :
    Tends direction connection world connection' world' ∧
      connection'.learnedRest = connection.learnedRest := by
  obtain ⟨opened, middle, connected, hconnect, hprecedes⟩ :=
    connected_precedes connection world
      (direction = .clientToDevice ∧ connection.device.connecting)
  unfold Connection.onWritable at h
  rw [hconnect] at h
  dsimp only at h
  split at h
  · cases h
    exact ⟨hprecedes.tends (.refl _ _ _), hprecedes.learned⟩
  · obtain ⟨⟨ctx, flushed, drained⟩, hdrain, h⟩ := except_bind_ok h
    have hdrained := drain_mute hdrain
    dsimp only at h
    split at h
    · cases h
      refine ⟨hprecedes.tends hdrained.toAttends.tends, ?_⟩
      rw [absorb_learned, hdrained.unlearned, context_learned,
        hprecedes.learned]
    · obtain ⟨⟨ctx', settled, answer⟩, hsettle, h⟩ := except_bind_ok h
      cases h
      have hsettled := hdrained.trans (settle_mute hsettle)
      refine ⟨hprecedes.tends hsettled.toAttends.tends, ?_⟩
      rw [absorb_learned, hsettled.unlearned, context_learned,
        hprecedes.learned]

end Netflector.Reflector.Dial
