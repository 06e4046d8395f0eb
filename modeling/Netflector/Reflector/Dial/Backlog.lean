import Netflector.Net.Http.Growth
import Netflector.Reflector.Dial.Splice

/-!
# A readable edge against an empty backlog

The receive buffer is half as large as the send buffer, and a feed hands out at
most twice what it takes: no edge overflows a send buffer that was empty.
-/

namespace Netflector.Reflector.Dial

open Netflector.Foundation
open Netflector.Net
open Netflector.Net.Http
open Netflector.Reactor

/-! ## The calls that may overflow -/

inductive SendTail (ctx : DirectionContext) (world : World)
    (header body : Bytes) : StreamBuffer → Bytes → Bytes → Prop where
  | whole (hbuffered : !ctx.flow.send.isEmpty ∨ ctx.dest.connecting) :
      SendTail ctx world header body ctx.flow.send header body
  | unsent {sent : Nat} {headerTail bodyTail : Bytes}
      (hwrites : ¬ (!ctx.flow.send.isEmpty ∨ ctx.dest.connecting))
      (hsent : (world.send ctx.dest (header ++ body)).2.sent = some sent)
      (hpart : sent ≠ header.length + body.length)
      (hsplit : splitRemainder header body sent =
        .ok (headerTail, bodyTail)) :
      SendTail ctx world header body ctx.flow.send headerTail bodyTail

def DirectionContext.fed (ctx : DirectionContext) (framer : HttpFraming)
    (framed : Framed) : DirectionContext :=
  { ctx with
    flow := { ctx.flow with framer := framer }
    learnedRest := framed.applicationUrl.or ctx.learnedRest }

def DirectionContext.receiving (ctx : DirectionContext)
    (recv : StreamBuffer) : DirectionContext :=
  { ctx with flow := { ctx.flow with recv := recv } }

def DirectionContext.consumed (ctx : DirectionContext) (count : Nat) :
    DirectionContext :=
  ctx.receiving (ctx.flow.recv.consume count)

inductive LoopTail : DirectionContext → World →
    StreamBuffer → Bytes → Bytes → Prop where
  | here {ctx : DirectionContext} {world : World} {pending : Bytes}
      {framer : HttpFraming} {framed : Framed} {send : StreamBuffer}
      {header body : Bytes}
      (hpending : ctx.flow.recv.pending = .ok pending)
      (hfeed : ctx.flow.framer.feed pending = .ok (framer, framed))
      (hsome : framed.consumed ≠ 0)
      (htail : SendTail (ctx.fed framer framed)
        (world.record (.framed ctx.dest.fd pending framed)) framed.header
        framed.body send header body) :
      LoopTail ctx world send header body
  | later {ctx ctx' : DirectionContext} {world world' : World}
      {pending : Bytes} {framer : HttpFraming} {framed : Framed}
      {send : StreamBuffer} {header body : Bytes}
      (hpending : ctx.flow.recv.pending = .ok pending)
      (hfeed : ctx.flow.framer.feed pending = .ok (framer, framed))
      (hsome : framed.consumed ≠ 0)
      (hsent : (ctx.fed framer framed).sendFramed
        (world.record (.framed ctx.dest.fd pending framed)) framed.header
        framed.body = .ok (ctx', world', .keep))
      (hlater : LoopTail (ctx'.consumed framed.consumed) world' send header
        body) :
      LoopTail ctx world send header body

inductive EdgeTail (ctx : DirectionContext) (world : World) :
    StreamBuffer → Bytes → Bytes → Prop where
  | loop {recv : StreamBuffer} {room : Nat} {world' : World} {bytes : Bytes}
      {send : StreamBuffer} {header body : Bytes}
      (hfree : ctx.flow.recv.freeTailMut = .ok (recv, room))
      (hroom : room ≠ 0)
      (hread : world.recv ctx.source room = (world', .ready bytes))
      (hbytes : bytes.length ≠ 0)
      (htail : LoopTail
        (ctx.receiving ((recv.fillTail bytes).commit bytes.length)) world'
        send header body) :
      EdgeTail ctx world send header body

def Fits (send : StreamBuffer) (header body : Bytes) : Prop :=
  ∃ send', bufferTail send header body = .ok (send', .keep)

theorem fits_of_length {send : StreamBuffer} {backlog : Bytes}
    (hsend : send.Holds backlog) {header body : Bytes}
    (hroom : backlog.length + (header.length + body.length) ≤ send.capacity) :
    ∃ send', bufferTail send header body = .ok (send', .keep) ∧
      send'.Holds (backlog ++ (header ++ body)) ∧
      send'.capacity = send.capacity := by
  rw [bufferTail]
  rcases hsend.append header with ⟨hover, _⟩ | ⟨_, first, hfirst, hholds, hcap⟩
  · omega
  rcases hholds.append body with ⟨hover, _⟩ |
    ⟨_, second, hsecond, hboth, hcap'⟩
  · rw [List.length_append] at hover
    omega
  · refine ⟨second, ?_, ?_, hcap'.trans hcap⟩
    · simp only [hfirst, hsecond, bind, Except.bind]
    · rw [← List.append_assoc]
      exact hboth

/-! ## One message -/

structure SendKept (ctx ctx' : DirectionContext) (limit : Nat) : Prop where
  send : ∃ backlog, ctx'.flow.send.Holds backlog ∧ backlog.length ≤ limit
  capacity : ctx'.flow.send.capacity = ctx.flow.send.capacity
  recv : ctx'.flow.recv = ctx.flow.recv
  framer : ctx'.flow.framer = ctx.flow.framer
  dest : ctx'.dest = ctx.dest

def OnlySends (world world' : World) : Prop := ∃ events,
  world'.log = world.log ++ events ∧
    ∀ event ∈ events, ∃ fd offered answer, event = .send fd offered answer

theorem sendTail_fits {ctx : DirectionContext} {world : World}
    {header body : Bytes} {backlog : Bytes}
    (hsend : ctx.flow.send.Holds backlog)
    (hroom : backlog.length + (header.length + body.length) ≤
      ctx.flow.send.capacity) {send : StreamBuffer}
    {headerTail bodyTail : Bytes}
    (h : SendTail ctx world header body send headerTail bodyTail) :
    Fits send headerTail bodyTail := by
  cases h with
  | whole hbuffered =>
      obtain ⟨send', hkeep, _⟩ := fits_of_length hsend hroom
      exact ⟨send', hkeep⟩
  | @unsent sent _ _ hwrites hsent hpart hsplit =>
      obtain ⟨answer, hanswer, hbound⟩ :=
        world_send_spec world ctx.dest (header ++ body)
      rw [hanswer] at hsent
      have hle := hbound sent hsent
      rw [List.length_append] at hle
      obtain ⟨first, second, hsplit', htails⟩ := splitRemainder_spec hle
      rw [hsplit] at hsplit'
      cases hsplit'
      have hlength := congrArg List.length htails
      simp only [List.length_append, List.length_drop] at hlength
      have hshorter : backlog.length + (headerTail.length + bodyTail.length) ≤
          ctx.flow.send.capacity := by omega
      obtain ⟨send', hkeep, _⟩ := fits_of_length hsend hshorter
      exact ⟨send', hkeep⟩

theorem sendFramed_bounded {ctx : DirectionContext} (world : World)
    {header body : Bytes} {backlog : Bytes}
    (hsend : ctx.flow.send.Holds backlog)
    (hroom : backlog.length + (header.length + body.length) ≤
      ctx.flow.send.capacity) :
    ∃ ctx' world' outcome,
      ctx.sendFramed world header body = .ok (ctx', world', outcome) ∧
        OnlySends world world' ∧
        (outcome = .keep → SendKept ctx ctx'
          (backlog.length + (header.length + body.length))) := by
  rw [DirectionContext.sendFramed]
  by_cases hbuffered : !ctx.flow.send.isEmpty ∨ ctx.dest.connecting
  · rw [if_pos hbuffered]
    obtain ⟨send, hkeep, hholds, hcapacity⟩ := fits_of_length hsend hroom
    simp only [hkeep, bind, Except.bind]
    refine ⟨_, _, _, rfl, ⟨[], by rw [List.append_nil], ?_⟩, fun _ =>
      ⟨⟨_, hholds, ?_⟩, hcapacity, rfl, rfl, rfl⟩⟩
    · intro event hmem
      cases hmem
    · simp only [List.length_append]
      omega
  · rw [if_neg hbuffered]
    obtain ⟨answer, hanswer, hbound⟩ :=
      world_send_spec world ctx.dest (header ++ body)
    have honly : OnlySends world
        (world.record (.send ctx.dest.fd (header ++ body) answer)) := by
      refine ⟨[_], rfl, ?_⟩
      intro event hmem
      exact ⟨_, _, _, List.mem_singleton.mp hmem⟩
    simp only [hanswer]
    cases hsent : answer.sent with
    | none =>
        refine ⟨_, _, _, rfl, honly, ?_⟩
        intro hkeep
        cases hkeep
    | some sent =>
        have hle := hbound sent hsent
        rw [List.length_append] at hle
        simp only
        generalize hdeadline : (if 0 < sent then
          { ctx with deadline := _ } else ctx) = moved
        have hmoved : ∃ deadline,
            moved = ctx.sending ctx.flow.send deadline := by
          rw [← hdeadline]
          split
          · exact ⟨_, rfl⟩
          · exact ⟨_, rfl⟩
        obtain ⟨deadline, rfl⟩ := hmoved
        by_cases hall : sent = header.length + body.length
        · rw [if_pos hall]
          exact ⟨_, _, _, rfl, honly, fun _ =>
            ⟨⟨backlog, hsend, Nat.le_add_right _ _⟩, rfl, rfl, rfl, rfl⟩⟩
        · rw [if_neg hall]
          obtain ⟨headerTail, bodyTail, hsplit, htails⟩ :=
            splitRemainder_spec hle
          have hlength := congrArg List.length htails
          simp only [List.length_append, List.length_drop] at hlength
          obtain ⟨send, hkeep, hholds, hcapacity⟩ := fits_of_length hsend
            (by omega : backlog.length +
              (headerTail.length + bodyTail.length) ≤ ctx.flow.send.capacity)
          simp only [DirectionContext.sending, hsplit, hkeep, bind,
            Except.bind]
          refine ⟨_, _, _, rfl, honly, fun _ =>
            ⟨⟨_, hholds, ?_⟩, hcapacity, rfl, rfl, rfl⟩⟩
          simp only [List.length_append]
          omega

/-! ## The loop -/

theorem loopTail_fits {ctx : DirectionContext} {world : World}
    {live backlog : Bytes} (hrecv : ctx.flow.recv.Holds live)
    (hsend : ctx.flow.send.Holds backlog)
    (hroom : backlog.length + 2 * live.length ≤ ctx.flow.send.capacity)
    {send : StreamBuffer} {header body : Bytes}
    (h : LoopTail ctx world send header body) : Fits send header body := by
  induction h generalizing live backlog with
  | @here ctx world pending framer framed send header body hpending hfeed
      hsome htail =>
      rw [hrecv.pending] at hpending
      cases hpending
      have hgrowth := feed_growth hfeed
      have hroom' : backlog.length +
          (framed.header.length + framed.body.length) ≤
            (ctx.fed framer framed).flow.send.capacity := by
        simp only [DirectionContext.fed]
        omega
      have hsend' : (ctx.fed framer framed).flow.send.Holds backlog := hsend
      exact sendTail_fits hsend' hroom' htail
  | @later ctx ctx' world world' pending framer framed send header body
      hpending hfeed hsome hsent hlater ih =>
      rw [hrecv.pending] at hpending
      cases hpending
      have hgrowth := feed_growth hfeed
      have hroom' : backlog.length +
          (framed.header.length + framed.body.length) ≤
            (ctx.fed framer framed).flow.send.capacity := by
        simp only [DirectionContext.fed]
        omega
      have hsend' : (ctx.fed framer framed).flow.send.Holds backlog := hsend
      obtain ⟨next, nextWorld, outcome, hsent', _, hkept⟩ :=
        sendFramed_bounded (world.record
          (.framed ctx.dest.fd pending framed)) hsend' hroom'
      rw [hsent] at hsent'
      cases hsent'
      have hnext := hkept rfl
      obtain ⟨backlog', hholds, hlength⟩ := hnext.send
      have hrecv' : ctx'.flow.recv.Holds pending := by
        rw [hnext.recv]
        exact hrecv
      have hcapacity : ctx'.flow.send.capacity = ctx.flow.send.capacity :=
        hnext.capacity
      refine ih (hrecv'.consume framed.consumed) hholds ?_
      simp only [DirectionContext.consumed, DirectionContext.receiving]
      omega

structure Looped (rounds : Nat) (ctx : DirectionContext) (world : World)
    (live : Bytes) (ctx' : DirectionContext) (world' : World)
    (forwarded : Forwarded) : Prop where
  log : ∃ events, world'.log = world.log ++ events ∧
    (producedFor ctx.dest.fd events).length ≤ 2 * live.length ∧
    ∀ fd, readFrom fd events = []
  waits : ctx.flow.framer.WellFormed → live.length < rounds →
    forwarded = .opened → ∃ left, ctx'.flow.recv.Holds left ∧
      (unframed ctx'.flow.framer.phase left).length ≤
        waitCap ctx'.flow.framer.phase

theorem onlySends_silent {world world' : World} (h : OnlySends world world') :
    ∃ events, world'.log = world.log ++ events ∧
      (∀ fd, producedFor fd events = []) ∧ ∀ fd, readFrom fd events = [] := by
  obtain ⟨events, hlog, hsends⟩ := h
  refine ⟨events, hlog, fun fd => ?_, fun fd => ?_⟩
  · apply List.flatMap_eq_nil_iff.mpr
    intro event hmem
    obtain ⟨_, _, _, rfl⟩ := hsends event hmem
    rfl
  · apply List.flatMap_eq_nil_iff.mpr
    intro event hmem
    obtain ⟨_, _, _, rfl⟩ := hsends event hmem
    rfl

theorem producedFor_framed (fd : Nat) (input : Bytes) (framed : Framed)
    (events : List Event) :
    (producedFor fd ([.framed fd input framed] ++ events)).length =
      framed.header.length + framed.body.length +
        (producedFor fd events).length := by
  have hone : [Event.framed fd input framed].flatMap (Event.producedFor fd) =
      framed.header ++ framed.body := by
    simp [Event.producedFor]
  rw [producedFor, List.flatMap_append, hone, List.length_append,
    List.length_append]
  rfl

theorem readFrom_framed (fd dest : Nat) (input : Bytes) (framed : Framed)
    (events : List Event) :
    readFrom fd ([.framed dest input framed] ++ events) =
      readFrom fd events := by
  rw [readFrom, List.flatMap_append]
  rfl

theorem forwardFramed_bounded (rounds : Nat) {ctx : DirectionContext}
    (world : World) {live backlog : Bytes} (hrecv : ctx.flow.recv.Holds live)
    (hsend : ctx.flow.send.Holds backlog)
    (hroom : backlog.length + 2 * live.length ≤ ctx.flow.send.capacity) :
    ∃ ctx' world' forwarded,
      DirectionContext.forwardFramed rounds ctx world =
        .ok (ctx', world', forwarded) ∧
      Looped rounds ctx world live ctx' world' forwarded := by
  induction rounds generalizing ctx world live backlog with
  | zero =>
      refine ⟨ctx, world, .opened, rfl, ⟨[], ?_, ?_, fun _ => rfl⟩, ?_⟩
      · rw [List.append_nil]
      · exact Nat.zero_le _
      · intro _ hrounds
        omega
  | succ rounds ih =>
      simp only [DirectionContext.forwardFramed, hrecv.pending, bind,
        Except.bind]
      cases hfeed : ctx.flow.framer.feed live with
      | error error =>
          refine ⟨ctx, world, .failed, rfl, ⟨[], ?_, ?_, fun _ => rfl⟩, ?_⟩
          · rw [List.append_nil]
          · exact Nat.zero_le _
          · intro _ _ hopened
            cases hopened
      | ok fed =>
          obtain ⟨framer, framed⟩ := fed
          have hgrowth := feed_growth hfeed
          simp only
          by_cases hnone : framed.consumed = 0
          · rw [if_pos hnone]
            refine ⟨_, _, .opened, rfl, ⟨[_], rfl, ?_, fun _ => rfl⟩, ?_⟩
            · have hlength :=
                producedFor_framed ctx.dest.fd live framed []
              rw [List.append_nil] at hlength
              rw [hlength]
              simp only [producedFor, List.flatMap_nil, List.length_nil]
              omega
            · intro hwell _ _
              exact ⟨live, hrecv, feed_waits hwell hfeed hnone⟩
          · rw [if_neg hnone]
            have hroom' : backlog.length +
                (framed.header.length + framed.body.length) ≤
                  (ctx.fed framer framed).flow.send.capacity := by
              simp only [DirectionContext.fed]
              omega
            have hsend' : (ctx.fed framer framed).flow.send.Holds backlog :=
              hsend
            obtain ⟨next, nextWorld, outcome, hsent, honly, hkept⟩ :=
              sendFramed_bounded (world.record
                (.framed ctx.dest.fd live framed)) hsend' hroom'
            simp only [DirectionContext.fed] at hsent
            simp only [hsent]
            obtain ⟨events, hlog, hproduced, hread⟩ := onlySends_silent honly
            cases outcome with
            | close =>
                refine ⟨_, _, .failed, rfl,
                  ⟨[.framed ctx.dest.fd live framed] ++ events, ?_, ?_, ?_⟩,
                  ?_⟩
                · rw [hlog, World.record, List.append_assoc]
                · rw [producedFor_framed, hproduced]
                  simp only [List.length_nil]
                  omega
                · intro fd
                  rw [readFrom_framed, hread]
                · intro _ _ hopened
                  cases hopened
            | keep =>
                have hnext := hkept rfl
                obtain ⟨backlog', hholds, hshort⟩ := hnext.send
                have hrecv' : next.flow.recv.Holds live := by
                  rw [hnext.recv]
                  exact hrecv
                have hcapacity : next.flow.send.capacity =
                    ctx.flow.send.capacity := hnext.capacity
                have hdest : next.dest.fd = ctx.dest.fd := by
                  rw [hnext.dest]
                  rfl
                have hrest : (next.consumed framed.consumed).flow.recv.Holds
                    (live.drop framed.consumed) :=
                  hrecv'.consume framed.consumed
                have hbacklog : (next.consumed
                    framed.consumed).flow.send.Holds backlog' := hholds
                obtain ⟨ctx', world', forwarded, hrun,
                  ⟨more, hlog', hproduced', hread'⟩, hwaits⟩ :=
                  ih nextWorld hrest hbacklog
                    (by
                      simp only [DirectionContext.consumed,
                        DirectionContext.receiving]
                      omega)
                refine ⟨ctx', world', forwarded, hrun,
                  ⟨[.framed ctx.dest.fd live framed] ++ (events ++ more), ?_,
                    ?_, ?_⟩, ?_⟩
                · rw [hlog', hlog, World.record, List.append_assoc,
                    List.append_assoc]
                · have hmore : producedFor ctx.dest.fd (events ++ more) =
                      producedFor ctx.dest.fd more := by
                    rw [producedFor, List.flatMap_append, ← producedFor,
                      hproduced]
                    rfl
                  simp only [DirectionContext.consumed, DirectionContext.receiving,
                    hdest] at hproduced'
                  rw [producedFor_framed, hmore]
                  omega
                · intro fd
                  rw [readFrom_framed, readFrom, List.flatMap_append,
                    ← readFrom, ← readFrom, hread, hread']
                  rfl
                · intro hwell hrounds hopened
                  have hspec := feed_spec hwell live
                  rw [hfeed] at hspec
                  obtain ⟨hwell', hconsumed, _, _⟩ := hspec
                  apply hwaits _ _ hopened
                  · simp only [DirectionContext.consumed,
                      DirectionContext.receiving, hnext.framer]
                    exact hwell'
                  · rw [List.length_drop]
                    omega

/-! ## The edge -/

structure EdgeBound (ctx : DirectionContext) (world : World) (live : Bytes)
    (ctx' : DirectionContext) (world' : World) (forwarded : Forwarded)
    (events : List Event) : Prop where
  log : world'.log = world.log ++ events
  doubled : (producedFor ctx.dest.fd events).length ≤
    2 * (live ++ readFrom ctx.source.fd events).length
  bounded : 2 * (live ++ readFrom ctx.source.fd events).length ≤ maxSend
  waits : ctx.flow.framer.Reached → forwarded = .opened →
    readFrom ctx.source.fd events ≠ [] → ∃ left,
      ctx'.flow.recv.Holds left ∧
        (unframed ctx'.flow.framer.phase left).length ≤
          waitCap ctx'.flow.framer.phase

/-- From an empty backlog a readable edge produces at most twice what it has
read, none of its calls overflows the send buffer, and what it leaves is
bounded by the framer's phase. -/
theorem edge_never_overflows {ctx : DirectionContext} (world : World)
    {live : Bytes} (hrecv : ctx.flow.recv.Holds live)
    (hread : ctx.flow.recv.capacity = maxRecv)
    (hsend : ctx.flow.send.Holds [])
    (hsent : ctx.flow.send.capacity = maxSend) :
    (∀ send header body, EdgeTail ctx world send header body →
      Fits send header body) ∧
    ∃ ctx' world' forwarded events,
      ctx.forward world = .ok (ctx', world', forwarded) ∧
        EdgeBound ctx world live ctx' world' forwarded events := by
  obtain ⟨recv, room, hfree, hfreed, hcapacity, hallocated, hroom, _⟩ :=
    hrecv.freeTailMut
  obtain ⟨answer, hanswer, hbound⟩ := world_recv_spec world ctx.source room
  have hlive : live.length ≤ maxRecv := by
    rw [← hread]
    exact hrecv.length_le
  have htwice : 2 * maxRecv = maxSend := rfl
  -- The context that the loop starts from.
  let entered (bytes : Bytes) : DirectionContext :=
    ctx.receiving ((recv.fillTail bytes).commit bytes.length)
  have hsend' : ∀ bytes, (entered bytes).flow.send.Holds [] := fun _ => hsend
  have hfilled : ∀ bytes, answer = .ready bytes →
      (entered bytes).flow.recv.Holds (live ++ bytes) ∧
        (live ++ bytes).length ≤ maxRecv := by
    intro bytes hready
    have hfits := hbound bytes hready
    have hholds := hfreed.receive hallocated
      (by omega : recv.filled + bytes.length ≤ recv.capacity)
    refine ⟨hholds, Nat.le_trans hholds.length_le ?_⟩
    rw [← hread, ← hcapacity]
    exact Nat.le_refl _
  have hroomy : ∀ bytes : Bytes, (live ++ bytes).length ≤ maxRecv →
      ([] : Bytes).length + 2 * (live ++ bytes).length ≤
        (entered bytes).flow.send.capacity := by
    intro bytes hshort
    have hcap : (entered bytes).flow.send.capacity = maxSend := hsent
    rw [hcap, List.length_nil]
    omega
  constructor
  · rintro send header body ⟨hfree', hsome, hready, hbytes, htail⟩
    rw [hfree] at hfree'
    cases hfree'
    rw [hanswer] at hready
    obtain ⟨rfl, rfl⟩ := Prod.mk.inj hready
    obtain ⟨hholds, hshort⟩ := hfilled _ rfl
    exact loopTail_fits hholds (hsend' _) (hroomy _ hshort) htail
  · simp only [DirectionContext.forward, hfree, bind, Except.bind]
    split
    · refine ⟨_, _, .failed, [], rfl, ?_, Nat.zero_le _, ?_, ?_⟩
      · rw [List.append_nil]
      · simp only [readFrom, List.flatMap_nil, List.append_nil]
        omega
      · intro _ hopened
        cases hopened
    simp only [hanswer]
    -- Where nothing was read the loop does not run.
    have hquiet : ∀ (ctx' : DirectionContext) (forwarded : Forwarded),
        (Event.recv ctx.source.fd answer).readFrom ctx.source.fd = [] →
          EdgeBound ctx world live ctx'
            (world.record (.recv ctx.source.fd answer)) forwarded
            [.recv ctx.source.fd answer] := by
      intro ctx' forwarded hnothing
      have hnone : readFrom ctx.source.fd [.recv ctx.source.fd answer] = [] := by
        simpa [readFrom] using hnothing
      refine ⟨rfl, Nat.zero_le _, ?_, ?_⟩
      · rw [hnone, List.append_nil]
        omega
      · intro _ _ hsome
        exact absurd hnone hsome
    cases answer with
    | failed => exact ⟨_, _, .failed, _, rfl, hquiet _ _ rfl⟩
    | wouldBlock => exact ⟨_, _, .opened, _, rfl, hquiet _ _ rfl⟩
    | ready bytes =>
        simp only
        split
        next hempty =>
          have hnil := List.length_eq_zero_iff.mp hempty
          exact ⟨_, _, .sourceEof, _, rfl, hquiet _ _ (by
            simp [Event.readFrom, hnil])⟩
        next hsome =>
          obtain ⟨hholds, hshort⟩ := hfilled bytes rfl
          have hlen : ((recv.fillTail bytes).commit bytes.length).len =
              (live ++ bytes).length := hholds.len_eq
          obtain ⟨ctx', world', forwarded, hrun, ⟨events, hlog, hproduced,
            hreads⟩, hwaits⟩ := forwardFramed_bounded
              (((recv.fillTail bytes).commit bytes.length).len + 1)
              (world.record (.recv ctx.source.fd (.ready bytes))) hholds
              (hsend' bytes) (hroomy _ hshort)
          have hinput : readFrom ctx.source.fd
              (.recv ctx.source.fd (.ready bytes) :: events) = bytes := by
            rw [readFrom, List.flatMap_cons, ← readFrom, hreads,
              List.append_nil]
            exact if_pos rfl
          refine ⟨ctx', world', forwarded,
            .recv ctx.source.fd (.ready bytes) :: events, hrun, ?_, ?_, ?_, ?_⟩
          · rw [hlog, World.record, List.append_assoc]
            rfl
          · rw [hinput]
            exact hproduced
          · rw [hinput]
            omega
          · intro hreached hopened _
            exact hwaits hreached.wellFormed (by omega) hopened

/-- A client whose request is shorter than what its device gets. -/
def hostContext : DirectionContext where
  source := ⟨3, false⟩
  sourceReg := none
  dest := ⟨4, true⟩
  destReg := none
  flow := Flow.new .request
    ⟨some ⟨⟨[192, 168, 100, 200], rfl⟩, 50000⟩, none, none⟩
  learnedRest := none
  deadline := 0

def hostWorld : World where
  kernel :=
    { recv := fun _ => .ready (ascii "GET / HTTP/1.1\r\nHost:1.2.3.4\r\n\r\n")
      send := fun _ => .wouldBlock
      accepts := fun _ => true
      now := fun _ => 0 }
  log := []

theorem edge_never_overflows_host :
    (∀ send header body, EdgeTail hostContext hostWorld send header body →
      Fits send header body) ∧
    ∃ ctx' world' forwarded events,
      hostContext.forward hostWorld = .ok (ctx', world', forwarded) ∧
        EdgeBound hostContext hostWorld [] ctx' world' forwarded events :=
  edge_never_overflows hostWorld (StreamBuffer.holds_withCapacity maxRecv) rfl
    (StreamBuffer.holds_withCapacity maxSend) rfl

end Netflector.Reflector.Dial
