import Netflector.Reactor.Refinement
import Netflector.Reflector.Dial.Attending

/-!
# Whole turns of a proxy

What an edge makes of its connection, what every turn is seen to do, and that
no event the reactor delivers makes a proxy panic.
-/

namespace Netflector.Reflector.Dial

open Netflector.Foundation
open Netflector.Net
open Netflector.Net.Http
open Netflector.Reactor
open Netflector.Dispatch

section Turns

variable {key connKey : Key} {stale : List Key} {calls : ProxyCalls}
  {turn between turn' : Turn} {connection connection' : Connection}

/-- The connection that a turn's event names, and the descriptor it is on; a
readable listener's names none. -/
def namedBy (proxy : DialDeviceProxy) : ProxyTurn → Option (Key × Nat)
  | .readable event =>
      if event.fd = proxy.desc.fd ∨ event.fd = proxy.rest.fd then none
      else some (keyFromU64 event.userData, event.fd.toNat)
  | .writable event => some (keyFromU64 event.userData, event.fd.toNat)
  | .deadline _ => none

def DialDeviceProxy.Lives (proxy : DialDeviceProxy)
    (lives : Key → List Event) : Prop :=
  ∀ connKey connection, proxy.conns.get connKey = some connection →
    Living connection (lives connKey)

/-- What happened on each connection, behind one more turn: what the turn
logged goes to the connection it names, and one that was not there begins. -/
def livesAfter (proxy : DialDeviceProxy) (taken : ProxyTurn)
    (events : List Event) (lives : Key → List Event) (connKey : Key) :
    List Event :=
  if proxy.conns.contains connKey then
    if (namedBy proxy taken).map Prod.fst = some connKey then
      lives connKey ++ events
    else lives connKey
  else []

def ActsOn (proxy : DialDeviceProxy) (taken : ProxyTurn) (connKey : Key)
    (fd clientFd deviceFd : Nat) : Prop :=
  namedBy proxy taken = some (connKey, fd) ∧
    ∃ connection, proxy.conns.get connKey = some connection ∧
      clientFd = connection.client.fd ∧ deviceFd = connection.device.fd

structure Attended (key : Key) (calls : ProxyCalls) (taken : ProxyTurn)
    (lives : Key → List Event) (turn turn' : Turn) : Prop where
  proxy : SameProxy turn.proxy turn'.proxy
  living : turn'.proxy.Lives
    (livesAfter turn.proxy taken turn'.world.log lives)
  few : turn.proxy.conns.iter.length ≤ maxConnections →
    turn'.proxy.conns.iter.length ≤ maxConnections
  deaf : Deaf key turn.proxy turn.reactor → Deaf key turn'.proxy turn'.reactor
  rest : turn'.proxy.restEndpoint = turn.proxy.restEndpoint ∨
    ∃ fd endpoint, turn'.proxy.restEndpoint = some endpoint ∧
      .adopted fd endpoint calls.hostV4Addrs ∈ turn'.events
  dialed : ∀ endpoint, .dialed endpoint ∈ turn'.events →
    endpoint = turn.proxy.descEndpoint ∨
      turn.proxy.restEndpoint = some endpoint
  acted : ∀ fd clientFd deviceFd, .acted fd clientFd deviceFd ∈ turn'.events →
    ∃ connKey, ActsOn turn.proxy taken connKey fd clientFd deviceFd
  adopted : ∀ fd endpoint hostV4Addrs,
    .adopted fd endpoint hostV4Addrs ∈ turn'.events →
    isNeverAPeer (.v4 endpoint.ip) = false ∧
      namesThisHost hostV4Addrs endpoint = false ∧
      ∃ connKey clientFd deviceFd,
        namedBy turn.proxy taken = some (connKey, fd) ∧
        .acted fd clientFd deviceFd ∈ turn'.events ∧ fd ≠ clientFd ∧
        Learned deviceFd clientFd endpoint
          (lives connKey ++ turn'.world.log)

theorem Passes.lives {lives : Key → List Event} (taken : ProxyTurn)
    (h : Passes key turn turn') (hlives : turn.proxy.Lives lives)
    (hlog : turn.world.log = []) :
    turn'.proxy.Lives (livesAfter turn.proxy taken turn'.world.log lives) := by
  intro other found hfound
  rw [livesAfter, h.world, hlog, List.append_nil, ite_self]
  rcases h.conns other found hfound with hold | ⟨hnone, setup, rfl⟩
  · rw [if_pos (by rw [Arena.contains, hold]; rfl)]
    exact hlives other found hold
  · rw [if_neg (by rw [Arena.contains, hnone]; exact Bool.false_ne_true)]
    exact living_connection setup

theorem Accepts.attended {allowed : SocketAddrV4 → Prop}
    {lives : Key → List Event} {taken : ProxyTurn}
    (h : Accepts key allowed turn turn')
    (hallowed : ∀ endpoint, allowed endpoint →
      endpoint = turn.proxy.descEndpoint ∨
        turn.proxy.restEndpoint = some endpoint)
    (hlives : turn.proxy.Lives lives) (hlog : turn.world.log = [])
    (hevents : turn.events = []) :
    Attended key calls taken lives turn turn' := by
  obtain ⟨dialed, hdialed, hsome⟩ := h.events
  rw [hevents, List.nil_append] at hdialed
  refine ⟨h.proxy, h.lives taken hlives hlog, h.few, h.deaf, .inl h.rest, ?_,
    ?_, ?_⟩
  · intro endpoint hmem
    rw [hdialed] at hmem
    obtain ⟨found, hfound, hsame⟩ := List.mem_map.mp hmem
    cases hsame
    exact hallowed _ (hsome _ hfound)
  · intro fd clientFd deviceFd hmem
    rw [hdialed] at hmem
    obtain ⟨found, hfound, hsame⟩ := List.mem_map.mp hmem
    cases hsame
  · intro fd endpoint hostV4Addrs hmem
    rw [hdialed] at hmem
    obtain ⟨found, hfound, hsame⟩ := List.mem_map.mp hmem
    cases hsame

theorem Sheds.attended {lives : Key → List Event} {taken : ProxyTurn}
    (h : Sheds key turn turn') (hwf : turn.proxy.conns.Wf)
    (hlives : turn.proxy.Lives lives) (hlog : turn.world.log = [])
    (hevents : turn.events = []) :
    Attended key calls taken lives turn turn' := by
  have haccepts : Accepts key (fun _ => False) turn turn' :=
    .of_events h.toPasses h.events (h.few hwf)
  exact haccepts.attended (fun _ hfalse => hfalse.elim) hlives hlog hevents

theorem onEdge_seen {fd : Nat} {edge : World →
      Except Panic (Connection × World × Outcome)} {outcome : Outcome}
    (h : turn.onEdge connKey fd connection edge =
      .ok (turn', connection', outcome)) :
    ∃ world, edge turn.world = .ok (connection', world, outcome) ∧
      turn' = { turn with
        proxy := { turn.proxy with
          conns := turn.proxy.conns.set connKey connection' }
        reactor := applyEvents turn.reactor
          (world.log.drop turn.world.log.length)
        world := world
        events := turn.events ++
          [.acted fd connection.client.fd connection.device.fd] } := by
  obtain ⟨⟨after, world, answer⟩, hedge, hrest⟩ := except_bind_ok h
  cases hrest
  exact ⟨world, hedge, rfl⟩

theorem applyEvent_calm {reactor : Reactor Service} {regs : List Key}
    {event : Event} (h : Sane reactor) (hwithin : event.Within regs) :
    Calm regs reactor (applyEvent reactor event) := by
  have hmono : ∀ reg ∈ regs, ∀ {after : Reactor Service},
      Calm [reg] reactor after → Calm regs reactor after := by
    intro reg hreg after hcalm
    refine hcalm.mono fun other hmem => ?_
    rw [List.mem_singleton.mp hmem]
    exact hreg
  cases event with
  | unwatch reg answer => exact unwatch_calm h reg.key _ regs
  | setReadInterest reg armed answer =>
      cases answer with
      | false => exact .refl _ _
      | true =>
          exact hmono reg.key hwithin (setReadInterest_calm reactor _ _ _)
  | setWriteInterest reg armed answer =>
      cases answer with
      | false => exact .refl _ _
      | true =>
          exact hmono reg.key hwithin (setWriteInterest_calm reactor _ _ _)
  | _ => exact .refl _ _

theorem applyEvents_calm {reactor : Reactor Service} {regs : List Key}
    {events : List Event} (h : Sane reactor)
    (hwithin : ∀ event ∈ events, event.Within regs) :
    Calm regs reactor (applyEvents reactor events) := by
  induction events generalizing reactor with
  | nil => exact .refl _ _
  | cons event events ih =>
      have hfirst := applyEvent_calm h (hwithin event List.mem_cons_self)
      have hsane := (applyEvent_sameHandlers h event).sane
      exact hfirst.trans (ih hsane fun other hmem =>
        hwithin other (List.mem_cons_of_mem event hmem))

theorem Deaf.events {events : List Event}
    (h : Accounted key stale turn.proxy turn.reactor)
    (hdeaf : Deaf key turn.proxy turn.reactor)
    (hconn : turn.proxy.conns.get connKey = some connection)
    (hwithin : ∀ event ∈ events, event.Within connection.regs) :
    Deaf key turn.proxy (applyEvents turn.reactor events) := by
  refine hdeaf.calm (applyEvents_calm h.sane hwithin) ?_
  intro reg hmem found hfound
  obtain ⟨socket, hof, hreg⟩ := regOf_of_mem_regs hconn hmem
  obtain ⟨fd, hfd, hheld⟩ := h.held socket reg hreg
  have horigin := origin_eq_some.mpr ⟨found, hfound, rfl⟩
  obtain ⟨_, hold⟩ := (applyEvents_drops h.sane events).origin_some horigin
  rw [hheld] at hold
  have hsame : (fd : Int) = found.fd := congrArg Prod.fst (Option.some.inj hold)
  rw [← hsame]
  constructor
  · intro hdesc
    rw [Int.natCast_inj] at hdesc
    subst hdesc
    cases h.apart socket .desc _ hfd rfl
    exact hof
  · intro hrest
    rw [Int.natCast_inj] at hrest
    subst hrest
    cases h.apart socket .rest _ hfd rfl
    exact hof

/-- What an edge notes: nothing, or the endpoint it has its proxy adopt. -/
inductive Notes (calls : ProxyCalls) (fd clientFd deviceFd : Nat)
    (life : List Event) (rest rest' : Option SocketAddrV4) :
    List ProxyEvent → Prop
  | nothing (hrest : rest' = rest) :
      Notes calls fd clientFd deviceFd life rest rest' []
  | adopted (endpoint : SocketAddrV4) (hrest : rest' = some endpoint)
      (hpeer : isNeverAPeer (.v4 endpoint.ip) = false)
      (hhost : namesThisHost calls.hostV4Addrs endpoint = false)
      (hfd : fd ≠ clientFd) (hlearned : Learned deviceFd clientFd endpoint life) :
      Notes calls fd clientFd deviceFd life rest rest'
        [.adopted fd endpoint calls.hostV4Addrs]

structure Driven (calls : ProxyCalls) (connKey : Key) (fd : Nat)
    (life : List Event) (connection kept : Connection) (outcome : Outcome)
    (turn middle : Turn) : Prop where
  proxy : SameProxy turn.proxy middle.proxy
  storing : Storing connKey kept turn.proxy middle.proxy
  reactor : middle.reactor = applyEvents turn.reactor middle.world.log
  within : ∀ event ∈ middle.world.log, event.Within connection.regs
  living : outcome = .keep → Living kept (life ++ middle.world.log)
  events : ∃ noted, middle.events = turn.events ++
      .acted fd connection.client.fd connection.device.fd :: noted ∧
    Notes calls fd connection.client.fd connection.device.fd
      (life ++ middle.world.log) turn.proxy.restEndpoint
      middle.proxy.restEndpoint noted

theorem edge_attended {kept : Connection} {fd : Nat} {outcome : Outcome}
    {middle : Turn} {lives : Key → List Event} {taken : ProxyTurn}
    (h : Accounted key stale turn.proxy turn.reactor)
    (hlives : turn.proxy.Lives lives) (hevents : turn.events = [])
    (hnamed : namedBy turn.proxy taken = some (connKey, fd))
    (hconn : turn.proxy.conns.get connKey = some connection)
    (hdriven : Driven calls connKey fd (lives connKey) connection kept outcome
      turn middle)
    (hlast : (if outcome = .close then middle.closeConn calls connKey
      else .ok middle) = .ok turn') :
    Attended key calls taken lives turn turn' := by
  have hsane : Sane middle.reactor := by
    rw [hdriven.reactor]
    exact (applyEvents_sameHandlers h.sane _).sane
  obtain ⟨hsheds, hothers⟩ : Sheds key middle turn' ∧
      ∀ other found, turn'.proxy.conns.get other = some found →
        (other = connKey ∧ found = kept ∧ outcome = .keep) ∨
          (other ≠ connKey ∧ turn.proxy.conns.get other = some found) := by
    cases outcome with
    | keep =>
        cases hlast
        refine ⟨.refl key hdriven.storing.wf, ?_⟩
        intro other found hfound
        rw [hdriven.storing.get] at hfound
        split at hfound
        · cases hfound
          exact .inl ⟨by assumption, rfl, rfl⟩
        · exact .inr ⟨by assumption, hfound⟩
    | close =>
        obtain ⟨closed, hclose, hsheds, hget, _⟩ := closeConn_sheds key calls
          hsane hdriven.storing.wf hdriven.storing.get_self
        rw [if_pos rfl, hclose] at hlast
        cases hlast
        refine ⟨hsheds, ?_⟩
        intro other found hfound
        rw [hget] at hfound
        split at hfound
        · cases hfound
        · rename_i hother
          rw [hdriven.storing.get_other hother] at hfound
          exact .inr ⟨hother, hfound⟩
  obtain ⟨noted, hnoted, hnotes⟩ := hdriven.events
  rw [hevents, List.nil_append, ← hsheds.events] at hnoted
  have hacts : ActsOn turn.proxy taken connKey fd connection.client.fd
      connection.device.fd := ⟨hnamed, connection, hconn, rfl, rfl⟩
  constructor
  · exact hdriven.proxy.trans hsheds.proxy
  · intro other found hfound
    rw [livesAfter, hsheds.world, hnamed]
    rcases hothers other found hfound with ⟨rfl, rfl, hkeep⟩ | ⟨hother, hold⟩
    · rw [if_pos (by rw [Arena.contains, hconn]; rfl), Option.map_some,
        if_pos rfl]
      exact hdriven.living hkeep
    · rw [if_pos (by rw [Arena.contains, hold]; rfl), if_neg]
      · exact hlives other found hold
      · exact fun hsame => hother (Option.some.inj hsame).symm
  · intro hfew
    refine (Arena.iter_length_le h.wf hsheds.wf [] ?_).trans hfew
    intro other hlive
    obtain ⟨found, hfound⟩ := Option.ne_none_iff_exists'.mp hlive
    left
    rcases hothers other found hfound with ⟨rfl, _⟩ | ⟨_, hold⟩
    · rw [hconn]
      exact Option.some_ne_none _
    · rw [hold]
      exact Option.some_ne_none _
  · intro hdeaf
    apply hsheds.deaf
    rw [hdriven.reactor]
    exact (hdeaf.events h hconn hdriven.within).sameProxy hdriven.proxy
  · rw [hsheds.rest, hnoted]
    cases hnotes with
    | nothing hrest => exact .inl hrest
    | adopted endpoint hrest =>
        right
        refine ⟨fd, endpoint, hrest, ?_⟩
        exact List.mem_cons_of_mem _ List.mem_cons_self
  · intro endpoint hmem
    rw [hnoted] at hmem
    cases hnotes with
    | nothing => simp at hmem
    | adopted => simp at hmem
  · intro other clientFd deviceFd hmem
    rw [hnoted] at hmem
    have hsame : other = fd ∧ clientFd = connection.client.fd ∧
        deviceFd = connection.device.fd := by
      cases hnotes with
      | nothing => simpa using hmem
      | adopted => simpa using hmem
    obtain ⟨rfl, rfl, rfl⟩ := hsame
    exact ⟨connKey, hacts⟩
  · intro other endpoint hostV4Addrs hmem
    rw [hnoted] at hmem
    cases hnotes with
    | nothing => simp at hmem
    | adopted found hrest hpeer hhost hfd hlearned =>
        have hsame : other = fd ∧ endpoint = found ∧
            hostV4Addrs = calls.hostV4Addrs := by
          simpa using hmem
        obtain ⟨rfl, rfl, rfl⟩ := hsame
        refine ⟨hpeer, hhost, connKey, connection.client.fd,
          connection.device.fd, hnamed, ?_, hfd, ?_⟩
        · rw [hnoted]
          exact List.mem_cons_self
        · rw [hsheds.world]
          exact hlearned

theorem Storing.sameProxy {proxy proxy' : DialDeviceProxy}
    (h : SameProxy proxy proxy')
    (hwf : proxy'.conns.Wf) (hget : ∀ other, proxy'.conns.get other =
      if other = connKey then some connection else proxy.conns.get other) :
    Storing connKey connection proxy proxy' := by
  refine ⟨?_, h.desc, h.rest, hwf, hget⟩
  rw [SameProxy] at h
  rw [h]

theorem adoptRestEndpoint_notes (calls : ProxyCalls) (turn : Turn) {fd clientFd
    deviceFd : Nat} {endpoint : SocketAddrV4} {life : List Event}
    (hfd : fd ≠ clientFd) (hlearned : Learned deviceFd clientFd endpoint life) :
    ∃ noted rest, turn.adoptRestEndpoint calls fd endpoint =
        { turn with
          proxy := { turn.proxy with restEndpoint := rest }
          events := turn.events ++ noted } ∧
      Notes calls fd clientFd deviceFd life turn.proxy.restEndpoint rest
        noted := by
  unfold Turn.adoptRestEndpoint
  split
  · refine ⟨[], turn.proxy.restEndpoint, ?_, .nothing rfl⟩
    rw [List.append_nil]
  · split
    · refine ⟨[], turn.proxy.restEndpoint, ?_, .nothing rfl⟩
      rw [List.append_nil]
    · rename_i hrefused
      rw [Bool.or_eq_true, not_or, Bool.not_eq_true, Bool.not_eq_true]
        at hrefused
      exact ⟨_, some endpoint, rfl,
        .adopted endpoint rfl hrefused.1 hrefused.2 hfd hlearned⟩

theorem onConnectionReadable_attended {fd : Nat} {kernel : Kernel}
    {lives : Key → List Event} {taken : ProxyTurn}
    (h : Accounted key stale turn.proxy turn.reactor)
    (hlives : turn.proxy.Lives lives) (hworld : turn.world = ⟨kernel, []⟩)
    (hevents : turn.events = [])
    (hnamed : namedBy turn.proxy taken = some (connKey, fd))
    (hrun : turn.onConnectionReadable calls connKey fd = .ok turn') :
    Attended key calls taken lives turn turn' := by
  unfold Turn.onConnectionReadable at hrun
  cases hconn : turn.proxy.conns.get connKey with
  | none =>
      rw [hconn] at hrun
      cases hrun
      have hlog : turn.world.log = [] := by rw [hworld]
      exact (Sheds.refl key h.wf).attended h.wf hlives hlog hevents
  | some connection =>
      rw [hconn] at hrun
      obtain ⟨⟨edged, after, outcome⟩, hedge, hrest⟩ := except_bind_ok hrun
      obtain ⟨world, hread, rfl⟩ := onEdge_seen hedge
      rw [hworld] at hread
      have hlived : Lived connection (lives connKey) (.readable fd) after
          world.log outcome := (hlives connKey connection hconn).lived hread
      let kept : Connection := { after with learnedRest := none }
      let stored : Turn := Turn.storeConn
        { turn with
          proxy := { turn.proxy with
            conns := turn.proxy.conns.set connKey after }
          reactor := applyEvents turn.reactor
            (world.log.drop turn.world.log.length)
          world := world
          events := turn.events ++
            [.acted fd connection.client.fd connection.device.fd] }
        connKey kept
      obtain ⟨noted, rest, hlast, hnotes⟩ : ∃ noted rest,
          (if outcome = .close then Turn.closeConn calls { stored with
              proxy := { stored.proxy with restEndpoint := rest }
              events := stored.events ++ noted } connKey
            else .ok { stored with
              proxy := { stored.proxy with restEndpoint := rest }
              events := stored.events ++ noted }) = .ok turn' ∧
          Notes calls fd connection.client.fd connection.device.fd
            (lives connKey ++ world.log) turn.proxy.restEndpoint rest
            noted := by
        cases hlearned : after.learnedRest with
        | none =>
            simp only [hlearned] at hrest
            refine ⟨[], turn.proxy.restEndpoint, ?_, .nothing rfl⟩
            rw [List.append_nil]
            exact hrest
        | some endpoint =>
            simp only [hlearned] at hrest
            obtain ⟨hdirection, _, hknown⟩ := hlived.learned endpoint hlearned
            have hfd : fd ≠ connection.client.fd := by
              rintro rfl
              rw [Connection.edgeDirection, if_pos rfl] at hdirection
              cases hdirection
            obtain ⟨noted, rest, hadopt, hnotes⟩ :=
              adoptRestEndpoint_notes calls stored hfd hknown
            refine ⟨noted, rest, ?_, hnotes⟩
            rw [← hadopt]
            exact hrest
      have hset := Arena.get_set hconn after
      have hlive : (turn.proxy.conns.set connKey after).get connKey =
          some after := (hset connKey).trans (if_pos rfl)
      have hdriven : Driven calls connKey fd (lives connKey) connection kept
          outcome turn { stored with
            proxy := { stored.proxy with restEndpoint := rest }
            events := stored.events ++ noted } := by
        refine ⟨rfl, .sameProxy rfl ?_ ?_, ?_, hlived.within, hlived.keeps,
          noted, List.append_assoc _ _ _, hnotes⟩
        · exact Arena.wf_set (Arena.wf_set h.wf connKey after) connKey kept
        · intro other
          refine (Arena.get_set hlive kept other).trans ?_
          rw [hset]
          split <;> rfl
        · dsimp only [stored, Turn.storeConn]
          rw [hworld]
          rfl
      exact edge_attended h hlives hevents hnamed hconn hdriven hlast

theorem onConnectionWritable_attended {fd : Nat} {kernel : Kernel}
    {lives : Key → List Event} {taken : ProxyTurn}
    (h : Accounted key stale turn.proxy turn.reactor)
    (hlives : turn.proxy.Lives lives) (hworld : turn.world = ⟨kernel, []⟩)
    (hevents : turn.events = [])
    (hnamed : namedBy turn.proxy taken = some (connKey, fd))
    (hrun : turn.onConnectionWritable calls connKey fd = .ok turn') :
    Attended key calls taken lives turn turn' := by
  unfold Turn.onConnectionWritable at hrun
  cases hconn : turn.proxy.conns.get connKey with
  | none =>
      rw [hconn] at hrun
      cases hrun
      have hlog : turn.world.log = [] := by rw [hworld]
      exact (Sheds.refl key h.wf).attended h.wf hlives hlog hevents
  | some connection =>
      rw [hconn] at hrun
      obtain ⟨⟨edged, after, outcome⟩, hedge, hlast⟩ := except_bind_ok hrun
      obtain ⟨world, hwrite, rfl⟩ := onEdge_seen hedge
      rw [hworld] at hwrite
      have hliving := hlives connKey connection hconn
      have hlived : Lived connection (lives connKey) (.writable fd) after
          world.log outcome := hliving.lived hwrite
      have hdriven : Driven calls connKey fd (lives connKey) connection after
          outcome turn { turn with
            proxy := { turn.proxy with
              conns := turn.proxy.conns.set connKey after }
            reactor := applyEvents turn.reactor
              (world.log.drop turn.world.log.length)
            world := world
            events := turn.events ++
              [.acted fd connection.client.fd connection.device.fd] } := by
        refine ⟨rfl, storing_set h hconn after, ?_, hlived.within, ?_, [], rfl,
          .nothing rfl⟩
        · dsimp only
          rw [hworld]
          rfl
        · intro hkeep
          have hnone : after.learnedRest = none :=
            (onWritable_tends hwrite).2.trans hliving.learned
          have hsame : { after with learnedRest := none } = after := by
            rw [← hnone]
          rw [← hsame]
          exact hlived.keeps hkeep
      exact edge_attended h hlives hevents hnamed hconn hdriven hlast

/-! ## Every turn -/

theorem take_attended {kernel : Kernel} {lives : Key → List Event}
    {taken : ProxyTurn} (h : Accounted key stale turn.proxy turn.reactor)
    (hfresh : calls.Fresh turn.proxy)
    (hlives : turn.proxy.Lives lives) (hworld : turn.world = ⟨kernel, []⟩)
    (hevents : turn.events = []) (hrun : taken.take calls turn = .ok turn') :
    Attended key calls taken lives turn turn' := by
  have hlog : turn.world.log = [] := by rw [hworld]
  cases taken with
  | readable event =>
      simp only [ProxyTurn.take, Turn.onReadable] at hrun
      split at hrun
      · rcases acceptDesc_accepts h hfresh with hpanic |
          ⟨next, haccept, haccepts⟩
        · rw [hpanic] at hrun
          cases hrun
        · rw [haccept] at hrun
          cases hrun
          exact haccepts.attended (fun _ hsame => .inl hsame) hlives hlog
            hevents
      · rename_i hdesc
        split at hrun
        · rcases acceptRest_accepts h hfresh with hpanic |
            ⟨next, haccept, haccepts⟩
          · rw [hpanic] at hrun
            cases hrun
          · rw [haccept] at hrun
            cases hrun
            exact haccepts.attended (fun _ hsame => .inr hsame) hlives hlog
              hevents
        · rename_i hrest
          have hnamed : namedBy turn.proxy (.readable event) =
              some (keyFromU64 event.userData, event.fd.toNat) :=
            if_neg (not_or.mpr ⟨hdesc, hrest⟩)
          exact onConnectionReadable_attended h hlives hworld hevents hnamed
            hrun
  | writable event =>
      exact onConnectionWritable_attended h hlives hworld hevents rfl hrun
  | deadline now =>
      have hswept : ∃ next, turn.sweep calls now = .ok next ∧
          Sheds key turn next := sweep_sheds h now
      obtain ⟨next, hsweep, hsheds⟩ := hswept
      have hsame : Turn.sweep calls turn now = .ok turn' := hrun
      rw [hsweep] at hsame
      cases hsame
      exact hsheds.attended h.wf hlives hlog hevents

/-! ## Delivered events -/

theorem keyFromU64_toU64 (connKey : Key) :
    keyFromU64 (keyToU64 connKey) = connKey :=
  Key.fromU64_toU64 connKey

/-- The reactor delivers the event from a registration of the handler's, a
writable one only while its write interest is armed, and the poller reports no
descriptor but the open ones. -/
structure Delivers (key : Key) (proxy : DialDeviceProxy)
    (reactor : Reactor Service) (event : ReadyEvent) (writable : Bool) :
    Prop where
  watched : ∃ reg found, reactor.registrations.get reg = some found ∧
    found.handlerKey = key ∧ found.fd = event.fd ∧
    found.userData = event.userData ∧
    (writable = true → found.writeInterest = true)
  opened : ∃ socket, ∃ fd : Nat, proxy.fdOf socket = some fd ∧ event.fd = fd

def Delivered (key : Key) (proxy : DialDeviceProxy)
    (reactor : Reactor Service) : ProxyTurn → Prop
  | .readable event => Delivers key proxy reactor event false
  | .writable event => Delivers key proxy reactor event true
  | .deadline _ => True

theorem Delivers.named {event : ReadyEvent} {writable : Bool}
    (h : Accounted key stale turn.proxy turn.reactor)
    (hdelivers : Delivers key turn.proxy turn.reactor event writable) :
    (∃ reg found, turn.reactor.registrations.get reg = some found ∧
        found.handlerKey = key ∧
        (writable = true → found.writeInterest = true) ∧
        (found.fd = (turn.proxy.desc.fd : Int) ∨
          found.fd = (turn.proxy.rest.fd : Int)) ∧ event.fd = found.fd) ∨
      ∃ connection,
        turn.proxy.conns.get (keyFromU64 event.userData) = some connection ∧
        event.fd ≠ (turn.proxy.desc.fd : Int) ∧
        event.fd ≠ (turn.proxy.rest.fd : Int) ∧
        ((event.fd.toNat = connection.client.fd ∧
            connection.clientReg ≠ none) ∨
          (event.fd.toNat = connection.device.fd ∧
            connection.deviceReg ≠ none)) := by
  obtain ⟨⟨reg, found, hfound, hkey, hfd, hdata, harmed⟩, open_, fd, hopen,
    hevent⟩ := hdelivers
  have horigin : turn.reactor.origin reg =
      some (event.fd, key, event.userData) := by
    refine origin_eq_some.mpr ⟨found, hfound, ?_⟩
    rw [Registration.origin, hfd, hkey, hdata]
  obtain hstale | ⟨socket, own, hown, hsame, huser, hkept⟩ :=
    h.registered reg _ _ horigin
  · exact absurd hevent
      (h.strange reg _ _ _ horigin (.inr hstale) open_ fd hopen)
  have hunlike : ¬ socket.Listens →
      event.fd ≠ (turn.proxy.desc.fd : Int) ∧
        event.fd ≠ (turn.proxy.rest.fd : Int) := by
    intro hnot
    rw [hsame]
    constructor
    · intro hdesc
      rw [Int.natCast_inj] at hdesc
      subst hdesc
      cases h.apart socket .desc _ hown rfl
      exact hnot trivial
    · intro hrest
      rw [Int.natCast_inj] at hrest
      subst hrest
      cases h.apart socket .rest _ hown rfl
      exact hnot trivial
  cases socket with
  | desc =>
      cases hown
      exact .inl ⟨reg, found, hfound, hkey, harmed, .inl (hfd.trans hsame),
        hfd.symm⟩
  | rest =>
      cases hown
      exact .inl ⟨reg, found, hfound, hkey, harmed, .inr (hfd.trans hsame),
        hfd.symm⟩
  | client connKey =>
      obtain ⟨connection, hconn, rfl⟩ := Option.map_eq_some_iff.mp hown
      have hreg := hkept.resolve_left id
      simp only [DialDeviceProxy.regOf, hconn, Option.bind_some] at hreg
      refine .inr ⟨connection, ?_, (hunlike id).1, (hunlike id).2,
        .inl ⟨?_, ?_⟩⟩
      · rw [huser, Socket.userData, keyFromU64_toU64]
        exact hconn
      · rw [hsame, Int.toNat_natCast]
      · rintro hnone
        rw [hnone] at hreg
        cases hreg
  | device connKey =>
      obtain ⟨connection, hconn, rfl⟩ := Option.map_eq_some_iff.mp hown
      have hreg := hkept.resolve_left id
      simp only [DialDeviceProxy.regOf, hconn, Option.bind_some] at hreg
      refine .inr ⟨connection, ?_, (hunlike id).1, (hunlike id).2,
        .inr ⟨?_, ?_⟩⟩
      · rw [huser, Socket.userData, keyFromU64_toU64]
        exact hconn
      · rw [hsame, Int.toNat_natCast]
      · rintro hnone
        rw [hnone] at hreg
        cases hreg

theorem settle_total {outcome : Outcome}
    (hconn : turn.proxy.conns.get connKey = some connection) :
    ∃ turn', (if outcome = .close then turn.closeConn calls connKey
      else .ok turn) = .ok turn' := by
  split
  · unfold Turn.closeConn
    rw [Arena.remove_some hconn]
    exact ⟨_, rfl⟩
  · exact ⟨turn, rfl⟩

theorem onEdge_total {edge : Edge} {kernel : Kernel} {life : List Event}
    (h : Living connection life) (hworld : turn.world = ⟨kernel, []⟩)
    (hconn : turn.proxy.conns.get connKey = some connection)
    (hreg : (edge.fd = connection.client.fd ∧ connection.clientReg ≠ none) ∨
      (edge.fd = connection.device.fd ∧ connection.deviceReg ≠ none)) :
    ∃ edged, turn.onEdge connKey edge.fd connection (connection.onEdge edge) =
        .ok edged ∧
      edged.1.proxy.conns.get connKey = some edged.2.1 := by
  obtain ⟨⟨after, world, outcome⟩, hanswer⟩ := h.total kernel hreg
  rw [← hworld] at hanswer
  have hedge : ∃ edged, turn.onEdge connKey edge.fd connection
      (connection.onEdge edge) = .ok edged := by
    simp only [Turn.onEdge, Turn.observe, hanswer, bind, Except.bind]
    exact ⟨_, rfl⟩
  obtain ⟨⟨edged, kept, settled⟩, hedge⟩ := hedge
  refine ⟨(edged, kept, settled), hedge, ?_⟩
  obtain ⟨_, _, rfl⟩ := onEdge_seen hedge
  exact (Arena.get_set hconn kept connKey).trans (if_pos rfl)

theorem onConnectionReadable_total {kernel : Kernel} {life : List Event}
    {fd : Nat} (h : Living connection life) (hworld : turn.world = ⟨kernel, []⟩)
    (hconn : turn.proxy.conns.get connKey = some connection)
    (hreg : (fd = connection.client.fd ∧ connection.clientReg ≠ none) ∨
      (fd = connection.device.fd ∧ connection.deviceReg ≠ none)) :
    ∃ turn', turn.onConnectionReadable calls connKey fd = .ok turn' := by
  have htotal : ∃ edged,
      turn.onEdge connKey fd connection (connection.onEdge (.readable fd)) =
        .ok edged ∧ edged.1.proxy.conns.get connKey = some edged.2.1 :=
    onEdge_total h hworld hconn hreg
  obtain ⟨⟨edged, after, outcome⟩, hedge, hget⟩ := htotal
  have hread : turn.onEdge connKey fd connection (connection.readable fd) =
      .ok (edged, after, outcome) := hedge
  simp only [Turn.onConnectionReadable, hconn, hread, bind, Except.bind]
  have hstored : (edged.storeConn connKey
      { after with learnedRest := none }).proxy.conns.get connKey = some _ :=
    (Arena.get_set hget _ connKey).trans (if_pos rfl)
  cases after.learnedRest with
  | none => exact settle_total hstored
  | some endpoint =>
      obtain ⟨rest, noted, hadopt⟩ := adoptRestEndpoint_eq calls
        (edged.storeConn connKey { after with learnedRest := none }) fd endpoint
      simp only [hadopt]
      exact settle_total hstored

theorem onConnectionWritable_total {kernel : Kernel} {life : List Event}
    {fd : Nat} (h : Living connection life) (hworld : turn.world = ⟨kernel, []⟩)
    (hconn : turn.proxy.conns.get connKey = some connection)
    (hreg : (fd = connection.client.fd ∧ connection.clientReg ≠ none) ∨
      (fd = connection.device.fd ∧ connection.deviceReg ≠ none)) :
    ∃ turn', turn.onConnectionWritable calls connKey fd = .ok turn' := by
  have htotal : ∃ edged,
      turn.onEdge connKey fd connection (connection.onEdge (.writable fd)) =
        .ok edged ∧ edged.1.proxy.conns.get connKey = some edged.2.1 :=
    onEdge_total h hworld hconn hreg
  obtain ⟨⟨edged, after, outcome⟩, hedge, hget⟩ := htotal
  have hwrite : turn.onEdge connKey fd connection (connection.writable fd) =
      .ok (edged, after, outcome) := hedge
  simp only [Turn.onConnectionWritable, hconn, hwrite, bind, Except.bind]
  exact settle_total hget

theorem Delivered.belongs {taken : ProxyTurn}
    {fd clientFd deviceFd : Nat}
    (h : Accounted key stale turn.proxy turn.reactor)
    (hdeaf : Deaf key turn.proxy turn.reactor)
    (hdelivered : Delivered key turn.proxy turn.reactor taken)
    (hacts : ActsOn turn.proxy taken connKey fd clientFd deviceFd) :
    fd = clientFd ∨ fd = deviceFd := by
  obtain ⟨hnamed, connection, hconn, rfl, rfl⟩ := hacts
  have hown : ∀ {event : ReadyEvent},
      some (keyFromU64 event.userData, event.fd.toNat) = some (connKey, fd) →
      (∃ connection, turn.proxy.conns.get (keyFromU64 event.userData) =
          some connection ∧
        event.fd ≠ (turn.proxy.desc.fd : Int) ∧
        event.fd ≠ (turn.proxy.rest.fd : Int) ∧
        ((event.fd.toNat = connection.client.fd ∧
            connection.clientReg ≠ none) ∨
          (event.fd.toNat = connection.device.fd ∧
            connection.deviceReg ≠ none))) →
      fd = connection.client.fd ∨ fd = connection.device.fd := by
    intro event hsame hfound
    cases hsame
    obtain ⟨found, hfound, _, _, hside⟩ := hfound
    rw [hconn] at hfound
    cases hfound
    exact hside.imp And.left And.left
  cases taken with
  | deadline now => cases hnamed
  | readable event =>
      simp only [namedBy] at hnamed
      split at hnamed
      · cases hnamed
      · rename_i hother
        rcases Delivers.named h hdelivered with
          ⟨_, _, _, _, _, hlistener, hsame⟩ | hfound
        · rw [← hsame] at hlistener
          exact absurd hlistener hother
        · exact hown hnamed hfound
  | writable event =>
      rcases Delivers.named h hdelivered with
        ⟨reg, found, hfound, hkey, harmed, hlistener, _⟩ | hfound
      · have hquiet := hdeaf reg found hfound hkey (harmed rfl)
        exact (hlistener.elim hquiet.1 hquiet.2).elim
      · exact hown hnamed hfound

theorem take_total {kernel : Kernel} {lives : Key → List Event}
    {taken : ProxyTurn} (h : Accounted key stale turn.proxy turn.reactor)
    (hfresh : calls.Fresh turn.proxy) (hlives : turn.proxy.Lives lives)
    (hdeaf : Deaf key turn.proxy turn.reactor)
    (hworld : turn.world = ⟨kernel, []⟩)
    (hdelivered : Delivered key turn.proxy turn.reactor taken) :
    taken.take calls turn = .error exhausted ∨
      ∃ turn', taken.take calls turn = .ok turn' := by
  cases taken with
  | readable event =>
      simp only [ProxyTurn.take, Turn.onReadable]
      split
      · rcases acceptDesc_accepts h hfresh with hpanic | ⟨turn', haccept, _⟩
        · exact .inl hpanic
        · exact .inr ⟨turn', haccept⟩
      · rename_i hdesc
        split
        · rcases acceptRest_accepts h hfresh with hpanic | ⟨turn', haccept, _⟩
          · exact .inl hpanic
          · exact .inr ⟨turn', haccept⟩
        · rename_i hrest
          rcases Delivers.named h hdelivered with
            ⟨_, _, _, _, _, hlistener, hsame⟩ |
            ⟨connection, hconn, _, _, hreg⟩
          · rw [← hsame] at hlistener
            exact (hlistener.elim hdesc hrest).elim
          · exact .inr (onConnectionReadable_total (hlives _ _ hconn) hworld
              hconn hreg)
  | writable event =>
      rcases Delivers.named h hdelivered with
        ⟨reg, found, hfound, hkey, harmed, hlistener, _⟩ |
        ⟨connection, hconn, _, _, hreg⟩
      · have hquiet := hdeaf reg found hfound hkey (harmed rfl)
        exact (hlistener.elim hquiet.1 hquiet.2).elim
      · exact .inr (onConnectionWritable_total (hlives _ _ hconn) hworld hconn
          hreg)
  | deadline now =>
      have hswept : ∃ turn', turn.sweep calls now = .ok turn' ∧
          Sheds key turn turn' := sweep_sheds h now
      obtain ⟨turn', hsweep, _⟩ := hswept
      exact .inr ⟨turn', hsweep⟩

end Turns

end Netflector.Reflector.Dial
