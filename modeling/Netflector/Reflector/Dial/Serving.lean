import Netflector.Reflector.Dial.Accounts

/-!
# The turns of a proxy

What one turn of a proxy does to its sockets and to their registrations.
-/

namespace Netflector.Reflector.Dial

open Netflector.Foundation
open Netflector.Net
open Netflector.Reactor
open Netflector.Dispatch

/-! ## What is asked of the reactor -/

def unwatchedRegs (events : List Event) : List Key :=
  events.filterMap fun
    | .unwatch reg _ => some reg.key
    | _ => none

theorem mem_unwatchedRegs {events : List Event} {reg : Key} :
    reg ∈ unwatchedRegs events ↔
      ∃ answer, .unwatch ⟨reg⟩ answer ∈ events := by
  unfold unwatchedRegs
  rw [List.mem_filterMap]
  constructor
  · rintro ⟨event, hmem, hreg⟩
    cases event with
    | unwatch found answer =>
        cases hreg
        exact ⟨answer, hmem⟩
    | _ => cases hreg
  · rintro ⟨answer, hmem⟩
    exact ⟨_, hmem, rfl⟩

theorem applyEvent_drops {reactor : Reactor Service} (h : Sane reactor)
    (event : Event) :
    Drops (unwatchedRegs [event]) reactor (applyEvent reactor event) := by
  cases event with
  | unwatch reg answer => exact unwatch_drops h reg.key _
  | setReadInterest reg armed answer =>
      cases answer with
      | false => exact .refl h
      | true => exact setReadInterest_drops h reg.key armed _
  | setWriteInterest reg armed answer =>
      cases answer with
      | false => exact .refl h
      | true => exact setWriteInterest_drops h reg.key armed _
  | _ => exact .refl h

theorem applyEvents_drops {reactor : Reactor Service} (h : Sane reactor)
    (events : List Event) :
    Drops (unwatchedRegs events) reactor (applyEvents reactor events) := by
  induction events generalizing reactor with
  | nil => exact .refl h
  | cons event events ih =>
      have hfirst := applyEvent_drops h event
      have hall := hfirst.trans (ih hfirst.sane)
      have happend : unwatchedRegs (event :: events) =
          unwatchedRegs [event] ++ unwatchedRegs events := by
        rw [← List.singleton_append, unwatchedRegs, List.filterMap_append]
        rfl
      rw [happend]
      exact hall

def Connection.regs (connection : Connection) : List Key :=
  connection.clientReg.toList.map RegKey.key ++
    connection.deviceReg.toList.map RegKey.key

theorem mem_regs {connection : Connection} {reg : Key} :
    reg ∈ connection.regs ↔
      ∃ side, (connection.context side).sourceReg = some ⟨reg⟩ := by
  simp only [Connection.regs, List.mem_append, List.mem_map,
    Option.mem_toList, Option.mem_def]
  constructor
  · rintro (⟨found, hreg, rfl⟩ | ⟨found, hreg, rfl⟩)
    · exact ⟨.clientToDevice, hreg⟩
    · exact ⟨.deviceToClient, hreg⟩
  · rintro ⟨side, hreg⟩
    cases side with
    | clientToDevice => exact .inl ⟨_, hreg, rfl⟩
    | deviceToClient => exact .inr ⟨_, hreg, rfl⟩

theorem teardown_drops {reactor : Reactor Service} (h : Sane reactor)
    (connection : Connection) (removed : Reactor.Poll) :
    Drops connection.regs reactor (connection.teardown removed reactor) := by
  unfold Connection.teardown Connection.regs
  cases connection.clientReg with
  | none =>
      cases connection.deviceReg with
      | none => exact .refl h
      | some reg => exact unwatch_drops h reg.key removed
  | some clientReg =>
      have hclient := unwatch_drops h clientReg.key removed
      cases connection.deviceReg with
      | none => exact hclient
      | some reg =>
          exact hclient.trans (unwatch_drops hclient.sane reg.key removed)

section Turns

variable {key : Key} {stale : List Key} {proxy proxy' : DialDeviceProxy}
  {reactor reactor' : Reactor Service} {connKey : Key}
  {connection connection' : Connection} {calls : ProxyCalls}
  {turn turn' : Turn}

theorem regOf_of_mem_regs {reg : Key}
    (hconn : proxy.conns.get connKey = some connection)
    (hmem : reg ∈ connection.regs) :
    ∃ socket, socket.Of connKey ∧ proxy.regOf socket = some reg := by
  obtain ⟨side, hreg⟩ := mem_regs.mp hmem
  refine ⟨.side connKey side, Socket.of_iff.mpr ⟨side, rfl⟩, ?_⟩
  rw [DialDeviceProxy.regOf_side hconn, hreg]
  rfl

theorem mem_regs_of_regOf {reg : Key} {socket : Socket}
    (hconn : proxy.conns.get connKey = some connection)
    (hof : socket.Of connKey) (hreg : proxy.regOf socket = some reg) :
    reg ∈ connection.regs := by
  obtain ⟨side, rfl⟩ := Socket.of_iff.mp hof
  rw [DialDeviceProxy.regOf_side hconn] at hreg
  obtain ⟨found, hfound, rfl⟩ := Option.map_eq_some_iff.mp hreg
  exact mem_regs.mpr ⟨side, hfound⟩

/-! ## One edge of a connection -/

structure Storing (connKey : Key) (connection : Connection)
    (proxy proxy' : DialDeviceProxy) : Prop where
  key_eq : proxy'.key = proxy.key
  desc : proxy'.desc = proxy.desc
  rest : proxy'.rest = proxy.rest
  wf : proxy'.conns.Wf
  get : ∀ other, proxy'.conns.get other =
    if other = connKey then some connection else proxy.conns.get other

theorem Storing.get_self (h : Storing connKey connection' proxy proxy') :
    proxy'.conns.get connKey = some connection' := by
  rw [h.get, if_pos rfl]

theorem Storing.get_other (h : Storing connKey connection' proxy proxy')
    {other : Key} (hother : other ≠ connKey) :
    proxy'.conns.get other = proxy.conns.get other := by
  rw [h.get, if_neg hother]

theorem Storing.fdOf (h : Storing connKey connection' proxy proxy')
    (hconn : proxy.conns.get connKey = some connection)
    (hfd : ∀ side, (connection'.context side).source.fd =
      (connection.context side).source.fd) (socket : Socket) :
    proxy'.fdOf socket = proxy.fdOf socket := by
  by_cases hof : socket.Of connKey
  · obtain ⟨side, rfl⟩ := Socket.of_iff.mp hof
    rw [DialDeviceProxy.fdOf_side hconn, DialDeviceProxy.fdOf_side h.get_self,
      hfd]
  · cases socket with
    | desc => rw [DialDeviceProxy.fdOf, DialDeviceProxy.fdOf, h.desc]
    | rest => rw [DialDeviceProxy.fdOf, DialDeviceProxy.fdOf, h.rest]
    | client other =>
        rw [DialDeviceProxy.fdOf, DialDeviceProxy.fdOf, h.get_other hof]
    | device other =>
        rw [DialDeviceProxy.fdOf, DialDeviceProxy.fdOf, h.get_other hof]

theorem Storing.regOf_other (h : Storing connKey connection' proxy proxy')
    {socket : Socket} (hof : ¬ socket.Of connKey) :
    proxy'.regOf socket = proxy.regOf socket := by
  cases socket with
  | desc => rfl
  | rest => rfl
  | client other =>
      rw [DialDeviceProxy.regOf, DialDeviceProxy.regOf, h.get_other hof]
  | device other =>
      rw [DialDeviceProxy.regOf, DialDeviceProxy.regOf, h.get_other hof]

theorem Accounted.edge {events : List Event}
    (h : Accounted key stale proxy reactor)
    (hconn : proxy.conns.get connKey = some connection)
    (hedged : Edged connection connection' events)
    (hreleases : Releases connection connection' events)
    (hproxy : Storing connKey connection' proxy proxy')
    (hdrops : Drops (unwatchedRegs events) reactor reactor') :
    Accounted key stale proxy' reactor' := by
  have hfdOf := hproxy.fdOf hconn hedged.fd
  have hgone : ∀ reg ∈ unwatchedRegs events, ∃ side,
      proxy.regOf (.side connKey side) = some reg ∧
        (connection'.context side).sourceReg = none := by
    intro reg hmem
    obtain ⟨answer, hmem⟩ := mem_unwatchedRegs.mp hmem
    obtain ⟨side, hreg, hnone⟩ := hedged.unwatched _ _ hmem
    refine ⟨side, ?_, hnone⟩
    rw [DialDeviceProxy.regOf_side hconn, hreg]
    rfl
  constructor
  · exact hdrops.sane
  · rw [hproxy.key_eq]
    exact h.key_eq
  · exact hproxy.wf
  · intro socket socket' fd hfd hfd'
    rw [hfdOf] at hfd hfd'
    exact h.apart socket socket' fd hfd hfd'
  · intro socket reg hreg
    have hold : proxy.regOf socket = some reg ∧
        reg ∉ unwatchedRegs events := by
      by_cases hof : socket.Of connKey
      · obtain ⟨side, rfl⟩ := Socket.of_iff.mp hof
        rw [DialDeviceProxy.regOf_side hproxy.get_self] at hreg
        rcases hedged.reg side with hsame | hnone
        · rw [hsame] at hreg
          have hold := hreg
          rw [← DialDeviceProxy.regOf_side hconn] at hold
          refine ⟨hold, ?_⟩
          intro hmem
          obtain ⟨side', hreg', hnone⟩ := hgone reg hmem
          have hside := h.regOf_inj hold hreg'
          have hsides : side = side' := by
            cases side <;> cases side' <;> first | rfl | cases hside
          rw [hsides] at hsame hreg
          rw [← hsame, hnone] at hreg
          cases hreg
        · rw [hnone] at hreg
          cases hreg
      · rw [hproxy.regOf_other hof] at hreg
        refine ⟨hreg, ?_⟩
        intro hmem
        obtain ⟨side, hreg', _⟩ := hgone reg hmem
        rw [h.regOf_inj hreg hreg'] at hof
        exact hof (Socket.of_iff.mpr ⟨side, rfl⟩)
    obtain ⟨fd, hfd, horigin⟩ := h.held socket reg hold.1
    exact ⟨fd, by rw [hfdOf, hfd], by
      rw [hdrops.origin, if_neg hold.2, horigin]⟩
  · intro reg fd data horigin
    obtain ⟨hkept, horigin⟩ := hdrops.origin_some horigin
    obtain hstale | ⟨socket, open_, hopen, hfd, hdata, howner⟩ :=
      h.registered reg fd data horigin
    · exact .inl hstale
    · refine .inr ⟨socket, open_, by rw [hfdOf, hopen], hfd, hdata, ?_⟩
      refine howner.imp_right fun hreg => ?_
      by_cases hof : socket.Of connKey
      · obtain ⟨side, rfl⟩ := Socket.of_iff.mp hof
        rw [DialDeviceProxy.regOf_side hproxy.get_self]
        rw [DialDeviceProxy.regOf_side hconn] at hreg
        rcases hedged.reg side with hsame | hnone
        · rw [hsame, hreg]
        · obtain ⟨found, hfound, rfl⟩ := Option.map_eq_some_iff.mp hreg
          obtain ⟨answer, hmem⟩ := hreleases side found hfound hnone
          exact absurd (mem_unwatchedRegs.mpr ⟨answer, hmem⟩) hkept
      · rw [hproxy.regOf_other hof, hreg]
  · intro reg hmem
    obtain ⟨fd, data, horigin⟩ := h.lasting reg hmem
    refine ⟨fd, data, ?_⟩
    rw [hdrops.origin, if_neg, horigin]
    intro hgone'
    obtain ⟨side, hreg, _⟩ := hgone reg hgone'
    exact h.not_stale hreg hmem
  · intro reg fd owner data horigin hstrange socket open_ hopen
    rw [hfdOf] at hopen
    exact h.strange reg fd owner data (hdrops.origin_some horigin).2 hstrange
      socket open_ hopen

/-- The owner closes the connection: what it unwatched itself and what it
still keeps goes with it, and what it gave up otherwise is leaked. -/
theorem Accounted.closed {events : List Event}
    (h : Accounted key stale proxy reactor)
    (hconn : proxy.conns.get connKey = some connection)
    (hedged : Edged connection connection' events)
    (hproxy : Without connKey proxy proxy')
    (hdrops : Drops (unwatchedRegs events ++ connection'.regs) reactor
      reactor') :
    ∃ leaked, Accounted key (stale ++ leaked) proxy' reactor' ∧
      (Releases connection connection' events → leaked = []) := by
  let gone := unwatchedRegs events ++ connection'.regs
  refine ⟨connection.regs.filter fun reg => decide (reg ∉ gone),
    h.without hproxy hdrops ?_ ?_ ?_, ?_⟩
  · intro reg hmem
    apply regOf_of_mem_regs hconn
    rcases List.mem_append.mp hmem with hmem | hmem
    · obtain ⟨answer, hmem⟩ := mem_unwatchedRegs.mp hmem
      obtain ⟨side, hreg, _⟩ := hedged.unwatched _ _ hmem
      exact mem_regs.mpr ⟨side, hreg⟩
    · obtain ⟨side, hreg⟩ := mem_regs.mp hmem
      rcases hedged.reg side with hsame | hnone
      · exact mem_regs.mpr ⟨side, by rw [← hsame, hreg]⟩
      · rw [hnone] at hreg
        cases hreg
  · intro reg hmem
    obtain ⟨hmem, hkept⟩ := List.mem_filter.mp hmem
    exact ⟨of_decide_eq_true hkept, regOf_of_mem_regs hconn hmem⟩
  · intro socket reg hof hreg
    have hmem := mem_regs_of_regOf hconn hof hreg
    by_cases hgone : reg ∈ gone
    · exact .inl hgone
    · exact .inr (List.mem_filter.mpr ⟨hmem, decide_eq_true hgone⟩)
  · intro hreleases
    rw [List.filter_eq_nil_iff]
    intro reg hmem
    rw [decide_eq_true_eq, not_not]
    obtain ⟨side, hreg⟩ := mem_regs.mp hmem
    rcases hedged.reg side with hsame | hnone
    · refine List.mem_append_right _ (mem_regs.mpr ⟨side, ?_⟩)
      rw [hsame, hreg]
    · obtain ⟨answer, hmem⟩ := hreleases side _ hreg hnone
      exact List.mem_append_left _ (mem_unwatchedRegs.mpr ⟨answer, hmem⟩)

/-! ## A turn -/

def ProxyCalls.Opens (calls : ProxyCalls) (fd : Nat) : Prop :=
  calls.accept = .ok (some fd) ∨
    ∃ connecting, calls.connect = .ok (fd, connecting)

structure Served (key : Key) (stale leaked : List Key) (calls : ProxyCalls)
    (before after : Turn) : Prop where
  sane : Sane after.reactor
  accounted : after.reactor.handlers.get key ≠ none →
    Accounted key (stale ++ leaked) after.proxy after.reactor
  opened : ∀ socket fd, after.proxy.fdOf socket = some fd →
    before.proxy.fdOf socket = some fd ∨ calls.Opens fd
  foreign : ∀ reg fd owner data,
    after.reactor.origin reg = some (fd, owner, data) → owner ≠ key →
    before.reactor.origin reg = some (fd, owner, data)

theorem Served.of_drops {leaked gone : List Key}
    (h : Accounted key (stale ++ leaked) turn'.proxy turn'.reactor)
    (hdrops : Drops gone turn.reactor turn'.reactor)
    (hfd : ∀ socket fd, turn'.proxy.fdOf socket = some fd →
      turn.proxy.fdOf socket = some fd) :
    Served key stale leaked calls turn turn' :=
  ⟨h.sane, fun _ => h, fun socket fd hopen => .inl (hfd socket fd hopen),
    fun _ _ _ _ horigin _ => (hdrops.origin_some horigin).2⟩

theorem Accounted.nothing_leaked (h : Accounted key stale proxy reactor) :
    Accounted key (stale ++ []) proxy reactor := by
  rw [List.append_nil]
  exact h

theorem Accounted.served (h : Accounted key stale turn.proxy turn.reactor) :
    Served key stale [] calls turn turn :=
  .of_drops h.nothing_leaked (.refl h.sane) fun _ _ hfd => hfd

theorem closeConn_ok (h : turn.closeConn calls connKey = .ok turn') :
    ∃ connection, turn.proxy.conns.get connKey = some connection ∧
      turn' = { turn with
        proxy := { turn.proxy with
          conns := (turn.proxy.conns.remove connKey).1 }
        reactor := connection.teardown calls.removed turn.reactor } := by
  unfold Turn.closeConn at h
  cases hget : turn.proxy.conns.get connKey with
  | none =>
      simp only [Arena.remove_none hget] at h
      cases h
  | some connection =>
      simp only [Arena.remove_some hget] at h
      cases h
      refine ⟨connection, rfl, ?_⟩
      rw [Arena.remove_some hget]

theorem onEdge_ok {fd : Nat} {edge : World →
      Except Panic (Connection × World × Outcome)} {outcome : Outcome}
    (h : turn.onEdge connKey fd connection edge =
      .ok (turn', connection', outcome)) :
    ∃ world, edge turn.world = .ok (connection', world, outcome) ∧
      turn'.proxy = { turn.proxy with
        conns := turn.proxy.conns.set connKey connection' } ∧
      turn'.reactor = applyEvents turn.reactor
        (world.log.drop turn.world.log.length) := by
  obtain ⟨⟨after, world, answer⟩, hedge, hrest⟩ := except_bind_ok h
  cases hrest
  exact ⟨world, hedge, rfl, rfl⟩

theorem Storing.without (h : Storing connKey connection' proxy proxy')
    {conns : Arena Connection}
    (hconns : conns = (proxy'.conns.remove connKey).1) :
    Without connKey proxy { proxy' with conns := conns } := by
  subst hconns
  refine without_of_get h.key_eq h.desc h.rest
    (Arena.wf_remove h.wf h.get_self) ?_
  intro other
  rw [Arena.get_remove h.get_self, h.get]
  split <;> rfl

theorem edge_served {events : List Event} {middle : Turn} {outcome : Outcome}
    (h : Accounted key stale turn.proxy turn.reactor)
    (hconn : turn.proxy.conns.get connKey = some connection)
    (hedged : Edged connection connection' events)
    (hkeeps : outcome = .keep → Releases connection connection' events)
    (hproxy : Storing connKey connection' turn.proxy middle.proxy)
    (hdrops : Drops (unwatchedRegs events) turn.reactor middle.reactor)
    (hlast : (if outcome = .close then middle.closeConn calls connKey
      else .ok middle) = .ok turn') :
    ∃ leaked, Served key stale leaked calls turn turn' ∧
      (Releases connection connection' events → leaked = []) := by
  cases outcome with
  | keep =>
      cases hlast
      have hfd := hproxy.fdOf hconn hedged.fd
      refine ⟨[], .of_drops ?_ hdrops ?_, fun _ => rfl⟩
      · exact (h.edge hconn hedged (hkeeps rfl) hproxy hdrops).nothing_leaked
      · intro socket fd hopen
        rw [← hfd, hopen]
  | close =>
      obtain ⟨found, hfound, rfl⟩ := closeConn_ok hlast
      rw [hproxy.get_self] at hfound
      cases hfound
      have hwithout := hproxy.without rfl
      have hall := hdrops.trans
        (teardown_drops hdrops.sane connection' calls.removed)
      obtain ⟨leaked, haccounted, hnone⟩ :=
        h.closed hconn hedged hwithout hall
      refine ⟨leaked, .of_drops haccounted hall ?_, hnone⟩
      intro socket fd hopen
      exact (hwithout.fdOf_some hopen).2

/-- A readable edge winds down a hung-up peer, and the poller refuses the disarm
that this begins with. -/
def DialDeviceProxy.DisarmRefused (proxy : DialDeviceProxy) (world : World)
    (connKey : Key) (fd : Nat) : Prop :=
  ∃ connection, proxy.conns.get connKey = some connection ∧
    connection.disarmRefused (connection.readDirection fd) world = true

theorem storing_set (h : Accounted key stale proxy reactor)
    (hconn : proxy.conns.get connKey = some connection)
    (connection' : Connection) :
    Storing connKey connection' proxy
      { proxy with conns := proxy.conns.set connKey connection' } :=
  ⟨rfl, rfl, rfl, Arena.wf_set h.wf connKey connection',
    Arena.get_set hconn connection'⟩

theorem Storing.again (h : Storing connKey connection proxy proxy')
    (connection' : Connection) (endpoint : Option SocketAddrV4) :
    Storing connKey connection' proxy { proxy' with
      conns := proxy'.conns.set connKey connection'
      restEndpoint := endpoint } := by
  refine ⟨h.key_eq, h.desc, h.rest, Arena.wf_set h.wf connKey connection', ?_⟩
  intro other
  rw [Arena.get_set h.get_self, h.get]
  split <;> rfl

theorem adoptRestEndpoint_eq (calls : ProxyCalls) (turn : Turn) (fd : Nat)
    (found : SocketAddrV4) :
    ∃ endpoint events, turn.adoptRestEndpoint calls fd found =
      { turn with
        proxy := { turn.proxy with restEndpoint := endpoint }
        events := events } := by
  unfold Turn.adoptRestEndpoint
  split
  · exact ⟨_, _, rfl⟩
  · split
    · exact ⟨_, _, rfl⟩
    · exact ⟨_, _, rfl⟩

theorem onConnectionReadable_served {fd : Nat}
    (h : Accounted key stale turn.proxy turn.reactor)
    (hrun : turn.onConnectionReadable calls connKey fd = .ok turn') :
    ∃ leaked, Served key stale leaked calls turn turn' ∧
      (¬ turn.proxy.DisarmRefused turn.world connKey fd → leaked = []) := by
  unfold Turn.onConnectionReadable at hrun
  cases hconn : turn.proxy.conns.get connKey with
  | none =>
      rw [hconn] at hrun
      cases hrun
      exact ⟨[], h.served, fun _ => rfl⟩
  | some connection =>
      rw [hconn] at hrun
      obtain ⟨⟨edged, after, outcome⟩, hedge, hrest⟩ := except_bind_ok hrun
      obtain ⟨world, hread, hproxy, hreactor⟩ := onEdge_ok hedge
      obtain ⟨events, hlog, hedged, hreleases⟩ := readable_edged hread
      rw [hlog, List.drop_left] at hreactor
      have hstored : Storing connKey after turn.proxy edged.proxy := by
        rw [hproxy]
        exact storing_set h hconn after
      -- The endpoint is taken off the connection, which is stored once more.
      have hsame : Edged connection { after with learnedRest := none }
          events := by
        refine ⟨fun side => ?_, fun side => ?_, fun reg answer hmem => ?_⟩
        · rw [← hedged.fd]
          cases side <;> rfl
        · have hreg := hedged.reg side
          cases side <;> exact hreg
        · obtain ⟨side, hreg, hnone⟩ := hedged.unwatched reg answer hmem
          refine ⟨side, hreg, ?_⟩
          cases side <;> exact hnone
      have hsameReleases : Releases connection after events →
          Releases connection { after with learnedRest := none } events := by
        intro hreleases side reg hreg hnone
        refine hreleases side reg hreg ?_
        cases side <;> exact hnone
      obtain ⟨middle, endpoint, hmiddle, hkept, hlast⟩ : ∃ middle : Turn,
          ∃ endpoint, middle.proxy =
            { edged.proxy with
              conns := edged.proxy.conns.set connKey
                { after with learnedRest := none }
              restEndpoint := endpoint } ∧
          middle.reactor = edged.reactor ∧
          (if outcome = .close then middle.closeConn calls connKey
            else .ok middle) = .ok turn' := by
        cases hlearned : after.learnedRest with
        | none =>
            simp only [hlearned] at hrest
            exact ⟨edged.storeConn connKey { after with learnedRest := none },
              edged.proxy.restEndpoint, rfl, rfl, hrest⟩
        | some found =>
            simp only [hlearned] at hrest
            let stored :=
              edged.storeConn connKey { after with learnedRest := none }
            obtain ⟨endpoint, noted, hadopt⟩ :=
              adoptRestEndpoint_eq calls stored fd found
            rw [hadopt] at hrest
            exact ⟨{ stored with
              proxy := { stored.proxy with restEndpoint := endpoint }
              events := noted }, endpoint, rfl, rfl, hrest⟩
      have hagain : Storing connKey { after with learnedRest := none }
          turn.proxy middle.proxy := by
        rw [hmiddle]
        exact hstored.again _ endpoint
      have hdrops := applyEvents_drops h.sane events
      rw [← hreactor, ← hkept] at hdrops
      obtain ⟨leaked, hserved, hnone⟩ := edge_served h hconn hsame
        (fun hkeep => hsameReleases (hreleases (.inl hkeep))) hagain hdrops
        hlast
      refine ⟨leaked, hserved, fun hspared => hnone (hsameReleases ?_)⟩
      refine hreleases (.inr ?_)
      rw [← Bool.not_eq_true]
      exact fun hrefused => hspared ⟨connection, hconn, hrefused⟩

theorem onConnectionWritable_served {fd : Nat}
    (h : Accounted key stale turn.proxy turn.reactor)
    (hrun : turn.onConnectionWritable calls connKey fd = .ok turn') :
    Served key stale [] calls turn turn' := by
  unfold Turn.onConnectionWritable at hrun
  cases hconn : turn.proxy.conns.get connKey with
  | none =>
      rw [hconn] at hrun
      cases hrun
      exact h.served
  | some connection =>
      rw [hconn] at hrun
      obtain ⟨⟨edged, after, outcome⟩, hedge, hrest⟩ := except_bind_ok hrun
      obtain ⟨world, hwrite, hproxy, hreactor⟩ := onEdge_ok hedge
      obtain ⟨events, hlog, hretains⟩ := writable_retains hwrite
      rw [hlog, List.drop_left] at hreactor
      have hstored : Storing connKey after turn.proxy edged.proxy := by
        rw [hproxy]
        exact storing_set h hconn after
      have hdrops := applyEvents_drops h.sane events
      rw [← hreactor] at hdrops
      obtain ⟨leaked, hserved, hnone⟩ := edge_served h hconn hretains.edged
        (fun _ => hretains.releases) hstored hdrops hrest
      rw [hnone hretains.releases] at hserved
      exact hserved

/-! ## Sweeps -/

theorem closeConn_served (h : Accounted key stale turn.proxy turn.reactor)
    (hrun : turn.closeConn calls connKey = .ok turn') :
    Accounted key stale turn'.proxy turn'.reactor ∧
      Without connKey turn.proxy turn'.proxy ∧
      ∃ gone, Drops gone turn.reactor turn'.reactor := by
  obtain ⟨connection, hconn, rfl⟩ := closeConn_ok hrun
  have hretains : Retains connection connection [] :=
    ⟨fun _ => rfl, fun _ => rfl, fun _ _ => List.not_mem_nil⟩
  have hwithout : Without connKey turn.proxy { turn.proxy with
      conns := (turn.proxy.conns.remove connKey).1 } :=
    without_of_get rfl rfl rfl (Arena.wf_remove h.wf hconn)
      (Arena.get_remove hconn)
  have hdrops := teardown_drops h.sane connection calls.removed
  obtain ⟨leaked, haccounted, hnone⟩ :=
    h.closed hconn hretains.edged hwithout hdrops
  rw [hnone hretains.releases, List.append_nil] at haccounted
  exact ⟨haccounted, hwithout, _, hdrops⟩

theorem closeEach_served {connKeys : List Key}
    (h : Accounted key stale turn.proxy turn.reactor)
    (hrun : turn.closeEach calls connKeys = .ok turn') :
    Served key stale [] calls turn turn' := by
  induction connKeys generalizing turn with
  | nil =>
      cases hrun
      exact h.served
  | cons connKey connKeys ih =>
      obtain ⟨next, hclose, hrest⟩ := except_bind_ok hrun
      obtain ⟨hnext, hwithout, gone, hdrops⟩ := closeConn_served h hclose
      have hserved := ih hnext hrest
      refine ⟨hserved.sane, hserved.accounted, ?_, ?_⟩
      · intro socket fd hopen
        exact (hserved.opened socket fd hopen).imp_left fun hfd =>
          (hwithout.fdOf_some hfd).2
      · intro reg fd owner data horigin howner
        exact (hdrops.origin_some
          (hserved.foreign reg fd owner data horigin howner)).2

theorem sweep_served {now : Nat}
    (h : Accounted key stale turn.proxy turn.reactor)
    (hrun : turn.sweep calls now = .ok turn') :
    Served key stale [] calls turn turn' :=
  closeEach_served h hrun

/-! ## New connections -/

theorem Accounted.unchanged (h : Accounted key stale proxy reactor)
    (hsane : Sane reactor') (hkey : proxy'.key = proxy.key)
    (hdesc : proxy'.desc = proxy.desc) (hrest : proxy'.rest = proxy.rest)
    (hwf : proxy'.conns.Wf)
    (hget : ∀ other, proxy'.conns.get other = proxy.conns.get other)
    (horigin : ∀ reg, reactor'.origin reg = reactor.origin reg) :
    Accounted key stale proxy' reactor' := by
  refine h.congr hsane hkey hwf ?_ ?_ horigin
  · intro socket
    cases socket <;> simp only [DialDeviceProxy.fdOf, hdesc, hrest, hget]
  · intro socket
    cases socket <;> simp only [DialDeviceProxy.regOf, hget]

structure Starting (connKey : Key) (connection : Connection)
    (proxy proxy' : DialDeviceProxy) : Prop where
  storing : Storing connKey connection proxy proxy'
  fresh : proxy.conns.get connKey = none
  apart : connection.client.fd ≠ connection.device.fd
  unopened : ∀ side socket, proxy.fdOf socket ≠
    some (connection.context side).source.fd

theorem Starting.fdOf_other (h : Starting connKey connection proxy proxy')
    {socket : Socket} (hof : ¬ socket.Of connKey) :
    proxy'.fdOf socket = proxy.fdOf socket := by
  cases socket with
  | desc => rw [DialDeviceProxy.fdOf, DialDeviceProxy.fdOf, h.storing.desc]
  | rest => rw [DialDeviceProxy.fdOf, DialDeviceProxy.fdOf, h.storing.rest]
  | client other =>
      rw [DialDeviceProxy.fdOf, DialDeviceProxy.fdOf, h.storing.get_other hof]
  | device other =>
      rw [DialDeviceProxy.fdOf, DialDeviceProxy.fdOf, h.storing.get_other hof]

theorem Starting.fdOf_some (h : Starting connKey connection proxy proxy')
    {socket : Socket} {fd : Nat} (hopen : proxy'.fdOf socket = some fd) :
    (∃ side, socket = .side connKey side ∧
      fd = (connection.context side).source.fd) ∨
    (¬ socket.Of connKey ∧ proxy.fdOf socket = some fd) := by
  by_cases hof : socket.Of connKey
  · obtain ⟨side, rfl⟩ := Socket.of_iff.mp hof
    rw [DialDeviceProxy.fdOf_side h.storing.get_self] at hopen
    exact .inl ⟨side, rfl, (Option.some.inj hopen).symm⟩
  · rw [h.fdOf_other hof] at hopen
    exact .inr ⟨hof, hopen⟩

theorem Starting.apart_of (h : Starting connKey connection proxy proxy')
    (hproxy : ∀ socket socket' fd, proxy.fdOf socket = some fd →
      proxy.fdOf socket' = some fd → socket = socket')
    (socket socket' : Socket) (fd : Nat)
    (hfd : proxy'.fdOf socket = some fd)
    (hfd' : proxy'.fdOf socket' = some fd) : socket = socket' := by
  rcases h.fdOf_some hfd with ⟨side, rfl, rfl⟩ | ⟨_, hold⟩
  · rcases h.fdOf_some hfd' with ⟨side', rfl, hsame⟩ | ⟨_, hold'⟩
    · cases side <;> cases side' <;>
        first | rfl | exact absurd hsame h.apart | exact absurd hsame.symm h.apart
    · exact absurd hold' (h.unopened side socket')
  · rcases h.fdOf_some hfd' with ⟨side', rfl, rfl⟩ | ⟨_, hold'⟩
    · exact absurd hold (h.unopened side' socket)
    · exact hproxy socket socket' fd hold hold'

theorem Accounted.started {clientReg deviceReg : Key}
    {before : Reactor Service}
    (h : Accounted key stale proxy before)
    (hproxy : Starting connKey connection proxy proxy')
    (hclient : connection.clientReg = some ⟨clientReg⟩)
    (hdevice : connection.deviceReg = some ⟨deviceReg⟩)
    (hsane : Sane reactor)
    (hfresh : before.origin clientReg = none)
    (hfresh' : before.origin deviceReg = none)
    (hne : clientReg ≠ deviceReg)
    (horigin : ∀ reg, reactor.origin reg =
      if reg = deviceReg then
        some ((connection.device.fd : Int), key, keyToU64 connKey)
      else if reg = clientReg then
        some ((connection.client.fd : Int), key, keyToU64 connKey)
      else before.origin reg) :
    Accounted key stale proxy' reactor := by
  have hnew : ∀ side, ∃ reg, (connection.context side).sourceReg = some ⟨reg⟩ ∧
      before.origin reg = none ∧ reactor.origin reg =
        some (((connection.context side).source.fd : Int), key,
          keyToU64 connKey) := by
    intro side
    cases side with
    | clientToDevice =>
        refine ⟨clientReg, hclient, hfresh, ?_⟩
        rw [horigin, if_neg hne, if_pos rfl]
        rfl
    | deviceToClient =>
        refine ⟨deviceReg, hdevice, hfresh', ?_⟩
        rw [horigin, if_pos rfl]
        rfl
  have hkept : ∀ reg, before.origin reg ≠ none →
      reactor.origin reg = before.origin reg := by
    intro reg hlive
    rw [horigin, if_neg, if_neg]
    · rintro rfl
      exact hlive hfresh
    · rintro rfl
      exact hlive hfresh'
  constructor
  · exact hsane
  · rw [hproxy.storing.key_eq]
    exact h.key_eq
  · exact hproxy.storing.wf
  · exact hproxy.apart_of h.apart
  · intro socket reg hreg
    by_cases hof : socket.Of connKey
    · obtain ⟨side, rfl⟩ := Socket.of_iff.mp hof
      obtain ⟨reg', hreg', _, horigin'⟩ := hnew side
      rw [DialDeviceProxy.regOf_side hproxy.storing.get_self, hreg'] at hreg
      cases hreg
      refine ⟨_, DialDeviceProxy.fdOf_side hproxy.storing.get_self side, ?_⟩
      rw [horigin']
      cases side <;> rfl
    · rw [hproxy.storing.regOf_other hof] at hreg
      obtain ⟨fd, hfd, hold⟩ := h.held socket reg hreg
      refine ⟨fd, by rw [hproxy.fdOf_other hof, hfd], ?_⟩
      rw [hkept reg (by rw [hold]; exact Option.some_ne_none _), hold]
  · intro reg fd data hfound
    by_cases hold : before.origin reg = none
    · right
      rw [horigin] at hfound
      split at hfound
      · cases hfound
        rename_i hsame
        refine ⟨.side connKey .deviceToClient, _,
          DialDeviceProxy.fdOf_side hproxy.storing.get_self _, rfl, rfl, .inr ?_⟩
        rw [DialDeviceProxy.regOf_side hproxy.storing.get_self, hsame]
        exact congrArg (Option.map RegKey.key) hdevice
      · split at hfound
        · cases hfound
          rename_i hsame
          refine ⟨.side connKey .clientToDevice, _,
            DialDeviceProxy.fdOf_side hproxy.storing.get_self _, rfl, rfl,
            .inr ?_⟩
          rw [DialDeviceProxy.regOf_side hproxy.storing.get_self, hsame]
          exact congrArg (Option.map RegKey.key) hclient
        · rw [hold] at hfound
          cases hfound
    · rw [hkept reg hold] at hfound
      obtain hstale | ⟨socket, open_, hopen, hfd, hdata, howner⟩ :=
        h.registered reg fd data hfound
      · exact .inl hstale
      · have hof : ¬ socket.Of connKey := by
          intro hof
          obtain ⟨side, rfl⟩ := Socket.of_iff.mp hof
          cases side <;>
            simp [Socket.side, DialDeviceProxy.fdOf, hproxy.fresh] at hopen
        refine .inr ⟨socket, open_, by rw [hproxy.fdOf_other hof, hopen], hfd,
          hdata, ?_⟩
        rw [hproxy.storing.regOf_other hof]
        exact howner
  · intro reg hmem
    obtain ⟨fd, data, hold⟩ := h.lasting reg hmem
    exact ⟨fd, data, by
      rw [hkept reg (by rw [hold]; exact Option.some_ne_none _), hold]⟩
  · intro reg fd owner data hfound hstrange socket open_ hopen
    have hlive : before.origin reg ≠ none := by
      intro hnone
      rcases hstrange with hforeign | hmem
      · rw [horigin] at hfound
        split at hfound
        · cases hfound
          exact hforeign rfl
        · split at hfound
          · cases hfound
            exact hforeign rfl
          · rw [hnone] at hfound
            cases hfound
      · obtain ⟨_, _, hold⟩ := h.lasting reg hmem
        rw [hnone] at hold
        cases hold
    rcases hproxy.fdOf_some hopen with ⟨side, rfl, rfl⟩ | ⟨_, hold⟩
    · -- No other registration is on a descriptor that could be watched.
      obtain ⟨reg', _, hnone, hfound'⟩ := hnew side
      rintro rfl
      rw [origin_distinct hsane hfound hfound'] at hlive
      exact hlive hnone
    · rw [hkept reg hlive] at hfound
      exact h.strange reg fd owner data hfound hstrange socket open_ hold

/-- The kernel opens a descriptor that is not open. -/
structure ProxyCalls.Fresh (calls : ProxyCalls) (proxy : DialDeviceProxy) :
    Prop where
  unopened : ∀ fd, calls.Opens fd → ∀ socket, proxy.fdOf socket ≠ some fd
  apart : ∀ client device connecting, calls.accept = .ok (some client) →
    calls.connect = .ok (device, connecting) → client ≠ device

structure Opening (base turn : Turn) (connKey : Key)
    (connection : Connection) : Prop where
  key_eq : turn.proxy.key = base.proxy.key
  desc : turn.proxy.desc = base.proxy.desc
  rest : turn.proxy.rest = base.proxy.rest
  placed : Arena.Placed base.proxy.conns turn.proxy.conns connKey connection
  clientReg : connection.clientReg = none
  deviceReg : connection.deviceReg = none

theorem Opening.closed {base : Turn}
    (h : Accounted key stale base.proxy base.reactor)
    (hopening : Opening base turn connKey connection) (middle : Turn)
    (hproxy : middle.proxy = turn.proxy) (hsane : Sane middle.reactor)
    (horigin : ∀ reg, middle.reactor.origin reg = base.reactor.origin reg)
    (hrun : middle.closeConn calls connKey = .ok turn') :
    Served key stale [] calls base turn' := by
  obtain ⟨found, hfound, rfl⟩ := closeConn_ok hrun
  have hget := hopening.placed.inserted.get_eq
  rw [hproxy, hget, if_pos rfl] at hfound
  cases hfound
  have hteardown : connection.teardown calls.removed middle.reactor =
      middle.reactor := by
    simp only [Connection.teardown, hopening.clientReg, hopening.deviceReg]
  have hlive : turn.proxy.conns.get connKey = some connection := by
    rw [hget, if_pos rfl]
  have hsame : ∀ other, (turn.proxy.conns.remove connKey).1.get other =
      base.proxy.conns.get other := by
    intro other
    rw [Arena.get_remove hlive, hget]
    by_cases hother : other = connKey
    · rw [if_pos hother, hother, hopening.placed.inserted.fresh]
    · rw [if_neg hother, if_neg hother]
  rw [hteardown, hproxy]
  have haccounted : Accounted key stale { turn.proxy with
      conns := (turn.proxy.conns.remove connKey).1 } middle.reactor :=
    h.unchanged hsane hopening.key_eq hopening.desc hopening.rest
      (Arena.wf_remove hopening.placed.wf hlive) hsame horigin
  refine ⟨hsane, fun _ => haccounted.nothing_leaked, ?_, ?_⟩
  · intro socket fd hopen
    left
    rw [← hopen]
    cases socket <;>
      simp only [DialDeviceProxy.fdOf, hopening.desc, hopening.rest, hsame]
  · intro reg fd owner data hfound _
    rw [← horigin]
    exact hfound

theorem watchBoth_served {base : Turn} {client device : TcpSocket}
    (h : Accounted key stale base.proxy base.reactor)
    (hopening : Opening base turn connKey connection)
    (hreactor : turn.reactor = base.reactor)
    (hclient : connection.client = client)
    (hdevice : connection.device = device)
    (hfresh : calls.Fresh base.proxy)
    (haccept : calls.accept = .ok (some client.fd))
    (hconnect : ∃ connecting, calls.connect = .ok (device.fd, connecting))
    (hrun : turn.watchBoth calls key connKey client device = .ok turn') :
    Served key stale [] calls base turn' := by
  have hsane : Sane turn.reactor := by
    rw [hreactor]
    exact h.sane
  obtain ⟨⟨first, clientReg⟩, hwatch, hrun⟩ := except_bind_ok hrun
  obtain hpanic | ⟨_, _, hwatch', hfirst, _, hwatched⟩ :=
    watch_total hsane key client.fd (keyToU64 connKey) calls.poll
  · rw [hpanic] at hwatch
    cases hwatch
  rw [hwatch'] at hwatch
  cases hwatch
  cases clientReg with
  | error error =>
      cases hwatched with
      | failed _ hunchanged =>
          refine hopening.closed h { turn with reactor := first } rfl hfirst
            ?_ hrun
          intro reg
          rw [← hreactor]
          exact hunchanged.origin reg
  | ok clientReg =>
      obtain ⟨hnew, hadded⟩ := hwatched.origin
      rw [hreactor] at hnew hadded
      obtain ⟨⟨second, deviceReg⟩, hwatch, hrun⟩ := except_bind_ok hrun
      obtain hpanic | ⟨_, _, hwatch', hsecond, _, hwatched'⟩ :=
        watch_total hfirst key device.fd (keyToU64 connKey) calls.poll
      · rw [hpanic] at hwatch
        cases hwatch
      rw [hwatch'] at hwatch
      cases hwatch
      cases deviceReg with
      | error error =>
          cases hwatched' with
          | failed _ hunchanged =>
              have hdrops := unwatch_drops hsecond clientReg calls.removed
              refine hopening.closed h { turn with
                reactor := (second.unwatch clientReg calls.removed).1 } rfl
                hdrops.sane ?_ hrun
              intro reg
              simp only
              rw [hdrops.origin, hunchanged.origin, hadded]
              by_cases hsame : reg = clientReg
              · rw [if_pos (List.mem_singleton.mpr hsame), hsame, hnew]
              · rw [if_neg (hsame ∘ List.mem_singleton.mp), if_neg hsame]
      | ok deviceReg =>
          obtain ⟨hnew', hadded'⟩ := hwatched'.origin
          obtain ⟨found, hfound, hrun⟩ := except_bind_ok hrun
          cases hrun
          have hget := hopening.placed.inserted.get_eq
          have hlive : turn.proxy.conns.get connKey = some connection := by
            rw [hget, if_pos rfl]
          have hfound := orPanic_ok hfound
          rw [hlive] at hfound
          cases hfound
          have hne : clientReg ≠ deviceReg := by
            rintro rfl
            rw [hadded, if_pos rfl] at hnew'
            cases hnew'
          have hnew'' : base.reactor.origin deviceReg = none := by
            rw [← hnew', hadded, if_neg hne.symm]
          have hdrops :=
            setWriteInterest_drops hsecond deviceReg true calls.armed
          let attached := connection.attachRegistrations ⟨clientReg⟩ ⟨deviceReg⟩
          have hstarting : Starting connKey attached base.proxy
              { turn.proxy with
                conns := turn.proxy.conns.set connKey attached } := by
            refine ⟨⟨hopening.key_eq, hopening.desc, hopening.rest,
              Arena.wf_set hopening.placed.wf connKey attached, ?_⟩,
              hopening.placed.inserted.fresh, ?_, ?_⟩
            · intro other
              rw [Arena.get_set hlive, hget]
              split <;> rfl
            · obtain ⟨connecting, hconnect⟩ := hconnect
              have hapart := hfresh.apart _ _ connecting haccept hconnect
              rw [← hclient, ← hdevice] at hapart
              exact hapart
            · intro side
              cases side with
              | clientToDevice =>
                  refine hfresh.unopened _ (.inl ?_)
                  rw [haccept, ← hclient]
                  rfl
              | deviceToClient =>
                  refine hfresh.unopened _ (.inr ?_)
                  obtain ⟨connecting, hconnect⟩ := hconnect
                  refine ⟨connecting, ?_⟩
                  rw [hconnect, ← hdevice]
                  rfl
          have haccounted := h.started hstarting rfl rfl hdrops.sane hnew hnew''
            hne (by
              intro reg
              rw [hdrops.origin, if_neg List.not_mem_nil, hadded', hadded,
                ← hclient, ← hdevice]
              rfl)
          refine ⟨hdrops.sane, fun _ => haccounted.nothing_leaked, ?_, ?_⟩
          · intro socket fd hopen
            rcases hstarting.fdOf_some hopen with ⟨side, _, rfl⟩ | ⟨_, hold⟩
            · right
              cases side with
              | clientToDevice =>
                  refine .inl ?_
                  rw [haccept, ← hclient]
                  rfl
              | deviceToClient =>
                  obtain ⟨connecting, hconnect⟩ := hconnect
                  refine .inr ⟨connecting, ?_⟩
                  rw [hconnect, ← hdevice]
                  rfl
            · exact .inl hold
          · intro reg fd owner data hfound howner
            simp only at hfound
            rw [hdrops.origin, if_neg List.not_mem_nil, hadded', hadded]
              at hfound
            split at hfound
            · cases hfound
              exact absurd rfl howner
            · split at hfound
              · cases hfound
                exact absurd rfl howner
              · exact hfound

theorem startConnection_served {client : TcpSocket}
    {deviceEndpoint ownListener : SocketAddrV4}
    (h : Accounted key stale turn.proxy turn.reactor)
    (hfresh : calls.Fresh turn.proxy)
    (haccept : calls.accept = .ok (some client.fd))
    (hrun : turn.startConnection calls client deviceEndpoint ownListener =
      .ok turn') :
    Served key stale [] calls turn turn' := by
  obtain ⟨own, hown, hrun⟩ := except_bind_ok hrun
  have hkey : own = key := by
    have hown := orPanic_ok hown
    rw [h.key_eq] at hown
    exact (Option.some.inj hown).symm
  subst hkey
  cases hconnect : calls.connect with
  | error error =>
      simp only [hconnect] at hrun
      cases hrun
      exact ⟨h.sane, fun _ => h.nothing_leaked, fun _ _ hopen => .inl hopen,
        fun _ _ _ _ hfound _ => hfound⟩
  | ok answer =>
      obtain ⟨fd, connecting⟩ := answer
      simp only [hconnect] at hrun
      obtain ⟨⟨conns, connKey⟩, hinsert, hrun⟩ := except_bind_ok hrun
      rcases Arena.insertFrom_total h.wf (fun _ =>
          Connection.new client ⟨fd, connecting⟩ deviceEndpoint
            turn.proxy.rest.localAddr ownListener turn.world.now) with
        ⟨_, _, hinsert', hplaced⟩ | hpanic
      · rw [Arena.insert, Turn.observe, hinsert'] at hinsert
        cases hinsert
        have hopening : Opening turn
            { turn.observe (.dialed deviceEndpoint) with
              proxy := { turn.proxy with conns := conns } } connKey
            (Connection.new client ⟨fd, connecting⟩ deviceEndpoint
              turn.proxy.rest.localAddr ownListener turn.world.now) :=
          ⟨rfl, rfl, rfl, hplaced, rfl, rfl⟩
        exact watchBoth_served h hopening rfl rfl rfl hfresh haccept
          ⟨connecting, hconnect⟩ hrun
      · rw [Arena.insert, Turn.observe, hpanic] at hinsert
        cases hinsert

theorem acceptClient_served {client : Option TcpSocket}
    (h : Accounted key stale turn.proxy turn.reactor)
    (hrun : turn.acceptClient calls = .ok (turn', client)) :
    (client = none ∧ Served key stale [] calls turn turn') ∨
      ∃ fd, client = some ⟨fd, false⟩ ∧ turn' = turn ∧
        calls.accept = .ok (some fd) := by
  unfold Turn.acceptClient at hrun
  cases haccept : calls.accept with
  | error error =>
      simp only [haccept] at hrun
      obtain ⟨own, hown, hrun⟩ := except_bind_ok hrun
      have hkey : own = key := by
        have hown := orPanic_ok hown
        rw [h.key_eq] at hown
        exact (Option.some.inj hown).symm
      subst hkey
      cases hrun
      left
      refine ⟨rfl, ?_⟩
      cases hentry : turn.reactor.handlers.get own with
      | none =>
          simp only [unregister_none calls.removed hentry]
          exact h.served
      | some entry =>
          obtain ⟨after, result, hunregister, hsane, _, hgone⟩ :=
            unregister_some h.sane hentry calls.removed
          simp only [hunregister]
          refine ⟨hsane, ?_, fun _ _ hopen => .inl hopen, ?_⟩
          · intro hlive
            rw [hgone.handlers, if_pos rfl] at hlive
            exact absurd rfl hlive
          · intro reg fd owner data hfound _
            obtain ⟨found, hfound, hsame⟩ := origin_eq_some.mp hfound
            rw [hgone.registrations] at hfound
            split at hfound
            · cases hfound
            · exact origin_eq_some.mpr ⟨found, hfound, hsame⟩
  | ok accepted =>
      cases accepted with
      | none =>
          simp only [haccept] at hrun
          cases hrun
          exact .inl ⟨rfl, h.served⟩
      | some fd =>
          simp only [haccept] at hrun
          split at hrun
          · cases hrun
            exact .inl ⟨rfl, h.served⟩
          · cases hrun
            exact .inr ⟨fd, rfl, rfl, rfl⟩

theorem acceptDesc_served (h : Accounted key stale turn.proxy turn.reactor)
    (hfresh : calls.Fresh turn.proxy)
    (hrun : turn.acceptDesc calls = .ok turn') :
    Served key stale [] calls turn turn' := by
  obtain ⟨⟨next, client⟩, haccept, hstart⟩ := except_bind_ok hrun
  rcases acceptClient_served h haccept with
    ⟨rfl, hserved⟩ | ⟨fd, rfl, rfl, haccepted⟩
  · cases hstart
    exact hserved
  · exact startConnection_served h hfresh haccepted hstart

theorem acceptRest_served (h : Accounted key stale turn.proxy turn.reactor)
    (hfresh : calls.Fresh turn.proxy)
    (hrun : turn.acceptRest calls = .ok turn') :
    Served key stale [] calls turn turn' := by
  obtain ⟨⟨next, client⟩, haccept, hstart⟩ := except_bind_ok hrun
  rcases acceptClient_served h haccept with
    ⟨rfl, hserved⟩ | ⟨fd, rfl, rfl, haccepted⟩
  · cases hstart
    exact hserved
  · cases hrest : next.proxy.restEndpoint with
    | none =>
        simp only [hrest] at hstart
        cases hstart
        exact h.served
    | some device =>
        simp only [hrest] at hstart
        exact startConnection_served h hfresh haccepted hstart

def DialDeviceProxy.Leaks (proxy : DialDeviceProxy) (world : World) :
    ProxyTurn → Prop
  | .readable event =>
      event.fd ≠ proxy.desc.fd ∧ event.fd ≠ proxy.rest.fd ∧
        proxy.DisarmRefused world (keyFromU64 event.userData) event.fd.toNat
  | .writable _ | .deadline _ => False

theorem take_served {taken : ProxyTurn}
    (h : Accounted key stale turn.proxy turn.reactor)
    (hfresh : calls.Fresh turn.proxy)
    (hrun : taken.take calls turn = .ok turn') :
    ∃ leaked, Served key stale leaked calls turn turn' ∧
      (¬ turn.proxy.Leaks turn.world taken → leaked = []) := by
  cases taken with
  | readable event =>
      simp only [ProxyTurn.take, Turn.onReadable] at hrun
      split at hrun
      · exact ⟨[], acceptDesc_served h hfresh hrun, fun _ => rfl⟩
      · rename_i hdesc
        split at hrun
        · exact ⟨[], acceptRest_served h hfresh hrun, fun _ => rfl⟩
        · rename_i hrest
          obtain ⟨leaked, hserved, hnone⟩ :=
            onConnectionReadable_served h hrun
          exact ⟨leaked, hserved, fun hspared =>
            hnone fun hrefused => hspared ⟨hdesc, hrest, hrefused⟩⟩
  | writable event =>
      exact ⟨[], onConnectionWritable_served h hrun, fun _ => rfl⟩
  | deadline now => exact ⟨[], sweep_served h hrun, fun _ => rfl⟩

end Turns

end Netflector.Reflector.Dial
