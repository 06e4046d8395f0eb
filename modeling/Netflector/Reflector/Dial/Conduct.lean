import Netflector.Reactor.Population
import Netflector.Reflector.Dial.Serving

/-!
# What a proxy's turn leaves alone

A turn changes the connections of its proxy and the endpoint it learned, sheds
the proxy at most, and leaves every other handler where it is.
-/

namespace Netflector.Reflector.Dial

open Netflector.Foundation
open Netflector.Net
open Netflector.Reactor
open Netflector.Dispatch

/-- The same proxy, but for its connections and what it learned. -/
def SameProxy (proxy proxy' : DialDeviceProxy) : Prop :=
  proxy' = { proxy with
    restEndpoint := proxy'.restEndpoint, conns := proxy'.conns }

theorem SameProxy.refl (proxy : DialDeviceProxy) : SameProxy proxy proxy :=
  rfl

theorem SameProxy.trans {proxy between proxy' : DialDeviceProxy}
    (h : SameProxy proxy between) (h' : SameProxy between proxy') :
    SameProxy proxy proxy' := by
  rw [SameProxy] at *
  rw [h', h]

section Same

variable {proxy proxy' : DialDeviceProxy}

theorem SameProxy.desc (h : SameProxy proxy proxy') :
    proxy'.desc = proxy.desc := by
  rw [SameProxy] at h
  rw [h]

theorem SameProxy.rest (h : SameProxy proxy proxy') :
    proxy'.rest = proxy.rest := by
  rw [SameProxy] at h
  rw [h]

theorem SameProxy.descEndpoint (h : SameProxy proxy proxy') :
    proxy'.descEndpoint = proxy.descEndpoint := by
  rw [SameProxy] at h
  rw [h]

end Same

structure Behaves (key : Key) (turn turn' : Turn) : Prop where
  proxy : SameProxy turn.proxy turn'.proxy
  sane : Sane turn'.reactor
  others : ∀ other, other ≠ key →
    turn'.reactor.standing other = turn.reactor.standing other
  own : turn'.reactor.standing key = turn.reactor.standing key ∨
    turn'.reactor.standing key = none

section Turns

variable {key connKey : Key} {calls : ProxyCalls} {turn between turn' : Turn}
  {connection connection' : Connection}

theorem Behaves.refl (h : Sane turn.reactor) : Behaves key turn turn :=
  ⟨.refl _, h, fun _ _ => rfl, .inl rfl⟩

theorem Behaves.trans (h : Behaves key turn between)
    (h' : Behaves key between turn') : Behaves key turn turn' := by
  refine ⟨h.proxy.trans h'.proxy, h'.sane, ?_, ?_⟩
  · intro other hother
    rw [h'.others other hother, h.others other hother]
  · rcases h'.own with hsame | hgone
    · rw [hsame]
      exact h.own
    · exact .inr hgone

theorem Behaves.of_sameHandlers (hproxy : SameProxy turn.proxy turn'.proxy)
    (h : SameHandlers turn.reactor turn'.reactor) : Behaves key turn turn' :=
  ⟨hproxy, h.sane, fun other _ => h.standing other, .inl (h.standing key)⟩

theorem teardown_sameHandlers {reactor : Reactor Service} (h : Sane reactor)
    (connection : Connection) (removed : Reactor.Poll) :
    SameHandlers reactor (connection.teardown removed reactor) := by
  unfold Connection.teardown
  cases connection.clientReg with
  | none =>
      cases connection.deviceReg with
      | none => exact .refl h
      | some device => exact unwatch_sameHandlers h device.key removed
  | some client =>
      have hclient := unwatch_sameHandlers h client.key removed
      cases connection.deviceReg with
      | none => exact hclient
      | some device =>
          exact hclient.trans
            (unwatch_sameHandlers hclient.sane device.key removed)

theorem applyEvent_sameHandlers {reactor : Reactor Service} (h : Sane reactor)
    (event : Event) : SameHandlers reactor (applyEvent reactor event) := by
  unfold applyEvent
  split
  · exact setReadInterest_sameHandlers h _ _ _
  · exact setWriteInterest_sameHandlers h _ _ _
  · exact unwatch_sameHandlers h _ _
  · exact .refl h

theorem applyEvents_sameHandlers {reactor : Reactor Service}
    (h : Sane reactor) (events : List Event) :
    SameHandlers reactor (applyEvents reactor events) := by
  induction events generalizing reactor with
  | nil => exact .refl h
  | cons event events ih =>
      have hfirst := applyEvent_sameHandlers h event
      exact hfirst.trans (ih hfirst.sane)

theorem closeConn_behaves (h : Sane turn.reactor)
    (hrun : turn.closeConn calls connKey = .ok turn') :
    Behaves key turn turn' := by
  obtain ⟨connection, _, rfl⟩ := closeConn_ok hrun
  exact .of_sameHandlers rfl (teardown_sameHandlers h connection calls.removed)

theorem onEdge_behaves {fd : Nat} {edge : World →
      Except Panic (Connection × World × Outcome)} {outcome : Outcome}
    (h : Sane turn.reactor)
    (hrun : turn.onEdge connKey fd connection edge =
      .ok (turn', connection', outcome)) : Behaves key turn turn' := by
  obtain ⟨world, _, hproxy, hreactor⟩ := onEdge_ok hrun
  refine .of_sameHandlers ?_ ?_
  · rw [SameProxy, hproxy]
  · rw [hreactor]
    exact applyEvents_sameHandlers h _

theorem adoptRestEndpoint_behaves (h : Sane turn.reactor) (fd : Nat)
    (endpoint : SocketAddrV4) :
    Behaves key turn (turn.adoptRestEndpoint calls fd endpoint) := by
  obtain ⟨learned, events, hadopt⟩ :=
    adoptRestEndpoint_eq calls turn fd endpoint
  rw [hadopt]
  exact .of_sameHandlers rfl (.refl h)

theorem onConnectionReadable_behaves {fd : Nat} (h : Sane turn.reactor)
    (hrun : turn.onConnectionReadable calls connKey fd = .ok turn') :
    Behaves key turn turn' := by
  unfold Turn.onConnectionReadable at hrun
  cases hconn : turn.proxy.conns.get connKey with
  | none =>
      simp only [hconn] at hrun
      cases hrun
      exact .refl h
  | some connection =>
      simp only [hconn] at hrun
      obtain ⟨⟨middle, after, outcome⟩, hedge, hrun⟩ := except_bind_ok hrun
      have hmiddle : Behaves key turn middle := onEdge_behaves h hedge
      have hstored : Behaves key turn
          (middle.storeConn connKey { after with learnedRest := none }) :=
        hmiddle.trans (.of_sameHandlers rfl (.refl hmiddle.sane))
      have hsettled : ∀ {settled : Turn}, Behaves key turn settled →
          (if outcome = .close then settled.closeConn calls connKey
            else .ok settled) = .ok turn' → Behaves key turn turn' := by
        intro settled hbehaves hrun
        split at hrun
        · exact hbehaves.trans (closeConn_behaves hbehaves.sane hrun)
        · cases hrun
          exact hbehaves
      dsimp only at hrun
      cases hlearned : after.learnedRest with
      | none =>
          simp only [hlearned] at hrun
          exact hsettled hstored hrun
      | some endpoint =>
          simp only [hlearned] at hrun
          exact hsettled (hstored.trans
            (adoptRestEndpoint_behaves hstored.sane fd endpoint)) hrun

theorem onConnectionWritable_behaves {fd : Nat} (h : Sane turn.reactor)
    (hrun : turn.onConnectionWritable calls connKey fd = .ok turn') :
    Behaves key turn turn' := by
  unfold Turn.onConnectionWritable at hrun
  cases hconn : turn.proxy.conns.get connKey with
  | none =>
      simp only [hconn] at hrun
      cases hrun
      exact .refl h
  | some connection =>
      simp only [hconn] at hrun
      obtain ⟨⟨middle, after, outcome⟩, hedge, hrun⟩ := except_bind_ok hrun
      have hmiddle : Behaves key turn middle := onEdge_behaves h hedge
      dsimp only at hrun
      split at hrun
      · exact hmiddle.trans (closeConn_behaves hmiddle.sane hrun)
      · cases hrun
        exact hmiddle

theorem closeEach_behaves {connKeys : List Key} (h : Sane turn.reactor)
    (hrun : turn.closeEach calls connKeys = .ok turn') :
    Behaves key turn turn' := by
  induction connKeys generalizing turn with
  | nil =>
      cases hrun
      exact .refl h
  | cons connKey connKeys ih =>
      obtain ⟨middle, hclose, hrest⟩ := except_bind_ok hrun
      have hmiddle : Behaves key turn middle := closeConn_behaves h hclose
      exact hmiddle.trans (ih hmiddle.sane hrest)

theorem watchBoth_behaves {own : Key} {client device : TcpSocket}
    (h : Sane turn.reactor)
    (hrun : turn.watchBoth calls own connKey client device = .ok turn') :
    Behaves key turn turn' := by
  obtain ⟨⟨first, clientReg⟩, hfirst, hrun⟩ := except_bind_ok hrun
  have hclient := watch_sameHandlers h hfirst
  have hmiddle : Behaves key turn { turn with reactor := first } :=
    .of_sameHandlers rfl hclient
  cases clientReg with
  | error error =>
      exact hmiddle.trans (closeConn_behaves hmiddle.sane hrun)
  | ok clientReg =>
      obtain ⟨⟨second, deviceReg⟩, hsecond, hrun⟩ := except_bind_ok hrun
      have hdevice := watch_sameHandlers hclient.sane hsecond
      have hboth := hclient.trans hdevice
      cases deviceReg with
      | error error =>
          have hshed := hboth.trans
            (unwatch_sameHandlers hboth.sane clientReg calls.removed)
          have hundone : Behaves key turn { turn with
              reactor := (second.unwatch clientReg calls.removed).1 } :=
            .of_sameHandlers rfl hshed
          exact hundone.trans (closeConn_behaves hundone.sane hrun)
      | ok deviceReg =>
          obtain ⟨connection, _, hrun⟩ := except_bind_ok hrun
          cases hrun
          exact .of_sameHandlers rfl (hboth.trans
            (setWriteInterest_sameHandlers hboth.sane deviceReg true
              calls.armed))

theorem startConnection_behaves {client : TcpSocket}
    {deviceEndpoint ownListener : SocketAddrV4} (h : Sane turn.reactor)
    (hrun : turn.startConnection calls client deviceEndpoint ownListener =
      .ok turn') : Behaves key turn turn' := by
  obtain ⟨own, _, hrun⟩ := except_bind_ok hrun
  have hobserved : Behaves key turn
      (turn.observe (.dialed deviceEndpoint)) :=
    .of_sameHandlers rfl (.refl h)
  cases hconnect : calls.connect with
  | error error =>
      simp only [hconnect] at hrun
      cases hrun
      exact hobserved
  | ok answer =>
      simp only [hconnect] at hrun
      obtain ⟨⟨conns, connKey⟩, _, hrun⟩ := except_bind_ok hrun
      have hinserted : Behaves key turn
          { turn.observe (.dialed deviceEndpoint) with
            proxy := { turn.proxy with conns := conns } } :=
        .of_sameHandlers rfl (.refl h)
      exact hinserted.trans (watchBoth_behaves hinserted.sane hrun)

theorem acceptClient_behaves {client : Option TcpSocket}
    (h : Sane turn.reactor) (hkey : turn.proxy.key = some key)
    (hrun : turn.acceptClient calls = .ok (turn', client)) :
    Behaves key turn turn' := by
  unfold Turn.acceptClient at hrun
  split at hrun
  · cases hrun
    exact .refl h
  · obtain ⟨own, hown, hrun⟩ := except_bind_ok hrun
    have hown := orPanic_ok hown
    rw [hkey] at hown
    cases hown
    cases hrun
    have hleaves := unregister_leaves h key calls.removed
    refine ⟨rfl, hleaves.sane, ?_, .inr ?_⟩
    · intro other hother
      exact (hleaves.standing other).trans (if_neg hother)
    · exact (hleaves.standing key).trans (if_pos rfl)
  · split at hrun
    · cases hrun
      exact .refl h
    · cases hrun
      exact .refl h

theorem acceptDesc_behaves (h : Sane turn.reactor)
    (hkey : turn.proxy.key = some key)
    (hrun : turn.acceptDesc calls = .ok turn') : Behaves key turn turn' := by
  obtain ⟨⟨next, client⟩, haccept, hstart⟩ := except_bind_ok hrun
  have hnext := acceptClient_behaves h hkey haccept
  cases client with
  | none =>
      cases hstart
      exact hnext
  | some client => exact hnext.trans (startConnection_behaves hnext.sane hstart)

theorem acceptRest_behaves (h : Sane turn.reactor)
    (hkey : turn.proxy.key = some key)
    (hrun : turn.acceptRest calls = .ok turn') : Behaves key turn turn' := by
  obtain ⟨⟨next, client⟩, haccept, hstart⟩ := except_bind_ok hrun
  have hnext := acceptClient_behaves h hkey haccept
  dsimp only at hstart
  split at hstart
  · exact hnext.trans (startConnection_behaves hnext.sane hstart)
  · cases hstart
    exact hnext

theorem take_behaves {taken : ProxyTurn} (h : Sane turn.reactor)
    (hkey : turn.proxy.key = some key)
    (hrun : taken.take calls turn = .ok turn') : Behaves key turn turn' := by
  cases taken with
  | readable event =>
      simp only [ProxyTurn.take, Turn.onReadable] at hrun
      split at hrun
      · exact acceptDesc_behaves h hkey hrun
      · split at hrun
        · exact acceptRest_behaves h hkey hrun
        · exact onConnectionReadable_behaves h hrun
  | writable event => exact onConnectionWritable_behaves h hrun
  | deadline now => exact closeEach_behaves h hrun

end Turns

end Netflector.Reflector.Dial
