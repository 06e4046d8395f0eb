import Netflector.Reflector.Dial.Conduct
import Netflector.Reflector.Dial.Living

/-!
# What a turn makes of the pool

Each connection of the pool lives on behind a turn, closed ones aside, and one
may begin.  The listeners stay without write interest, so no writable event is
ever theirs.
-/

namespace Netflector.Reflector.Dial

open Netflector.Foundation
open Netflector.Net
open Netflector.Net.Http
open Netflector.Reactor
open Netflector.Dispatch

/-- What is armed for writing is no listener. -/
def Deaf (key : Key) (proxy : DialDeviceProxy) (reactor : Reactor Service) :
    Prop :=
  ∀ reg found, reactor.registrations.get reg = some found →
    found.handlerKey = key → found.writeInterest = true →
    found.fd ≠ (proxy.desc.fd : Int) ∧ found.fd ≠ (proxy.rest.fd : Int)

theorem Deaf.calm {key : Key} {proxy : DialDeviceProxy} {regs : List Key}
    {before after : Reactor Service} (h : Deaf key proxy before)
    (hcalm : Calm regs before after)
    (hregs : ∀ reg ∈ regs, ∀ found, after.registrations.get reg = some found →
      found.fd ≠ (proxy.desc.fd : Int) ∧ found.fd ≠ (proxy.rest.fd : Int)) :
    Deaf key proxy after := by
  intro reg found hfound hkey harmed
  rcases hcalm reg found hfound with hmem | hold
  · exact hregs reg hmem found hfound
  · exact h reg found hold hkey harmed

/-- What a turn that drives no edge makes of its proxy: a connection was there
before, or it has just begun. -/
structure Passes (key : Key) (turn turn' : Turn) : Prop where
  proxy : SameProxy turn.proxy turn'.proxy
  wf : turn'.proxy.conns.Wf
  rest : turn'.proxy.restEndpoint = turn.proxy.restEndpoint
  world : turn'.world = turn.world
  conns : ∀ connKey connection,
    turn'.proxy.conns.get connKey = some connection →
    turn.proxy.conns.get connKey = some connection ∨
      (turn.proxy.conns.get connKey = none ∧
        ∃ setup : Setup, connection = setup.connection)
  deaf : Deaf key turn.proxy turn.reactor → Deaf key turn'.proxy turn'.reactor

structure Sheds (key : Key) (turn turn' : Turn) : Prop
    extends Passes key turn turn' where
  kept : ∀ connKey connection,
    turn'.proxy.conns.get connKey = some connection →
    turn.proxy.conns.get connKey = some connection
  events : turn'.events = turn.events

section Turns

variable {key connKey : Key} {stale : List Key} {calls : ProxyCalls}
  {turn between turn' : Turn} {connection connection' : Connection}

theorem Sheds.refl (key : Key) (hwf : turn.proxy.conns.Wf) :
    Sheds key turn turn :=
  ⟨⟨.refl _, hwf, rfl, rfl, fun _ _ hconn => .inl hconn, fun h => h⟩,
    fun _ _ hconn => hconn, rfl⟩

theorem Sheds.trans (h : Sheds key turn between)
    (h' : Sheds key between turn') : Sheds key turn turn' := by
  have hkept : ∀ other found, turn'.proxy.conns.get other = some found →
      turn.proxy.conns.get other = some found := by
    intro other found hfound
    exact h.kept other found (h'.kept other found hfound)
  refine ⟨⟨h.proxy.trans h'.proxy, h'.wf, ?_, ?_, ?_, ?_⟩, hkept, ?_⟩
  · rw [h'.rest, h.rest]
  · rw [h'.world, h.world]
  · exact fun other found hfound => .inl (hkept other found hfound)
  · exact fun hdeaf => h'.deaf (h.deaf hdeaf)
  · rw [h'.events, h.events]

theorem Sheds.few (h : Sheds key turn turn') (hwf : turn.proxy.conns.Wf) :
    turn'.proxy.conns.iter.length ≤ turn.proxy.conns.iter.length := by
  refine Arena.iter_length_le hwf h.wf [] ?_
  intro other hlive
  obtain ⟨found, hfound⟩ := Option.ne_none_iff_exists'.mp hlive
  left
  rw [h.kept other found hfound]
  exact Option.some_ne_none _

/-! ## Closing -/

theorem teardown_calm {reactor : Reactor Service} (h : Sane reactor)
    (connection : Connection) (removed : Reactor.Poll) :
    Calm [] reactor (connection.teardown removed reactor) := by
  unfold Connection.teardown
  cases connection.clientReg with
  | none =>
      cases connection.deviceReg with
      | none => exact .refl _ _
      | some device => exact unwatch_calm h device.key removed []
  | some client =>
      have hclient := unwatch_calm h client.key removed []
      cases connection.deviceReg with
      | none => exact hclient
      | some device =>
          have hsane := (unwatch_sameHandlers h client.key removed).sane
          exact hclient.trans (unwatch_calm hsane device.key removed [])

theorem closeConn_sheds (key : Key) (calls : ProxyCalls)
    (hsane : Sane turn.reactor)
    (hwf : turn.proxy.conns.Wf)
    (hconn : turn.proxy.conns.get connKey = some connection) :
    ∃ turn', turn.closeConn calls connKey = .ok turn' ∧
      Sheds key turn turn' ∧
      (∀ other, turn'.proxy.conns.get other =
        if other = connKey then none else turn.proxy.conns.get other) ∧
      Sane turn'.reactor := by
  have hget := Arena.get_remove hconn
  have hkept : ∀ other found,
      (turn.proxy.conns.remove connKey).1.get other = some found →
      turn.proxy.conns.get other = some found := by
    intro other found hfound
    rw [hget] at hfound
    split at hfound
    · cases hfound
    · exact hfound
  refine ⟨{ turn with
    proxy := { turn.proxy with
      conns := (turn.proxy.conns.remove connKey).1 }
    reactor := connection.teardown calls.removed turn.reactor }, ?_,
    ⟨⟨rfl, Arena.wf_remove hwf hconn, rfl, rfl, ?_, ?_⟩, hkept, rfl⟩, hget,
    (teardown_sameHandlers hsane connection calls.removed).sane⟩
  · unfold Turn.closeConn
    simp only [Arena.remove_some hconn]
  · exact fun other found hfound => .inl (hkept other found hfound)
  · intro hdeaf
    have hcalm := teardown_calm hsane connection calls.removed
    exact Deaf.calm hdeaf hcalm fun reg hmem =>
      absurd hmem List.not_mem_nil

theorem closeEach_sheds {connKeys : List Key} (hsane : Sane turn.reactor)
    (hwf : turn.proxy.conns.Wf) (hnodup : connKeys.Nodup)
    (hlive : ∀ other ∈ connKeys, turn.proxy.conns.get other ≠ none) :
    ∃ turn', turn.closeEach calls connKeys = .ok turn' ∧
      Sheds key turn turn' := by
  induction connKeys generalizing turn with
  | nil => exact ⟨turn, rfl, .refl key hwf⟩
  | cons first rest ih =>
      obtain ⟨connection, hconn⟩ :=
        Option.ne_none_iff_exists'.mp (hlive first List.mem_cons_self)
      obtain ⟨middle, hclose, hsheds, hget, hsane'⟩ :=
        closeConn_sheds key calls hsane hwf hconn
      obtain ⟨hnot, hnodup⟩ := List.nodup_cons.mp hnodup
      obtain ⟨turn', hrest, hsheds'⟩ := ih hsane' hsheds.wf hnodup (by
        intro other hmem
        rw [hget, if_neg]
        · exact hlive other (List.mem_cons_of_mem _ hmem)
        · rintro rfl
          exact hnot hmem)
      refine ⟨turn', ?_, hsheds.trans hsheds'⟩
      rw [Turn.closeEach, hclose]
      exact hrest

theorem sweep_sheds (h : Accounted key stale turn.proxy turn.reactor)
    (now : Nat) :
    ∃ turn', turn.sweep calls now = .ok turn' ∧ Sheds key turn turn' := by
  refine closeEach_sheds h.sane h.wf ?_ ?_
  · exact (Arena.iter_keys_nodup h.wf).sublist
      ((List.filter_sublist).map Prod.fst)
  · intro other hmem
    obtain ⟨⟨_, connection⟩, hitem, rfl⟩ := List.mem_map.mp hmem
    have hlive := (Arena.mem_iter h.wf).mp (List.mem_filter.mp hitem).1
    rw [hlive]
    exact Option.some_ne_none _

/-! ## Beginning -/

theorem Deaf.sameProxy {proxy proxy' : DialDeviceProxy}
    {reactor : Reactor Service} (h : Deaf key proxy reactor)
    (hsame : SameProxy proxy proxy') : Deaf key proxy' reactor := by
  rw [SameProxy] at hsame
  rw [hsame]
  exact h

structure Inserting (base turn : Turn) (connKey : Key)
    (connection : Connection) : Prop where
  proxy : SameProxy base.proxy turn.proxy
  rest : turn.proxy.restEndpoint = base.proxy.restEndpoint
  world : turn.world = base.world
  placed : Arena.Placed base.proxy.conns turn.proxy.conns connKey connection

/-- What a turn that may begin a connection does: it dials `dialed`, and at
most one connection begins. -/
structure Begins (key : Key) (turn turn' : Turn)
    (dialed : List SocketAddrV4) : Prop extends Passes key turn turn' where
  events : turn'.events = turn.events ++ dialed.map .dialed
  few : turn'.proxy.conns.iter.length ≤ turn.proxy.conns.iter.length + 1

theorem Inserting.few {base : Turn}
    (h : Inserting base turn connKey connection) (hwf : base.proxy.conns.Wf)
    (hwf' : turn'.proxy.conns.Wf)
    (hlive : ∀ other, turn'.proxy.conns.get other ≠ none →
      turn.proxy.conns.get other ≠ none) :
    turn'.proxy.conns.iter.length ≤ base.proxy.conns.iter.length + 1 := by
  refine Arena.iter_length_le hwf hwf' [connKey] ?_
  intro other hsome
  have hold := hlive other hsome
  rw [h.placed.inserted.get_eq] at hold
  by_cases hother : other = connKey
  · exact .inr (List.mem_singleton.mpr hother)
  · rw [if_neg hother] at hold
    exact .inl hold

theorem Inserting.closed {base : Turn} {dialed : List SocketAddrV4}
    (h : Inserting base turn connKey connection) {reactor : Reactor Service}
    (hwf : base.proxy.conns.Wf)
    (hevents : turn.events = base.events ++ dialed.map .dialed)
    (hsane : Sane reactor) (hcalm : Calm [] base.reactor reactor) :
    ∃ turn', { turn with reactor := reactor }.closeConn calls connKey =
        .ok turn' ∧ Begins key base turn' dialed := by
  have hget := h.placed.inserted.get_eq
  let middle : Turn := { turn with reactor := reactor }
  have hlive : middle.proxy.conns.get connKey = some connection :=
    (hget connKey).trans (if_pos rfl)
  obtain ⟨turn', hclose, hsheds, hgone, _⟩ :=
    closeConn_sheds key calls (show Sane middle.reactor from hsane)
      h.placed.wf hlive
  refine ⟨turn', hclose, ⟨⟨h.proxy.trans hsheds.proxy, hsheds.wf, ?_, ?_, ?_,
    ?_⟩, hsheds.events.trans hevents, h.few hwf hsheds.wf ?_⟩⟩
  · rw [hsheds.rest]
    exact h.rest
  · rw [hsheds.world]
    exact h.world
  · intro other found hfound
    left
    rw [hgone] at hfound
    split at hfound
    · cases hfound
    · rename_i hother
      rw [hget, if_neg hother] at hfound
      exact hfound
  · intro hdeaf
    apply hsheds.deaf
    apply (hdeaf.sameProxy h.proxy).calm hcalm
    exact fun reg hmem => absurd hmem List.not_mem_nil
  · intro other hsome
    rw [hgone] at hsome
    split at hsome
    · exact absurd rfl hsome
    · exact hsome

theorem watchBoth_passes {base : Turn} {client device : TcpSocket}
    {deviceEndpoint restListener ownListener : SocketAddrV4} {now : Nat}
    {dialed : List SocketAddrV4}
    (h : Inserting base turn connKey (Connection.new client device
      deviceEndpoint restListener ownListener now))
    (hwf : base.proxy.conns.Wf)
    (hevents : turn.events = base.events ++ dialed.map .dialed)
    (hsane : Sane base.reactor) (hreactor : turn.reactor = base.reactor)
    (hapart : client.fd ≠ device.fd)
    (hclient : client.fd ≠ base.proxy.desc.fd ∧
      client.fd ≠ base.proxy.rest.fd)
    (hdevice : device.fd ≠ base.proxy.desc.fd ∧
      device.fd ≠ base.proxy.rest.fd) :
    turn.watchBoth calls key connKey client device = .error exhausted ∨
      ∃ turn', turn.watchBoth calls key connKey client device = .ok turn' ∧
        Begins key base turn' dialed := by
  simp only [Turn.watchBoth, hreactor]
  rcases watch_total hsane key client.fd (keyToU64 connKey) calls.poll with
    hpanic | ⟨first, clientReg, hwatch, hfirst, _, hwatched⟩
  · left
    rw [hpanic]
    rfl
  rw [hwatch]
  cases clientReg with
  | error error =>
      right
      cases hwatched with
      | failed _ hunchanged =>
          exact h.closed hwf hevents hfirst (hunchanged.calm [])
  | ok clientReg =>
      obtain ⟨hnew, hadded⟩ := hwatched.origin
      have hcalm := hwatched.calm
      simp only [bind, Except.bind]
      rcases watch_total hfirst key device.fd (keyToU64 connKey) calls.poll
        with hpanic | ⟨second, deviceReg, hwatch', hsecond, _, hwatched'⟩
      · left
        rw [hpanic]
      rw [hwatch']
      cases deviceReg with
      | error error =>
          right
          cases hwatched' with
          | failed _ hunchanged =>
              have hdropped := unwatch_sameHandlers hsecond clientReg
                calls.removed
              apply h.closed hwf hevents hdropped.sane
              intro reg found hfound
              right
              rw [unwatch_get hsecond, hunchanged.registrations] at hfound
              split at hfound
              · cases hfound
              · rename_i hother
                rcases hcalm reg found hfound with hmem | hold
                · exact absurd (List.mem_singleton.mp hmem) hother
                · exact hold
      | ok deviceReg =>
          right
          obtain ⟨hnew', hadded'⟩ := hwatched'.origin
          have hget := h.placed.inserted.get_eq
          have hlive : turn.proxy.conns.get connKey = some _ :=
            (hget connKey).trans (if_pos rfl)
          have hne : clientReg ≠ deviceReg := by
            rintro rfl
            rw [hadded, if_pos rfl] at hnew'
            cases hnew'
          have hdrops :=
            setWriteInterest_drops hsecond deviceReg true calls.armed
          let setup : Setup := ⟨client, device, hapart, ⟨clientReg⟩,
            ⟨deviceReg⟩, fun hsame => hne (RegKey.mk.inj hsame),
            deviceEndpoint, restListener, ownListener, now⟩
          simp only [hlive, orPanic]
          refine ⟨_, rfl, ⟨⟨h.proxy.trans rfl, ?_, h.rest, h.world, ?_, ?_⟩,
            hevents, h.few hwf (Arena.wf_set h.placed.wf connKey _) ?_⟩⟩
          · exact Arena.wf_set h.placed.wf connKey _
          · intro other found hfound
            dsimp only at hfound
            rw [Arena.get_set hlive, hget] at hfound
            by_cases hother : other = connKey
            · rw [if_pos hother] at hfound
              cases hfound
              refine .inr ⟨?_, setup, rfl⟩
              rw [hother]
              exact h.placed.inserted.fresh
            · rw [if_neg hother, if_neg hother] at hfound
              exact .inl hfound
          · intro hdeaf
            have hall : Calm [clientReg, deviceReg] base.reactor
                (second.setWriteInterest deviceReg true calls.armed).1 := by
              refine (hcalm.mono ?_).trans ((hwatched'.calm.mono ?_).trans
                ((setWriteInterest_calm second deviceReg true
                  calls.armed).mono ?_))
              all_goals
                intro reg hmem
                rw [List.mem_singleton.mp hmem]
                simp
            refine Deaf.calm (hdeaf.sameProxy (h.proxy.trans rfl)) hall ?_
            intro reg hmem found hfound
            have horigin := origin_eq_some.mpr ⟨found, hfound, rfl⟩
            rw [hdrops.origin, if_neg List.not_mem_nil, hadded', hadded]
              at horigin
            dsimp only
            rw [h.proxy.desc, h.proxy.rest]
            rcases List.mem_cons.mp hmem with rfl | hmem
            · rw [if_neg hne, if_pos rfl] at horigin
              have hfd : (client.fd : Int) = found.fd :=
                congrArg Prod.fst (Option.some.inj horigin)
              rw [← hfd]
              exact ⟨mt Int.natCast_inj.mp hclient.1,
                mt Int.natCast_inj.mp hclient.2⟩
            · rw [if_pos (List.mem_singleton.mp hmem)] at horigin
              have hfd : (device.fd : Int) = found.fd :=
                congrArg Prod.fst (Option.some.inj horigin)
              rw [← hfd]
              exact ⟨mt Int.natCast_inj.mp hdevice.1,
                mt Int.natCast_inj.mp hdevice.2⟩
          · intro other hsome
            dsimp only at hsome
            rw [Arena.get_set hlive] at hsome
            by_cases hother : other = connKey
            · rw [hother, hlive]
              exact Option.some_ne_none _
            · rw [if_neg hother] at hsome
              exact hsome

theorem startConnection_begins (client : TcpSocket)
    (deviceEndpoint ownListener : SocketAddrV4)
    (h : Accounted key stale turn.proxy turn.reactor)
    (hfresh : calls.Fresh turn.proxy)
    (haccept : calls.accept = .ok (some client.fd)) :
    turn.startConnection calls client deviceEndpoint ownListener =
        .error exhausted ∨
      ∃ turn', turn.startConnection calls client deviceEndpoint ownListener =
        .ok turn' ∧ Begins key turn turn' [deviceEndpoint] := by
  simp only [Turn.startConnection, Turn.ownKey, h.key_eq, orPanic, bind,
    Except.bind]
  cases hconnect : calls.connect with
  | error error =>
      right
      refine ⟨_, rfl, ⟨⟨.refl _, h.wf, rfl, rfl, fun _ _ hconn => .inl hconn,
        fun hdeaf => hdeaf⟩, rfl, Nat.le_succ _⟩⟩
  | ok answer =>
      obtain ⟨fd, connecting⟩ := answer
      rcases Arena.insertFrom_total h.wf (fun _ =>
          Connection.new client ⟨fd, connecting⟩ deviceEndpoint
            turn.proxy.rest.localAddr ownListener turn.world.now) with
        ⟨conns, connKey, hinsert, hplaced⟩ | hpanic
      · simp only [Arena.insert, Turn.observe, hinsert]
        have hinserting : Inserting turn
            { turn.observe (.dialed deviceEndpoint) with
              proxy := { turn.proxy with conns := conns } } connKey
            (Connection.new client ⟨fd, connecting⟩ deviceEndpoint
              turn.proxy.rest.localAddr ownListener turn.world.now) :=
          ⟨rfl, rfl, rfl, hplaced⟩
        have hclient := hfresh.unopened client.fd (.inl haccept)
        have hdevice := hfresh.unopened fd (.inr ⟨connecting, hconnect⟩)
        have hunlike : ∀ {open_ : Nat}, (∀ socket, turn.proxy.fdOf socket ≠
            some open_) → open_ ≠ turn.proxy.desc.fd ∧
              open_ ≠ turn.proxy.rest.fd := by
          intro open_ hopen
          constructor
          · rintro rfl
            exact hopen .desc rfl
          · rintro rfl
            exact hopen .rest rfl
        exact watchBoth_passes hinserting h.wf rfl h.sane rfl
          (hfresh.apart _ _ connecting haccept hconnect) (hunlike hclient)
          (hunlike hdevice)
      · left
        simp only [Arena.insert, Turn.observe, hpanic]
        rfl

/-! ## Accepting -/

/-- What an accept makes of its proxy: it dials an endpoint of `allowed` at
most, and the pool stays within its bound. -/
structure Accepts (key : Key) (allowed : SocketAddrV4 → Prop)
    (turn turn' : Turn) : Prop extends Passes key turn turn' where
  events : ∃ dialed : List SocketAddrV4,
    turn'.events = turn.events ++ dialed.map .dialed ∧
    ∀ endpoint ∈ dialed, allowed endpoint
  few : turn.proxy.conns.iter.length ≤ maxConnections →
    turn'.proxy.conns.iter.length ≤ maxConnections

theorem Accepts.of_events {allowed : SocketAddrV4 → Prop}
    (h : Passes key turn turn') (hevents : turn'.events = turn.events)
    (hfew : turn'.proxy.conns.iter.length ≤ turn.proxy.conns.iter.length) :
    Accepts key allowed turn turn' := by
  refine ⟨h, ⟨[], ?_, ?_⟩, hfew.trans⟩
  · rw [hevents, List.map_nil, List.append_nil]
  · exact fun endpoint hmem => absurd hmem List.not_mem_nil

theorem acceptClient_accepts (calls : ProxyCalls)
    (allowed : SocketAddrV4 → Prop)
    (h : Accounted key stale turn.proxy turn.reactor) :
    ∃ turn' client, turn.acceptClient calls = .ok (turn', client) ∧
      ((client = none ∧ Accepts key allowed turn turn') ∨
        ∃ fd, client = some ⟨fd, false⟩ ∧ turn' = turn ∧
          calls.accept = .ok (some fd) ∧
          turn.proxy.conns.iter.length < maxConnections) := by
  unfold Turn.acceptClient
  have hidle : Accepts key allowed turn turn := by
    have hsheds : Sheds key turn turn := .refl key h.wf
    exact .of_events hsheds.toPasses rfl (Nat.le_refl _)
  cases calls.accept with
  | error error =>
      simp only [Turn.ownKey, h.key_eq, orPanic, bind, Except.bind]
      refine ⟨_, _, rfl, .inl ⟨rfl, .of_events ?_ rfl (Nat.le_refl _)⟩⟩
      refine ⟨.refl _, h.wf, rfl, rfl, fun _ _ hconn => .inl hconn, ?_⟩
      intro hdeaf
      exact hdeaf.calm (unregister_calm h.sane key calls.removed [])
        fun reg hmem => absurd hmem List.not_mem_nil
  | ok accepted =>
      cases accepted with
      | none => exact ⟨_, _, rfl, .inl ⟨rfl, hidle⟩⟩
      | some fd =>
          dsimp only
          split
          · exact ⟨_, _, rfl, .inl ⟨rfl, hidle⟩⟩
          · rename_i hroom
            exact ⟨_, _, rfl, .inr ⟨fd, rfl, rfl, rfl, Nat.lt_of_not_le hroom⟩⟩

theorem Begins.accepts {allowed : SocketAddrV4 → Prop}
    {endpoint : SocketAddrV4} (h : Begins key turn turn' [endpoint])
    (hallowed : allowed endpoint)
    (hroom : turn.proxy.conns.iter.length < maxConnections) :
    Accepts key allowed turn turn' := by
  refine ⟨h.toPasses, ⟨[endpoint], h.events, ?_⟩, fun _ => ?_⟩
  · intro found hmem
    rw [List.mem_singleton.mp hmem]
    exact hallowed
  · exact h.few.trans hroom

theorem acceptDesc_accepts (h : Accounted key stale turn.proxy turn.reactor)
    (hfresh : calls.Fresh turn.proxy) :
    turn.acceptDesc calls = .error exhausted ∨
      ∃ turn', turn.acceptDesc calls = .ok turn' ∧
        Accepts key (· = turn.proxy.descEndpoint) turn turn' := by
  obtain ⟨next, client, haccept, hclient⟩ :=
    acceptClient_accepts calls (· = turn.proxy.descEndpoint) h
  rw [Turn.acceptDesc, haccept]
  rcases hclient with ⟨rfl, haccepts⟩ | ⟨fd, rfl, rfl, haccepted, hroom⟩
  · exact .inr ⟨next, rfl, haccepts⟩
  · rcases startConnection_begins ⟨fd, false⟩ next.proxy.descEndpoint
        next.proxy.desc.localAddr h hfresh haccepted with
      hpanic | ⟨turn', hstart, hbegins⟩
    · exact .inl hpanic
    · exact .inr ⟨turn', hstart, hbegins.accepts rfl hroom⟩

theorem acceptRest_accepts (h : Accounted key stale turn.proxy turn.reactor)
    (hfresh : calls.Fresh turn.proxy) :
    turn.acceptRest calls = .error exhausted ∨
      ∃ turn', turn.acceptRest calls = .ok turn' ∧
        Accepts key (turn.proxy.restEndpoint = some ·) turn turn' := by
  obtain ⟨next, client, haccept, hclient⟩ :=
    acceptClient_accepts calls (turn.proxy.restEndpoint = some ·) h
  rw [Turn.acceptRest, haccept]
  rcases hclient with ⟨rfl, haccepts⟩ | ⟨fd, rfl, rfl, haccepted, hroom⟩
  · exact .inr ⟨next, rfl, haccepts⟩
  · simp only [bind, Except.bind]
    cases hrest : next.proxy.restEndpoint with
    | none =>
        have hsheds : Sheds key next next := .refl key h.wf
        exact .inr ⟨next, rfl, .of_events hsheds.toPasses rfl (Nat.le_refl _)⟩
    | some device =>
        rcases startConnection_begins ⟨fd, false⟩ device
            next.proxy.rest.localAddr h hfresh haccepted with
          hpanic | ⟨turn', hstart, hbegins⟩
        · exact .inl hpanic
        · refine .inr ⟨turn', hstart, ?_⟩
          exact hbegins.accepts rfl hroom

end Turns

end Netflector.Reflector.Dial
