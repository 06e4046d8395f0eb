import Netflector.Reactor.Dispatching
import Netflector.Reflector.Dial.Serving

/-!
# Closing a connection frees its descriptors

The runs of a minted proxy in the reactor: its own turns, and whatever the other
handlers do between them.  A descriptor that no socket of the proxy and no other
handler has is not watched any more, in every run in which the poller never
refuses the disarm that winding down a hung-up peer begins with.
-/

namespace Netflector.Reflector.Dial

open Netflector.Foundation
open Netflector.Net
open Netflector.Reactor
open Netflector.Dispatch

/-! ## Runs -/

def Service.proxy? : Service → Option DialDeviceProxy
  | .dialDevice proxy => some proxy
  | .startup => none

def proxyAt (reactor : Reactor Service) (key : Key) : Option DialDeviceProxy :=
  ((reactor.handlers.get key).bind fun entry => entry.handler).bind
    Service.proxy?

/-- A proxy was just registered under `key`, with its two listeners. -/
def Minted (key : Key) (reactor : Reactor Service) : Prop :=
  ∃ before target targetIface desc descEndpoint rest poll removed,
    Sane before ∧
      before.registerWithFds Service.adoptKey
        (.dialDevice (.new target targetIface desc descEndpoint rest))
        [((desc.fd : Int), 0), ((rest.fd : Int), 0)] poll removed =
      .ok (reactor, .ok key)

/-- What other handlers do: they leave this one's registrations alone, and
watch none of its descriptors. -/
structure Others (key : Key) (before after : Reactor Service) : Prop where
  sane : Sane after
  slot : after.handlers.get key = before.handlers.get key
  own : ∀ reg fd data, after.origin reg = some (fd, key, data) ↔
    before.origin reg = some (fd, key, data)
  apart : ∀ proxy, proxyAt before key = some proxy →
    ∀ reg fd owner data, after.origin reg = some (fd, owner, data) →
    owner ≠ key → ∀ socket, ∀ open_ : Nat, proxy.fdOf socket = some open_ →
    fd ≠ open_

/-- One step of a run, of whose turns `Allowed` holds. -/
inductive Step (Allowed : DialDeviceProxy → World → ProxyTurn → Prop)
    (key : Key) (before after : Reactor Service) : Prop
  | turn (kernel : Kernel) (calls : ProxyCalls) (taken : ProxyTurn)
      (hfresh : ∀ proxy, proxyAt before key = some proxy → calls.Fresh proxy)
      (hallowed : ∀ proxy, proxyAt before key = some proxy →
        Allowed proxy ⟨kernel, []⟩ taken)
      (hrun : dispatchProxy kernel calls key taken before = .ok after)
  | others (hothers : Others key before after)

/-- No turn winds down a hung-up peer with a disarm that the poller
refuses. -/
def Spared (proxy : DialDeviceProxy) (world : World) (taken : ProxyTurn) :
    Prop :=
  ¬ proxy.Leaks world taken

/-! ## The invariant of a run -/

inductive Resting (key : Key) (stale : List Key) (reactor : Reactor Service) :
    Prop
  | gone (hsane : Sane reactor) (hnone : reactor.handlers.get key = none)
  | rests (proxy : DialDeviceProxy) (regs : List Key)
      (hentry : reactor.handlers.get key =
        some ⟨some (.dialDevice proxy), regs⟩)
      (haccounted : Accounted key stale proxy reactor)

section Runs

variable {key : Key} {stale : List Key} {before after reactor : Reactor Service}
  {proxy : DialDeviceProxy}

theorem Resting.sane (h : Resting key stale reactor) : Sane reactor := by
  cases h with
  | gone hsane => exact hsane
  | rests proxy regs hentry haccounted => exact haccounted.sane

theorem proxyAt_none (h : reactor.handlers.get key = none) :
    proxyAt reactor key = none := by
  simp [proxyAt, h]

theorem proxyAt_some {regs : List Key}
    (h : reactor.handlers.get key = some ⟨some (.dialDevice proxy), regs⟩) :
    proxyAt reactor key = some proxy := by
  simp [proxyAt, h, Service.proxy?]

theorem owner_ne_of_gone (hsane : Sane reactor)
    (hnone : reactor.handlers.get key = none) {reg : Key} {fd : RawFd}
    {owner : Key} {data : UInt64}
    (horigin : reactor.origin reg = some (fd, owner, data)) : owner ≠ key := by
  rintro rfl
  obtain ⟨found, hfound, hsame⟩ := origin_eq_some.mp horigin
  simp only [Registration.origin, Prod.mk.injEq] at hsame
  obtain ⟨entry, hentry, _⟩ := hsane.integral.owned reg found hfound
  rw [hsame.2.1, hnone] at hentry
  cases hentry

theorem accounted_minted {registered first : Reactor Service}
    {firstReg secondReg : Key} {target : Ipv4Addr}
    {targetIface : Option InterfaceName} {desc rest : ListenSocket}
    {descEndpoint : SocketAddrV4} (hsane : Sane reactor)
    (hvacant : ∀ reg fd data, registered.origin reg ≠ some (fd, key, data))
    (hfirst : registered.origin firstReg = none ∧
      ∀ reg, first.origin reg =
        if reg = firstReg then some ((desc.fd : Int), key, 0)
        else registered.origin reg)
    (hsecond : first.origin secondReg = none ∧
      ∀ reg, reactor.origin reg =
        if reg = secondReg then some ((rest.fd : Int), key, 0)
        else first.origin reg) :
    Accounted key []
      { DialDeviceProxy.new target targetIface desc descEndpoint rest with
        key := some key } reactor := by
  obtain ⟨_, hfirst⟩ := hfirst
  obtain ⟨hfresh, hsecond⟩ := hsecond
  have hne : firstReg ≠ secondReg := by
    rintro rfl
    rw [hfirst, if_pos rfl] at hfresh
    cases hfresh
  have hdesc : reactor.origin firstReg = some ((desc.fd : Int), key, 0) := by
    rw [hsecond, if_neg hne, hfirst, if_pos rfl]
  have hrest : reactor.origin secondReg = some ((rest.fd : Int), key, 0) := by
    rw [hsecond, if_pos rfl]
  have hempty : ∀ connKey,
      (Arena.new : Arena Connection).get connKey = none := by
    intro connKey
    simp [Arena.new, Arena.get, Arena.slot]
  have hfds : desc.fd ≠ rest.fd := by
    intro hsame
    rw [hsame] at hdesc
    exact hne (origin_distinct hsane hdesc hrest)
  have hlisteners : ∀ reg fd owner data,
      reactor.origin reg = some (fd, owner, data) → owner = key →
      (reg = firstReg ∧ fd = desc.fd ∧ data = 0) ∨
        (reg = secondReg ∧ fd = rest.fd ∧ data = 0) := by
    rintro reg fd owner data horigin rfl
    by_cases hlast : reg = secondReg
    · rw [hlast, hrest] at horigin
      cases horigin
      exact .inr ⟨hlast, rfl, rfl⟩
    · by_cases hearlier : reg = firstReg
      · rw [hearlier, hdesc] at horigin
        cases horigin
        exact .inl ⟨hearlier, rfl, rfl⟩
      · rw [hsecond, if_neg hlast, hfirst, if_neg hearlier] at horigin
        exact absurd horigin (hvacant reg fd data)
  constructor
  · exact hsane
  · rfl
  · exact Arena.wf_new
  · intro socket socket' fd hfd hfd'
    cases socket <;> cases socket' <;>
      simp_all [DialDeviceProxy.fdOf, DialDeviceProxy.new]
  · intro socket reg hreg
    cases socket <;> simp [DialDeviceProxy.regOf, DialDeviceProxy.new, hempty]
      at hreg
  · intro reg fd data horigin
    right
    rcases hlisteners reg fd key data horigin rfl with
      ⟨_, hfd, hdata⟩ | ⟨_, hfd, hdata⟩
    · exact ⟨.desc, desc.fd, rfl, hfd, hdata, .inl trivial⟩
    · exact ⟨.rest, rest.fd, rfl, hfd, hdata, .inl trivial⟩
  · intro reg hmem
    cases hmem
  · intro reg fd owner data horigin hstrange socket open_ hopen
    have howner : owner ≠ key := hstrange.resolve_right List.not_mem_nil
    rintro rfl
    cases socket with
    | desc =>
        cases hopen
        have hsame := origin_distinct hsane horigin hdesc
        rw [hsame, hdesc] at horigin
        cases horigin
        exact howner rfl
    | rest =>
        cases hopen
        have hsame := origin_distinct hsane horigin hrest
        rw [hsame, hrest] at horigin
        cases horigin
        exact howner rfl
    | client connKey =>
        simp [DialDeviceProxy.fdOf, DialDeviceProxy.new, hempty] at hopen
    | device connKey =>
        simp [DialDeviceProxy.fdOf, DialDeviceProxy.new, hempty] at hopen

theorem minted_resting (h : Minted key reactor) : Resting key [] reactor := by
  obtain ⟨before, target, targetIface, desc, descEndpoint, rest, poll, removed,
    hsane, hregister⟩ := h
  obtain ⟨⟨registered, own⟩, hown, hwatch⟩ := except_bind_ok hregister
  rcases register_total hsane Service.adoptKey (.dialDevice
      (.new target targetIface desc descEndpoint rest)) with hpanic |
    ⟨_, _, hown', hregistered, _, hvacant, hkept, hhandlers⟩
  · rw [hpanic] at hown
    cases hown
  rw [hown'] at hown
  cases hown
  obtain ⟨⟨first, firstReg⟩, hfirst, hwatch⟩ := except_bind_ok hwatch
  rcases watch_total hregistered own desc.fd 0 poll with hpanic |
    ⟨_, _, hfirst', hsaneFirst, _, hwatched⟩
  · rw [hpanic] at hfirst
    cases hfirst
  rw [hfirst'] at hfirst
  cases hfirst
  cases firstReg with
  | error error => cases hwatch
  | ok firstReg =>
      obtain ⟨⟨second, secondReg⟩, hsecond, hwatch⟩ := except_bind_ok hwatch
      rcases watch_total hsaneFirst own rest.fd 0 poll with hpanic |
        ⟨_, _, hsecond', hsaneSecond, _, hwatched'⟩
      · rw [hpanic] at hsecond
        cases hsecond
      rw [hsecond'] at hsecond
      cases hsecond
      cases secondReg with
      | error error => cases hwatch
      | ok secondReg =>
          cases hwatch
          obtain ⟨entry, hentry, hentry'⟩ := hwatched.handler
          obtain ⟨entry', hentry'', hlast⟩ := hwatched'.handler
          rw [hhandlers, if_pos rfl] at hentry
          cases hentry
          rw [hentry'] at hentry''
          cases hentry''
          have hnone : ∀ reg fd data,
              registered.origin reg ≠ some (fd, key, data) := by
            intro reg fd data horigin
            rw [Reactor.origin, hkept] at horigin
            exact owner_ne_of_gone hsane hvacant horigin rfl
          exact .rests _ _ hlast (accounted_minted hsaneSecond hnone
            hwatched.origin hwatched'.origin)

/-! ## What a step does -/

theorem restoreHandler_resting {turn : Turn}
    (hsane : Sane turn.reactor)
    (haccounted : turn.reactor.handlers.get key ≠ none →
      Accounted key stale turn.proxy turn.reactor) :
    Resting key stale
      (turn.reactor.restoreHandler key (.dialDevice turn.proxy)) := by
  unfold Reactor.restoreHandler
  cases hentry : turn.reactor.handlers.get key with
  | none => exact .gone hsane hentry
  | some entry =>
      have hlive : turn.reactor.handlers.get key ≠ none := by
        rw [hentry]
        exact Option.some_ne_none _
      have hset := Arena.get_set hentry
        { entry with handler := some (.dialDevice turn.proxy) }
      refine .rests turn.proxy entry.regs ?_ ?_
      · rw [hset, if_pos rfl]
      · have h := haccounted hlive
        exact h.unchanged (set_handler hsane hentry _) rfl rfl rfl h.wf
          (fun _ => rfl) fun _ => rfl

theorem dispatchProxy_resting {kernel : Kernel} {calls : ProxyCalls}
    {taken : ProxyTurn} {regs : List Key}
    (hentry : before.handlers.get key =
      some ⟨some (.dialDevice proxy), regs⟩)
    (h : Accounted key stale proxy before) (hfresh : calls.Fresh proxy)
    (hrun : dispatchProxy kernel calls key taken before = .ok after) :
    ∃ turn leaked out,
      (∀ reg, out.origin reg = before.origin reg) ∧
      Served key stale leaked calls ⟨proxy, out, ⟨kernel, []⟩, []⟩ turn ∧
      (¬ proxy.Leaks ⟨kernel, []⟩ taken → leaked = []) ∧
      after = turn.reactor.restoreHandler key (.dialDevice turn.proxy) := by
  let out : Reactor Service := { before with
    handlers := before.handlers.set key ⟨none, regs⟩ }
  have htake : before.takeHandler key = (out, some (.dialDevice proxy)) := by
    simp only [Reactor.takeHandler, hentry, out]
  simp only [dispatchProxy, htake] at hrun
  obtain ⟨turn, hturn, hrun⟩ := except_bind_ok hrun
  cases hrun
  have hout : Accounted key stale proxy out :=
    h.unchanged (set_handler h.sane hentry none) rfl rfl rfl h.wf
      (fun _ => rfl) fun _ => rfl
  obtain ⟨leaked, hserved, hnone⟩ := take_served hout hfresh hturn
  exact ⟨turn, leaked, out, fun _ => rfl, hserved, hnone, rfl⟩

theorem dispatchProxy_gone {kernel : Kernel} {calls : ProxyCalls}
    {taken : ProxyTurn} (hnone : before.handlers.get key = none)
    (hrun : dispatchProxy kernel calls key taken before = .ok after) :
    after = before := by
  simp only [dispatchProxy, Reactor.takeHandler, hnone] at hrun
  cases hrun
  rfl

theorem Resting.others (h : Resting key stale before)
    (hothers : Others key before after) : Resting key stale after := by
  cases h with
  | gone hsane hnone => exact .gone hothers.sane (hothers.slot.trans hnone)
  | rests proxy regs hentry h =>
      refine .rests proxy regs (hothers.slot.trans hentry) ?_
      have hproxy := proxyAt_some hentry
      constructor
      · exact hothers.sane
      · exact h.key_eq
      · exact h.wf
      · exact h.apart
      · intro socket reg hreg
        obtain ⟨fd, hfd, horigin⟩ := h.held socket reg hreg
        exact ⟨fd, hfd, (hothers.own reg _ _).mpr horigin⟩
      · intro reg fd data horigin
        exact h.registered reg fd data ((hothers.own reg fd data).mp horigin)
      · intro reg hmem
        obtain ⟨fd, data, horigin⟩ := h.lasting reg hmem
        exact ⟨fd, data, (hothers.own reg fd data).mpr horigin⟩
      · intro reg fd owner data horigin hstrange socket open_ hopen
        by_cases howner : owner = key
        · subst howner
          exact h.strange reg fd owner data
            ((hothers.own reg fd data).mp horigin) hstrange socket open_ hopen
        · exact hothers.apart proxy hproxy reg fd owner data horigin howner
            socket open_ hopen

theorem Resting.step (h : Resting key [] before)
    (hstep : Step Spared key before after) : Resting key [] after := by
  cases hstep with
  | others hothers => exact h.others hothers
  | turn kernel calls taken hfresh hspared hrun =>
      cases h with
      | gone hsane hnone =>
          rw [dispatchProxy_gone hnone hrun]
          exact .gone hsane hnone
      | rests proxy regs hentry haccounted =>
          have hproxy := proxyAt_some hentry
          obtain ⟨turn, leaked, out, _, hserved, hleaked, rfl⟩ :=
            dispatchProxy_resting hentry haccounted (hfresh proxy hproxy) hrun
          have hempty := hleaked (hspared proxy hproxy)
          subst hempty
          exact restoreHandler_resting hserved.sane hserved.accounted

theorem Resting.run (h : Resting key [] before)
    (hrun : Relation.ReflTransGen (Step Spared key) before reactor) :
    Resting key [] reactor := by
  induction hrun with
  | refl => exact h
  | tail _ hstep ih => exact ih.step hstep

/-! ## Freed descriptors -/

/-- No registration is on `fd`, and whoever watches it next can. -/
structure Freed (reactor : Reactor Service) (fd : Nat) : Prop where
  unwatched : ∀ reg found, reactor.registrations.get reg = some found →
    found.fd ≠ fd
  watchable : ∀ handlerKey entry userData poll,
    reactor.handlers.get handlerKey = some entry → poll (fd : Int) = none →
    reactor.watch handlerKey fd userData poll = .error exhausted ∨
    ∃ next reg, reactor.watch handlerKey fd userData poll =
      .ok (next, .ok reg)

structure Unclaimed (key : Key) (reactor : Reactor Service) (fd : Nat) :
    Prop where
  socket : ∀ proxy, proxyAt reactor key = some proxy →
    ∀ socket, proxy.fdOf socket ≠ some fd
  foreign : ∀ reg found, reactor.registrations.get reg = some found →
    found.handlerKey ≠ key → found.fd ≠ fd

theorem freed_of_unwatched (hsane : Sane reactor) {fd : Nat}
    (h : ∀ reg found, reactor.registrations.get reg = some found →
      found.fd ≠ fd) : Freed reactor fd := by
  refine ⟨h, ?_⟩
  intro handlerKey entry userData poll hentry hpoll
  have hfree : (reactor.registrations.iter.any fun item =>
      decide (item.2.fd = (fd : Int))) ≠ true := by
    intro hwatched
    obtain ⟨reg, found, hfound, hfd⟩ := (watched_iff hsane fd).mp hwatched
    exact h reg found hfound hfd
  rcases Arena.insertFrom_total hsane.registrations.wf fun _ =>
      (⟨fd, handlerKey, true, false, userData⟩ : Registration) with
    ⟨registrations, reg, hinsert, _⟩ | hpanic
  · right
    simp only [Reactor.watch, hentry, if_neg hfree, Arena.insert, hinsert,
      hpoll]
    exact ⟨_, _, rfl⟩
  · left
    simp only [Reactor.watch, hentry, if_neg hfree, Arena.insert, hpanic]
    rfl

theorem Resting.freed (h : Resting key [] reactor) {fd : Nat}
    (hunclaimed : Unclaimed key reactor fd) : Freed reactor fd := by
  refine freed_of_unwatched h.sane ?_
  intro reg found hfound hfd
  by_cases howner : found.handlerKey = key
  · have horigin : reactor.origin reg =
        some ((fd : Int), key, found.userData) := by
      rw [← hfd, ← howner]
      exact origin_eq_some.mpr ⟨found, hfound, rfl⟩
    cases h with
    | gone hsane hnone => exact owner_ne_of_gone hsane hnone horigin rfl
    | rests proxy regs hentry haccounted =>
        obtain hstale | ⟨socket, open_, hopen, hsame, _⟩ :=
          haccounted.registered reg fd found.userData horigin
        · cases hstale
        · rw [Int.natCast_inj.mp hsame] at hunclaimed
          exact hunclaimed.socket proxy (proxyAt_some hentry) socket hopen
  · exact hunclaimed.foreign reg found hfound howner hfd

/-- What is freed by a turn: the descriptors of a connection that it removed,
and those that it opened and did not keep. -/
structure Closes (key : Key) (calls : ProxyCalls)
    (before after : Reactor Service) : Prop where
  removed : ∀ proxy connKey connection, proxyAt before key = some proxy →
    proxy.conns.get connKey = some connection →
    (∀ proxy', proxyAt after key = some proxy' →
      proxy'.conns.get connKey = none) →
    Freed after connection.client.fd ∧ Freed after connection.device.fd
  dropped : ∀ fd, calls.Opens fd →
    (∀ reg found, before.registrations.get reg = some found →
      found.handlerKey ≠ key → found.fd ≠ fd) →
    (∀ proxy', proxyAt after key = some proxy' →
      ∀ socket, proxy'.fdOf socket ≠ some fd) →
    Freed after fd

theorem restoreHandler_origin (reactor : Reactor Service) (key : Key)
    (service : Service) (reg : Key) :
    (reactor.restoreHandler key service).origin reg = reactor.origin reg := by
  unfold Reactor.restoreHandler
  cases reactor.handlers.get key <;> rfl

theorem proxyAt_restoreHandler {proxy' : DialDeviceProxy}
    (h : proxyAt (reactor.restoreHandler key (.dialDevice proxy)) key =
      some proxy') : proxy' = proxy := by
  unfold Reactor.restoreHandler at h
  cases hentry : reactor.handlers.get key with
  | none =>
      simp only [hentry] at h
      rw [proxyAt_none hentry] at h
      cases h
  | some entry =>
      simp only [hentry] at h
      have hset := Arena.get_set hentry
        { entry with handler := some (.dialDevice proxy) } key
      rw [if_pos rfl] at hset
      rw [proxyAt_some hset] at h
      exact (Option.some.inj h).symm

theorem closes_of_turn {kernel : Kernel} {calls : ProxyCalls}
    {taken : ProxyTurn} (h : Resting key [] before)
    (hfresh : ∀ proxy, proxyAt before key = some proxy → calls.Fresh proxy)
    (hspared : ∀ proxy, proxyAt before key = some proxy →
      Spared proxy ⟨kernel, []⟩ taken)
    (hrun : dispatchProxy kernel calls key taken before = .ok after) :
    Closes key calls before after := by
  have hafter : Resting key [] after :=
    h.step (.turn kernel calls taken hfresh hspared hrun)
  cases h with
  | gone hsane hnone =>
      rw [dispatchProxy_gone hnone hrun] at hafter ⊢
      refine ⟨?_, ?_⟩
      · intro proxy connKey connection hproxy
        rw [proxyAt_none hnone] at hproxy
        cases hproxy
      · intro fd _ hforeign hsocket
        exact hafter.freed ⟨hsocket, hforeign⟩
  | rests proxy regs hentry haccounted =>
      have hproxy := proxyAt_some hentry
      have hopens := hfresh proxy hproxy
      obtain ⟨turn, leaked, out, hout, hserved, _, rfl⟩ :=
        dispatchProxy_resting hentry haccounted hopens hrun
      have hforeign : ∀ reg found,
          (turn.reactor.restoreHandler key
            (.dialDevice turn.proxy)).registrations.get reg = some found →
          found.handlerKey ≠ key → before.origin reg = some found.origin := by
        intro reg found hfound howner
        have horigin := origin_eq_some.mpr ⟨found, hfound, rfl⟩
        rw [restoreHandler_origin] at horigin
        rw [← hout]
        exact hserved.foreign reg _ _ _ horigin howner
      refine ⟨?_, ?_⟩
      · intro proxy' connKey connection hproxy' hconn hremoved
        rw [hproxy] at hproxy'
        cases hproxy'
        have hfreed : ∀ side, Freed (turn.reactor.restoreHandler key
            (.dialDevice turn.proxy)) (connection.context side).source.fd := by
          intro side
          have hfd := DialDeviceProxy.fdOf_side hconn side
          refine hafter.freed ⟨?_, ?_⟩
          · intro proxy' hproxy' socket hopen
            have hnone := hremoved proxy' hproxy'
            cases proxyAt_restoreHandler hproxy'
            rcases hserved.opened socket _ hopen with hold | hopened
            · rw [haccounted.apart socket _ _ hold hfd] at hopen
              cases side <;>
                simp [Socket.side, DialDeviceProxy.fdOf, hnone] at hopen
            · exact hopens.unopened _ hopened _ hfd
          · intro reg found hfound howner
            exact haccounted.strange reg _ _ _
              (hforeign reg found hfound howner) (.inl howner) _ _ hfd
        exact ⟨hfreed .clientToDevice, hfreed .deviceToClient⟩
      · intro fd _ hothers hsocket
        refine hafter.freed ⟨hsocket, ?_⟩
        intro reg found hfound howner
        obtain ⟨old, hold, hsame⟩ :=
          origin_eq_some.mp (hforeign reg found hfound howner)
        simp only [Registration.origin, Prod.mk.injEq] at hsame
        rw [← hsame.1]
        exact hothers reg old hold (by rw [hsame.2.1]; exact howner)

/-- In every run in which no disarm of a wind-down is refused, what a proxy
closes leaves no registration behind. -/
theorem closing_frees {start : Reactor Service} (hminted : Minted key start)
    (hrun : Relation.ReflTransGen (Step Spared key) start reactor) :
    (∀ fd, Unclaimed key reactor fd → Freed reactor fd) ∧
    ∀ kernel calls taken after,
      (∀ proxy, proxyAt reactor key = some proxy →
        calls.Fresh proxy ∧ Spared proxy ⟨kernel, []⟩ taken) →
      dispatchProxy kernel calls key taken reactor = .ok after →
      Closes key calls reactor after := by
  have hresting := (minted_resting hminted).run hrun
  refine ⟨fun fd hunclaimed => hresting.freed hunclaimed, ?_⟩
  intro kernel calls taken after hturn hdispatch
  exact closes_of_turn hresting (fun proxy hproxy => (hturn proxy hproxy).1)
    (fun proxy hproxy => (hturn proxy hproxy).2) hdispatch

end Runs

/-! ## A run that closes, and one that leaks -/

def homeAddr : Ipv4Addr := ⟨[192, 0, 2, 1], rfl⟩

def mintHome : Except Panic (Reactor Service × Except IoError Key) :=
  Reactor.new.registerWithFds Service.adoptKey
    (.dialDevice (.new homeAddr none ⟨3, ⟨homeAddr, 40003⟩⟩
      ⟨homeAddr, 8008⟩ ⟨4, ⟨homeAddr, 40004⟩⟩))
    [(3, 0), (4, 0)] (fun _ => none) fun _ => none

def idleCalls : ProxyCalls :=
  ⟨.error .noBufs, .error .noBufs, fun _ => none, fun _ => none,
    fun _ => none, .error .noBufs⟩

def openCalls : ProxyCalls :=
  { idleCalls with
    accept := .ok (some 5)
    connect := .ok (6, true) }

def eofKernel (accepts : Bool) : Kernel :=
  ⟨fun _ => .ready [], fun _ => .wouldBlock, fun _ => accepts, fun _ => 0⟩

def idleTurns (key : Key) :
    List (Bool × ProxyTurn) → Reactor Service → Except Panic (Reactor Service)
  | [], reactor => .ok reactor
  | (accepts, taken) :: turns, reactor => do
      let reactor ←
        dispatchProxy (eofKernel accepts) idleCalls key taken reactor
      idleTurns key turns reactor

def homeRun (turns : List (Bool × ProxyTurn)) :
    Except Panic (Reactor Service × Reactor Service) := do
  let (start, _) ← mintHome
  let served ← dispatchProxy (eofKernel true) openCalls ⟨0, 0⟩
    (.readable ⟨3, 0⟩) start
  let reactor ← idleTurns ⟨0, 0⟩ turns served
  .ok (start, reactor)

theorem fresh_idle (proxy : DialDeviceProxy) : idleCalls.Fresh proxy := by
  refine ⟨?_, ?_⟩
  · rintro fd (haccept | ⟨_, hconnect⟩)
    · cases haccept
    · cases hconnect
  · intro client device connecting haccept
    cases haccept

theorem fresh_open {proxy : DialDeviceProxy} (hdesc : proxy.desc.fd = 3)
    (hrest : proxy.rest.fd = 4) (hconns : proxy.conns.slots = []) :
    openCalls.Fresh proxy := by
  have hnone : ∀ connKey, proxy.conns.get connKey = none := by
    intro connKey
    simp [Arena.get, Arena.slot, hconns]
  refine ⟨?_, ?_⟩
  · rintro fd hopens socket hopen
    have hfd : fd = 5 ∨ fd = 6 := by
      rcases hopens with haccept | ⟨connecting, hconnect⟩
      · cases haccept
        exact .inl rfl
      · cases hconnect
        exact .inr rfl
    cases socket <;> simp [DialDeviceProxy.fdOf, hdesc, hrest, hnone] at hopen
    · omega
    · omega
  · intro client device connecting haccept hconnect
    cases haccept
    cases hconnect
    decide

theorem minted_home {start : Reactor Service} {key : Except IoError Key}
    (h : mintHome = .ok (start, key)) :
    Minted ⟨0, 0⟩ start ∧
      ∀ proxy, proxyAt start ⟨0, 0⟩ = some proxy → openCalls.Fresh proxy := by
  have hview : mintHome.toOption.map (fun answer =>
      (answer.2.toOption, (proxyAt answer.1 ⟨0, 0⟩).map fun proxy =>
        (proxy.desc.fd, proxy.rest.fd, proxy.conns.slots.length))) =
      some (some ⟨0, 0⟩, some (3, 4, 0)) := by
    decide +kernel
  rw [h] at hview
  simp only [Except.toOption, Option.map_some, Option.some.injEq,
    Prod.mk.injEq] at hview
  obtain ⟨hkey, hproxy⟩ := hview
  cases key with
  | error error => cases hkey
  | ok key =>
      cases hkey
      refine ⟨⟨_, _, _, _, _, _, _, _, sane_new, h⟩, ?_⟩
      intro proxy hfound
      rw [hfound] at hproxy
      simp only [Option.map_some, Option.some.injEq, Prod.mk.injEq] at hproxy
      exact fresh_open hproxy.1 hproxy.2.1
        (List.length_eq_zero_iff.mp hproxy.2.2)

theorem idleTurns_steps
    {Allowed : DialDeviceProxy → World → ProxyTurn → Prop} {key : Key}
    {turns : List (Bool × ProxyTurn)} {reactor after : Reactor Service}
    (hallowed : ∀ accepts taken, (accepts, taken) ∈ turns → ∀ proxy,
      Allowed proxy ⟨eofKernel accepts, []⟩ taken)
    (h : idleTurns key turns reactor = .ok after) :
    Relation.ReflTransGen (Step Allowed key) reactor after := by
  induction turns generalizing reactor with
  | nil =>
      cases h
      exact .refl
  | cons item turns ih =>
      obtain ⟨accepts, taken⟩ := item
      obtain ⟨next, hturn, hrest⟩ := except_bind_ok h
      refine .head (.turn (eofKernel accepts) idleCalls taken
        (fun proxy _ => fresh_idle proxy) (fun proxy _ => ?_) hturn)
        (ih (fun accepts taken hmem =>
          hallowed accepts taken (List.mem_cons_of_mem _ hmem)) hrest)
      exact hallowed accepts taken List.mem_cons_self proxy

theorem homeRun_steps {Allowed : DialDeviceProxy → World → ProxyTurn → Prop}
    {turns : List (Bool × ProxyTurn)} {start reactor : Reactor Service}
    (hopen : ∀ proxy, Allowed proxy ⟨eofKernel true, []⟩ (.readable ⟨3, 0⟩))
    (hallowed : ∀ accepts taken, (accepts, taken) ∈ turns → ∀ proxy,
      Allowed proxy ⟨eofKernel accepts, []⟩ taken)
    (h : homeRun turns = .ok (start, reactor)) :
    Minted ⟨0, 0⟩ start ∧
      Relation.ReflTransGen (Step Allowed ⟨0, 0⟩) start reactor := by
  obtain ⟨⟨minted, key⟩, hmint, h⟩ := except_bind_ok h
  obtain ⟨served, hserved, h⟩ := except_bind_ok h
  obtain ⟨last, hturns, h⟩ := except_bind_ok h
  cases h
  obtain ⟨hminted, hfresh⟩ := minted_home hmint
  exact ⟨hminted, .head (.turn (eofKernel true) openCalls (.readable ⟨3, 0⟩)
    hfresh (fun proxy _ => hopen proxy) hserved)
    (idleTurns_steps hallowed hturns)⟩

theorem spared_accepting (proxy : DialDeviceProxy) (taken : ProxyTurn) :
    Spared proxy ⟨eofKernel true, []⟩ taken := by
  intro hleaks
  cases taken with
  | readable event =>
      obtain ⟨_, _, connection, _, hrefused⟩ := hleaks
      simp [Connection.disarmRefused, eofKernel] at hrefused
  | writable event => exact hleaks
  | deadline now => exact hleaks

/-- The device is connected to, the client sends its end of stream and hangs
up. -/
theorem closing_frees_hangup :
    ∃ start reactor, homeRun [(true, .writable ⟨6, 0⟩),
        (true, .readable ⟨5, 0⟩), (true, .readable ⟨5, 0⟩)] =
      .ok (start, reactor) ∧
      (∀ fd, Unclaimed ⟨0, 0⟩ reactor fd → Freed reactor fd) ∧
      (proxyAt reactor ⟨0, 0⟩).map (fun proxy => proxy.conns.iter.length) =
        some 0 := by
  have hview : (homeRun [(true, .writable ⟨6, 0⟩), (true, .readable ⟨5, 0⟩),
      (true, .readable ⟨5, 0⟩)]).toOption.map (fun answer =>
        (proxyAt answer.2 ⟨0, 0⟩).map fun proxy => proxy.conns.iter.length) =
      some (some 0) := by
    decide +kernel
  cases hrun : homeRun [(true, .writable ⟨6, 0⟩), (true, .readable ⟨5, 0⟩),
      (true, .readable ⟨5, 0⟩)] with
  | error panic =>
      rw [hrun] at hview
      cases hview
  | ok answer =>
      obtain ⟨start, reactor⟩ := answer
      obtain ⟨hminted, hsteps⟩ :
          Minted ⟨0, 0⟩ start ∧
            Relation.ReflTransGen (Step Spared ⟨0, 0⟩) start reactor := by
        refine homeRun_steps (fun proxy => spared_accepting proxy _) ?_ hrun
        intro accepts taken hmem proxy
        have haccepts : accepts = true := by
          simp at hmem
          rcases hmem with ⟨rfl, _⟩ | ⟨rfl, _⟩ <;> rfl
        rw [haccepts]
        exact spared_accepting proxy taken
      rw [hrun] at hview
      exact ⟨start, reactor, rfl, (closing_frees hminted hsteps).1,
        Option.some.inj hview⟩

/-- The same hangup, but the poller refuses to disarm the device: the connection
is gone, its client's descriptor is still watched, and whoever gets that
descriptor next cannot watch it. -/
theorem refused_disarm_leaks :
    ∃ start reactor after proxy connection,
      Minted ⟨0, 0⟩ start ∧
      Relation.ReflTransGen (Step (fun _ _ _ => True) ⟨0, 0⟩) start reactor ∧
      proxyAt reactor ⟨0, 0⟩ = some proxy ∧
      proxy.conns.get ⟨0, 0⟩ = some connection ∧
      connection.client.fd = 5 ∧
      dispatchProxy (eofKernel false) idleCalls ⟨0, 0⟩ (.readable ⟨5, 0⟩)
        reactor = .ok after ∧
      (∀ proxy', proxyAt after ⟨0, 0⟩ = some proxy' →
        proxy'.conns.get ⟨0, 0⟩ = none) ∧
      ¬ Freed after 5 ∧
      ∃ next error, after.watch ⟨0, 0⟩ 5 0 (fun _ => none) =
        .ok (next, .error error) := by
  have hview : (homeRun [(true, .writable ⟨6, 0⟩),
        (true, .readable ⟨5, 0⟩)]).toOption.bind (fun answer =>
      (dispatchProxy (eofKernel false) idleCalls ⟨0, 0⟩ (.readable ⟨5, 0⟩)
        answer.2).toOption.map fun after =>
        (((proxyAt answer.2 ⟨0, 0⟩).bind fun proxy =>
            proxy.conns.get ⟨0, 0⟩).map fun connection => connection.client.fd,
          (proxyAt after ⟨0, 0⟩).all fun proxy =>
            (proxy.conns.get ⟨0, 0⟩).isNone,
          (after.registrations.get ⟨2, 0⟩).map fun found => found.fd,
          (after.watch ⟨0, 0⟩ 5 0 fun _ => none).toOption.map fun answer =>
            answer.2.toOption)) =
      some (some 5, true, some 5, some none) := by
    decide +kernel
  obtain ⟨⟨start, reactor⟩, hrun, hview⟩ := Option.bind_eq_some_iff.mp hview
  obtain ⟨after, hturn, hview⟩ := Option.map_eq_some_iff.mp hview
  have hrun := toOption_eq_some.mp hrun
  have hturn := toOption_eq_some.mp hturn
  simp only [Prod.mk.injEq] at hview
  obtain ⟨hclient, hgone, hheld, hwatch⟩ := hview
  obtain ⟨connection, hconn, hfd⟩ := Option.map_eq_some_iff.mp hclient
  obtain ⟨proxy, hproxy, hconn⟩ := Option.bind_eq_some_iff.mp hconn
  obtain ⟨hminted, hsteps⟩ : Minted ⟨0, 0⟩ start ∧
      Relation.ReflTransGen (Step (fun _ _ _ => True) ⟨0, 0⟩) start reactor :=
    homeRun_steps (fun _ => trivial) (fun _ _ _ _ => trivial) hrun
  refine ⟨start, reactor, after, proxy, connection, hminted, hsteps, hproxy,
    hconn, hfd, hturn, ?_, ?_, ?_⟩
  · intro proxy' hproxy'
    rw [hproxy'] at hgone
    exact Option.isNone_iff_eq_none.mp hgone
  · intro hfreed
    obtain ⟨found, hfound, hsame⟩ := Option.map_eq_some_iff.mp hheld
    exact hfreed.unwatched ⟨2, 0⟩ found hfound hsame
  · obtain ⟨⟨next, answer⟩, hanswer, hnone⟩ := Option.map_eq_some_iff.mp hwatch
    cases answer with
    | ok reg => cases hnone
    | error error => exact ⟨next, error, toOption_eq_some.mp hanswer⟩

end Netflector.Reflector.Dial
