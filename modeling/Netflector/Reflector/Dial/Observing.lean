import Netflector.Reflector.Dial.Driving
import Netflector.Reflector.Dial.Fitting
import Netflector.Reflector.Dial.Release

/-!
# A proxy's run as it is seen

What every turn of a proxy did is recorded beside the reactor.  Whatever its
clients and devices send, a proxy dials the endpoint it was minted for, or one
that an earlier turn adopted.
-/

namespace Netflector.Reflector.Dial

open Netflector.Foundation
open Netflector.Net
open Netflector.Net.Http
open Netflector.Net.Ssdp
open Netflector.Reactor
open Netflector.Dispatch

/-! ## Observations -/

/-- What one turn did, and what has happened by its end on the connection that
its event names. -/
structure Sighting where
  events : List ProxyEvent
  life : List Event

/-- The reactor, what has happened on each connection of the pool, and all that
was seen of the proxy's turns. -/
structure Observation where
  reactor : Reactor Service
  lives : Key → List Event
  sightings : List Sighting

def sight (proxy : DialDeviceProxy) (taken : ProxyTurn) (turn : Turn)
    (lives : Key → List Event) : Sighting :=
  ⟨turn.events, (namedBy proxy taken).elim [] fun named =>
    lives named.1 ++ turn.world.log⟩

def Observation.turn (kernel : Kernel) (calls : ProxyCalls) (key : Key)
    (taken : ProxyTurn) (seen : Observation) : Except Panic Observation :=
  match seen.reactor.takeHandler key with
  | (reactor, some (.dialDevice proxy)) => do
      let turn ← taken.take calls ⟨proxy, reactor, ⟨kernel, []⟩, []⟩
      .ok ⟨turn.reactor.restoreHandler key (.dialDevice turn.proxy),
        livesAfter proxy taken turn.world.log seen.lives,
        seen.sightings ++ [sight proxy taken turn seen.lives]⟩
  | (reactor, some .startup) =>
      .ok { seen with reactor := reactor.restoreHandler key .startup }
  | (reactor, none) => .ok { seen with reactor := reactor }

theorem turn_reactor (kernel : Kernel) (calls : ProxyCalls) (key : Key)
    (taken : ProxyTurn) (seen : Observation) :
    (seen.turn kernel calls key taken).map Observation.reactor =
      dispatchProxy kernel calls key taken seen.reactor := by
  unfold Observation.turn dispatchProxy
  rcases seen.reactor.takeHandler key with ⟨reactor, _ | handler⟩
  · rfl
  cases handler with
  | startup => rfl
  | dialDevice proxy =>
      dsimp only
      cases taken.take calls ⟨proxy, reactor, ⟨kernel, []⟩, []⟩ <;> rfl

/-- What others do between two turns: they unregister the proxy, or leave it and
its registrations alone and watch none of its descriptors. -/
structure Aside (key : Key) (before after : Reactor Service) : Prop where
  sane : Sane after
  slot : after.handlers.get key = before.handlers.get key ∨
    after.handlers.get key = none
  own : after.handlers.get key ≠ none → ∀ reg found, found.handlerKey = key →
    (after.registrations.get reg = some found ↔
      before.registrations.get reg = some found)
  apart : after.handlers.get key ≠ none →
    ∀ proxy, proxyAt before key = some proxy →
    ∀ reg fd owner data, after.origin reg = some (fd, owner, data) →
    owner ≠ key → ∀ socket, ∀ open_ : Nat, proxy.fdOf socket = some open_ →
    fd ≠ open_

inductive Passing (key : Key) (before after : Observation) : Prop
  | turn (kernel : Kernel) (calls : ProxyCalls) (taken : ProxyTurn)
      (hfresh : ∀ proxy, proxyAt before.reactor key = some proxy →
        calls.Fresh proxy)
      (hrun : before.turn kernel calls key taken = .ok after)
  | aside (reactor : Reactor Service)
      (haside : Aside key before.reactor reactor)
      (hafter : after = { before with reactor := reactor })

def MintedBy (calls : MintCalls) (payload : Bytes) (key : Key)
    (seen : Observation) : Prop :=
  ∃ now context reactor placement context' rewritten,
    Sane reactor ∧ reactor.handlers.get key = none ∧
      rewriteLocation calls now context reactor payload placement =
        .ok (context', seen.reactor, rewritten) ∧
      seen.reactor.handlers.get key ≠ none ∧
      seen.lives = (fun _ => []) ∧ seen.sightings = []

/-! ## Vouching -/

/-- The proxy adopted `endpoint` in that turn, which is an address that can name
a device and is none of this host's.  It read it on a device's socket: of all
that this connection has read of its device, the last bytes are a message whose
first parseable `Application-URL` names it. -/
def Sighting.Adopts (sighting : Sighting) (endpoint : SocketAddrV4) : Prop :=
  ∃ fd hostV4Addrs clientFd deviceFd,
    .adopted fd endpoint hostV4Addrs ∈ sighting.events ∧
      isNeverAPeer (.v4 endpoint.ip) = false ∧
      namesThisHost hostV4Addrs endpoint = false ∧
      .acted fd clientFd deviceFd ∈ sighting.events ∧ fd ≠ clientFd ∧
      Learned deviceFd clientFd endpoint sighting.life

/-- Every endpoint dialed is `endpoint`, or was adopted before. -/
def Vouched (endpoint : SocketAddrV4) (sightings : List Sighting) : Prop :=
  ∀ earlier sighting later, sightings = earlier ++ sighting :: later →
    ∀ dialed, .dialed dialed ∈ sighting.events →
    dialed = endpoint ∨ ∃ vouching ∈ earlier, vouching.Adopts dialed

section Vouching

variable {endpoint : SocketAddrV4} {sightings : List Sighting}
  {last : Sighting}

theorem vouched_nil (endpoint : SocketAddrV4) : Vouched endpoint [] := by
  intro earlier sighting later hsplit
  simp at hsplit

theorem Vouched.append (h : Vouched endpoint sightings)
    (hlast : ∀ dialed, .dialed dialed ∈ last.events →
      dialed = endpoint ∨ ∃ vouching ∈ sightings, vouching.Adopts dialed) :
    Vouched endpoint (sightings ++ [last]) := by
  intro earlier sighting later hsplit
  rcases List.eq_nil_or_concat later with rfl | ⟨others, final, rfl⟩
  · obtain ⟨rfl, hsame⟩ := List.append_inj' hsplit rfl
    cases hsame
    exact hlast
  · rw [List.concat_eq_append, ← List.cons_append, ← List.append_assoc]
      at hsplit
    obtain ⟨hsightings, _⟩ := List.append_inj' hsplit rfl
    exact h earlier sighting others hsightings

end Vouching

/-! ## What a run upholds -/

structure Steady (key : Key) (endpoint : SocketAddrV4) (seen : Observation)
    (proxy : DialDeviceProxy) : Prop where
  accounted : ∃ stale, Accounted key stale proxy seen.reactor
  living : proxy.Lives seen.lives
  few : proxy.conns.iter.length ≤ maxConnections
  deaf : Deaf key proxy seen.reactor
  desc : proxy.descEndpoint = endpoint
  rest : ∀ learned, proxy.restEndpoint = some learned →
    ∃ vouching ∈ seen.sightings, vouching.Adopts learned

inductive Upheld (key : Key) (endpoint : SocketAddrV4) (seen : Observation) :
    Prop
  | gone (hsane : Sane seen.reactor)
      (hnone : seen.reactor.handlers.get key = none)
  | rests (proxy : DialDeviceProxy) (regs : List Key)
      (hentry : seen.reactor.handlers.get key =
        some ⟨some (.dialDevice proxy), regs⟩)
      (hsteady : Steady key endpoint seen proxy)

section Runs

variable {key : Key} {endpoint : SocketAddrV4} {kernel : Kernel}
  {calls : ProxyCalls} {taken : ProxyTurn} {before after start : Observation}
  {proxy : DialDeviceProxy} {regs : List Key}

theorem turn_rests (hentry : before.reactor.handlers.get key =
      some ⟨some (.dialDevice proxy), regs⟩) :
    before.turn kernel calls key taken =
      taken.take calls ⟨proxy, { before.reactor with
          handlers := before.reactor.handlers.set key ⟨none, regs⟩ },
          ⟨kernel, []⟩, []⟩ >>= fun turn =>
        .ok ⟨turn.reactor.restoreHandler key (.dialDevice turn.proxy),
          livesAfter proxy taken turn.world.log before.lives,
          before.sightings ++ [sight proxy taken turn before.lives]⟩ := by
  simp only [Observation.turn, Reactor.takeHandler, hentry]

theorem turn_gone (hnone : before.reactor.handlers.get key = none) :
    before.turn kernel calls key taken = .ok before := by
  simp only [Observation.turn, Reactor.takeHandler, hnone]

theorem restoreHandler_registrations (reactor : Reactor Service) (key : Key)
    (service : Service) :
    (reactor.restoreHandler key service).registrations =
      reactor.registrations := by
  unfold Reactor.restoreHandler
  cases reactor.handlers.get key <;> rfl

theorem Attended.adopts {lives : Key → List Event} {base last : Turn}
    {fd : Nat} {learned : SocketAddrV4}
    {hostV4Addrs : Except Errno (List Ipv4Addr)}
    (h : Attended key calls taken lives base last)
    (hadopted : .adopted fd learned hostV4Addrs ∈ last.events) :
    (sight base.proxy taken last lives).Adopts learned := by
  obtain ⟨hpeer, hhost, connKey, clientFd, deviceFd, hnamed, hacted, hfd,
    hlearned⟩ := h.adopted fd learned hostV4Addrs hadopted
  refine ⟨fd, hostV4Addrs, clientFd, deviceFd, hadopted, hpeer, hhost, hacted,
    hfd, ?_⟩
  rw [sight, hnamed]
  exact hlearned

theorem Upheld.turn (h : Upheld key endpoint before)
    (hvouched : Vouched endpoint before.sightings)
    (hfresh : ∀ proxy, proxyAt before.reactor key = some proxy →
      calls.Fresh proxy)
    (hrun : before.turn kernel calls key taken = .ok after) :
    Upheld key endpoint after ∧ Vouched endpoint after.sightings := by
  cases h with
  | gone hsane hnone =>
      rw [turn_gone hnone] at hrun
      cases hrun
      exact ⟨.gone hsane hnone, hvouched⟩
  | rests proxy regs hentry hsteady =>
      rw [turn_rests hentry] at hrun
      obtain ⟨turn, htake, hrun⟩ := except_bind_ok hrun
      cases hrun
      have hopen := hfresh proxy (proxyAt_some hentry)
      obtain ⟨stale, haccounted⟩ := hsteady.accounted
      have hout : Accounted key stale proxy { before.reactor with
          handlers := before.reactor.handlers.set key ⟨none, regs⟩ } :=
        haccounted.unchanged (set_handler haccounted.sane hentry none) rfl rfl
          rfl haccounted.wf (fun _ => rfl) fun _ => rfl
      have hattended := take_attended hout hopen hsteady.living rfl rfl htake
      obtain ⟨leaked, hserved, _⟩ := take_served hout hopen htake
      constructor
      · cases restoreHandler_resting hserved.sane hserved.accounted with
        | gone hsane hnone => exact .gone hsane hnone
        | rests proxy' regs' hentry' haccounted' =>
            cases proxyAt_restoreHandler (proxyAt_some hentry')
            refine .rests turn.proxy regs' hentry' ⟨⟨_, haccounted'⟩,
              hattended.living, hattended.few hsteady.few, ?_, ?_, ?_⟩
            · have hdeaf := hattended.deaf hsteady.deaf
              intro reg found hfound
              rw [restoreHandler_registrations] at hfound
              exact hdeaf reg found hfound
            · exact hattended.proxy.descEndpoint.trans hsteady.desc
            · intro learned hlearned
              rcases hattended.rest with hsame | ⟨fd, found, hrest, hadopted⟩
              · rw [hsame] at hlearned
                obtain ⟨vouching, hmem, hadopts⟩ :=
                  hsteady.rest learned hlearned
                exact ⟨vouching, List.mem_append_left _ hmem, hadopts⟩
              · rw [hrest] at hlearned
                cases hlearned
                exact ⟨_, List.mem_append_right _ (List.mem_singleton_self _),
                  hattended.adopts hadopted⟩
      · refine hvouched.append fun dialed hdialed => ?_
        rcases hattended.dialed dialed hdialed with hdesc | hrest
        · exact .inl (hdesc.trans hsteady.desc)
        · exact .inr (hsteady.rest dialed hrest)

theorem Aside.others {first last : Reactor Service} (h : Aside key first last)
    (hlive : last.handlers.get key ≠ none) : Others key first last := by
  refine ⟨h.sane, h.slot.resolve_right hlive, ?_, h.apart hlive⟩
  intro reg fd data
  rw [origin_eq_some, origin_eq_some]
  constructor
  · rintro ⟨found, hfound, horigin⟩
    have hkey : found.handlerKey = key :=
      congrArg (fun origin => origin.2.1) horigin
    exact ⟨found, (h.own hlive reg found hkey).mp hfound, horigin⟩
  · rintro ⟨found, hfound, horigin⟩
    have hkey : found.handlerKey = key :=
      congrArg (fun origin => origin.2.1) horigin
    exact ⟨found, (h.own hlive reg found hkey).mpr hfound, horigin⟩

theorem Upheld.aside {last : Reactor Service} (h : Upheld key endpoint before)
    (haside : Aside key before.reactor last) :
    Upheld key endpoint { before with reactor := last } := by
  by_cases hlive : last.handlers.get key = none
  · exact .gone haside.sane hlive
  have hothers := haside.others hlive
  cases h with
  | gone hsane hnone => exact absurd (hothers.slot.trans hnone) hlive
  | rests proxy regs hentry hsteady =>
      obtain ⟨stale, haccounted⟩ := hsteady.accounted
      have hentry' := hothers.slot.trans hentry
      refine .rests proxy regs hentry' ⟨⟨stale, ?_⟩, hsteady.living,
        hsteady.few, ?_, hsteady.desc, hsteady.rest⟩
      · cases (Resting.rests proxy regs hentry haccounted).others hothers with
        | gone hsane hnone => exact absurd hnone hlive
        | rests proxy' regs' hfound haccounted' =>
            rw [hentry'] at hfound
            cases hfound
            exact haccounted'
      · intro reg found hfound hkey
        exact hsteady.deaf reg found
          ((haside.own hlive reg found hkey).mp hfound) hkey

theorem Upheld.run (h : Upheld key endpoint start)
    (hvouched : Vouched endpoint start.sightings)
    (hrun : Relation.ReflTransGen (Passing key) start after) :
    Upheld key endpoint after ∧ Vouched endpoint after.sightings := by
  induction hrun with
  | refl => exact ⟨h, hvouched⟩
  | tail _ hstep ih =>
      cases hstep with
      | turn kernel calls taken hfresh hrun => exact ih.1.turn ih.2 hfresh hrun
      | aside reactor haside hafter =>
          subst hafter
          exact ⟨ih.1.aside haside, ih.2⟩

/-! ## The start -/

theorem rewriteLocation_mints {calls : MintCalls} {now : Nat}
    {context context' : DialContext} {reactor minted : Reactor Service}
    {payload : Bytes} {placement : ProxyPlacement} {rewritten : Option Bytes}
    (hsane : Sane reactor) (hvacant : reactor.handlers.get key = none)
    (hlive : minted.handlers.get key ≠ none)
    (hrun : rewriteLocation calls now context reactor payload placement =
      .ok (context', minted, rewritten)) :
    ∃ location desc rest, parseDialLocationAuthority payload = some location ∧
      isNeverAPeer (.v4 location.endpoint.ip) = false ∧
      namesThisHost calls.hostV4Addrs location.endpoint = false ∧
      reactor.registerWithFds Service.adoptKey
        (.dialDevice (.new placement.target placement.targetIface desc
          location.endpoint rest))
        [((desc.fd : Int), 0), ((rest.fd : Int), 0)] calls.poll
        calls.removed = .ok (minted, .ok key) := by
  have hsame : minted ≠ reactor := by
    rintro rfl
    exact hlive hvacant
  rw [rewriteLocation_eq] at hrun
  obtain ⟨⟨found, next, proxy⟩, hfound, hrun⟩ := except_bind_ok hrun
  cases hrun
  unfold proxyAddress at hfound
  split at hfound
  · cases hfound
    exact absurd rfl hsame
  split at hfound
  · cases hfound
    exact absurd rfl hsame
  next location hlocation =>
    split at hfound
    · cases hfound
      exact absurd rfl hsame
    next hpeer =>
      rw [Bool.not_eq_true] at hpeer
      obtain ⟨⟨left, kept, addr⟩, hproxy, hfound⟩ := except_bind_ok hfound
      cases hfound
      unfold proxyFor at hproxy
      split at hproxy
      · cases hproxy
        exact absurd rfl hsame
      unfold mintProxy at hproxy
      split at hproxy
      · cases hproxy
        exact absurd rfl hsame
      split at hproxy
      · cases hproxy
        exact absurd rfl hsame
      next hhost =>
        rw [Bool.not_eq_true] at hhost
        split at hproxy
        next desc rest hdesc hrest =>
          obtain ⟨⟨registered, answer⟩, hregister, hproxy⟩ :=
            except_bind_ok hproxy
          cases answer with
          | error error =>
              cases hproxy
              have hstanding :=
                (registerWithFds_failed hsane hregister).standing key
              rw [standing_eq_none.mpr hvacant, standing_eq_none] at hstanding
              exact absurd hstanding hlive
          | ok handler =>
              cases hproxy
              have hjoins := registerWithFds_joins hsane hregister
              have hkey : key = handler := by
                by_contra hother
                have hstanding := hjoins.standing key
                rw [if_neg hother, standing_eq_none.mpr hvacant,
                  standing_eq_none] at hstanding
                exact hlive hstanding
              subst hkey
              exact ⟨location, desc, rest, hlocation, hpeer, hhost, hregister⟩
        next =>
          cases hproxy
          exact absurd rfl hsame

theorem MintedBy.upheld {calls : MintCalls} {payload : Bytes}
    (h : MintedBy calls payload key start) :
    ∃ location, parseDialLocationAuthority payload = some location ∧
      isNeverAPeer (.v4 location.endpoint.ip) = false ∧
      namesThisHost calls.hostV4Addrs location.endpoint = false ∧
      Upheld key location.endpoint start := by
  obtain ⟨now, context, reactor, placement, context', rewritten, hsane, hvacant,
    hrewrite, hlive, hlives, hsightings⟩ := h
  obtain ⟨location, desc, rest, hlocation, hpeer, hhost, hregister⟩ :=
    rewriteLocation_mints hsane hvacant hlive hrewrite
  refine ⟨location, hlocation, hpeer, hhost, ?_⟩
  have hstanding := (registerWithFds_joins hsane hregister).standing key
  rw [if_pos rfl] at hstanding
  have hminted : Minted key start.reactor :=
    ⟨_, _, _, _, _, _, _, _, hsane, hregister⟩
  cases minted_resting hminted with
  | gone _ hnone => exact absurd hnone hlive
  | rests proxy regs hentry haccounted =>
      have hproxy : proxy = { DialDeviceProxy.new placement.target
          placement.targetIface desc location.endpoint rest with
            key := some key } := by
        rw [Reactor.standing, hentry] at hstanding
        cases hstanding
        rfl
      have hnone : ∀ connKey, proxy.conns.get connKey = none := by
        intro connKey
        rw [hproxy]
        simp [DialDeviceProxy.new, Arena.new, Arena.get, Arena.slot]
      refine .rests proxy regs hentry ⟨⟨[], haccounted⟩, ?_, ?_, ?_, ?_, ?_⟩
      · intro connKey connection hconn
        rw [hnone] at hconn
        cases hconn
      · rw [hproxy]
        exact Nat.zero_le _
      · intro reg found hfound hkey harmed
        rw [registerWithFds_unarmed hsane hregister hfound hkey] at harmed
        cases harmed
      · rw [hproxy]
        rfl
      · intro learned hlearned
        rw [hproxy] at hlearned
        cases hlearned

/-- Over every run of a minted proxy, whatever its clients and devices send, it
dials the endpoint that its `LOCATION` named, which can name a device and is
none of this host's, or one that an earlier turn adopted from a device. -/
theorem dialed_endpoints_vouched {calls : MintCalls} {payload : Bytes}
    {seen : Observation} (hminted : MintedBy calls payload key start)
    (hrun : Relation.ReflTransGen (Passing key) start seen) :
    ∃ location, parseDialLocationAuthority payload = some location ∧
      isNeverAPeer (.v4 location.endpoint.ip) = false ∧
      namesThisHost calls.hostV4Addrs location.endpoint = false ∧
      Vouched location.endpoint seen.sightings := by
  have hsightings : start.sightings = [] := by
    obtain ⟨_, _, _, _, _, _, _, _, _, _, _, hsightings⟩ := hminted
    exact hsightings
  obtain ⟨location, hlocation, hpeer, hhost, hupheld⟩ := hminted.upheld
  refine ⟨location, hlocation, hpeer, hhost, (hupheld.run ?_ hrun).2⟩
  rw [hsightings]
  exact vouched_nil location.endpoint

/-- At any point of such a run the proxy has no more connections than its bound.
No `expect` fires on what the reactor delivers next, but for an arena whose index
space is exhausted, and it acts on no connection but the one that the event's
descriptor belongs to. -/
theorem delivered_events_belong {calls : MintCalls} {payload : Bytes}
    {seen : Observation} (hminted : MintedBy calls payload key start)
    (hrun : Relation.ReflTransGen (Passing key) start seen)
    (hproxy : proxyAt seen.reactor key = some proxy) :
    proxy.conns.iter.length ≤ maxConnections ∧
      ∀ kernel (calls : ProxyCalls) taken, calls.Fresh proxy →
        Delivered key proxy seen.reactor taken →
        seen.turn kernel calls key taken = .error exhausted ∨
          ∃ after sighting, seen.turn kernel calls key taken = .ok after ∧
            dispatchProxy kernel calls key taken seen.reactor =
              .ok after.reactor ∧
            after.sightings = seen.sightings ++ [sighting] ∧
            ∀ fd clientFd deviceFd,
              .acted fd clientFd deviceFd ∈ sighting.events →
              (fd = clientFd ∨ fd = deviceFd) ∧
                ∃ connKey, ActsOn proxy taken connKey fd clientFd deviceFd := by
  have hsightings : start.sightings = [] := by
    obtain ⟨_, _, _, _, _, _, _, _, _, _, _, hsightings⟩ := hminted
    exact hsightings
  obtain ⟨location, _, _, _, hupheld⟩ := hminted.upheld
  have hvouched : Vouched location.endpoint start.sightings := by
    rw [hsightings]
    exact vouched_nil location.endpoint
  cases (hupheld.run hvouched hrun).1 with
  | gone hsane hnone =>
      rw [proxyAt_none hnone] at hproxy
      cases hproxy
  | rests found regs hentry hsteady =>
      rw [proxyAt_some hentry] at hproxy
      cases hproxy
      refine ⟨hsteady.few, ?_⟩
      intro kernel calls taken hfresh hdelivered
      obtain ⟨stale, haccounted⟩ := hsteady.accounted
      let out : Turn := ⟨proxy, { seen.reactor with
        handlers := seen.reactor.handlers.set key ⟨none, regs⟩ },
        ⟨kernel, []⟩, []⟩
      have hout : Accounted key stale out.proxy out.reactor :=
        haccounted.unchanged (set_handler haccounted.sane hentry none) rfl rfl
          rfl haccounted.wf (fun _ => rfl) fun _ => rfl
      have hdelivers : Delivered key out.proxy out.reactor taken := by
        cases taken with
        | deadline now => exact trivial
        | readable event => exact ⟨hdelivered.watched, hdelivered.opened⟩
        | writable event => exact ⟨hdelivered.watched, hdelivered.opened⟩
      rw [turn_rests hentry]
      have htotal : taken.take calls out = .error exhausted ∨
          ∃ turn', taken.take calls out = .ok turn' :=
        take_total hout hfresh hsteady.living hsteady.deaf rfl hdelivers
      rcases htotal with hpanic | ⟨turn', htake⟩
      · left
        rw [show taken.take calls out = _ from hpanic]
        rfl
      · right
        have hattended : Attended key calls taken seen.lives out turn' :=
          take_attended hout hfresh hsteady.living rfl rfl htake
        rw [show taken.take calls out = _ from htake]
        refine ⟨_, _, rfl, ?_, rfl, ?_⟩
        · rw [← turn_reactor, turn_rests hentry,
            show taken.take calls out = _ from htake]
          rfl
        intro fd clientFd deviceFd hacted
        obtain ⟨connKey, hacts⟩ :=
          hattended.acted fd clientFd deviceFd hacted
        have hbelongs : fd = clientFd ∨ fd = deviceFd :=
          Delivered.belongs hout hsteady.deaf hdelivers hacts
        exact ⟨hbelongs, connKey, hacts⟩

end Runs

/-! ## A run that learns an endpoint -/

def DialDeviceProxy.fds (proxy : DialDeviceProxy) : List Nat :=
  proxy.desc.fd :: proxy.rest.fd :: proxy.conns.slots.flatMap fun slot =>
    slot.value.elim [] fun connection =>
      [connection.client.fd, connection.device.fd]

def ProxyCalls.opensNew (calls : ProxyCalls) (proxy : DialDeviceProxy) : Bool :=
  let opened := (calls.accept.toOption.bind id).toList ++
    (calls.connect.toOption.map Prod.fst).toList
  decide opened.Nodup && opened.all fun fd => decide (fd ∉ proxy.fds)

theorem mem_fds {proxy : DialDeviceProxy} {socket : Socket} {fd : Nat}
    (h : proxy.fdOf socket = some fd) : fd ∈ proxy.fds := by
  have hpool : ∀ connKey connection,
      proxy.conns.get connKey = some connection →
      connection.client.fd ∈ proxy.fds ∧ connection.device.fd ∈ proxy.fds := by
    intro connKey connection hconn
    obtain ⟨slot, hslot, hvalue⟩ := Option.bind_eq_some_iff.mp hconn
    have hmem : slot ∈ proxy.conns.slots :=
      List.mem_of_getElem? (Option.filter_eq_some_iff.mp hslot).1
    simp only [DialDeviceProxy.fds, List.mem_cons, List.mem_flatMap]
    refine ⟨.inr (.inr ⟨slot, hmem, ?_⟩), .inr (.inr ⟨slot, hmem, ?_⟩)⟩
    · simp [hvalue]
    · simp [hvalue]
  cases socket with
  | desc =>
      cases h
      exact List.mem_cons_self
  | rest =>
      cases h
      exact List.mem_cons_of_mem _ List.mem_cons_self
  | client connKey =>
      obtain ⟨connection, hconn, rfl⟩ := Option.map_eq_some_iff.mp h
      exact (hpool connKey connection hconn).1
  | device connKey =>
      obtain ⟨connection, hconn, rfl⟩ := Option.map_eq_some_iff.mp h
      exact (hpool connKey connection hconn).2

theorem fresh_of_opensNew {calls : ProxyCalls} {proxy : DialDeviceProxy}
    (h : calls.opensNew proxy = true) : calls.Fresh proxy := by
  simp only [ProxyCalls.opensNew, Bool.and_eq_true, decide_eq_true_eq,
    List.all_eq_true] at h
  obtain ⟨hnodup, hnew⟩ := h
  constructor
  · intro fd hopens socket hopen
    refine hnew fd ?_ (mem_fds hopen)
    rcases hopens with haccept | ⟨connecting, hconnect⟩
    · simp [haccept, Except.toOption]
    · simp [hconnect, Except.toOption]
  · rintro client device connecting haccept hconnect rfl
    simp [haccept, hconnect, Except.toOption] at hnodup

def Observation.turns (key : Key) :
    List (Kernel × ProxyCalls × ProxyTurn) → Observation → Option Observation
  | [], seen => some seen
  | (kernel, calls, taken) :: turns, seen =>
      if (proxyAt seen.reactor key).all calls.opensNew then
        (seen.turn kernel calls key taken).toOption.bind
          (Observation.turns key turns)
      else none

theorem turns_passing {key : Key} {start seen : Observation}
    {turns : List (Kernel × ProxyCalls × ProxyTurn)}
    (h : start.turns key turns = some seen) :
    Relation.ReflTransGen (Passing key) start seen := by
  induction turns generalizing start with
  | nil =>
      cases h
      exact .refl
  | cons item turns ih =>
      obtain ⟨kernel, calls, taken⟩ := item
      rw [Observation.turns] at h
      split at h
      · rename_i hnew
        obtain ⟨next, hturn, hrest⟩ := Option.bind_eq_some_iff.mp h
        refine .head (.turn kernel calls taken ?_ (toOption_eq_some.mp hturn))
          (ih hrest)
        intro proxy hproxy
        rw [hproxy] at hnew
        exact fresh_of_opensNew hnew
      · cases h

/-- A device that serves its description on one port and its REST service on
another. -/
def screenMessage : Bytes :=
  ascii ("NOTIFY * HTTP/1.1\r\nNT: urn:dial-multiscreen-org:service:dial:1" ++
    "\r\nLOCATION: http://10.0.4.9:8008/dd.xml\r\n\r\n")

def screenResponse : Bytes :=
  ascii ("HTTP/1.1 200 OK\r\nApplication-URL: http://10.0.4.9:8060/apps/\r\n" ++
    "Content-Length: 0\r\n\r\n")

def screenCalls : MintCalls :=
  ⟨.ok [], .ok (3, 40003), .ok (4, 40004), fun _ => none, fun _ => none⟩

def screenPlacement : ProxyPlacement :=
  ⟨⟨0⟩, ⟨[10, 0, 4, 1], rfl⟩, ⟨1⟩, ⟨[10, 0, 5, 1], rfl⟩, none⟩

/-- The device's first answer is its description. -/
def screenKernel : Kernel :=
  { eofKernel true with
    recv := fun position =>
      if position = 0 then .ready screenResponse else .wouldBlock }

/-- A client is accepted for the description, which its device serves, and
another for the REST service. -/
def screenTurns : List (Kernel × ProxyCalls × ProxyTurn) :=
  let kept : ProxyCalls := { idleCalls with hostV4Addrs := .ok [] }
  [(eofKernel true, openCalls, .readable ⟨3, 0⟩),
    (eofKernel true, kept, .writable ⟨6, 0⟩),
    (screenKernel, kept, .readable ⟨6, 0⟩),
    (eofKernel true,
      { kept with accept := .ok (some 7), connect := .ok (8, true) },
      .readable ⟨4, 0⟩)]

def screenStart : Except Panic (Observation × Option Bytes) := do
  let (_, reactor, rewritten) ← rewriteLocation screenCalls 0 .new
    Reactor.new screenMessage screenPlacement
  .ok (⟨reactor, fun _ => [], []⟩, rewritten)

def Sighting.dials (sighting : Sighting) : List SocketAddrV4 :=
  sighting.events.filterMap fun
    | .dialed endpoint => some endpoint
    | _ => none

theorem screen_run :
    ∃ start seen proxy, MintedBy screenCalls screenMessage ⟨0, 0⟩ start ∧
      Relation.ReflTransGen (Passing ⟨0, 0⟩) start seen ∧
      proxyAt seen.reactor ⟨0, 0⟩ = some proxy ∧
      seen.sightings.map (fun sighting => sighting.dials.map (·.port)) =
        [[8008], [], [], [8060]] ∧
      seen.reactor.registrations.get ⟨3, 0⟩ =
        some ⟨6, ⟨0, 0⟩, true, false, 0⟩ ∧
      proxy.fdOf (.device ⟨0, 0⟩) = some 6 := by
  have hview : screenStart.toOption.bind (fun answer =>
      (answer.1.turns ⟨0, 0⟩ screenTurns).bind fun seen =>
        (proxyAt seen.reactor ⟨0, 0⟩).map fun proxy =>
          (answer.1.reactor.handlers.contains ⟨0, 0⟩,
            seen.sightings.map fun sighting => sighting.dials.map (·.port),
            seen.reactor.registrations.get ⟨3, 0⟩,
            proxy.fdOf (.device ⟨0, 0⟩))) =
      some (true, [[8008], [], [], [8060]],
        some ⟨6, ⟨0, 0⟩, true, false, 0⟩, some 6) := by
    decide +kernel
  obtain ⟨⟨start, rewritten⟩, hstart, hview⟩ :=
    Option.bind_eq_some_iff.mp hview
  obtain ⟨seen, hturns, hview⟩ := Option.bind_eq_some_iff.mp hview
  obtain ⟨proxy, hproxy, hview⟩ := Option.map_eq_some_iff.mp hview
  simp only [Prod.mk.injEq] at hview
  obtain ⟨hlive, hdials, hfound, hdevice⟩ := hview
  obtain ⟨⟨context, reactor, rewritten⟩, hrewrite, hsame⟩ :=
    except_bind_ok (toOption_eq_some.mp hstart)
  cases hsame
  refine ⟨_, seen, proxy, ⟨0, .new, Reactor.new, screenPlacement, context,
    rewritten, sane_new, rfl, hrewrite, ?_, rfl, rfl⟩, turns_passing hturns,
    hproxy, hdials, hfound, hdevice⟩
  intro hnone
  rw [Arena.contains, hnone] at hlive
  cases hlive

/-- The client is dialed through to the `LOCATION`'s port, and the next one to
that of the `Application-URL`. -/
theorem dialed_endpoints_vouched_screen :
    ∃ start seen location, MintedBy screenCalls screenMessage ⟨0, 0⟩ start ∧
      Relation.ReflTransGen (Passing ⟨0, 0⟩) start seen ∧
      seen.sightings.map (fun sighting => sighting.dials.map (·.port)) =
        [[8008], [], [], [8060]] ∧
      parseDialLocationAuthority screenMessage = some location ∧
      Vouched location.endpoint seen.sightings := by
  obtain ⟨start, seen, _, hminted, hrun, _, hdials, _⟩ := screen_run
  obtain ⟨location, hlocation, _, _, hvouched⟩ :=
    dialed_endpoints_vouched hminted hrun
  exact ⟨start, seen, location, hminted, hrun, hdials, hlocation, hvouched⟩

/-- What the device's socket has to read by then. -/
theorem delivered_events_belong_screen :
    ∃ start seen proxy, MintedBy screenCalls screenMessage ⟨0, 0⟩ start ∧
      Relation.ReflTransGen (Passing ⟨0, 0⟩) start seen ∧
      proxyAt seen.reactor ⟨0, 0⟩ = some proxy ∧
      proxy.conns.iter.length ≤ maxConnections ∧
      ∀ kernel, seen.turn kernel idleCalls ⟨0, 0⟩ (.readable ⟨6, 0⟩) =
          .error exhausted ∨
        ∃ after sighting,
          seen.turn kernel idleCalls ⟨0, 0⟩ (.readable ⟨6, 0⟩) = .ok after ∧
          dispatchProxy kernel idleCalls ⟨0, 0⟩ (.readable ⟨6, 0⟩)
            seen.reactor = .ok after.reactor ∧
          after.sightings = seen.sightings ++ [sighting] ∧
          ∀ fd clientFd deviceFd,
            .acted fd clientFd deviceFd ∈ sighting.events →
            (fd = clientFd ∨ fd = deviceFd) ∧
              ∃ connKey, ActsOn proxy (.readable ⟨6, 0⟩) connKey fd clientFd
                deviceFd := by
  obtain ⟨start, seen, proxy, hminted, hrun, hproxy, _, hfound, hdevice⟩ :=
    screen_run
  obtain ⟨hfew, hdelivered⟩ := delivered_events_belong hminted hrun hproxy
  refine ⟨start, seen, proxy, hminted, hrun, hproxy, hfew, fun kernel => ?_⟩
  apply hdelivered kernel idleCalls _ (fresh_idle proxy)
  exact ⟨⟨_, _, hfound, rfl, rfl, rfl, nofun⟩, _, 6, hdevice, rfl⟩

end Netflector.Reflector.Dial
