import Netflector.Dispatch.Enrolled
import Netflector.Dispatch.Standing

/-!
# The registry of a running daemon

The registry matches the live proxies in every state that a packet is routed
in, however packets, turns of the proxies, sweeps and interface changes follow
one another.
-/

namespace Netflector.Dispatch

open Netflector.Foundation
open Netflector.Net
open Netflector.Reactor
open Netflector.Reflector
open Netflector.Reflector.Dial

/-! ## Addresses -/

theorem v4Of_footing (table : InterfaceTable) (capture : CaptureKey) :
    table.v4Of capture = (table.footingOf capture).bind (·.v4) := by
  rw [InterfaceTable.v4Of, egressAddrs_entry, footingOf_entry]
  cases (table.interfaceOf capture).bind table.entry with
  | none => rfl
  | some entry => rfl

def Unmoved (before after : InterfaceTable) (key : DialProxyKey) : Prop :=
  after.v4Of key.source = before.v4Of key.source ∧
    after.v4Of key.target = before.v4Of key.target

theorem Enrolled.unmoved {before after : InterfaceTable}
    {context : DialContext} {reactor : Reactor Service}
    (h : Enrolled before context reactor)
    (hunmoved : ∀ item ∈ context.proxies.entries,
      Unmoved before after item.1) : Enrolled after context reactor := by
  refine ⟨h.sane, h.rested, h.len, h.peers, ?_, h.listed, h.once⟩
  intro key entry hmem service hservice
  obtain ⟨proxy, hproxy, hplaced⟩ := h.named key entry hmem service hservice
  obtain ⟨hsource, htarget⟩ := hunmoved _ hmem
  refine ⟨proxy, hproxy, hplaced.own, hplaced.endpoint, hplaced.listener,
    ?_, ?_, ?_⟩
  · rw [hsource]
    exact hplaced.source
  · rw [hsource]
    exact hplaced.rest
  · rw [htarget]
    exact hplaced.target

theorem Enrolled.resting {before after : InterfaceTable}
    {context : DialContext} {reactor : Reactor Service}
    (h : Enrolled before context reactor) (hresting : before.Resting after) :
    Enrolled after context reactor := by
  have hsame : ∀ capture, after.v4Of capture = before.v4Of capture := by
    intro capture
    rw [v4Of_footing, v4Of_footing, hresting.footingOf]
  exact h.unmoved fun item _ => ⟨hsame _, hsame _⟩

/-! ## A proxy's turn -/

theorem Placed.sameProxy {table : InterfaceTable} {key : DialProxyKey}
    {entry : DialEntry} {proxy proxy' : DialDeviceProxy}
    (h : Placed table key entry proxy) (hsame : SameProxy proxy proxy') :
    Placed table key entry proxy' := by
  rw [SameProxy] at hsame
  rw [hsame]
  exact ⟨h.own, h.endpoint, h.listener, h.source, h.rest, h.target⟩

theorem Enrolled.turned {table : InterfaceTable} {context : DialContext}
    {reactor after : Reactor Service} {key : Key} {proxy : DialDeviceProxy}
    (h : Enrolled table context reactor) (hsane : Sane after)
    (hstanding : reactor.standing key = some (some (.dialDevice proxy)))
    (hself : after.standing key = none ∨ ∃ proxy', SameProxy proxy proxy' ∧
      after.standing key = some (some (.dialDevice proxy')))
    (hothers : ∀ other, other ≠ key →
      after.standing other = reactor.standing other) :
    Enrolled table context after := by
  have hstands : ∀ other, after.standing other ≠ none →
      reactor.standing other ≠ none := by
    intro other hlive
    by_cases hother : other = key
    · rw [hother, hstanding]
      exact Option.some_ne_none _
    · rw [← hothers other hother]
      exact hlive
  constructor
  · exact hsane
  · intro other
    by_cases hother : other = key
    · rw [hother]
      rcases hself with hgone | ⟨proxy', _, hback⟩
      · rw [hgone]
        exact nofun
      · rw [hback]
        exact nofun
    · rw [hothers other hother]
      exact h.rested other
  · exact h.len
  · exact h.peers
  · intro own entry hmem service hservice
    by_cases hother : entry.handler = key
    · obtain ⟨found, hfound, hplaced⟩ :=
        h.named own entry hmem _ (by rw [hother]; exact hstanding)
      cases hfound
      rw [hother] at hservice
      rcases hself with hgone | ⟨proxy', hsame, hback⟩
      · rw [hgone] at hservice
        cases hservice
      · rw [hback] at hservice
        cases hservice
        exact ⟨proxy', rfl, hplaced.sameProxy hsame⟩
    · rw [hothers _ hother] at hservice
      exact h.named own entry hmem service hservice
  · intro handler proxy' hlive
    by_cases hother : handler = key
    · obtain ⟨own, entry, hmem, hhandler⟩ := h.listed key proxy hstanding
      exact ⟨own, entry, hmem, hhandler.trans hother.symm⟩
    · rw [hothers handler hother] at hlive
      exact h.listed handler proxy' hlive
  · intro own entry own' entry' hmem hmem' hhandler hlive
    exact h.once own entry own' entry' hmem hmem' hhandler
      (hstands entry.handler hlive)

theorem dispatchProxy_enrolled {table : InterfaceTable}
    {context : DialContext} {reactor after : Reactor Service}
    {kernel : Kernel} {calls : ProxyCalls} {key : Key} {taken : ProxyTurn}
    (h : Enrolled table context reactor)
    (hrun : dispatchProxy kernel calls key taken reactor = .ok after) :
    Enrolled table context after := by
  obtain ⟨hsane, htaken, hout⟩ := takeHandler_standing h.sane key
  unfold dispatchProxy at hrun
  cases htake : reactor.takeHandler key with
  | mk out service =>
      rw [htake] at hsane htaken hout hrun
      dsimp only at hsane htaken hout hrun
      cases service with
      | none =>
          cases hrun
          have hnone : reactor.standing key = none := by
            cases hstanding : reactor.standing key with
            | none => rfl
            | some handler =>
                rw [hstanding, Option.join_some] at htaken
                subst htaken
                exact absurd hstanding (h.rested key)
          refine h.sameHandlers ⟨hsane, ?_⟩
          intro other
          rw [hout, hnone]
          by_cases hother : other = key
          · rw [if_pos hother, hother, hnone]
            rfl
          · rw [if_neg hother]
      | some service =>
          have hstanding : reactor.standing key = some (some service) := by
            cases hstanding : reactor.standing key with
            | none =>
                rw [hstanding] at htaken
                cases htaken
            | some handler =>
                rw [hstanding, Option.join_some] at htaken
                rw [← htaken]
          cases service with
          | startup =>
              cases hrun
              refine h.sameHandlers ⟨restoreHandler_sane hsane key _, ?_⟩
              intro other
              rw [restoreHandler_standing, hout, hout, if_pos rfl]
              by_cases hother : other = key
              · rw [if_pos hother, hother, hstanding]
                rfl
              · rw [if_neg hother, if_neg hother]
          | dialDevice proxy =>
              obtain ⟨turn, hturn, hrun⟩ := except_bind_ok hrun
              cases hrun
              obtain ⟨own, entry, hmem, hhandler⟩ :=
                h.listed key proxy hstanding
              obtain ⟨found, hfound, hplaced⟩ :=
                h.named own entry hmem _ (by rw [hhandler]; exact hstanding)
              cases hfound
              have hkey : proxy.key = some key := by
                rw [hplaced.own, hhandler]
              have hbehaves : Behaves key ⟨proxy, out, ⟨kernel, []⟩, []⟩
                  turn := take_behaves hsane hkey hturn
              refine h.turned
                (restoreHandler_sane hbehaves.sane key _) hstanding ?_ ?_
              · rw [restoreHandler_standing, if_pos rfl]
                rcases hbehaves.own with hsame | hgone
                · rw [hsame, hout, if_pos rfl, hstanding]
                  exact .inr ⟨turn.proxy, hbehaves.proxy, rfl⟩
                · rw [hgone]
                  exact .inl rfl
              · intro other hother
                rw [restoreHandler_standing, if_neg hother,
                  hbehaves.others other hother, hout, if_neg hother]

/-! ## Packets -/

def Daemon.Enlisted (daemon : Daemon) : Prop :=
  Enrolled daemon.dispatcher.table daemon.dispatcher.dial daemon.reactor

theorem Daemon.Enlisted.resting {daemon after : Daemon} (h : daemon.Enlisted)
    (hdial : after.dispatcher.dial = daemon.dispatcher.dial)
    (hreactor : after.reactor = daemon.reactor)
    (hresting : daemon.dispatcher.table.Resting after.dispatcher.table) :
    after.Enlisted := by
  rw [Daemon.Enlisted, hdial, hreactor]
  exact Enrolled.resting h hresting

theorem placementFor_situated {table : InterfaceTable}
    {egress target : CaptureKey} {placement : ProxyPlacement}
    (h : placementFor table egress target = some placement) :
    Situated table placement := by
  obtain ⟨source, hsource, h⟩ := Option.bind_eq_some_iff.mp h
  obtain ⟨address, htarget, h⟩ := Option.bind_eq_some_iff.mp h
  cases h
  exact ⟨hsource, htarget⟩

theorem rewrite_enlisted {calls : PacketCalls} {rewrite : ReplyRewrite}
    {packet : Packet} {egress : CaptureKey} {daemon after : Daemon}
    {made : Rewrite} (h : daemon.Enlisted)
    (hrun : rewrite.rewrite calls packet egress daemon = .ok (after, made)) :
    after.Enlisted := by
  cases rewrite with
  | noRewrite =>
      cases hrun
      exact h
  | services filter =>
      cases hrun
      exact h
  | responses gate =>
      cases hrun
      exact h
  | dial target =>
      simp only [ReplyRewrite.rewrite] at hrun
      split at hrun
      · cases hrun
        exact h
      next placement hplacement =>
        obtain ⟨⟨context, reactor, rewritten⟩, hrewrite, hrun⟩ :=
          except_bind_ok hrun
        cases hrun
        exact rewriteLocation_enrolled h (placementFor_situated hplacement)
          hrewrite

theorem PacketDispatcher.Reregistered.dial {before after : PacketDispatcher}
    (h : before.Reregistered after) : after.dial = before.dial := by
  rw [h]

theorem Acted.dial {digest : MacAddr → Datagram → UInt64} {own : Key}
    {calls : PacketCalls} {reflector after : SearchReflector}
    {packet : Packet} {dispatcher left : PacketDispatcher}
    (h : Acted digest own calls reflector packet dispatcher after left)
    (hwf : dispatcher.registrations.Wf) : left.dial = dispatcher.dial := by
  have hregister : ∀ {made : PacketDispatcher} {filter : Filter}
      {handler : PacketHandler} {responseKey : Key},
      dispatcher.register reflector.target filter handler =
        .ok (made, responseKey) → made.dial = dispatcher.dial := by
    intro made filter handler responseKey hmade
    rw [(register_ok hwf hmade).2.2.2]
  cases h with
  | passed left hsent => rw [hsent.rest]
  | extended left session expiry hsession hsent => rw [hsent.rest]
  | opened made left destination ourAddr port responseKey expiry _ _ _ _ _
      hmade hfirst =>
      have hmadeDial := hregister hmade
      rw [(delivery_sent digest calls.inject hfirst).rest]
      exact hmadeDial
  | rolledBack made left filter handler responseKey hmade hsent =>
      have hmadeDial := hregister hmade
      change left.dial = dispatcher.dial
      rw [hsent.rest]
      exact hmadeDial

theorem Daemon.Enlisted.routed {digest : MacAddr → Datagram → UInt64}
    {calls : PacketCalls} {packet : Packet} {key : Key}
    {daemon after : Daemon} (h : daemon.Enlisted)
    (hwf : daemon.dispatcher.registrations.Wf)
    (hrouted : Routed digest calls packet key daemon after) :
    after.Enlisted := by
  have htaken := takeHandler_rest daemon.dispatcher key
  have hstart : Daemon.Enlisted { daemon with
      dispatcher := (daemon.dispatcher.takeHandler key).1 } := by
    refine h.resting ?_ rfl ?_
    · rw [htaken]
    · rw [htaken.table]
      exact .refl _
  cases hrouted with
  | simple registration handler leg left outcome hget hhandler hleg hcalled =>
      have hleft : left.Enlisted := by
        obtain rfl | ⟨rewritten, made, hrewrite, hsent, hreactor⟩ :=
          simple_onPacket_cases hcalled
        · exact hstart
        · refine (rewrite_enlisted hstart hrewrite).resting ?_ hreactor
            hsent.table
          rw [hsent.rest]
      have hrestored := restoreHandler_rest left.dispatcher key handler
      refine hleft.resting ?_ rfl ?_
      · rw [hrestored]
      · rw [hrestored.table]
        exact .refl _
  | search registration creator reflector searched left hget hhandler
      hacted =>
      have hrestored := restoreHandler_rest left key
        ⟨.search searched, creator⟩
      have hresting := hacted.resting (taken_wf hwf key)
      refine hstart.resting ?_ rfl ?_
      · rw [hrestored]
        exact hacted.dial (taken_wf hwf key)
      · rw [hrestored.table]
        exact hresting

structure Daemon.Consistent (daemon : Daemon) : Prop where
  anchored : daemon.Anchored
  enlisted : daemon.Enlisted

theorem Daemon.Consistent.routeEach {digest : MacAddr → Datagram → UInt64}
    {calls : Key → PacketCalls} {ingress : CaptureKey} {packet : Packet}
    {addrs : Option InterfaceAddresses} (keys : List Key)
    {daemon after : Daemon} (h : daemon.Consistent)
    (hafter : Dispatch.routeEach digest calls ingress packet addrs keys
      daemon = .ok after) : after.Consistent := by
  induction keys generalizing daemon with
  | nil =>
      cases hafter
      exact h
  | cons key keys ih =>
      simp only [Dispatch.routeEach] at hafter
      split at hafter
      · obtain ⟨middle, hmiddle, hrest⟩ := except_bind_ok hafter
        have hrouted := routeTo_routed hmiddle
        exact ih ⟨h.anchored.routed hrouted,
          h.enlisted.routed h.anchored.matched.wf hrouted⟩ hrest
      · exact ih h hafter

theorem Daemon.Consistent.resting {daemon after : Daemon}
    (h : daemon.Consistent)
    (hregistrations : after.dispatcher.registrations =
      daemon.dispatcher.registrations)
    (hdial : after.dispatcher.dial = daemon.dispatcher.dial)
    (hreactor : after.reactor = daemon.reactor)
    (hresting : daemon.dispatcher.table.Resting after.dispatcher.table) :
    after.Consistent :=
  ⟨h.anchored.resting hregistrations hresting,
    h.enlisted.resting hdial hreactor hresting⟩

theorem Daemon.Consistent.route {digest : MacAddr → Datagram → UInt64}
    {calls : Key → PacketCalls} {ingress : CaptureKey} {packet : Packet}
    {daemon after : Daemon} (h : daemon.Consistent)
    (hafter : Dispatch.route digest calls ingress packet daemon =
      .ok after) : after.Consistent := by
  simp only [Dispatch.route] at hafter
  split at hafter
  · cases hafter
    exact h
  · obtain ⟨middle, hmiddle, hrest⟩ := except_bind_ok hafter
    cases hrest
    have hbegun : Daemon.Consistent { daemon with dispatcher :=
        { daemon.dispatcher with
          egress := daemon.dispatcher.egress.beginPacket } } :=
      h.resting rfl rfl rfl (.refl _)
    exact (hbegun.routeEach _ hmiddle).resting rfl rfl rfl (.refl _)

/-! ## Interface changes -/

theorem evictRebuilt_enrolled {table : InterfaceTable} (poll : Reactor.Poll)
    (rebuilt : List Rebuilt) (changed : List CaptureKey)
    {context : DialContext} {reactor : Reactor Service}
    (h : Enrolled table context reactor) :
    Enrolled table (evictRebuilt poll rebuilt changed context reactor).2.1
        (evictRebuilt poll rebuilt changed context reactor).2.2 ∧
      ∀ item ∈ (evictRebuilt poll rebuilt changed context
          reactor).2.1.proxies.entries,
        item ∈ context.proxies.entries ∧ ∀ moved ∈ rebuilt,
          item.1.source ∉ moved.captures ∧ item.1.target ∉ moved.captures := by
  induction rebuilt generalizing changed context reactor with
  | nil => exact ⟨h, fun item hmem => ⟨hmem, nofun⟩⟩
  | cons first rest ih =>
      obtain ⟨hfirst, hspared⟩ :=
        evictOnInterfaceChange_enrolled h poll first.captures
      rw [evictRebuilt]
      obtain ⟨henrolled, hleft⟩ := ih _ hfirst
      refine ⟨henrolled, ?_⟩
      intro item hmem
      obtain ⟨hmiddle, hrest⟩ := hleft item hmem
      obtain ⟨hold, hsource, htarget⟩ := hspared item hmiddle
      refine ⟨hold, ?_⟩
      intro moved hmoved
      rcases List.mem_cons.mp hmoved with rfl | hlater
      · exact ⟨hsource, htarget⟩
      · exact hrest moved hlater

theorem afterRepair_enlisted {before : InterfaceTable} {poll : Reactor.Poll}
    {touched : List CaptureKey} {rebuilt : List Rebuilt} {repaired : Daemon}
    (h : Enrolled before repaired.dispatcher.dial repaired.reactor)
    (hkept : ∀ item ∈ repaired.dispatcher.dial.proxies.entries,
      (∀ moved ∈ rebuilt, item.1.source ∉ moved.captures ∧
        item.1.target ∉ moved.captures) →
      Unmoved before repaired.dispatcher.table item.1) :
    (Dispatch.afterRepair poll touched rebuilt repaired).Enlisted := by
  obtain ⟨henrolled, hleft⟩ := evictRebuilt_enrolled poll rebuilt touched h
  simp only [Dispatch.afterRepair]
  generalize evictRebuilt poll rebuilt touched repaired.dispatcher.dial
    repaired.reactor = answer at *
  obtain ⟨changed, context, reactor⟩ := answer
  dsimp only at henrolled hleft ⊢
  have hrest : PacketDispatcher.Reregistered
      { repaired.dispatcher with dial := context }
      (notifyIfaceChange changed
        { repaired.dispatcher with dial := context }) := by
    rw [notifyIfaceChange]
    split
    · rfl
    · exact callEach_rest (onIfaceChange_ends changed) _ _
  rw [Daemon.Enlisted, hrest]
  refine henrolled.unmoved ?_
  intro item hmem
  obtain ⟨hold, hspared⟩ := hleft item hmem
  exact hkept item hold hspared

theorem v4Of_of_footing {before after : InterfaceTable}
    {capture : CaptureKey}
    (h : after.footingOf capture = before.footingOf capture) :
    after.v4Of capture = before.v4Of capture := by
  rw [v4Of_footing, v4Of_footing, h]

theorem reconcileInterfaces_enlisted {daemon : Daemon} (h : daemon.Consistent)
    (platform : Platform) (calls : RepairCalls) (now : Nat) :
    (Dispatch.reconcileInterfaces platform calls now daemon).Enlisted := by
  have hreconciled := reconcile_reconciled platform calls.reconcile
    daemon.dispatcher.lifecycle h.anchored.settled (now + calls.elapsed)
  refine afterRepair_enlisted h.enlisted ?_
  intro item _ hspared
  exact ⟨v4Of_of_footing (hreconciled.kept _ fun moved hmem =>
      (hspared moved hmem).1),
    v4Of_of_footing (hreconciled.kept _ fun moved hmem =>
      (hspared moved hmem).2)⟩

theorem Changes.Reports.v4Of {changes : Changes}
    {before after : InterfaceTable} (h : changes.Reports before after)
    {capture : CaptureKey} (hnot : capture ∉ changes.v4Moved) :
    after.v4Of capture = before.v4Of capture := by
  have hv4 := h.v4 capture hnot
  rw [v4Of_footing, v4Of_footing]
  cases hafter : after.footingOf capture <;>
    cases hbefore : before.footingOf capture <;>
    simp_all

theorem applyInterfaceChanges_enlisted {daemon changed : Daemon}
    (h : daemon.Consistent) {changes : Changes}
    (hdial : changed.dispatcher.dial = daemon.dispatcher.dial)
    (hreactor : changed.reactor = daemon.reactor)
    (hsettled : changed.dispatcher.table.Settled)
    (hreports : changes.Reports daemon.dispatcher.table
      changed.dispatcher.table)
    (platform : Platform) (calls : RepairCalls) (now : Nat) :
    (Dispatch.applyInterfaceChanges platform calls now changes
      changed).Enlisted := by
  have henlisted := h.enlisted
  rw [Daemon.Enlisted, ← hdial, ← hreactor] at henlisted
  obtain ⟨hevicted, hleft⟩ := evictOnInterfaceChange_enrolled henlisted
    calls.poll changes.v4Moved
  simp only [Dispatch.applyInterfaceChanges]
  by_cases hreconcile : changes.reconcile = true
  · have hreconciled := reconcile_reconciled platform calls.reconcile
      changed.dispatcher.lifecycle hsettled (now + calls.elapsed)
    simp only [hreconcile, if_true]
    refine afterRepair_enlisted hevicted ?_
    intro item hmem hspared
    obtain ⟨_, hsource, htarget⟩ := hleft item hmem
    constructor
    · refine (v4Of_of_footing (hreconciled.kept _ fun moved hmem =>
        (hspared moved hmem).1)).trans (hreports.v4Of hsource)
    · refine (v4Of_of_footing (hreconciled.kept _ fun moved hmem =>
        (hspared moved hmem).2)).trans (hreports.v4Of htarget)
  · simp only [hreconcile, if_false, Bool.false_eq_true]
    refine afterRepair_enlisted hevicted ?_
    intro item hmem _
    obtain ⟨_, hsource, htarget⟩ := hleft item hmem
    exact ⟨hreports.v4Of hsource, hreports.v4Of htarget⟩

theorem Daemon.Consistent.monitor {daemon : Daemon} (h : daemon.Consistent)
    (platform : Platform) (events : List InterfaceEvent) (now : Nat)
    (calls : RefreshCalls) (repair : RepairCalls) :
    (refreshChangedInterfaces platform calls repair events now
      daemon).Consistent := by
  refine ⟨(h.anchored.monitor platform events now calls repair).anchored, ?_⟩
  refine applyInterfaceChanges_enlisted h ?_ ?_ ?_ ?_ platform repair now
  · rfl
  · rfl
  · exact drain_settled h.anchored.settled platform calls
      daemon.dispatcher.lifecycle events now
  · exact drain_reports platform calls daemon.dispatcher.lifecycle events
      daemon.dispatcher.table now

/-! ## Deadlines -/

theorem Daemon.Consistent.swept {daemon : Daemon} (h : daemon.Consistent)
    (calls : DeadlineCalls) (now : Nat) :
    (Dispatch.swept calls now daemon).Consistent ∧
      ∀ item ∈ (Dispatch.swept calls now
          daemon).dispatcher.dial.proxies.entries,
        now < item.2.descGrace := by
  have hrest := callEach_rest (onDeadlineOf_ends now)
    ((daemon.dispatcher.handlers.filter fun item =>
      item.2.nextDeadline.any (· ≤ now)).map Prod.fst) daemon.dispatcher
  have hdial : (daemon.dispatcher.sweepHandlers now).dial =
      daemon.dispatcher.dial := hrest.dial
  have htable : (daemon.dispatcher.sweepHandlers now).table =
      daemon.dispatcher.table := hrest.table
  obtain ⟨henrolled, hleft⟩ := sweep_enrolled h.enlisted now calls.poll
  rw [← hdial] at henrolled hleft
  refine ⟨⟨(h.anchored.swept calls now).anchored, ?_⟩, hleft⟩
  rw [← htable] at henrolled
  exact henrolled

theorem Daemon.Consistent.recheckDue {daemon : Daemon}
    (h : daemon.Consistent) (platform : Platform) (calls : DeadlineCalls)
    (now : Nat) : (Dispatch.recheckDue platform calls now daemon).Consistent := by
  refine ⟨(h.anchored.recheckDue platform calls now).anchored, ?_⟩
  simp only [Dispatch.recheckDue]
  split
  · refine applyInterfaceChanges_enlisted h ?_ ?_ ?_ ?_ platform calls.repair
      now
    · rfl
    · rfl
    · exact recheck_settled h.anchored.settled platform calls.recheck
        daemon.dispatcher.lifecycle now
    · exact recheck_reports platform calls.recheck
        daemon.dispatcher.lifecycle daemon.dispatcher.table now
  · exact h.enlisted

theorem retryDue_eq (platform : Platform) (calls : DeadlineCalls) (now : Nat)
    (daemon : Daemon) :
    retryDue platform calls now daemon =
      if (retried platform calls now daemon.dispatcher.table).2 ||
          decide (daemon.dispatcher.lifecycle.nextReconcile ≤ now) then
        reconcileInterfaces platform calls.reconcile now
          { daemon with dispatcher := { daemon.dispatcher with
            table := (retried platform calls now daemon.dispatcher.table).1 } }
      else { daemon with dispatcher := { daemon.dispatcher with
        table := (retried platform calls now daemon.dispatcher.table).1 } } :=
  rfl

theorem Daemon.Consistent.retryDue {daemon : Daemon} (h : daemon.Consistent)
    (platform : Platform) (calls : DeadlineCalls) (now : Nat) :
    (Dispatch.retryDue platform calls now daemon).Consistent := by
  refine ⟨(h.anchored.retryDue platform calls now).anchored, ?_⟩
  obtain ⟨hsettled, hfooting⟩ :=
    retried_steady h.anchored.settled platform calls now
  have hretried : Daemon.Consistent { daemon with dispatcher :=
      { daemon.dispatcher with
        table := (retried platform calls now daemon.dispatcher.table).1 } } := by
    refine ⟨h.anchored.steady rfl hsettled hfooting, ?_⟩
    exact h.enlisted.unmoved fun item _ =>
      ⟨v4Of_of_footing (hfooting _), v4Of_of_footing (hfooting _)⟩
  rw [retryDue_eq]
  split
  · exact reconcileInterfaces_enlisted hretried platform calls.reconcile now
  · exact hretried.enlisted

/-! ### No deadline makes an entry -/

def Daemon.OnlyDrops (before after : Daemon) : Prop :=
  ∀ item ∈ after.dispatcher.dial.proxies.entries,
    item ∈ before.dispatcher.dial.proxies.entries

theorem evictRebuilt_onlyDrops (poll : Reactor.Poll) (rebuilt : List Rebuilt)
    (changed : List CaptureKey) (context : DialContext)
    (reactor : Reactor Service) :
    ∀ item ∈ (evictRebuilt poll rebuilt changed context
      reactor).2.1.proxies.entries, item ∈ context.proxies.entries := by
  induction rebuilt generalizing changed context reactor with
  | nil => exact fun item hmem => hmem
  | cons first rest ih =>
      intro item hmem
      rw [evictRebuilt] at hmem
      have hfirst := ih _ _ _ item hmem
      exact (LinearMap.mem_retain.mp hfirst).1

theorem afterRepair_onlyDrops (poll : Reactor.Poll)
    (touched : List CaptureKey) (rebuilt : List Rebuilt) (repaired : Daemon) :
    repaired.OnlyDrops (afterRepair poll touched rebuilt repaired) := by
  intro item hmem
  simp only [afterRepair, notifyIfaceChange] at hmem
  refine evictRebuilt_onlyDrops poll rebuilt touched
    repaired.dispatcher.dial repaired.reactor item ?_
  split at hmem
  · exact hmem
  · rw [(callEach_rest (onIfaceChange_ends _) _ _).dial] at hmem
    exact hmem

theorem reconcileInterfaces_onlyDrops (platform : Platform)
    (calls : RepairCalls) (now : Nat) (daemon : Daemon) :
    daemon.OnlyDrops (reconcileInterfaces platform calls now daemon) := by
  intro item hmem
  simp only [reconcileInterfaces] at hmem
  have hrepaired := afterRepair_onlyDrops _ _ _ _ item hmem
  exact hrepaired

theorem recheckDue_onlyDrops (platform : Platform) (calls : DeadlineCalls)
    (now : Nat) (daemon : Daemon) :
    daemon.OnlyDrops (recheckDue platform calls now daemon) := by
  intro item hmem
  simp only [recheckDue] at hmem
  split at hmem
  · simp only [applyInterfaceChanges] at hmem
    have hevicted := afterRepair_onlyDrops _ _ _ _ item hmem
    exact (LinearMap.mem_retain.mp hevicted).1
  · exact hmem

theorem retryDue_onlyDrops (platform : Platform) (calls : DeadlineCalls)
    (now : Nat) (daemon : Daemon) :
    daemon.OnlyDrops (retryDue platform calls now daemon) := by
  intro item hmem
  rw [retryDue_eq] at hmem
  split at hmem
  · have hreconciled := reconcileInterfaces_onlyDrops _ _ _ _ item hmem
    exact hreconciled
  · exact hmem

theorem Daemon.Consistent.deadline {daemon : Daemon} (h : daemon.Consistent)
    (platform : Platform) (calls : DeadlineCalls) (now : Nat) :
    (onDeadline platform calls now daemon).Consistent ∧
      ∀ item ∈ (onDeadline platform calls now
          daemon).dispatcher.dial.proxies.entries,
        now < item.2.descGrace := by
  rw [onDeadline_eq]
  obtain ⟨hswept, hgrace⟩ := h.swept calls now
  have hrechecked := hswept.recheckDue platform calls now
  refine ⟨hrechecked.retryDue platform calls now, ?_⟩
  intro item hmem
  have hmiddle := retryDue_onlyDrops platform calls now _ item hmem
  exact hgrace item (recheckDue_onlyDrops platform calls now _ item hmiddle)

/-! ## Runs -/

theorem consistent_invariant (platform : Platform)
    (digest : MacAddr → Datagram → UInt64) :
    Daemon.Invariant platform digest Daemon.Consistent where
  route _ _ _ _ _ h hafter := h.route hafter
  resting _ _ h hresting := h.resting rfl rfl rfl hresting
  reassembly _ _ h := h.resting rfl rfl rfl (.refl _)
  lost _ _ h := h.resting rfl rfl rfl (.refl _)
  monitor calls repair events now _ h :=
    h.monitor platform events now calls repair
  deadline calls now _ h := (h.deadline platform calls now).1
  proxy _ _ _ _ _ _ h hrun :=
    ⟨h.anchored.resting rfl (.refl _), dispatchProxy_enrolled h.enlisted hrun⟩

/-- Before the reactor runs there is no proxy, and nothing is out for a
call. -/
structure Daemon.Proxyless (daemon : Daemon) : Prop where
  sane : Sane daemon.reactor
  services : ∀ handler, daemon.reactor.standing handler = none ∨
    daemon.reactor.standing handler = some (some .startup)
  none : daemon.dispatcher.dial.proxies.entries = []

theorem Daemon.Proxyless.enlisted {daemon : Daemon} (h : daemon.Proxyless) :
    daemon.Enlisted := by
  have hempty : ∀ item, item ∉ daemon.dispatcher.dial.proxies.entries := by
    intro item
    rw [h.none]
    exact List.not_mem_nil
  constructor
  · exact h.sane
  · intro handler hout
    rcases h.services handler with hnone | hstartup
    · rw [hnone] at hout
      cases hout
    · rw [hstartup] at hout
      cases hout
  · rw [LinearMap.len, h.none]
    exact Nat.zero_le _
  · intro key entry hmem
    exact absurd hmem (hempty _)
  · intro key entry hmem
    exact absurd hmem (hempty _)
  · intro handler proxy hlive
    rcases h.services handler with hnone | hstartup
    · rw [hnone] at hlive
      cases hlive
    · rw [hstartup] at hlive
      cases hlive
  · intro key entry key' entry' hmem
    exact absurd hmem (hempty _)

theorem Daemon.Proxyless.setup {platform : Platform} {daemon after : Daemon}
    (h : daemon.Proxyless) {item : Setup}
    (hafter : daemon.setup platform item = .ok after) : after.Proxyless := by
  have hregister : ∀ {made : PacketDispatcher} {ingress : CaptureKey}
      {filter : Filter} {handler : PacketHandler} {key : Key},
      daemon.dispatcher.register ingress filter handler = .ok (made, key) →
      made.dial = daemon.dispatcher.dial := by
    intro made ingress filter handler key hmade
    obtain ⟨⟨registrations, key'⟩, _, hsame⟩ := except_bind_ok hmade
    cases hsame
    rfl
  cases item with
  | openCapture name lookup read attach =>
      cases hafter
      refine ⟨h.sane, h.services, ?_⟩
      simp only [PacketDispatcher.openCapture]
      split <;> exact h.none
  | joinGroup calls capture group wanted now =>
      cases hafter
      refine ⟨h.sane, h.services, ?_⟩
      simp only [PacketDispatcher.joinGroup]
      split <;> exact h.none
  | registerSimple ingress filter reflector =>
      obtain ⟨⟨made, key⟩, hmade, hsame⟩ := except_bind_ok hafter
      cases hsame
      refine ⟨h.sane, h.services, ?_⟩
      rw [show made.dial = _ from hregister hmade]
      exact h.none
  | registerSearch ingress filter source target delivery macs protocol
      makeReply =>
      obtain ⟨⟨made, key⟩, hmade, hsame⟩ := except_bind_ok hafter
      cases hsame
      refine ⟨h.sane, h.services, ?_⟩
      rw [show made.dial = _ from hregister hmade]
      exact h.none
  | enableCounterReport interval positive now =>
      cases hafter
      exact ⟨h.sane, h.services, h.none⟩
  | registerService fds poll removed =>
      obtain ⟨⟨reactor, answer⟩, hmade, hsame⟩ := except_bind_ok hafter
      cases hsame
      cases answer with
      | error error =>
          have hfailed := registerWithFds_failed h.sane hmade
          refine ⟨hfailed.sane, ?_, h.none⟩
          intro handler
          rw [hfailed.standing]
          exact h.services handler
      | ok key =>
          have hjoins := registerWithFds_joins h.sane hmade
          refine ⟨hjoins.sane, ?_, h.none⟩
          intro handler
          rw [hjoins.standing]
          split
          · exact .inr rfl
          · exact h.services handler

theorem Daemon.Proxyless.setupAll {platform : Platform}
    {daemon after : Daemon} (h : daemon.Proxyless) {items : List Setup}
    (hafter : daemon.setupAll platform items = .ok after) :
    after.Proxyless := by
  induction items generalizing daemon with
  | nil =>
      cases hafter
      exact h
  | cons item items ih =>
      obtain ⟨middle, hitem, hrest⟩ := except_bind_ok hafter
      exact ih (h.setup hitem) hrest

theorem setupAll_consistent {platform : Platform} {joinGroups monitor : Bool}
    {seed : UInt32} {start : Nat} {items : List Setup} {ready : Daemon}
    (h : (Daemon.new joinGroups monitor seed start).setupAll platform items =
      .ok ready) : ready.Consistent := by
  have hnew : (Daemon.new joinGroups monitor seed start).Proxyless :=
    ⟨sane_new, fun _ => .inl rfl, rfl⟩
  exact ⟨setupAll_anchored h, (hnew.setupAll h).enlisted⟩

/-! ## What the registry says of the proxies -/

def liveProxies (reactor : Reactor Service) : List Key :=
  (reactor.handlers.iter.map Prod.fst).filter fun handler =>
    (proxyAt reactor handler).isSome

structure Daemon.DialMatches (daemon : Daemon) : Prop where
  /-- One entry names it, under its device and where its captures are. -/
  each : ∀ handler proxy, proxyAt daemon.reactor handler = some proxy →
    ∃ key entry, (key, entry) ∈ daemon.dispatcher.dial.proxies.entries ∧
      entry.handler = handler ∧
      Placed daemon.dispatcher.table key entry proxy ∧
      isNeverAPeer (.v4 proxy.descEndpoint.ip) = false ∧
      ∀ key' entry', (key', entry') ∈ daemon.dispatcher.dial.proxies.entries →
        entry'.handler = handler → key' = key ∧ entry' = entry
  few : (liveProxies daemon.reactor).length ≤ maxDialProxies
  /-- What a lookup answers is the listener of a live proxy. -/
  answers : ∀ key descGrace context addr,
    daemon.dispatcher.dial.lookup key daemon.reactor descGrace =
      (context, some addr) →
    ∃ handler proxy, proxyAt daemon.reactor handler = some proxy ∧
      proxy.desc.localAddr = addr ∧ proxy.descEndpoint = key.endpoint ∧
      daemon.dispatcher.table.v4Of key.source = some addr.ip ∧
      daemon.dispatcher.table.v4Of key.target = some proxy.target

theorem proxyAt_eq_some {reactor : Reactor Service} {handler : Key}
    {proxy : DialDeviceProxy} : proxyAt reactor handler = some proxy ↔
      reactor.standing handler = some (some (.dialDevice proxy)) := by
  rw [proxyAt, Reactor.standing]
  cases hentry : reactor.handlers.get handler with
  | none => simp
  | some entry =>
      obtain ⟨service, regs⟩ := entry
      cases service with
      | none => simp
      | some service => cases service <;> simp [Service.proxy?]

theorem Daemon.Enlisted.few {daemon : Daemon} (h : daemon.Enlisted) :
    (liveProxies daemon.reactor).length ≤ maxDialProxies := by
  have hnodup : (liveProxies daemon.reactor).Nodup :=
    (Arena.iter_keys_nodup h.sane.handlers.wf).filter _
  have hnamed : liveProxies daemon.reactor ⊆
      daemon.dispatcher.dial.proxies.entries.map (·.2.handler) := by
    intro handler hmem
    obtain ⟨_, hlive⟩ := List.mem_filter.mp hmem
    obtain ⟨proxy, hproxy⟩ := Option.isSome_iff_exists.mp hlive
    obtain ⟨key, entry, hentry, hhandler⟩ :=
      h.listed handler proxy (proxyAt_eq_some.mp hproxy)
    exact List.mem_map.mpr ⟨(key, entry), hentry, hhandler⟩
  have hle := (hnodup.subperm hnamed).length_le
  rw [List.length_map] at hle
  exact hle.trans h.len

theorem Daemon.Enlisted.dialMatches {daemon : Daemon} (h : daemon.Enlisted) :
    daemon.DialMatches := by
  refine ⟨?_, h.few, ?_⟩
  · intro handler proxy hproxy
    have hstanding := proxyAt_eq_some.mp hproxy
    obtain ⟨key, entry, hmem, hhandler⟩ := h.listed handler proxy hstanding
    obtain ⟨found, hfound, hplaced⟩ :=
      h.named key entry hmem _ (by rw [hhandler]; exact hstanding)
    cases hfound
    refine ⟨key, entry, hmem, hhandler, hplaced, ?_, ?_⟩
    · rw [hplaced.endpoint]
      exact h.peers key entry hmem
    · intro key' entry' hmem' hhandler'
      have hlive : daemon.reactor.standing entry'.handler ≠ none := by
        rw [hhandler', hstanding]
        exact Option.some_ne_none _
      have hkey := h.once key' entry' key entry hmem' hmem
        (hhandler'.trans hhandler.symm) hlive
      subst hkey
      exact ⟨rfl, entry_unique hmem' hmem⟩
  · intro key descGrace context addr hlookup
    rcases lookup_cases daemon.dispatcher.dial key daemon.reactor descGrace
      with ⟨entry, hmem, hlive, hanswer⟩ | ⟨_, hanswer⟩
    · rw [hanswer] at hlookup
      cases hlookup
      obtain ⟨handler, hhandler⟩ := Option.ne_none_iff_exists'.mp hlive
      cases handler with
      | none => exact absurd hhandler (h.rested _)
      | some service =>
          obtain ⟨proxy, rfl, hplaced⟩ :=
            h.named key entry hmem service hhandler
          refine ⟨entry.handler, proxy, proxyAt_eq_some.mpr hhandler,
            hplaced.listener, hplaced.endpoint, ?_, hplaced.target⟩
          rw [← hplaced.listener]
          exact hplaced.source
    · rw [hanswer] at hlookup
      cases hlookup

/-- In every state in which a packet is routed, and at the end of every run,
the registry of DIAL proxies matches the live proxies and their addresses; and
no deadline leaves a proxy past its grace. -/
theorem dial_registry_matches {platform : Platform}
    {digest : MacAddr → Datagram → UInt64} {joinGroups monitor : Bool}
    {seed : UInt32} {start : Nat} {items : List Setup}
    {moments : List Daemon.Moment} {observed : Observed}
    (hrun : daemonRun platform digest
      (Daemon.new joinGroups monitor seed start) items moments =
        .ok observed) :
    (∀ daemon ∈ observed.daemon :: observed.routedIn, daemon.DialMatches) ∧
    ∀ now calls after,
      observed.moment platform digest (.deadline now calls) = .ok after →
      ∀ handler proxy, proxyAt after.daemon.reactor handler = some proxy →
        ∃ key entry, entry.handler = handler ∧ now < entry.descGrace ∧
          (key, entry) ∈ after.daemon.dispatcher.dial.proxies.entries := by
  have hheld := daemonRun_held (consistent_invariant platform digest)
    (fun ready hready => setupAll_consistent hready) hrun
  constructor
  · intro daemon hmem
    rcases List.mem_cons.mp hmem with rfl | hrouted
    · exact hheld.1.enlisted.dialMatches
    · exact (hheld.2 daemon hrouted).enlisted.dialMatches
  · intro now calls after hafter handler proxy hproxy
    cases hafter
    obtain ⟨hdeadline, hgrace⟩ := hheld.1.deadline platform calls now
    obtain ⟨key, entry, hmem, hhandler, _⟩ :=
      hdeadline.enlisted.dialMatches.each handler proxy hproxy
    exact ⟨key, entry, hhandler, hgrace _ hmem, hmem⟩

def dialMessage : Bytes :=
  ascii ("NOTIFY * HTTP/1.1\r\nNT: urn:dial-multiscreen-org:service:dial:1" ++
    "\r\nLOCATION: http://10.0.1.9:8008/dd.xml\r\n\r\n")

def dialFrame : Bytes :=
  [0x45, 0, 0, 133, 0, 0, 0, 0, 2, 17, 0, 0, 10, 0, 1, 9, 239, 255, 255, 250,
    0x07, 0x6c, 0x07, 0x6c, 0, 113, 0, 0] ++ dialMessage

def dialSetup : List Setup :=
  [.openCapture [0x61] (.ok (some 2))
      (.ok ⟨{ InterfaceAddresses.default with
        v4 := some ⟨[10, 0, 1, 5], rfl⟩ }, none⟩)
      (.ok .rawIp),
    .openCapture [0x62] (.ok (some 3))
      (.ok ⟨{ InterfaceAddresses.default with
        mac := some .broadcast, v4 := some ⟨[10, 0, 2, 5], rfl⟩ }, none⟩)
      (.ok .ethernet),
    .registerSimple ⟨0⟩ .any
      { egress := ⟨1⟩
        delivery := .link
        classify := fun _ => .reflect .ssdpAdvertisement
        emit := .reply 2
        rewrite := .dial ⟨0⟩
        suppress := fun _ => false }]

def dialMoments : List Daemon.Moment :=
  [.capture ⟨0⟩ [⟨true, .ok (some (.frame dialFrame))⟩]
    (fun _ => ⟨10, fun _ => ⟨10, fun _ _ => .ok (), .ok 50000,
      ⟨.ok [], .ok (3, 40003), .ok (4, 40004), fun _ => none,
        fun _ => none⟩⟩⟩) 10]

theorem dial_registry_matches_minted :
    ∃ observed proxy,
      daemonRun .linux (fun _ _ => 0) (Daemon.new true true 0 0) dialSetup
        dialMoments = .ok observed ∧
      proxyAt observed.daemon.reactor ⟨0, 0⟩ = some proxy ∧
      proxy.descEndpoint = ⟨⟨[10, 0, 1, 9], rfl⟩, 8008⟩ ∧
      observed.daemon.DialMatches := by
  have hview : (daemonRun .linux (fun _ _ => 0) (Daemon.new true true 0 0)
      dialSetup dialMoments).toOption.map (fun observed =>
        (proxyAt observed.daemon.reactor ⟨0, 0⟩).map (·.descEndpoint)) =
      some (some ⟨⟨[10, 0, 1, 9], rfl⟩, 8008⟩) := by
    decide +kernel
  obtain ⟨observed, hrun, hview⟩ := Option.map_eq_some_iff.mp hview
  obtain ⟨proxy, hproxy, hendpoint⟩ := Option.map_eq_some_iff.mp hview
  have hrun := toOption_eq_some.mp hrun
  exact ⟨observed, proxy, hrun, hproxy, hendpoint,
    (dial_registry_matches hrun).1 observed.daemon List.mem_cons_self⟩

end Netflector.Dispatch
