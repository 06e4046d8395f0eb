import Netflector.Dispatch.Runs
import Netflector.Dispatch.SearchRuns

/-!
# Sessions on their target's address

A reused session is not checked for staleness: whatever moves the address or
the binding of a target must have dropped its sessions before the next packet.
-/

namespace Netflector.Dispatch

open Netflector.Foundation
open Netflector.Net
open Netflector.Reactor
open Netflector.Reflector

/-! ## What a session stands on -/

def Footing.source (footing : Footing) : IpAddr → Option IpAddr
  | .v4 _ => footing.v4.map IpAddr.v4
  | .v6 dst =>
      match Ipv6Scope.of dst with
      | .linkLocal => footing.v6Any.map IpAddr.v6
      | .routable => (footing.v6Routable.or footing.v6Any).map IpAddr.v6

theorem egressAddrs_entry (table : InterfaceTable) (capture : CaptureKey) :
    table.egressAddrs capture =
      ((table.interfaceOf capture).bind table.entry).map
        (·.interface.addrs) := by
  rw [InterfaceTable.egressAddrs]
  cases table.interfaceOf capture with
  | none => rfl
  | some interface => rfl

theorem footingOf_entry (table : InterfaceTable) (capture : CaptureKey) :
    table.footingOf capture =
      ((table.interfaceOf capture).bind table.entry).map (·.footing) := by
  rw [InterfaceTable.footingOf]
  cases table.interfaceOf capture with
  | none => rfl
  | some interface => rfl

theorem replySource_footing (dispatcher : PacketDispatcher)
    (target : CaptureKey) (dest : IpAddr) :
    dispatcher.replySource target dest =
      (dispatcher.table.footingOf target).bind (·.source dest) := by
  rw [footingOf_entry]
  cases dest with
  | v4 addr =>
      rw [PacketDispatcher.replySource, egressAddrs_entry]
      cases (dispatcher.table.interfaceOf target).bind
        dispatcher.table.entry with
      | none => rfl
      | some entry => rfl
  | v6 dst =>
      rw [PacketDispatcher.replySource, egressAddrs_entry]
      cases (dispatcher.table.interfaceOf target).bind
        dispatcher.table.entry with
      | none => rfl
      | some entry =>
          simp only [Option.map_some, Option.bind_some, Footing.source,
            InterfaceAddresses.v6, InterfaceEntry.footing]
          cases Ipv6Scope.of dst with
          | linkLocal => rfl
          | routable => rfl

theorem ifindexOf_footing (table : InterfaceTable) (capture : CaptureKey) :
    table.ifindexOf capture = (table.footingOf capture).bind (·.ifindex) := by
  rw [footingOf_entry, InterfaceTable.ifindexOf]
  cases table.interfaceOf capture with
  | none => rfl
  | some interface =>
      simp only [Option.bind_some, InterfaceTable.interfaceIndex]
      cases table.entry interface with
      | none => rfl
      | some entry => rfl

theorem bound_of_source {table : InterfaceTable} (h : table.Settled)
    {capture : CaptureKey} {dest addr : IpAddr}
    (hsource : (table.footingOf capture).bind (·.source dest) = some addr) :
    (table.ifindexOf capture).isSome = true := by
  rw [ifindexOf_footing]
  rw [footingOf_entry] at hsource ⊢
  cases hentry : (table.interfaceOf capture).bind table.entry with
  | none =>
      rw [hentry] at hsource
      cases hsource
  | some entry =>
      obtain ⟨interface, _, hfound⟩ := Option.bind_eq_some_iff.mp hentry
      rw [hentry] at hsource
      simp only [Option.map_some, Option.bind_some] at hsource ⊢
      by_contra hunbound
      have hnone : entry.ifindex = none := by
        simpa [InterfaceEntry.footing] using hunbound
      rw [InterfaceTable.inert_footing (h.entry hfound hnone) hnone] at hsource
      cases dest with
      | v4 dst => cases hsource
      | v6 dst =>
          simp only [Footing.source] at hsource
          split at hsource
          · cases hsource
          · cases hsource

/-- The session's reserved address is the reply source of where its search
goes, and its target is bound as it was when the session opened. -/
structure PacketDispatcher.Upholds (dispatcher : PacketDispatcher)
    (reflector : SearchReflector) (id : SessionKey) (session : Session) :
    Prop where
  addressed : ∃ destination,
    reflector.delivery.destination id.dest.ip = some destination ∧
    dispatcher.replySource reflector.target destination =
      some session.reservation.ip
  bound : dispatcher.table.ifindexOf reflector.target = session.boundTo
  present : session.boundTo.isSome = true

theorem PacketDispatcher.Upholds.footing
    {before after : PacketDispatcher} {reflector : SearchReflector}
    {id : SessionKey} {session : Session}
    (h : before.Upholds reflector id session)
    (hfooting : after.table.footingOf reflector.target =
      before.table.footingOf reflector.target) :
    after.Upholds reflector id session := by
  obtain ⟨destination, hdestination, haddr⟩ := h.addressed
  refine ⟨⟨destination, hdestination, ?_⟩, ?_, h.present⟩
  · rw [replySource_footing, hfooting, ← replySource_footing]
    exact haddr
  · rw [ifindexOf_footing, hfooting, ← ifindexOf_footing]
    exact h.bound

theorem PacketDispatcher.Upholds.sessions {dispatcher : PacketDispatcher}
    {before after : SearchReflector} {id : SessionKey}
    {old session : Session} (h : dispatcher.Upholds before id old)
    (hstatic : after = { before with sessions := after.sessions })
    (hcontinues : Continues old session) :
    dispatcher.Upholds after id session := by
  have htarget : after.target = before.target := by rw [hstatic]
  have hdelivery : after.delivery = before.delivery := by rw [hstatic]
  refine ⟨?_, ?_, ?_⟩
  · rw [htarget, hdelivery, hcontinues.reservation]
    exact h.addressed
  · rw [htarget, hcontinues.boundTo]
    exact h.bound
  · rw [hcontinues.boundTo]
    exact h.present

theorem Opened.upholds {digest : MacAddr → Datagram → UInt64} {own : Key}
    {calls : PacketCalls} {packet : Packet}
    {dispatcher out : PacketDispatcher} {before after : SearchReflector}
    {id : SessionKey} {session : Session}
    (h : Opened digest own calls packet dispatcher out before id session)
    (hsettled : dispatcher.table.Settled)
    (hstatic : after = { before with sessions := after.sessions }) :
    dispatcher.Upholds after id session := by
  have htarget : after.target = before.target := by rw [hstatic]
  have hdelivery : after.delivery = before.delivery := by rw [hstatic]
  obtain ⟨destination, hdestination, haddr⟩ := h.addressed
  refine ⟨⟨destination, ?_, ?_⟩, ?_, ?_⟩
  · rw [hdelivery, h.asked]
    exact hdestination
  · rw [htarget]
    exact haddr
  · rw [htarget, h.boundTo]
  · rw [h.boundTo]
    rw [replySource_footing] at haddr
    exact bound_of_source hsettled haddr

/-! ## Routing -/

def Daemon.Current (daemon : Daemon) : Prop :=
  ∀ own reflector id session, Searches daemon.lookup own reflector →
    (id, session) ∈ reflector.sessions.entries →
    daemon.dispatcher.Upholds reflector id session

structure Daemon.Anchored (daemon : Daemon) : Prop where
  matched : daemon.Matched
  settled : daemon.dispatcher.table.Settled
  current : daemon.Current

theorem Daemon.Anchored.steady {daemon after : Daemon} (h : daemon.Anchored)
    (hregistrations : after.dispatcher.registrations =
      daemon.dispatcher.registrations)
    (hsettled : after.dispatcher.table.Settled)
    (hfooting : ∀ capture, after.dispatcher.table.footingOf capture =
      daemon.dispatcher.table.footingOf capture) : after.Anchored := by
  have hlookup : after.lookup = daemon.lookup := by
    rw [Daemon.lookup, hregistrations, Daemon.lookup]
  refine ⟨⟨?_, ?_⟩, hsettled, ?_⟩
  · rw [hregistrations]
    exact h.matched.wf
  · rw [hlookup]
    exact h.matched.bijective
  · intro own reflector id session hsearches hmem
    rw [hlookup] at hsearches
    exact (h.current own reflector id session hsearches hmem).footing
      (hfooting reflector.target)

theorem Daemon.Anchored.resting {daemon after : Daemon} (h : daemon.Anchored)
    (hregistrations : after.dispatcher.registrations =
      daemon.dispatcher.registrations)
    (hresting : daemon.dispatcher.table.Resting after.dispatcher.table) :
    after.Anchored :=
  h.steady hregistrations (hresting.settled h.settled) hresting.footingOf

theorem PacketDispatcher.Reregistered.table
    {before after : PacketDispatcher} (h : before.Reregistered after) :
    after.table = before.table := by
  rw [h]

theorem Acted.resting {digest : MacAddr → Datagram → UInt64} {own : Key}
    {calls : PacketCalls} {reflector after : SearchReflector}
    {packet : Packet} {dispatcher left : PacketDispatcher}
    (h : Acted digest own calls reflector packet dispatcher after left)
    (hwf : dispatcher.registrations.Wf) :
    dispatcher.table.Resting left.table := by
  have hregister : ∀ {made : PacketDispatcher} {filter : Filter}
      {handler : PacketHandler} {responseKey : Key},
      dispatcher.register reflector.target filter handler =
        .ok (made, responseKey) → made.table = dispatcher.table := by
    intro made filter handler responseKey hmade
    rw [(register_ok hwf hmade).2.2.2]
  cases h with
  | passed left hsent => exact hsent.table
  | extended left session expiry hsession hsent => exact hsent.table
  | opened made left destination ourAddr port responseKey expiry _ _ _ _ _
      hmade hfirst =>
      have hsent := (delivery_sent digest calls.inject hfirst).table
      rw [hregister hmade] at hsent
      exact hsent
  | rolledBack made left filter handler responseKey hmade hsent =>
      have hresting := hsent.table
      rw [hregister hmade] at hresting
      exact hresting

theorem Routed.resting {digest : MacAddr → Datagram → UInt64}
    {calls : PacketCalls} {packet : Packet} {key : Key}
    {daemon after : Daemon} (h : Routed digest calls packet key daemon after)
    (hwf : daemon.dispatcher.registrations.Wf) :
    daemon.dispatcher.table.Resting after.dispatcher.table := by
  have htaken := (takeHandler_rest daemon.dispatcher key).table
  cases h with
  | simple registration handler leg left outcome hget hhandler hleg hcalled =>
      have hhandled := (simple_onPacket_handled hcalled).table
      rw [htaken] at hhandled
      rw [(restoreHandler_rest left.dispatcher key handler).table]
      exact hhandled
  | search registration creator reflector after left hget hhandler hacted =>
      have hacting := hacted.resting (taken_wf hwf key)
      rw [htaken] at hacting
      rw [(restoreHandler_rest left key ⟨.search after, creator⟩).table]
      exact hacting

theorem Daemon.Anchored.routed {digest : MacAddr → Datagram → UInt64}
    {calls : PacketCalls} {packet : Packet} {key : Key}
    {daemon after : Daemon} (h : daemon.Anchored)
    (hrouted : Routed digest calls packet key daemon after) :
    after.Anchored := by
  have hresting := hrouted.resting h.matched.wf
  refine ⟨⟨hrouted.wf h.matched.wf,
    h.matched.bijective.routed h.matched.wf hrouted⟩,
    hresting.settled h.settled, ?_⟩
  intro own left id session hleft hmem
  obtain ⟨before, hbefore, hstatic, hsessions⟩ :=
    routed_searches h.matched.bijective h.matched.wf hrouted hleft
  -- the packet changed no interface
  refine PacketDispatcher.Upholds.footing ?_ (hresting.footingOf left.target)
  obtain ⟨old, hold, hcontinues⟩ | ⟨_, hopened⟩ := hsessions id session hmem
  · exact (h.current own before id old hbefore hold).sessions hstatic
      hcontinues
  · exact hopened.upholds h.settled hstatic

theorem Daemon.Anchored.routeEach {digest : MacAddr → Datagram → UInt64}
    {calls : Key → PacketCalls} {ingress : CaptureKey} {packet : Packet}
    {addrs : Option InterfaceAddresses} (keys : List Key)
    {daemon after : Daemon} (h : daemon.Anchored)
    (hafter : Dispatch.routeEach digest calls ingress packet addrs keys
      daemon = .ok after) : after.Anchored := by
  induction keys generalizing daemon with
  | nil =>
      cases hafter
      exact h
  | cons key keys ih =>
      simp only [Dispatch.routeEach] at hafter
      split at hafter
      · obtain ⟨middle, hmiddle, hrest⟩ := except_bind_ok hafter
        exact ih (h.routed (routeTo_routed hmiddle)) hrest
      · exact ih h hafter

theorem Daemon.Anchored.route {digest : MacAddr → Datagram → UInt64}
    {calls : Key → PacketCalls} {ingress : CaptureKey} {packet : Packet}
    {daemon after : Daemon} (h : daemon.Anchored)
    (hafter : Dispatch.route digest calls ingress packet daemon =
      .ok after) : after.Anchored := by
  simp only [Dispatch.route] at hafter
  split at hafter
  · cases hafter
    exact h
  · obtain ⟨middle, hmiddle, hrest⟩ := except_bind_ok hafter
    cases hrest
    have hbegun : Daemon.Anchored { daemon with dispatcher :=
        { daemon.dispatcher with
          egress := daemon.dispatcher.egress.beginPacket } } :=
      h.resting rfl (.refl _)
    exact (hbegun.routeEach _ hmiddle).resting rfl (.refl _)

/-! ## Interface changes -/

theorem not_mem_added {capture : CaptureKey}
    (captures changed : List CaptureKey)
    (h : capture ∉ captures.foldl (fun changed capture =>
      if changed.contains capture then changed
      else changed ++ [capture]) changed) :
    capture ∉ changed ∧ capture ∉ captures := by
  induction captures generalizing changed with
  | nil => exact ⟨h, List.not_mem_nil⟩
  | cons head tail ih =>
      obtain ⟨hnot, htail⟩ := ih _ h
      rw [List.mem_cons, not_or]
      beta_reduce at hnot
      by_cases hin : changed.contains head = true
      · rw [if_pos hin] at hnot
        refine ⟨hnot, ?_, htail⟩
        rintro rfl
        exact hnot (by simpa using hin)
      · rw [if_neg hin, List.mem_append, not_or, List.mem_singleton] at hnot
        exact ⟨hnot.1, hnot.2, htail⟩

theorem evictRebuilt_changed (poll : Reactor.Poll) (rebuilt : List Rebuilt)
    (changed : List CaptureKey) (dial : DialContext)
    (reactor : Reactor Dial.Service) {capture : CaptureKey}
    (h : capture ∉ (evictRebuilt poll rebuilt changed dial reactor).1) :
    capture ∉ changed ∧ ∀ moved ∈ rebuilt, capture ∉ moved.captures := by
  induction rebuilt generalizing changed dial reactor with
  | nil =>
      refine ⟨h, fun moved hmem => ?_⟩
      cases hmem
  | cons first rest ih =>
      obtain ⟨hchanged, hlater⟩ := ih _ _ _ h
      obtain ⟨hbefore, hfirst⟩ := not_mem_added _ _ hchanged
      refine ⟨hbefore, ?_⟩
      intro moved hmem
      rcases List.mem_cons.mp hmem with rfl | hrest
      · exact hfirst
      · exact hlater moved hrest

theorem notified_searches {moved : PacketDispatcher}
    (hb : Bijective moved.registrations.get) (hwf : moved.registrations.Wf)
    {changed : List CaptureKey} {own : Key} {after : SearchReflector}
    (hafter : Searches (notifyIfaceChange changed moved).registrations.get own
      after) :
    ∃ before, Searches moved.registrations.get own before ∧
      after = { before with sessions := after.sessions } ∧
      ∀ entry ∈ after.sessions.entries, entry ∈ before.sessions.entries ∧
        before.target ∉ changed := by
  rw [notifyIfaceChange] at hafter
  split at hafter
  next hnone =>
    refine ⟨after, hafter, rfl, fun entry hmem => ⟨hmem, ?_⟩⟩
    rw [hnone]
    exact List.not_mem_nil
  · obtain ⟨before, hbefore, hstatic, hsessions⟩ :=
      called_searches (onIfaceChange_ends changed) _ hb hafter
    refine ⟨before, hbefore, hstatic, fun entry hmem => ?_⟩
    obtain ⟨hold, hkeep⟩ := hsessions entry hmem
    have hown : own ∈ moved.registrations.iter.map Prod.fst := by
      obtain ⟨registration, hget, _⟩ := hbefore
      exact List.mem_map_of_mem ((Arena.mem_iter hwf).mpr hget)
    exact ⟨hold, by simpa using hkeep hown⟩

theorem notified_matched {daemon : Daemon} {moved : PacketDispatcher}
    (h : daemon.Matched) {changed : List CaptureKey}
    {reactor : Reactor Dial.Service}
    (hregistrations : moved.registrations =
      daemon.dispatcher.registrations) :
    Daemon.Matched ⟨notifyIfaceChange changed moved, reactor⟩ := by
  have hends := onIfaceChange_ends changed
  have hwf : moved.registrations.Wf := by
    rw [hregistrations]
    exact h.wf
  have hb : Bijective moved.registrations.get := by
    rw [hregistrations]
    exact h.bijective
  rw [notifyIfaceChange]
  split
  · exact ⟨hwf, hb⟩
  · exact ⟨callEach_wf hends _ hwf, hb.called hends _⟩

theorem notifyIfaceChange_table (changed : List CaptureKey)
    (moved : PacketDispatcher) :
    (notifyIfaceChange changed moved).table = moved.table := by
  rw [notifyIfaceChange]
  split
  · rfl
  · exact (callEach_rest (onIfaceChange_ends changed) _ moved).table

/-- A repair: the sessions left were open before it, and their targets stayed
bound in each of the tables that it went through. -/
structure Daemon.Repaired (before after : Daemon)
    (tables : List InterfaceTable) : Prop where
  anchored : after.Anchored
  stayed : ∀ own reflector id session, Searches after.lookup own reflector →
    (id, session) ∈ reflector.sessions.entries →
    ∃ old, Searches before.lookup own old ∧ old.target = reflector.target ∧
      (id, session) ∈ old.sessions.entries ∧
      ∀ table ∈ tables, table.ifindexOf reflector.target = session.boundTo

theorem Daemon.Repaired.trans {first second third : Daemon}
    {tables more : List InterfaceTable} (h : first.Repaired second tables)
    (h' : second.Repaired third more) :
    first.Repaired third (tables ++ more) := by
  refine ⟨h'.anchored, ?_⟩
  intro own reflector id session hsearches hmem
  obtain ⟨middle, hmiddle, htarget, hmem', hmore⟩ :=
    h'.stayed own reflector id session hsearches hmem
  obtain ⟨old, hold, htarget', hmem'', htables⟩ :=
    h.stayed own middle id session hmiddle hmem'
  refine ⟨old, hold, htarget'.trans htarget, hmem'', ?_⟩
  intro table htable
  rcases List.mem_append.mp htable with hearlier | hlater
  · rw [← htarget]
    exact htables table hearlier
  · exact hmore table hlater

theorem Daemon.Anchored.notified {daemon : Daemon} (h : daemon.Anchored)
    {moved : PacketDispatcher} {reactor : Reactor Dial.Service}
    {changed : List CaptureKey} {tables : List InterfaceTable}
    (hregistrations : moved.registrations = daemon.dispatcher.registrations)
    (hsettled : moved.table.Settled)
    (hkept : ∀ capture, capture ∉ changed →
      moved.table.footingOf capture =
        daemon.dispatcher.table.footingOf capture)
    (htables : ∀ capture, capture ∉ changed → ∀ table ∈ tables,
      table.ifindexOf capture = daemon.dispatcher.table.ifindexOf capture) :
    daemon.Repaired ⟨notifyIfaceChange changed moved, reactor⟩ tables := by
  have hmatched : Daemon.Matched
      ⟨notifyIfaceChange changed moved, reactor⟩ :=
    notified_matched h.matched hregistrations
  have htable := notifyIfaceChange_table changed moved
  have hb : Bijective moved.registrations.get := by
    rw [hregistrations]
    exact h.matched.bijective
  have hwf : moved.registrations.Wf := by
    rw [hregistrations]
    exact h.matched.wf
  -- each session left, with the reflector that it was a session of
  have hleft : ∀ own reflector id session,
      Searches (notifyIfaceChange changed moved).registrations.get own
        reflector → (id, session) ∈ reflector.sessions.entries →
      ∃ before, Searches daemon.lookup own before ∧
        reflector = { before with sessions := reflector.sessions } ∧
        (id, session) ∈ before.sessions.entries ∧ before.target ∉ changed := by
    intro own reflector id session hsearches hmem
    obtain ⟨before, hbefore, hstatic, hsessions⟩ :=
      notified_searches hb hwf hsearches
    obtain ⟨hold, houtside⟩ := hsessions (id, session) hmem
    rw [hregistrations] at hbefore
    exact ⟨before, hbefore, hstatic, hold, houtside⟩
  refine ⟨⟨hmatched, ?_, ?_⟩, ?_⟩
  · change (notifyIfaceChange changed moved).table.Settled
    rw [htable]
    exact hsettled
  · intro own reflector id session hsearches hmem
    obtain ⟨before, hbefore, hstatic, hold, houtside⟩ :=
      hleft own reflector id session hsearches hmem
    have hupheld := (h.current own before id session hbefore hold).sessions
      hstatic (.refl session)
    refine hupheld.footing ?_
    have htarget : reflector.target = before.target := by rw [hstatic]
    change (notifyIfaceChange changed moved).table.footingOf _ = _
    rw [htable, htarget]
    exact hkept before.target houtside
  · intro own reflector id session hsearches hmem
    obtain ⟨before, hbefore, hstatic, hold, houtside⟩ :=
      hleft own reflector id session hsearches hmem
    have htarget : reflector.target = before.target := by rw [hstatic]
    refine ⟨before, hbefore, htarget.symm, hold, ?_⟩
    intro table hmemTable
    rw [htarget, htables before.target houtside table hmemTable]
    exact (h.current own before id session hbefore hold).bound

theorem Daemon.Anchored.afterRepair {daemon repaired : Daemon}
    (h : daemon.Anchored) {poll : Reactor.Poll} {touched : List CaptureKey}
    {rebuilt : List Rebuilt} {tables : List InterfaceTable}
    (hregistrations : repaired.dispatcher.registrations =
      daemon.dispatcher.registrations)
    (hsettled : repaired.dispatcher.table.Settled)
    (hkept : ∀ capture, capture ∉ touched →
      (∀ moved ∈ rebuilt, capture ∉ moved.captures) →
      repaired.dispatcher.table.footingOf capture =
        daemon.dispatcher.table.footingOf capture)
    (htables : ∀ capture, capture ∉ touched →
      (∀ moved ∈ rebuilt, capture ∉ moved.captures) → ∀ table ∈ tables,
      table.ifindexOf capture = daemon.dispatcher.table.ifindexOf capture) :
    daemon.Repaired (Dispatch.afterRepair poll touched rebuilt repaired)
      tables := by
  refine h.notified hregistrations hsettled ?_ ?_
  · intro capture hnot
    obtain ⟨htouched, hrebuilt⟩ := evictRebuilt_changed _ _ _ _ _ hnot
    exact hkept capture htouched hrebuilt
  · intro capture hnot
    obtain ⟨htouched, hrebuilt⟩ := evictRebuilt_changed _ _ _ _ _ hnot
    exact htables capture htouched hrebuilt

/-! ## The tables a reconcile goes through -/

def reconcileTables (platform : Platform) (calls : ReconcileCalls)
    (now : Nat) : List InterfaceKey → InterfaceTable → List InterfaceTable
  | [], _ => []
  | interface :: rest, table =>
      let stepped := (reconcileOne platform calls now interface table).1
      stepped :: reconcileTables platform calls now rest stepped

theorem reconcileTables_footingOf (platform : Platform)
    (calls : ReconcileCalls) (now : Nat) (interfaces : List InterfaceKey)
    {table : InterfaceTable} (hsettled : table.Settled)
    {capture : CaptureKey}
    (h : ∀ moved ∈ (reconcileEach platform calls now interfaces table).2.2,
      capture ∉ moved.captures) :
    ∀ visited ∈ reconcileTables platform calls now interfaces table,
      visited.footingOf capture = table.footingOf capture := by
  induction interfaces generalizing table with
  | nil =>
      intro visited hmem
      cases hmem
  | cons interface rest ih =>
      have hfirst := reconcileOne_reconciled platform calls now interface
        hsettled
      have hkept := hfirst.kept capture fun moved hmem =>
        h moved (List.mem_append_left _ hmem)
      intro visited hmem
      rcases List.mem_cons.mp hmem with rfl | hlater
      · exact hkept
      · refine (ih hfirst.settled ?_ visited hlater).trans hkept
        exact fun moved hmoved => h moved (List.mem_append_right _ hmoved)

theorem Daemon.Anchored.reconcileInterfaces {daemon : Daemon}
    (h : daemon.Anchored) (platform : Platform) (calls : RepairCalls)
    (now : Nat) :
    daemon.Repaired (Dispatch.reconcileInterfaces platform calls now daemon)
      (reconcileTables platform calls.reconcile (now + calls.elapsed)
        daemon.dispatcher.table.interfaces daemon.dispatcher.table) := by
  have hreconciled := reconcile_reconciled platform calls.reconcile
    daemon.dispatcher.lifecycle h.settled (now + calls.elapsed)
  refine h.afterRepair rfl hreconciled.settled ?_ ?_
  · intro capture _ hrebuilt
    exact hreconciled.kept capture hrebuilt
  · intro capture _ hrebuilt table hmem
    rw [ifindexOf_footing, ifindexOf_footing,
      reconcileTables_footingOf platform calls.reconcile _ _ h.settled hrebuilt
        table hmem]

/-- The tables of a re-read, as it left them, and of its repair. -/
def applyTables (platform : Platform) (calls : RepairCalls) (now : Nat)
    (changes : Changes) (table : InterfaceTable) : List InterfaceTable :=
  table :: if changes.reconcile then
    reconcileTables platform calls.reconcile (now + calls.elapsed)
      table.interfaces table
  else []

theorem Daemon.Anchored.applyInterfaceChanges {daemon changed : Daemon}
    (h : daemon.Anchored) {changes : Changes}
    (hregistrations : changed.dispatcher.registrations =
      daemon.dispatcher.registrations)
    (hsettled : changed.dispatcher.table.Settled)
    (hreports : changes.Reports daemon.dispatcher.table
      changed.dispatcher.table)
    (platform : Platform) (calls : RepairCalls) (now : Nat) :
    daemon.Repaired
      (Dispatch.applyInterfaceChanges platform calls now changes changed)
      (applyTables platform calls now changes changed.dispatcher.table) := by
  simp only [Dispatch.applyInterfaceChanges, applyTables]
  by_cases hreconcile : changes.reconcile = true
  · have hreconciled := reconcile_reconciled platform calls.reconcile
      changed.dispatcher.lifecycle hsettled (now + calls.elapsed)
    simp only [hreconcile, if_true]
    refine h.afterRepair hregistrations hreconciled.settled ?_ ?_
    · intro capture htouched hrebuilt
      exact (hreconciled.kept capture hrebuilt).trans
        (hreports.kept capture htouched)
    · intro capture htouched hrebuilt table hmem
      rw [ifindexOf_footing, ifindexOf_footing,
        ← hreports.kept capture htouched]
      rcases List.mem_cons.mp hmem with rfl | hlater
      · rfl
      · rw [reconcileTables_footingOf platform calls.reconcile _ _ hsettled
          hrebuilt table hlater]
  · simp only [hreconcile, if_false, Bool.false_eq_true]
    refine h.afterRepair hregistrations hsettled ?_ ?_
    · intro capture htouched _
      exact hreports.kept capture htouched
    · intro capture htouched _ table hmem
      rw [List.mem_singleton.mp hmem, ifindexOf_footing, ifindexOf_footing,
        hreports.kept capture htouched]

theorem recheck_settled {table : InterfaceTable} (h : table.Settled)
    (platform : Platform) (calls : RefreshCalls)
    (lifecycle : InterfaceLifecycle) (now : Nat) :
    (lifecycle.recheck platform calls table now).2.1.Settled :=
  (h.refreshAll calls.read).convergeEach platform calls.converge now _

theorem drainIndex_settled {draining : Draining} (h : draining.table.Settled)
    (platform : Platform) (calls : RefreshCalls) (priorCeiling : Option Nat)
    (now ifindex : Nat) (isLink : Bool) :
    (drainIndex platform calls priorCeiling now draining ifindex
      isLink).table.Settled := by
  simp only [drainIndex]
  split
  · exact h.wakeAll now _
  next key _ =>
    have hrefreshed := h.refresh key (calls.read key)
    split
    next heq =>
      rw [heq] at hrefreshed
      exact hrefreshed.converge platform (calls.converge key) key now
    next heq =>
      rw [heq] at hrefreshed
      exact hrefreshed

theorem drain_settled {table : InterfaceTable} (h : table.Settled)
    (platform : Platform) (calls : RefreshCalls)
    (lifecycle : InterfaceLifecycle) (events : List InterfaceEvent)
    (now : Nat) :
    (lifecycle.drain platform calls events table now).2.1.Settled := by
  have hfold : ∀ (changed : List (Nat × Bool)) (draining : Draining),
      draining.table.Settled →
      (changed.foldl (fun draining entry => drainIndex platform calls
        lifecycle.maxSeenIfindex now draining entry.1 entry.2)
        draining).table.Settled := by
    intro changed
    induction changed with
    | nil => exact fun _ hdraining => hdraining
    | cons entry rest ih =>
        intro draining hdraining
        exact ih _ (drainIndex_settled hdraining _ _ _ _ _ _)
  simp only [InterfaceLifecycle.drain]
  split
  · exact h
  split
  · exact (h.wakeAll now _).refreshAll calls.read
  · exact hfold _ _ h

/-! ## Deadlines -/

theorem Daemon.Anchored.called {daemon : Daemon} (h : daemon.Anchored)
    {call : PacketHandler → PacketDispatcher →
      PacketHandler × PacketDispatcher}
    {keep : CaptureKey → SessionKey → Session → Bool}
    (hends : Ends call keep) (keys : List Key)
    {after : Daemon}
    (hregistrations : after.dispatcher.registrations =
      (callEach call keys daemon.dispatcher).registrations)
    (htable : after.dispatcher.table = daemon.dispatcher.table) :
    daemon.Repaired after [] := by
  have hlookup : after.lookup =
      (callEach call keys daemon.dispatcher).registrations.get := by
    rw [Daemon.lookup, hregistrations]
  have hleft : ∀ own reflector id session, Searches after.lookup own
      reflector → (id, session) ∈ reflector.sessions.entries →
      ∃ before, Searches daemon.lookup own before ∧
        reflector = { before with sessions := reflector.sessions } ∧
        (id, session) ∈ before.sessions.entries := by
    intro own reflector id session hsearches hmem
    rw [hlookup] at hsearches
    obtain ⟨before, hbefore, hstatic, hsessions⟩ :=
      called_searches hends keys h.matched.bijective hsearches
    exact ⟨before, hbefore, hstatic, (hsessions _ hmem).1⟩
  refine ⟨⟨⟨?_, ?_⟩, ?_, ?_⟩, ?_⟩
  · rw [hregistrations]
    exact callEach_wf hends keys h.matched.wf
  · rw [hlookup]
    exact h.matched.bijective.called hends keys
  · rw [htable]
    exact h.settled
  · intro own reflector id session hsearches hmem
    obtain ⟨before, hbefore, hstatic, hold⟩ :=
      hleft own reflector id session hsearches hmem
    refine ((h.current own before id session hbefore hold).sessions hstatic
      (.refl session)).footing ?_
    rw [htable]
  · intro own reflector id session hsearches hmem
    obtain ⟨before, hbefore, hstatic, hold⟩ :=
      hleft own reflector id session hsearches hmem
    refine ⟨before, hbefore, by rw [hstatic], hold, ?_⟩
    intro table htable
    cases htable

def swept (calls : DeadlineCalls) (now : Nat) (daemon : Daemon) : Daemon :=
  let dispatcher := daemon.dispatcher.sweepHandlers now
  let (dial, reactor) := dispatcher.dial.sweep now daemon.reactor calls.poll
  ⟨{ dispatcher with dial := dial }.rearmReport now, reactor⟩

theorem onDeadline_eq (platform : Platform) (calls : DeadlineCalls)
    (now : Nat) (daemon : Daemon) :
    onDeadline platform calls now daemon =
      retryDue platform calls now
        (recheckDue platform calls now (swept calls now daemon)) :=
  rfl

theorem Daemon.Anchored.swept {daemon : Daemon} (h : daemon.Anchored)
    (calls : DeadlineCalls) (now : Nat) :
    daemon.Repaired (Dispatch.swept calls now daemon) [] := by
  refine h.called (onDeadlineOf_ends now) _ rfl ?_
  exact (callEach_rest (onDeadlineOf_ends now) _ daemon.dispatcher).table

def recheckTables (platform : Platform) (calls : DeadlineCalls) (now : Nat)
    (daemon : Daemon) : List InterfaceTable :=
  let dispatcher := daemon.dispatcher
  if dispatcher.lifecycle.nextRecheck ≤ now then
    let (_, table, changes) := dispatcher.lifecycle.recheck platform
      calls.recheck dispatcher.table now
    applyTables platform calls.repair now changes table
  else []

theorem Daemon.Anchored.repaired_self {daemon : Daemon}
    (h : daemon.Anchored) : daemon.Repaired daemon [] := by
  refine ⟨h, fun own reflector id session hsearches hmem => ?_⟩
  refine ⟨reflector, hsearches, rfl, hmem, fun table hmemTable => ?_⟩
  cases hmemTable

theorem Daemon.Anchored.recheckDue {daemon : Daemon} (h : daemon.Anchored)
    (platform : Platform) (calls : DeadlineCalls) (now : Nat) :
    daemon.Repaired (Dispatch.recheckDue platform calls now daemon)
      (recheckTables platform calls now daemon) := by
  simp only [Dispatch.recheckDue, recheckTables]
  split
  · refine h.applyInterfaceChanges ?_ ?_ ?_ platform calls.repair now
    · rfl
    · exact recheck_settled h.settled platform calls.recheck
        daemon.dispatcher.lifecycle now
    · exact recheck_reports platform calls.recheck
        daemon.dispatcher.lifecycle daemon.dispatcher.table now
  · exact h.repaired_self

def retried (platform : Platform) (calls : DeadlineCalls) (now : Nat)
    (table : InterfaceTable) : InterfaceTable × Bool :=
  if table.nextJoinRetry.any (· ≤ now) then
    table.convergeAll platform calls.retry now
  else (table, false)

def retryTables (platform : Platform) (calls : DeadlineCalls) (now : Nat)
    (daemon : Daemon) : List InterfaceTable :=
  let (table, gone) := retried platform calls now daemon.dispatcher.table
  table :: if gone || decide (daemon.dispatcher.lifecycle.nextReconcile ≤ now)
    then reconcileTables platform calls.reconcile.reconcile
      (now + calls.reconcile.elapsed) table.interfaces table
    else []

theorem retried_steady {table : InterfaceTable} (h : table.Settled)
    (platform : Platform) (calls : DeadlineCalls) (now : Nat) :
    (retried platform calls now table).1.Settled ∧
      ∀ capture, (retried platform calls now table).1.footingOf capture =
        table.footingOf capture := by
  rw [retried]
  split
  · have htracks := (InterfaceTable.tracks_convergeEach platform calls.retry
      now table.interfaces table).reports false
    exact ⟨h.convergeEach platform calls.retry now _,
      fun capture => htracks.kept capture List.not_mem_nil⟩
  · exact ⟨h, fun _ => rfl⟩

theorem Daemon.Anchored.repaired_steady {daemon after : Daemon}
    (h : daemon.Anchored)
    (hregistrations : after.dispatcher.registrations =
      daemon.dispatcher.registrations)
    (hsettled : after.dispatcher.table.Settled)
    (hfooting : ∀ capture, after.dispatcher.table.footingOf capture =
      daemon.dispatcher.table.footingOf capture) :
    daemon.Repaired after [after.dispatcher.table] := by
  have hanchored := h.steady hregistrations hsettled hfooting
  refine ⟨hanchored, fun own reflector id session hsearches hmem => ?_⟩
  have hbound := (hanchored.current own reflector id session hsearches
    hmem).bound
  rw [Daemon.lookup, hregistrations] at hsearches
  refine ⟨reflector, hsearches, rfl, hmem, fun table htable => ?_⟩
  rw [List.mem_singleton.mp htable]
  exact hbound

theorem Daemon.Anchored.retryDue {daemon : Daemon} (h : daemon.Anchored)
    (platform : Platform) (calls : DeadlineCalls) (now : Nat) :
    daemon.Repaired (Dispatch.retryDue platform calls now daemon)
      (retryTables platform calls now daemon) := by
  obtain ⟨hsettled, hfooting⟩ := retried_steady h.settled platform calls now
  have hretried : daemon.Repaired
      { daemon with dispatcher := { daemon.dispatcher with
        table := (retried platform calls now daemon.dispatcher.table).1 } }
      [(retried platform calls now daemon.dispatcher.table).1] :=
    h.repaired_steady rfl hsettled hfooting
  have hdue : Dispatch.retryDue platform calls now daemon =
      if (retried platform calls now daemon.dispatcher.table).2 ||
          decide (daemon.dispatcher.lifecycle.nextReconcile ≤ now) then
        Dispatch.reconcileInterfaces platform calls.reconcile now
          { daemon with dispatcher := { daemon.dispatcher with
            table := (retried platform calls now daemon.dispatcher.table).1 } }
      else { daemon with dispatcher := { daemon.dispatcher with
        table := (retried platform calls now daemon.dispatcher.table).1 } } :=
    rfl
  rw [hdue]
  simp only [retryTables]
  split
  · exact hretried.trans
      (hretried.anchored.reconcileInterfaces platform calls.reconcile now)
  · exact hretried

/-! ## Moments -/

/-- The tables that a moment goes through; routing leaves the interfaces as
they are, and the proxies the table. -/
def Daemon.Moment.tables (platform : Platform) (daemon : Daemon) :
    Daemon.Moment → List InterfaceTable
  | .capture _ _ _ _ => []
  | .monitor events now calls repair =>
      let dispatcher := daemon.dispatcher
      let (_, table, changes) := dispatcher.lifecycle.drain platform calls
        events dispatcher.table now
      applyTables platform repair now changes table
  | .deadline now calls =>
      let start := swept calls now daemon
      recheckTables platform calls now start ++
        retryTables platform calls now (recheckDue platform calls now start)
  | .proxy _ _ _ _ => []

theorem Daemon.Anchored.monitor {daemon : Daemon} (h : daemon.Anchored)
    (platform : Platform) (events : List InterfaceEvent) (now : Nat)
    (calls : RefreshCalls) (repair : RepairCalls) :
    daemon.Repaired
      (refreshChangedInterfaces platform calls repair events now daemon)
      (Daemon.Moment.tables platform daemon
        (.monitor events now calls repair)) := by
  refine h.applyInterfaceChanges ?_ ?_ ?_ platform repair now
  · rfl
  · exact drain_settled h.settled platform calls daemon.dispatcher.lifecycle
      events now
  · exact drain_reports platform calls daemon.dispatcher.lifecycle events
      daemon.dispatcher.table now

theorem Daemon.Anchored.deadline {daemon : Daemon} (h : daemon.Anchored)
    (platform : Platform) (now : Nat) (calls : DeadlineCalls) :
    daemon.Repaired (onDeadline platform calls now daemon)
      (Daemon.Moment.tables platform daemon (.deadline now calls)) := by
  rw [onDeadline_eq]
  have hswept := h.swept calls now
  have hrechecked := hswept.anchored.recheckDue platform calls now
  have hretried := hrechecked.anchored.retryDue platform calls now
  exact (hswept.trans hrechecked).trans hretried

theorem anchored_invariant (platform : Platform)
    (digest : MacAddr → Datagram → UInt64) :
    Daemon.Invariant platform digest Daemon.Anchored where
  route _ _ _ _ _ h hafter := h.route hafter
  resting _ _ h hresting := h.resting rfl hresting
  reassembly _ _ h := h.resting rfl (.refl _)
  lost _ _ h := h.resting rfl (.refl _)
  monitor calls repair events now _ h :=
    (h.monitor platform events now calls repair).anchored
  deadline calls now _ h := (h.deadline platform now calls).anchored
  proxy _ _ _ _ _ _ h _ := h.resting rfl (.refl _)

/-! ## Whole runs -/

theorem setup_settled {platform : Platform} {daemon after : Daemon}
    {item : Setup} (h : daemon.dispatcher.table.Settled)
    (hafter : daemon.setup platform item = .ok after) :
    after.dispatcher.table.Settled := by
  have hregister : ∀ {ingress filter handler made key},
      daemon.dispatcher.register ingress filter handler = .ok (made, key) →
      made.table = daemon.dispatcher.table := by
    intro ingress filter handler made key hmade
    obtain ⟨_, _, hsame⟩ := except_bind_ok hmade
    cases hsame
    rfl
  cases item with
  | openCapture name lookup read attach =>
      cases hafter
      have hopened := h.openCapture name lookup read attach
      simp only [PacketDispatcher.openCapture]
      split
      next heq =>
        rw [heq] at hopened
        exact hopened
      next heq =>
        rw [heq] at hopened
        exact hopened
  | joinGroup calls capture group wanted now =>
      cases hafter
      simp only [PacketDispatcher.joinGroup]
      split
      · exact h
      next interface _ => exact h.joinOn platform calls interface group wanted now
  | registerSimple ingress filter reflector =>
      obtain ⟨⟨made, key⟩, hmade, hsame⟩ := except_bind_ok hafter
      cases hsame
      rw [show made.table = _ from hregister hmade]
      exact h
  | registerSearch ingress filter source target delivery macs protocol
      makeReply =>
      obtain ⟨⟨made, key⟩, hmade, hsame⟩ := except_bind_ok hafter
      cases hsame
      rw [show made.table = _ from hregister hmade]
      exact h
  | enableCounterReport interval positive now =>
      cases hafter
      exact h
  | registerService fds poll removed =>
      obtain ⟨⟨reactor, key⟩, _, hsame⟩ := except_bind_ok hafter
      cases hsame
      exact h

theorem setupAll_settled {platform : Platform} {daemon after : Daemon}
    {items : List Setup} (h : daemon.dispatcher.table.Settled)
    (hafter : daemon.setupAll platform items = .ok after) :
    after.dispatcher.table.Settled := by
  induction items generalizing daemon with
  | nil =>
      cases hafter
      exact h
  | cons item items ih =>
      obtain ⟨middle, hitem, hrest⟩ := except_bind_ok hafter
      exact ih (setup_settled h hitem) hrest

theorem setupAll_anchored {platform : Platform} {joinGroups monitor : Bool}
    {seed : UInt32} {start : Nat} {items : List Setup} {ready : Daemon}
    (h : (Daemon.new joinGroups monitor seed start).setupAll platform items =
      .ok ready) : ready.Anchored := by
  have hfresh := (Daemon.Fresh.new joinGroups monitor seed start).setupAll h
  have hsettled : (Daemon.new joinGroups monitor seed
      start).dispatcher.table.Settled := by
    intro entry hmem
    cases hmem
  refine ⟨hfresh.matched, setupAll_settled hsettled h, ?_⟩
  intro own reflector id session hsearches hmem
  rw [hfresh.empty own reflector hsearches] at hmem
  cases hmem

/-- In every state in which a packet is routed, and at the end of every run,
each live session has the reply source of now for its address, and its target
is bound to the index that it was bound to when the session opened; no moment
takes a target that keeps a session through a table where it is bound to
another, or to none. -/
theorem sessions_stay_bound {platform : Platform}
    {digest : MacAddr → Datagram → UInt64} {joinGroups monitor : Bool}
    {seed : UInt32} {start : Nat} {items : List Setup}
    {moments : List Daemon.Moment} {observed : Observed}
    (hrun : daemonRun platform digest
      (Daemon.new joinGroups monitor seed start) items moments =
        .ok observed) :
    (∀ daemon ∈ observed.daemon :: observed.routedIn, ∀ own reflector id
      session, Searches daemon.lookup own reflector →
      (id, session) ∈ reflector.sessions.entries →
      daemon.dispatcher.Upholds reflector id session) ∧
    (∀ moment after, observed.moment platform digest moment = .ok after →
      ∀ own reflector id session, Searches after.daemon.lookup own reflector →
        (id, session) ∈ reflector.sessions.entries →
        ∀ table ∈ moment.tables platform observed.daemon,
          table.ifindexOf reflector.target = session.boundTo) := by
  have hheld := daemonRun_held (anchored_invariant platform digest)
    (fun ready hready => setupAll_anchored hready) hrun
  constructor
  · intro daemon hmem
    rcases List.mem_cons.mp hmem with rfl | hrouted
    · exact hheld.1.current
    · exact (hheld.2 daemon hrouted).current
  · intro moment after hafter own reflector id session hsearches hmem
    cases moment with
    | capture ingress polls calls stopped =>
        intro table htable
        cases htable
    | monitor events now calls repair =>
        cases hafter
        obtain ⟨_, _, _, _, htables⟩ := (hheld.1.monitor platform events now
          calls repair).stayed own reflector id session hsearches hmem
        exact htables
    | deadline now calls =>
        cases hafter
        obtain ⟨_, _, _, _, htables⟩ := (hheld.1.deadline platform now
          calls).stayed own reflector id session hsearches hmem
        exact htables
    | proxy key taken kernel calls =>
        intro table htable
        cases htable

/-- A search from 10.0.1.9, as a capture without link headers reads it. -/
def searchFrame : Bytes :=
  [0x45, 0, 0, 29, 0, 0, 0, 0, 2, 17, 0, 0, 10, 0, 1, 9, 239, 255, 255, 250,
    0x9c, 0x40, 0x07, 0x6c, 0, 9, 0, 0, 0x4d]

def standingSetup : List Setup :=
  [.openCapture [0x61] (.ok (some 2))
      (.ok ⟨{ InterfaceAddresses.default with
        v4 := some ⟨[10, 0, 1, 3], rfl⟩ }, none⟩)
      (.ok .rawIp),
    .openCapture [0x62] (.ok (some 3))
      (.ok ⟨{ InterfaceAddresses.default with
        mac := some .broadcast, v4 := some ⟨[10, 0, 2, 3], rfl⟩ }, none⟩)
      (.ok .ethernet),
    .registerSearch ⟨0⟩ .any ⟨0⟩ ⟨1⟩ .link none searchProtocol .noRewrite]

def standingMoments : List Daemon.Moment :=
  [.capture ⟨0⟩ [⟨true, .ok (some (.frame searchFrame))⟩,
      ⟨true, .ok (some (.frame searchFrame))⟩]
    (fun _ => ⟨10, fun _ => ⟨10, fun _ _ => .ok (), .ok 50000,
      ⟨.ok [], .error .noBufs, .error .noBufs, fun _ => none,
        fun _ => none⟩⟩⟩) 10]

theorem sessions_stay_bound_retransmitted :
    ∃ observed daemon reflector id session,
      daemonRun .linux (fun _ _ => 0) (Daemon.new true true 0 0) standingSetup
        standingMoments = .ok observed ∧
      daemon ∈ observed.routedIn ∧
      Searches daemon.lookup ⟨0, 0⟩ reflector ∧
      (id, session) ∈ reflector.sessions.entries ∧
      daemon.dispatcher.Upholds reflector id session := by
  refine ⟨_, _, _, _, _, rfl, List.mem_cons_self, ⟨_, rfl, rfl⟩,
    List.mem_cons_self, ?_⟩
  exact (sessions_stay_bound
    (rfl : daemonRun .linux (fun _ _ => 0) (Daemon.new true true 0 0)
      standingSetup standingMoments = .ok _)).1 _
    (List.mem_cons_of_mem _ List.mem_cons_self) ⟨0, 0⟩ _ _ _ ⟨_, rfl, rfl⟩
    List.mem_cons_self

end Netflector.Dispatch
