import Netflector.Dispatch.SearchCalls

/-!
# Runs of search calls

Calls in any order, on any handler, with any answers and between any changes
of the interfaces: the registrations that a search reflector created are those
of its sessions.
-/

namespace Netflector.Dispatch

open Netflector.Foundation
open Netflector.Net
open Netflector.Reactor
open Netflector.Reflector

/-! ## The calls -/

inductive SearchCall where
  | packet (key : Key) (calls : PacketCalls) (packet : Packet)
  | deadline (key : Key) (now : Nat)
  | ifaceChange (key : Key) (captures : List CaptureKey)
  | interfaces (table : InterfaceTable)

namespace Daemon

def call (digest : MacAddr → Datagram → UInt64) (daemon : Daemon) :
    SearchCall → Except Panic Daemon
  | .packet key calls packet => routeTo digest calls packet key daemon
  | .deadline key now =>
      .ok { daemon with
        dispatcher := callEach (onDeadlineOf now) [key] daemon.dispatcher }
  | .ifaceChange key captures =>
      .ok { daemon with
        dispatcher := callEach (onIfaceChange captures) [key]
          daemon.dispatcher }
  | .interfaces table =>
      .ok { daemon with dispatcher := { daemon.dispatcher with
        table := table } }

def callAll (digest : MacAddr → Datagram → UInt64) :
    Daemon → List SearchCall → Except Panic Daemon
  | daemon, [] => .ok daemon
  | daemon, call :: calls => do
      let daemon ← daemon.call digest call
      callAll digest daemon calls

def lookup (daemon : Daemon) : Lookup := daemon.dispatcher.registrations.get

structure Matched (daemon : Daemon) : Prop where
  wf : daemon.dispatcher.registrations.Wf
  bijective : Bijective daemon.lookup

end Daemon

/-! ## Startup -/

theorem Bijective.registered {lookup lookup' : Lookup} {key : Key}
    {registration : Registration PacketHandler} {handler : PacketHandler}
    (h : Bijective lookup) (hfresh : lookup key = none)
    (hlookup : ∀ other, lookup' other =
      if other = key then some registration else lookup other)
    (hhandler : registration.handler = some handler)
    (hcreator : handler.creator = none)
    (hempty : ∀ reflector, handler.leg = .search reflector →
      reflector.sessions = .new) : Bijective lookup' := by
  have hkept : ∀ {other found}, lookup other = some found →
      lookup' other = some found := by
    intro other found hfound
    rw [hlookup, if_neg, hfound]
    rintro rfl
    rw [hfresh] at hfound
    cases hfound
  have hcases : ∀ {other found}, lookup' other = some found →
      (other = key ∧ found = registration) ∨ lookup other = some found := by
    intro other found hfound
    rw [hlookup] at hfound
    split at hfound
    next hsame => exact .inl ⟨hsame, (Option.some.inj hfound).symm⟩
    · exact .inr hfound
  -- a reflector of `lookup'` is an old one, or has no session
  have hsearches : ∀ {own reflector}, Searches lookup' own reflector →
      Searches lookup own reflector ∨ reflector.sessions = .new := by
    rintro own reflector ⟨found, hfound, hsearch⟩
    obtain ⟨_, rfl⟩ | hold := hcases hfound
    · rw [hhandler, Option.some.injEq] at hsearch
      exact .inr (hempty reflector (by rw [hsearch]))
    · exact .inl ⟨found, hold, hsearch⟩
  constructor
  case rooted =>
    intro other found handler' reflector hfound hhandler' hleg
    obtain ⟨_, rfl⟩ | hold := hcases hfound
    · rw [hhandler, Option.some.injEq] at hhandler'
      rw [← hhandler']
      exact hcreator
    · exact h.rooted other found handler' reflector hold hhandler' hleg
  case created =>
    rintro own other ⟨found, handler', hfound, hhandler', hcreator'⟩
    obtain ⟨_, rfl⟩ | hold := hcases hfound
    · rw [hhandler, Option.some.injEq] at hhandler'
      rw [← hhandler', hcreator] at hcreator'
      cases hcreator'
    · obtain ⟨reflector, id, session, ⟨root, hroot, hsearch⟩, hmem, hsame⟩ :=
        h.created own other ⟨found, handler', hold, hhandler', hcreator'⟩
      exact ⟨reflector, id, session, ⟨root, hkept hroot, hsearch⟩, hmem, hsame⟩
  case answered =>
    intro own reflector hsearch id session hmem
    obtain hold | hnew := hsearches hsearch
    · obtain ⟨found, leg, mac, hfound, hrest⟩ :=
        h.answered own reflector hold id session hmem
      exact ⟨found, leg, mac, hkept hfound, hrest⟩
    · rw [hnew] at hmem
      cases hmem
  case distinct =>
    intro own reflector hsearch id session id' session' hmem
    obtain hold | hnew := hsearches hsearch
    · exact h.distinct own reflector hold id session id' session' hmem
    · rw [hnew] at hmem
      cases hmem
  case capped =>
    intro own reflector hsearch
    obtain hold | hnew := hsearches hsearch
    · exact h.capped own reflector hold
    · rw [hnew]
      exact Nat.zero_le _

theorem Daemon.Matched.new (joinGroups monitor : Bool) (seed : UInt32)
    (now : Nat) : (Daemon.new joinGroups monitor seed now).Matched := by
  have hnone : ∀ key, (Daemon.new joinGroups monitor seed now).lookup key =
      none := fun key => rfl
  refine ⟨Arena.wf_new, ?_⟩
  constructor
  case rooted =>
    intro key registration handler reflector hget
    rw [hnone] at hget
    cases hget
  case created =>
    rintro own key ⟨registration, handler, hget, _⟩
    rw [hnone] at hget
    cases hget
  all_goals
    rintro own reflector ⟨registration, hget, _⟩
    rw [hnone] at hget
    cases hget

theorem setup_cases {platform : Platform} {daemon after : Daemon}
    {item : Setup} (h : daemon.setup platform item = .ok after) :
    after.dispatcher.registrations = daemon.dispatcher.registrations ∨
    ∃ ingress filter handler made key,
      daemon.dispatcher.register ingress filter handler = .ok (made, key) ∧
      after.dispatcher.registrations = made.registrations ∧
      handler.creator = none ∧
      ∀ reflector, handler.leg = .search reflector →
        reflector.sessions = .new := by
  cases item with
  | openCapture name lookup read attach =>
      cases h
      left
      simp only [PacketDispatcher.openCapture]
      split
      · rfl
      · rfl
  | joinGroup calls capture group wanted now =>
      cases h
      left
      simp only [PacketDispatcher.joinGroup]
      split
      · rfl
      · rfl
  | registerSimple ingress filter reflector =>
      obtain ⟨⟨made, key⟩, hmade, hsame⟩ := except_bind_ok h
      cases hsame
      refine .inr ⟨_, _, _, made, key, hmade, rfl, rfl, fun _ hleg => ?_⟩
      cases hleg
  | registerSearch ingress filter source target delivery macs protocol
      makeReply =>
      obtain ⟨⟨made, key⟩, hmade, hsame⟩ := except_bind_ok h
      cases hsame
      refine .inr ⟨_, _, _, made, key, hmade, rfl, rfl, fun _ hleg => ?_⟩
      cases hleg
      rfl
  | enableCounterReport interval positive now =>
      cases h
      exact .inl rfl
  | registerService fds poll removed =>
      obtain ⟨⟨reactor, key⟩, _, hsame⟩ := except_bind_ok h
      cases hsame
      exact .inl rfl

structure Daemon.Fresh (daemon : Daemon) : Prop where
  matched : daemon.Matched
  empty : ∀ own reflector, Searches daemon.lookup own reflector →
    reflector.sessions = .new

theorem Daemon.Fresh.new (joinGroups monitor : Bool) (seed : UInt32)
    (now : Nat) : (Daemon.new joinGroups monitor seed now).Fresh := by
  refine ⟨.new .., ?_⟩
  rintro own reflector ⟨registration, hget, _⟩
  cases hget

theorem Daemon.Fresh.setup {platform : Platform} {daemon after : Daemon}
    (h : daemon.Fresh) {item : Setup}
    (hafter : daemon.setup platform item = .ok after) : after.Fresh := by
  obtain hsame | ⟨ingress, filter, handler, made, key, hmade, hregistrations,
    hcreator, hempty⟩ := setup_cases hafter
  · have hlookup : after.lookup = daemon.lookup := by
      rw [lookup, hsame, lookup]
    refine ⟨⟨?_, ?_⟩, ?_⟩
    · rw [hsame]
      exact h.matched.wf
    · rw [hlookup]
      exact h.matched.bijective
    · rw [hlookup]
      exact h.empty
  · obtain ⟨hwf, hfresh, hget, _⟩ := register_ok h.matched.wf hmade
    have hlookup : after.lookup = made.registrations.get := by
      rw [lookup, hregistrations]
    refine ⟨⟨?_, ?_⟩, ?_⟩
    · rw [hregistrations]
      exact hwf
    · rw [hlookup]
      exact h.matched.bijective.registered hfresh hget rfl hcreator hempty
    · rintro own reflector ⟨registration, hfound, hsearch⟩
      rw [hlookup, hget] at hfound
      split at hfound
      · cases hfound
        rw [Option.some.injEq] at hsearch
        exact hempty reflector (by rw [hsearch])
      · exact h.empty own reflector ⟨registration, hfound, hsearch⟩

theorem Daemon.Fresh.setupAll {platform : Platform} {daemon after : Daemon}
    (h : daemon.Fresh) {items : List Setup}
    (hafter : daemon.setupAll platform items = .ok after) : after.Fresh := by
  induction items generalizing daemon with
  | nil =>
      cases hafter
      exact h
  | cons item items ih =>
      obtain ⟨middle, hitem, hrest⟩ := except_bind_ok hafter
      exact ih (h.setup hitem) hrest

/-! ## One call -/

theorem Daemon.Matched.call {digest : MacAddr → Datagram → UInt64}
    {daemon after : Daemon} (h : daemon.Matched) {call : SearchCall}
    (hafter : daemon.call digest call = .ok after) : after.Matched := by
  cases call with
  | packet key calls packet =>
      have hrouted := routeTo_routed hafter
      exact ⟨hrouted.wf h.wf, h.bijective.routed h.wf hrouted⟩
  | deadline key now =>
      cases hafter
      have hends := onDeadlineOf_ends now
      exact ⟨callEach_wf hends [key] h.wf, h.bijective.called hends [key]⟩
  | ifaceChange key captures =>
      cases hafter
      have hends := onIfaceChange_ends captures
      exact ⟨callEach_wf hends [key] h.wf, h.bijective.called hends [key]⟩
  | interfaces table =>
      cases hafter
      exact ⟨h.wf, h.bijective⟩

/-- Where a session after a call comes from: it goes on, or a packet for its
reflector opened it. -/
inductive SearchCall.Stems (digest : MacAddr → Datagram → UInt64)
    (daemon : Daemon) (own : Key) (before : SearchReflector) :
    SearchCall → SessionKey → Session → Prop where
  | continued (call : SearchCall) (id : SessionKey) (old session : Session)
      (hold : (id, old) ∈ before.sessions.entries)
      (hcontinues : Continues old session)
      (hdeadline : ∀ now, call = .deadline own now → now < session.expiry) :
      Stems digest daemon own before call id session
  | opened (calls : PacketCalls) (packet : Packet) (id : SessionKey)
      (session : Session)
      (hopened : Opened digest own calls packet daemon.dispatcher
        (daemon.dispatcher.takeHandler own).1 before id session) :
      Stems digest daemon own before (.packet own calls packet) id session

theorem call_searches {digest : MacAddr → Datagram → UInt64}
    {daemon left : Daemon} (h : daemon.Matched) {call : SearchCall}
    (hleft : daemon.call digest call = .ok left) {own : Key}
    {after : SearchReflector} (hafter : Searches left.lookup own after) :
    ∃ before, Searches daemon.lookup own before ∧
      after = { before with sessions := after.sessions } ∧
      ∀ id session, (id, session) ∈ after.sessions.entries →
        call.Stems digest daemon own before id session := by
  cases call with
  | packet key calls packet =>
      obtain ⟨before, hbefore, hstatic, hsessions⟩ :=
        routed_searches h.bijective h.wf (routeTo_routed hleft) hafter
      refine ⟨before, hbefore, hstatic, fun id session hmem => ?_⟩
      obtain ⟨old, hold, hcontinues⟩ | ⟨rfl, hopened⟩ :=
        hsessions id session hmem
      · refine .continued _ id old session hold hcontinues ?_
        intro now hcall
        cases hcall
      · exact .opened calls packet id session hopened
  | deadline key now =>
      cases hleft
      obtain ⟨before, hbefore, hstatic, hsessions⟩ :=
        calledOne_searches (onDeadlineOf_ends now) h.bijective hafter
      refine ⟨before, hbefore, hstatic, fun id session hmem => ?_⟩
      obtain ⟨hold, hkept⟩ := hsessions _ hmem
      refine .continued _ id session session hold (.refl _) ?_
      intro now' hcall
      cases hcall
      simpa using hkept rfl
  | ifaceChange key captures =>
      cases hleft
      obtain ⟨before, hbefore, hstatic, hsessions⟩ :=
        calledOne_searches (onIfaceChange_ends captures) h.bijective hafter
      refine ⟨before, hbefore, hstatic, fun id session hmem => ?_⟩
      refine .continued _ id session session (hsessions _ hmem).1 (.refl _) ?_
      intro now hcall
      cases hcall
  | interfaces table =>
      cases hleft
      refine ⟨after, hafter, rfl, fun id session hmem => ?_⟩
      refine .continued _ id session session hmem (.refl _) ?_
      intro now hcall
      cases hcall

theorem call_searches_kept {digest : MacAddr → Datagram → UInt64}
    {daemon left : Daemon} (h : daemon.Matched) {call : SearchCall}
    (hleft : daemon.call digest call = .ok left) {own : Key}
    {before : SearchReflector}
    (hbefore : Searches daemon.lookup own before) :
    ∃ after, Searches left.lookup own after := by
  cases call with
  | packet key calls packet =>
      exact routed_searches_kept h.bijective h.wf (routeTo_routed hleft) hbefore
  | deadline key now =>
      cases hleft
      exact calledOne_searches_kept (onDeadlineOf_ends now) h.bijective key
        hbefore
  | ifaceChange key captures =>
      cases hleft
      exact calledOne_searches_kept (onIfaceChange_ends captures) h.bijective
        key hbefore
  | interfaces table =>
      cases hleft
      exact ⟨before, hbefore⟩

/-! ## Reserved ports -/

def HasSession (lookup : Lookup) (own : Key) (target : CaptureKey)
    (id : SessionKey) (session : Session) : Prop :=
  ∃ reflector, Searches lookup own reflector ∧ reflector.target = target ∧
    (id, session) ∈ reflector.sessions.entries

/-- A port that a packet's call reserves is not reserved on its address, by a
session of the same target. -/
def SearchCall.ReservesFresh (daemon : Daemon) : SearchCall → Prop
  | .packet key calls search =>
      ∀ reflector destination ourAddr port,
        Searches daemon.lookup key reflector →
        reflector.delivery.destination search.dest.ip = some destination →
        daemon.dispatcher.replySource reflector.target destination =
          some ourAddr →
        calls.reserve = .ok port →
        ∀ own id session,
          HasSession daemon.lookup own reflector.target id session →
          session.reservation ≠ ⟨ourAddr, port⟩
  | .deadline _ _ | .ifaceChange _ _ | .interfaces _ => True

def Daemon.ReservesFresh (digest : MacAddr → Datagram → UInt64) :
    Daemon → List SearchCall → Prop
  | _, [] => True
  | daemon, call :: calls =>
      call.ReservesFresh daemon ∧ ∀ after,
        daemon.call digest call = .ok after → ReservesFresh digest after calls

/-- On one target, no two sessions have the same address and port. -/
def Apart (lookup : Lookup) : Prop :=
  ∀ own own' target id id' session session',
    HasSession lookup own target id session →
    HasSession lookup own' target id' session' →
    session.reservation = session'.reservation → own = own' ∧ id = id'

theorem Apart.call {digest : MacAddr → Datagram → UInt64}
    {daemon left : Daemon} (h : Apart daemon.lookup)
    (hmatched : daemon.Matched) {call : SearchCall}
    (hfresh : call.ReservesFresh daemon)
    (hleft : daemon.call digest call = .ok left) : Apart left.lookup := by
  -- a session after the call is an old one by its reservation, or new
  have hcases : ∀ {own target id session},
      HasSession left.lookup own target id session →
      (∃ old, HasSession daemon.lookup own target id old ∧
        session.reservation = old.reservation) ∨
      ∃ calls packet, call = .packet own calls packet ∧
        id = ⟨packet.source, packet.dest⟩ ∧
        ∀ own' id' old, HasSession daemon.lookup own' target id' old →
          old.reservation ≠ session.reservation := by
    rintro own target id session ⟨after, hafter, htarget, hmem⟩
    obtain ⟨before, hbefore, hstatic, hsessions⟩ :=
      call_searches hmatched hleft hafter
    have htarget' : before.target = target := by
      rw [← htarget, hstatic]
    cases hsessions id session hmem with
    | continued call id old session hold hcontinues hdeadline =>
        exact .inl ⟨old, ⟨before, hbefore, htarget', hold⟩,
          hcontinues.reservation⟩
    | opened calls packet id session hopened =>
        obtain ⟨destination, hdestination, haddr⟩ := hopened.addressed
        refine .inr ⟨calls, packet, rfl, hopened.asked, ?_⟩
        intro own' id' old hold
        rw [← htarget'] at hold
        exact hfresh before destination _ _ hbefore hdestination haddr
          hopened.reserved own' id' old hold
  intro own own' target id id' session session' hsession hsession' hsame
  obtain ⟨old, hold, hreservation⟩ | ⟨calls, packet, hcall, hid, hnew⟩ :=
    hcases hsession
  · obtain ⟨old', hold', hreservation'⟩ | ⟨_, _, _, _, hnew'⟩ :=
      hcases hsession'
    · exact h own own' target id id' old old' hold hold'
        (by rw [← hreservation, hsame, hreservation'])
    · exact absurd (hreservation.symm.trans hsame) (hnew' own id old hold)
  · obtain ⟨old', hold', hreservation'⟩ | ⟨calls', packet', hcall', hid', _⟩ :=
      hcases hsession'
    · exact absurd (hreservation'.symm.trans hsame.symm)
        (hnew own' id' old' hold')
    · rw [hcall'] at hcall
      cases hcall
      exact ⟨rfl, hid.trans hid'.symm⟩

theorem Answers.dest {lookup : Lookup} {own : Key}
    {reflector : SearchReflector} {id : SessionKey} {session : Session}
    (h : Answers lookup own reflector id session)
    {registration : Registration PacketHandler}
    (hget : lookup session.responseKey = some registration)
    {ingress : CaptureKey} {packet : Packet}
    {addrs : Option InterfaceAddresses}
    (happlies : registration.applies ingress packet addrs = true) :
    reflector.target = ingress ∧ packet.dest = session.reservation := by
  obtain ⟨registration', leg, mac, hget', hingress, hfilter, _⟩ := h
  rw [hget, Option.some.injEq] at hget'
  subst hget'
  rw [Registration.applies, hingress, hfilter] at happlies
  simp only [SearchReflector.responseFilter, Filter.matches, Filter.any,
    Filter.acceptsDst, noneOr, Bool.and_eq_true, decide_eq_true_eq] at happlies
  obtain ⟨htarget, ⟨⟨⟨⟨_, hip⟩, _⟩, hport⟩, _⟩, _⟩ := happlies
  have hip' : packet.dest.ip = session.reservation.ip := by simpa using hip
  have hport' : packet.dest.port = session.reservation.port := by
    simpa using hport
  refine ⟨htarget, ?_⟩
  cases hdest : packet.dest with
  | mk ip port =>
      rw [hdest] at hip' hport'
      cases hreservation : session.reservation with
      | mk ip' port' =>
          rw [hreservation] at hip' hport'
          rw [show ip = ip' from hip', show port = port' from hport']

/-! ## Whole runs -/

theorem Daemon.Matched.callAll {digest : MacAddr → Datagram → UInt64}
    {daemon after : Daemon} (h : daemon.Matched) {calls : List SearchCall}
    (hafter : daemon.callAll digest calls = .ok after) : after.Matched := by
  induction calls generalizing daemon with
  | nil =>
      cases hafter
      exact h
  | cons call calls ih =>
      obtain ⟨middle, hcall, hrest⟩ := except_bind_ok hafter
      exact ih (h.call hcall) hrest

theorem Daemon.Fresh.apart {daemon : Daemon} (h : daemon.Fresh) :
    Apart daemon.lookup := by
  rintro own own' target id id' session session' ⟨reflector, hsearches, _, hmem⟩
  rw [h.empty own reflector hsearches] at hmem
  cases hmem

theorem Apart.callAll {digest : MacAddr → Datagram → UInt64}
    {daemon after : Daemon} (h : Apart daemon.lookup)
    (hmatched : daemon.Matched) {calls : List SearchCall}
    (hfresh : daemon.ReservesFresh digest calls)
    (hafter : daemon.callAll digest calls = .ok after) :
    Apart after.lookup := by
  induction calls generalizing daemon with
  | nil =>
      cases hafter
      exact h
  | cons call calls ih =>
      obtain ⟨middle, hcall, hrest⟩ := except_bind_ok hafter
      exact ih (h.call hmatched hfresh.1 hcall) (hmatched.call hcall)
        (hfresh.2 middle hcall) hrest

/-- The live registrations that the reflector under `own` created are those of
its sessions, one each. -/
structure SessionsMatch (lookup : Lookup) (own : Key)
    (reflector : SearchReflector) : Prop where
  registrations : ∀ key, CreatedBy lookup own key ↔ ∃ id session,
    (id, session) ∈ reflector.sessions.entries ∧ session.responseKey = key
  distinct : ∀ id session id' session',
    (id, session) ∈ reflector.sessions.entries →
    (id', session') ∈ reflector.sessions.entries →
    session.responseKey = session'.responseKey → id = id'
  capped : reflector.sessions.len ≤ maxSessions
  single : (reflector.sessions.entries.map Prod.fst).Nodup

theorem Bijective.sessionsMatch {lookup : Lookup} (h : Bijective lookup)
    {own : Key} {reflector : SearchReflector}
    (hsearches : Searches lookup own reflector) :
    SessionsMatch lookup own reflector := by
  refine ⟨fun key => ⟨fun hcreated => ?_, ?_⟩,
    h.distinct own reflector hsearches, h.capped own reflector hsearches,
    reflector.sessions.nodup⟩
  · obtain ⟨reflector', id, session, hsearches', hmem, hsame⟩ :=
      h.created own key hcreated
    cases hsearches.unique hsearches'
    exact ⟨id, session, hmem, hsame⟩
  · rintro ⟨id, session, hmem, rfl⟩
    exact (h.answered own reflector hsearches id session hmem).createdBy

structure SessionsStep (digest : MacAddr → Datagram → UInt64)
    (daemon : Daemon) (call : SearchCall) (own : Key)
    (before after : SearchReflector) : Prop where
  extended : ∀ id session session',
    (id, session) ∈ before.sessions.entries →
    (id, session') ∈ after.sessions.entries → session.expiry ≤ session'.expiry
  swept : ∀ now, call = .deadline own now → ∀ id session,
    (id, session) ∈ after.sessions.entries → now < session.expiry
  opened : ∀ id session, (id, session) ∈ after.sessions.entries →
    before.sessions.get id = none → ∃ calls packet,
      call = .packet own calls packet ∧
      Opened digest own calls packet daemon.dispatcher
        (daemon.dispatcher.takeHandler own).1 before id session

theorem Daemon.Matched.sessionsStep {digest : MacAddr → Datagram → UInt64}
    {daemon left : Daemon} (h : daemon.Matched) {call : SearchCall}
    (hleft : daemon.call digest call = .ok left) {own : Key}
    {before : SearchReflector}
    (hbefore : Searches daemon.lookup own before) :
    ∃ after, Searches left.lookup own after ∧
      SessionsStep digest daemon call own before after := by
  obtain ⟨after, hafter⟩ := call_searches_kept h hleft hbefore
  obtain ⟨before', hbefore', _, hsessions⟩ := call_searches h hleft hafter
  cases hbefore.unique hbefore'
  refine ⟨after, hafter, ?_, ?_, ?_⟩
  · intro id session session' hmem hmem'
    cases hsessions id session' hmem' with
    | continued call id old session' hold hcontinues hdeadline =>
        rw [← LinearMap.get_eq_some_iff] at hmem hold
        rw [hmem, Option.some.injEq] at hold
        rw [hold]
        exact hcontinues.expiry
    | opened calls packet id session' hopened =>
        exact absurd hmem
          (LinearMap.get_eq_none_iff.mp hopened.absent session)
  · intro now hcall id session hmem
    cases hsessions id session hmem with
    | continued call id old session hold hcontinues hdeadline =>
        exact hdeadline now hcall
    | opened calls packet id session hopened => cases hcall
  · intro id session hmem hnone
    cases hsessions id session hmem with
    | continued call id old session hold hcontinues hdeadline =>
        exact absurd hold (LinearMap.get_eq_none_iff.mp hnone old)
    | opened calls packet id session hopened =>
        exact ⟨calls, packet, rfl, hopened⟩

/-- Over every sequence of calls after the startup, with any answers: what a
search reflector created is registered exactly for its sessions, at most
`maxSessions` of them and one for each searcher and destination; a session that
goes on never expires earlier, a deadline leaves none that is due, and one
opens only with its port reserved and its first search sent.  Where no port is
reserved twice, what a session's registration admits no other's does, and it is
delivered to the session's searcher. -/
theorem sessions_match_registrations {platform : Platform}
    {digest : MacAddr → Datagram → UInt64} {joinGroups monitor : Bool}
    {seed : UInt32} {start : Nat} {items : List Setup}
    {calls : List SearchCall} {ready daemon : Daemon}
    (hsetup : (Daemon.new joinGroups monitor seed start).setupAll platform
      items = .ok ready)
    (hrun : ready.callAll digest calls = .ok daemon) :
    (∀ own key, CreatedBy daemon.lookup own key →
      ∃ reflector, Searches daemon.lookup own reflector) ∧
    (∀ own reflector, Searches daemon.lookup own reflector →
      SessionsMatch daemon.lookup own reflector ∧
      ∀ call left, daemon.call digest call = .ok left →
        ∃ after, Searches left.lookup own after ∧
          SessionsStep digest daemon call own reflector after) ∧
    (∀ own reflector id session, Searches daemon.lookup own reflector →
      (id, session) ∈ reflector.sessions.entries →
      Answers daemon.lookup own reflector id session) ∧
    (ready.ReservesFresh digest calls →
      ∀ own reflector id session registration own' reflector' id' session'
        registration' ingress packet addrs,
        Searches daemon.lookup own reflector →
        (id, session) ∈ reflector.sessions.entries →
        daemon.lookup session.responseKey = some registration →
        registration.applies ingress packet addrs = true →
        Searches daemon.lookup own' reflector' →
        (id', session') ∈ reflector'.sessions.entries →
        daemon.lookup session'.responseKey = some registration' →
        registration'.applies ingress packet addrs = true →
        own = own' ∧ id = id') := by
  have hfresh := (Daemon.Fresh.new joinGroups monitor seed start).setupAll
    hsetup
  have hmatched := hfresh.matched.callAll hrun
  refine ⟨?_, ?_, ?_, ?_⟩
  · intro own key hcreated
    obtain ⟨reflector, _, _, hsearches, _⟩ :=
      hmatched.bijective.created own key hcreated
    exact ⟨reflector, hsearches⟩
  · intro own reflector hsearches
    exact ⟨hmatched.bijective.sessionsMatch hsearches,
      fun call left hleft => hmatched.sessionsStep hleft hsearches⟩
  · intro own reflector id session hsearches hmem
    exact hmatched.bijective.answered own reflector hsearches id session hmem
  · intro hreserves own reflector id session registration own' reflector' id'
      session' registration' ingress packet addrs hsearches hmem hget happlies
      hsearches' hmem' hget' happlies'
    have hapart := hfresh.apart.callAll hfresh.matched hreserves hrun
    obtain ⟨htarget, hdest⟩ := (hmatched.bijective.answered own reflector
      hsearches id session hmem).dest hget happlies
    obtain ⟨htarget', hdest'⟩ := (hmatched.bijective.answered own' reflector'
      hsearches' id' session' hmem').dest hget' happlies'
    exact hapart own own' ingress id id' session session'
      ⟨reflector, hsearches, htarget, hmem⟩
      ⟨reflector', hsearches', htarget', hmem'⟩ (hdest.symm.trans hdest')

def searchProtocol : SearchProtocol where
  port := 1900
  ttl := 2
  groupV4 := ⟨[239, 255, 255, 250], rfl⟩
  groupsV6 := []
  responseType := .ssdpResponse
  announcementVerdict := fun _ => .junk
  searchVerdict := fun _ => .reflect .ssdpSearch
  window := fun _ => 5
  suppress := fun _ => false

def searchSetup : List Setup :=
  [.openCapture [0x61] (.ok (some 2))
      (.ok ⟨{ InterfaceAddresses.default with
        mac := some .broadcast, v4 := some ⟨[10, 0, 1, 2], rfl⟩ }, none⟩)
      (.ok .ethernet),
    .openCapture [0x62] (.ok (some 3))
      (.ok ⟨{ InterfaceAddresses.default with
        mac := some .broadcast, v4 := some ⟨[10, 0, 2, 2], rfl⟩ }, none⟩)
      (.ok .ethernet),
    .registerSearch ⟨0⟩ .any ⟨0⟩ ⟨1⟩ .link none searchProtocol .noRewrite]

def searchOf (host : UInt8) : Packet where
  source := ⟨.v4 ⟨[10, 0, 1, host], rfl⟩, 40000⟩
  dest := ⟨.v4 ⟨[239, 255, 255, 250], rfl⟩, 1900⟩
  ttl := 2
  dstMac := none
  srcMac := none
  payload := [0x4d]

def searchAt (now : Nat) (host : UInt8) (port : UInt16) : SearchCall :=
  .packet ⟨0, 0⟩ ⟨now, fun _ _ => .ok (), .ok port,
    ⟨.ok [], .error .noBufs, .error .noBufs, fun _ => none, fun _ => none⟩⟩
    (searchOf host)

/-- Two searchers, of whom the first expires and searches again from the port
that it had. -/
def searchCalls : List SearchCall :=
  [searchAt 10 9 50000, searchAt 12 7 50001, .deadline ⟨0, 0⟩ 15,
    searchAt 16 9 50000]

/-- The interfaces change, and the second searches again. -/
def laterCalls : List SearchCall :=
  [.ifaceChange ⟨0, 0⟩ [⟨1⟩], searchAt 20 7 50001]

def Daemon.heldPorts (daemon : Daemon) : List UInt16 :=
  daemon.dispatcher.registrations.iter.flatMap fun item =>
    match item.2.handler with
    | some ⟨.search reflector, _⟩ =>
        reflector.sessions.entries.map fun entry => entry.2.reservation.port
    | _ => []

def SearchCall.freshPort (daemon : Daemon) : SearchCall → Bool
  | .packet _ calls _ =>
      calls.reserve.toOption.all fun port => !daemon.heldPorts.contains port
  | _ => true

def Daemon.freshPorts (digest : MacAddr → Datagram → UInt64) :
    Daemon → List SearchCall → Bool
  | _, [] => true
  | daemon, call :: calls =>
      call.freshPort daemon && (daemon.call digest call).toOption.all
        fun after => freshPorts digest after calls

theorem Daemon.Matched.heldPorts {daemon : Daemon} (h : daemon.Matched)
    {own : Key} {target : CaptureKey} {id : SessionKey} {session : Session}
    (hsession : HasSession daemon.lookup own target id session) :
    session.reservation.port ∈ daemon.heldPorts := by
  obtain ⟨reflector, ⟨registration, hget, hhandler⟩, _, hmem⟩ := hsession
  refine List.mem_flatMap.mpr ⟨(own, registration),
    (Arena.mem_iter h.wf).mpr hget, ?_⟩
  simp only [hhandler]
  exact List.mem_map_of_mem hmem

theorem Daemon.Matched.reservesFresh {digest : MacAddr → Datagram → UInt64}
    {daemon : Daemon} (h : daemon.Matched) {calls : List SearchCall}
    (hports : daemon.freshPorts digest calls = true) :
    daemon.ReservesFresh digest calls := by
  induction calls generalizing daemon with
  | nil => trivial
  | cons call calls ih =>
      simp only [Daemon.freshPorts, Bool.and_eq_true] at hports
      obtain ⟨hport, hlater⟩ := hports
      refine ⟨?_, ?_⟩
      · cases call with
        | packet key answers packet =>
            intro reflector destination ourAddr port _ _ _ hreserve own id
              session hsession hsame
            have hheld := h.heldPorts hsession
            rw [hsame] at hheld
            simp only [SearchCall.freshPort, hreserve, Except.toOption,
              Option.all_some, Bool.not_eq_true', List.contains_eq_mem,
              decide_eq_false_iff_not] at hport
            exact hport hheld
        | deadline key now => trivial
        | ifaceChange key captures => trivial
        | interfaces table => trivial
      · intro after hcall
        rw [hcall] at hlater
        exact ih (h.call hcall) hlater

def Daemon.sessionsOf (daemon : Daemon) (own : Key) :
    Option (List (SocketAddr × Nat × UInt16)) :=
  match (daemon.lookup own).bind (·.handler) with
  | some ⟨.search reflector, none⟩ =>
      some (reflector.sessions.entries.map fun entry =>
        (entry.1.searcher, entry.2.expiry, entry.2.reservation.port))
  | _ => none

theorem Daemon.searches_of_sessions {daemon : Daemon} {own : Key}
    {sessions : List (SocketAddr × Nat × UInt16)}
    (h : daemon.sessionsOf own = some sessions) :
    ∃ reflector, Searches daemon.lookup own reflector ∧
      reflector.sessions.entries.map (fun entry =>
        (entry.1.searcher, entry.2.expiry, entry.2.reservation.port)) =
          sessions := by
  unfold Daemon.sessionsOf at h
  split at h
  · rename_i reflector hhandler
    obtain ⟨registration, hget, hhandler⟩ := Option.bind_eq_some_iff.mp hhandler
    exact ⟨reflector, ⟨registration, hget, hhandler⟩, Option.some.inj h⟩
  · cases h

def searchRun (calls : List SearchCall) :
    Except Panic (Bool × Option (List (SocketAddr × Nat × UInt16))) := do
  let ready ← (Daemon.new true true 0 0).setupAll .linux searchSetup
  let daemon ← ready.callAll (fun _ _ => 0) calls
  .ok (ready.freshPorts (fun _ _ => 0) calls, daemon.sessionsOf ⟨0, 0⟩)

theorem searchRun_ok {calls : List SearchCall}
    {sessions : List (SocketAddr × Nat × UInt16)}
    (h : searchRun calls = .ok (true, some sessions)) :
    ∃ ready daemon reflector,
      (Daemon.new true true 0 0).setupAll .linux searchSetup = .ok ready ∧
      ready.callAll (fun _ _ => 0) calls = .ok daemon ∧
      ready.ReservesFresh (fun _ _ => 0) calls ∧
      Searches daemon.lookup ⟨0, 0⟩ reflector ∧
      reflector.sessions.entries.map (fun entry =>
        (entry.1.searcher, entry.2.expiry, entry.2.reservation.port)) =
          sessions := by
  obtain ⟨ready, hready, h⟩ := except_bind_ok h
  obtain ⟨daemon, hdaemon, h⟩ := except_bind_ok h
  obtain ⟨hports, hsessions⟩ := Prod.mk.inj (Except.ok.inj h)
  obtain ⟨reflector, hsearches, hentries⟩ :=
    Daemon.searches_of_sessions hsessions
  have hfresh := (Daemon.Fresh.new true true 0 0).setupAll hready
  exact ⟨ready, daemon, reflector, hready, hdaemon,
    hfresh.matched.reservesFresh hports, hsearches, hentries⟩

theorem sessions_match_registrations_opened :
    (∃ ready daemon reflector,
      (Daemon.new true true 0 0).setupAll .linux searchSetup = .ok ready ∧
      ready.callAll (fun _ _ => 0) searchCalls = .ok daemon ∧
      Searches daemon.lookup ⟨0, 0⟩ reflector ∧
      reflector.sessions.entries.map (fun entry =>
        (entry.1.searcher, entry.2.expiry, entry.2.reservation.port)) =
          [((searchOf 7).source, 17, 50001),
            ((searchOf 9).source, 21, 50000)] ∧
      SessionsMatch daemon.lookup ⟨0, 0⟩ reflector ∧
      ∀ id session registration id' session' registration' ingress packet
        addrs,
        (id, session) ∈ reflector.sessions.entries →
        daemon.lookup session.responseKey = some registration →
        registration.applies ingress packet addrs = true →
        (id', session') ∈ reflector.sessions.entries →
        daemon.lookup session'.responseKey = some registration' →
        registration'.applies ingress packet addrs = true → id = id') ∧
    ∃ ready daemon reflector,
      (Daemon.new true true 0 0).setupAll .linux searchSetup = .ok ready ∧
      ready.callAll (fun _ _ => 0) (searchCalls ++ laterCalls) = .ok daemon ∧
      Searches daemon.lookup ⟨0, 0⟩ reflector ∧
      reflector.sessions.entries.map (fun entry =>
        (entry.1.searcher, entry.2.expiry, entry.2.reservation.port)) =
          [((searchOf 7).source, 25, 50001)] ∧
      SessionsMatch daemon.lookup ⟨0, 0⟩ reflector := by
  have hfirst : searchRun searchCalls = .ok (true,
      some [((searchOf 7).source, 17, 50001),
        ((searchOf 9).source, 21, 50000)]) := by
    decide +kernel
  have hlater : searchRun (searchCalls ++ laterCalls) = .ok (true,
      some [((searchOf 7).source, 25, 50001)]) := by
    decide +kernel
  constructor
  · obtain ⟨ready, daemon, reflector, hsetup, hrun, hreserves, hsearches,
      hentries⟩ := searchRun_ok hfirst
    obtain ⟨_, hmatch, _, hapart⟩ := sessions_match_registrations hsetup hrun
    refine ⟨ready, daemon, reflector, hsetup, hrun, hsearches, hentries,
      (hmatch _ _ hsearches).1, ?_⟩
    intro id session registration id' session' registration' ingress packet
      addrs hmem hget happlies hmem' hget' happlies'
    exact (hapart hreserves _ _ id session registration _ _ id' session'
      registration' ingress packet addrs hsearches hmem hget happlies
      hsearches hmem' hget' happlies').2
  · obtain ⟨ready, daemon, reflector, hsetup, hrun, _, hsearches, hentries⟩ :=
      searchRun_ok hlater
    exact ⟨ready, daemon, reflector, hsetup, hrun, hsearches, hentries,
      ((sessions_match_registrations hsetup hrun).2.1 _ _ hsearches).1⟩

end Netflector.Dispatch
