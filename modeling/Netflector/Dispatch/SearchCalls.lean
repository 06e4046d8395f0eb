import Netflector.Dispatch.Sessions

/-!
# Calls of the handlers

A handler is out of the arena while it is called, and put back afterwards.
What each call leaves of the sessions and of the registrations.
-/

namespace Netflector.Dispatch

open Netflector.Foundation
open Netflector.Net
open Netflector.Reactor
open Netflector.Reflector

/-! ## A packet -/

theorem register_ok {dispatcher made : PacketDispatcher}
    {ingress : CaptureKey} {filter : Filter} {handler : PacketHandler}
    {key : Key} (hwf : dispatcher.registrations.Wf)
    (h : dispatcher.register ingress filter handler = .ok (made, key)) :
    made.registrations.Wf ∧
      dispatcher.registrations.get key = none ∧
      (∀ other, made.registrations.get other =
        if other = key then some ⟨ingress, filter, some handler⟩
        else dispatcher.registrations.get other) ∧
      made = { dispatcher with registrations := made.registrations } := by
  obtain ⟨⟨registrations, key'⟩, hinsert, hmade⟩ := except_bind_ok h
  cases hmade
  obtain ⟨arena, placedKey, hok, hplaced⟩ | hexhausted :=
    Arena.insertFrom_total hwf
      fun _ => (⟨ingress, filter, some handler⟩ : Registration PacketHandler)
  · rw [Arena.insert, hok] at hinsert
    cases hinsert
    exact ⟨hplaced.wf, hplaced.inserted.fresh, hplaced.inserted.get_eq, rfl⟩
  · rw [Arena.insert, hexhausted] at hinsert
    cases hinsert

section Acted

variable {digest : MacAddr → Datagram → UInt64} {own : Key}
  {calls : PacketCalls} {reflector after : SearchReflector}
  {packet : Packet} {dispatcher left : PacketDispatcher}

theorem Acted.wf
    (h : Acted digest own calls reflector packet dispatcher after left)
    (hwf : dispatcher.registrations.Wf) : left.registrations.Wf := by
  cases h with
  | passed left hsent =>
      rw [hsent.registrations]
      exact hwf
  | extended left session expiry hsession hsent =>
      rw [hsent.registrations]
      exact hwf
  | opened made left destination ourAddr port responseKey expiry _ _ _ _ _
      hmade hfirst =>
      rw [(delivery_sent digest calls.inject hfirst).registrations]
      exact (register_ok hwf hmade).1
  | rolledBack made left filter handler responseKey hmade hsent =>
      apply unregister_wf
      rw [hsent.registrations]
      exact (register_ok hwf hmade).1

theorem Acted.kept
    (h : Acted digest own calls reflector packet dispatcher after left)
    (hwf : dispatcher.registrations.Wf) {key : Key}
    {registration : Registration PacketHandler}
    (hget : dispatcher.registrations.get key = some registration) :
    left.registrations.get key = some registration := by
  have hplaced : ∀ {made : PacketDispatcher} {filter : Filter}
      {handler : PacketHandler} {responseKey : Key},
      dispatcher.register reflector.target filter handler =
        .ok (made, responseKey) →
      key ≠ responseKey ∧ made.registrations.get key = some registration := by
    intro made filter handler responseKey hmade
    obtain ⟨_, hfresh, hlookup, _⟩ := register_ok hwf hmade
    have hne : key ≠ responseKey := by
      rintro rfl
      rw [hfresh] at hget
      cases hget
    rw [hlookup, if_neg hne]
    exact ⟨hne, hget⟩
  cases h with
  | passed left hsent =>
      rw [hsent.registrations]
      exact hget
  | extended left session expiry hsession hsent =>
      rw [hsent.registrations]
      exact hget
  | opened made left destination ourAddr port responseKey expiry _ _ _ _ _
      hmade hfirst =>
      rw [(delivery_sent digest calls.inject hfirst).registrations]
      exact (hplaced hmade).2
  | rolledBack made left filter handler responseKey hmade hsent =>
      obtain ⟨hne, hmadeGet⟩ := hplaced hmade
      rw [unregister_get, if_neg hne, hsent.registrations]
      exact hmadeGet

theorem Acted.origin
    (h : Acted digest own calls reflector packet dispatcher after left)
    (hwf : dispatcher.registrations.Wf) {key : Key}
    {registration : Registration PacketHandler}
    (hget : left.registrations.get key = some registration) :
    dispatcher.registrations.get key = some registration ∨
      ∃ leg, registration.handler = some ⟨.simple leg, some own⟩ := by
  cases h with
  | passed left hsent =>
      rw [hsent.registrations] at hget
      exact .inl hget
  | extended left session expiry hsession hsent =>
      rw [hsent.registrations] at hget
      exact .inl hget
  | opened made left destination ourAddr port responseKey expiry _ _ _ _ _
      hmade hfirst =>
      obtain ⟨_, _, hlookup, _⟩ := register_ok hwf hmade
      rw [(delivery_sent digest calls.inject hfirst).registrations,
        hlookup] at hget
      split at hget
      · cases hget
        exact .inr ⟨_, rfl⟩
      · exact .inl hget
  | rolledBack made left filter handler responseKey hmade hsent =>
      obtain ⟨_, _, hlookup, _⟩ := register_ok hwf hmade
      rw [unregister_get, hsent.registrations, hlookup] at hget
      split at hget
      · cases hget
      · exact .inl hget

end Acted

theorem taken_get {dispatcher : PacketDispatcher} {key : Key}
    {registration : Registration PacketHandler}
    (h : dispatcher.registrations.get key = some registration) (other : Key) :
    (dispatcher.takeHandler key).1.registrations.get other =
      if other = key then some { registration with handler := none }
      else dispatcher.registrations.get other := by
  rw [takeHandler_some h]
  exact Arena.get_set h _ other

theorem taken_wf {dispatcher : PacketDispatcher}
    (h : dispatcher.registrations.Wf) (key : Key) :
    (dispatcher.takeHandler key).1.registrations.Wf := by
  simp only [PacketDispatcher.takeHandler]
  split
  · exact h
  · exact Arena.wf_set h key _

inductive Routed (digest : MacAddr → Datagram → UInt64) (calls : PacketCalls)
    (packet : Packet) (key : Key) (daemon : Daemon) : Daemon → Prop where
  | simple (registration : Registration PacketHandler)
      (handler : PacketHandler) (leg : SimpleReflector) (left : Daemon)
      (outcome : Reflector.Outcome)
      (hget : daemon.dispatcher.registrations.get key = some registration)
      (hhandler : registration.handler = some handler)
      (hleg : handler.leg = .simple leg)
      (hcalled : leg.onPacket digest calls packet
        { daemon with dispatcher := (daemon.dispatcher.takeHandler key).1 } =
          .ok (left, outcome)) :
      Routed digest calls packet key daemon
        { left with dispatcher := left.dispatcher.restoreHandler key handler }
  | search (registration : Registration PacketHandler)
      (creator : Option Key) (reflector after : SearchReflector)
      (left : PacketDispatcher)
      (hget : daemon.dispatcher.registrations.get key = some registration)
      (hhandler : registration.handler = some ⟨.search reflector, creator⟩)
      (hacted : Acted digest key calls reflector packet
        (daemon.dispatcher.takeHandler key).1 after left) :
      Routed digest calls packet key daemon
        { daemon with
          dispatcher := left.restoreHandler key ⟨.search after, creator⟩ }

theorem routeTo_routed {digest : MacAddr → Datagram → UInt64}
    {calls : PacketCalls} {packet : Packet} {key : Key}
    {daemon after : Daemon}
    (h : routeTo digest calls packet key daemon = .ok after) :
    Routed digest calls packet key daemon after := by
  cases hget : daemon.dispatcher.registrations.get key with
  | none =>
      rw [routeTo, takeHandler_none hget] at h
      cases h
  | some registration =>
      have htaken := takeHandler_some hget
      cases hhandler : registration.handler with
      | none =>
          rw [routeTo, htaken, hhandler] at h
          cases h
      | some handler =>
          have hout : (daemon.dispatcher.takeHandler key).2 = some handler := by
            rw [htaken]
            exact hhandler
          have hsplit : daemon.dispatcher.takeHandler key =
              ((daemon.dispatcher.takeHandler key).1, some handler) := by
            rw [← hout]
          rw [routeTo, hsplit] at h
          obtain ⟨⟨handler', left, outcome⟩, hcalled, hafter⟩ :=
            except_bind_ok h
          cases hafter
          obtain ⟨leg, creator⟩ := handler
          cases leg with
          | simple leg =>
              obtain ⟨⟨left', outcome'⟩, hleg, hsame⟩ := except_bind_ok hcalled
              cases hsame
              exact .simple registration _ leg _ _ hget hhandler rfl hleg
          | search reflector =>
              obtain ⟨⟨reflector', left', outcome'⟩, hleg, hsame⟩ :=
                except_bind_ok hcalled
              cases hsame
              exact .search registration creator reflector _ _ hget hhandler
                (search_onPacket_acted hleg)

theorem restored_get {dispatcher : PacketDispatcher}
    (left : PacketDispatcher) {key : Key}
    {registration : Registration PacketHandler} {handler : PacketHandler}
    (hget : dispatcher.registrations.get key = some registration)
    (hhandler : registration.handler = some handler)
    (hleft : ∀ other, left.registrations.get other =
      (dispatcher.takeHandler key).1.registrations.get other) :
    (left.restoreHandler key handler).registrations.get =
      dispatcher.registrations.get := by
  funext other
  have hown : left.registrations.get key =
      some { registration with handler := none } := by
    rw [hleft, taken_get hget, if_pos rfl]
  rw [restoreHandler_get hown]
  by_cases hother : other = key
  · rw [if_pos hother, hother, hget, ← hhandler]
  · rw [if_neg hother, hleft, taken_get hget, if_neg hother]

theorem simple_routed_get {digest : MacAddr → Datagram → UInt64}
    {calls : PacketCalls} {packet : Packet} {key : Key}
    {daemon left : Daemon} {registration : Registration PacketHandler}
    {handler : PacketHandler} {leg : SimpleReflector}
    {outcome : Reflector.Outcome}
    (hget : daemon.dispatcher.registrations.get key = some registration)
    (hhandler : registration.handler = some handler)
    (hcalled : leg.onPacket digest calls packet
      { daemon with dispatcher := (daemon.dispatcher.takeHandler key).1 } =
        .ok (left, outcome)) :
    (left.dispatcher.restoreHandler key handler).registrations.get =
      daemon.dispatcher.registrations.get := by
  apply restored_get left.dispatcher hget hhandler
  intro other
  rw [(simple_onPacket_handled hcalled).registrations]

theorem Routed.wf {digest : MacAddr → Datagram → UInt64}
    {calls : PacketCalls} {packet : Packet} {key : Key}
    {daemon after : Daemon} (h : Routed digest calls packet key daemon after)
    (hwf : daemon.dispatcher.registrations.Wf) :
    after.dispatcher.registrations.Wf := by
  have htaken := taken_wf hwf key
  cases h with
  | simple registration handler leg left outcome hget hhandler hleg hcalled =>
      apply restoreHandler_wf
      rw [(simple_onPacket_handled hcalled).registrations]
      exact htaken
  | search registration creator reflector after left hget hhandler hacted =>
      exact restoreHandler_wf (hacted.wf htaken) key _

section Acted

variable {digest : MacAddr → Datagram → UInt64} {own : Key}
  {calls : PacketCalls} {reflector after : SearchReflector}
  {packet : Packet} {dispatcher left : PacketDispatcher}
  {registration : Registration PacketHandler}

theorem Acted.get_restored
    (h : Acted digest own calls reflector packet
      (dispatcher.takeHandler own).1 after left)
    (hwf : dispatcher.registrations.Wf)
    (hget : dispatcher.registrations.get own = some registration)
    (handler : PacketHandler) (other : Key) :
    (left.restoreHandler own handler).registrations.get other =
      if other = own then some { registration with handler := some handler }
      else left.registrations.get other := by
  have hout := taken_get hget own
  rw [if_pos rfl] at hout
  exact restoreHandler_get (h.kept (taken_wf hwf own) hout) handler other

theorem Acted.searches
    (h : Acted digest own calls reflector packet
      (dispatcher.takeHandler own).1 after left)
    (hwf : dispatcher.registrations.Wf)
    (hget : dispatcher.registrations.get own = some registration) :
    Searches (left.restoreHandler own ⟨.search after, none⟩).registrations.get
      own after := by
  refine ⟨{ registration with handler := some ⟨.search after, none⟩ }, ?_, rfl⟩
  rw [h.get_restored hwf hget, if_pos rfl]

theorem Bijective.acted (hb : Bijective dispatcher.registrations.get)
    (hwf : dispatcher.registrations.Wf)
    (hget : dispatcher.registrations.get own = some registration)
    (hhandler : registration.handler = some ⟨.search reflector, none⟩)
    (h : Acted digest own calls reflector packet
      (dispatcher.takeHandler own).1 after left) :
    Bijective
      (left.restoreHandler own ⟨.search after, none⟩).registrations.get := by
  have hsearched : Searches dispatcher.registrations.get own reflector :=
    ⟨registration, hget, hhandler⟩
  have hrestored := h.get_restored hwf hget ⟨.search after, none⟩
  have hsearches := h.searches hwf hget
  have htaken := taken_wf hwf own
  have hout : ∀ key, key ≠ own →
      (dispatcher.takeHandler own).1.registrations.get key =
        dispatcher.registrations.get key := by
    intro key hkey
    rw [taken_get hget, if_neg hkey]
  cases h with
  | passed left hsent =>
      have hsame := restored_get left hget hhandler fun other => by
        rw [hsent.registrations]
      rw [hsame]
      exact hb
  | extended left session expiry hsession hsent =>
      refine hb.extended hsearched hsession _ hsearches ?_
      intro key hkey
      rw [hrestored, if_neg hkey, hsent.registrations, hout key hkey]
  | opened made left destination ourAddr port responseKey expiry hnone hroom
      _ _ _ hmade hfirst =>
      obtain ⟨_, hfresh, hlookup, _⟩ := register_ok htaken hmade
      have hne : responseKey ≠ own := by
        rintro rfl
        rw [taken_get hget, if_pos rfl] at hfresh
        cases hfresh
      rw [hout _ hne] at hfresh
      have hleft := (delivery_sent digest calls.inject hfirst).registrations
      refine hb.opened hsearched hnone hroom hfresh hsearches ?_ ?_
      · refine ⟨⟨reflector.target, reflector.responseFilter ⟨ourAddr, port⟩,
          some ⟨.simple (reflector.responseLeg packet), some own⟩⟩,
          reflector.responseLeg packet, packet.srcMac.getD .broadcast, ?_, rfl,
          rfl, rfl, rfl, rfl⟩
        rw [hrestored, if_neg hne, hleft, hlookup, if_pos rfl]
      · intro key hkey hresponse
        rw [hrestored, if_neg hkey, hleft, hlookup, if_neg hresponse,
          hout key hkey]
  | rolledBack made left filter handler responseKey hmade hsent =>
      obtain ⟨_, hfresh, hlookup, _⟩ := register_ok htaken hmade
      have hsame := restored_get (left.unregister responseKey) hget hhandler
        fun other => by
          rw [unregister_get, hsent.registrations, hlookup]
          by_cases hother : other = responseKey
          · rw [if_pos hother, hother, hfresh]
          · rw [if_neg hother, if_neg hother]
      rw [hsame]
      exact hb

end Acted

theorem Bijective.routed {digest : MacAddr → Datagram → UInt64}
    {calls : PacketCalls} {packet : Packet} {key : Key}
    {daemon after : Daemon}
    (hb : Bijective daemon.dispatcher.registrations.get)
    (hwf : daemon.dispatcher.registrations.Wf)
    (h : Routed digest calls packet key daemon after) :
    Bijective after.dispatcher.registrations.get := by
  cases h with
  | simple registration handler leg left outcome hget hhandler hleg hcalled =>
      rw [show _ = _ from simple_routed_get hget hhandler hcalled]
      exact hb
  | search registration creator reflector after left hget hhandler hacted =>
      have hroot : creator = none :=
        hb.rooted key registration _ reflector hget hhandler rfl
      subst hroot
      exact hb.acted hwf hget hhandler hacted

/-! ## The sessions after a packet -/

/-- The session goes on: only its expiry can have moved, and not back. -/
structure Continues (before after : Session) : Prop where
  expiry : before.expiry ≤ after.expiry
  reservation : after.reservation = before.reservation
  responseKey : after.responseKey = before.responseKey
  boundTo : after.boundTo = before.boundTo

theorem Continues.refl (session : Session) : Continues session session :=
  ⟨Nat.le_refl _, rfl, rfl, rfl⟩

/-- A packet opened the session: its port was reserved on the target's address,
its replies were registered and its first send went out.  `out` is the
dispatcher while the reflector is out. -/
structure Opened (digest : MacAddr → Datagram → UInt64) (own : Key)
    (calls : PacketCalls) (packet : Packet)
    (dispatcher out : PacketDispatcher) (reflector : SearchReflector)
    (id : SessionKey) (session : Session) : Prop where
  asked : id = ⟨packet.source, packet.dest⟩
  absent : reflector.sessions.get id = none
  addressed : ∃ destination,
    reflector.delivery.destination packet.dest.ip = some destination ∧
    dispatcher.replySource reflector.target destination =
      some session.reservation.ip
  reserved : calls.reserve = .ok session.reservation.port
  boundTo : session.boundTo = dispatcher.table.ifindexOf reflector.target
  sent : ∃ made left,
    out.register reflector.target
      (reflector.responseFilter session.reservation)
      ⟨.simple (reflector.responseLeg packet), some own⟩ =
        .ok (made, session.responseKey) ∧
    reflector.reflectFrom digest calls packet session made = .ok (left, .ok ())

theorem Acted.sessions {digest : MacAddr → Datagram → UInt64} {own : Key}
    {calls : PacketCalls} {reflector after : SearchReflector}
    {packet : Packet} {dispatcher left : PacketDispatcher}
    (h : Acted digest own calls reflector packet dispatcher after left) :
    after = { reflector with sessions := after.sessions } ∧
      ∀ id session, (id, session) ∈ after.sessions.entries →
        (∃ old, (id, old) ∈ reflector.sessions.entries ∧
          Continues old session) ∨
        Opened digest own calls packet dispatcher dispatcher reflector id
          session := by
  cases h with
  | passed left hsent =>
      refine ⟨rfl, fun id session hmem => .inl ⟨session, hmem, .refl _⟩⟩
  | extended left session expiry hsession hsent =>
      refine ⟨rfl, fun id session' hmem => .inl ?_⟩
      obtain hnew | ⟨hold, _⟩ := LinearMap.mem_insert.mp hmem
      · cases hnew
        exact ⟨session, LinearMap.get_eq_some_iff.mp hsession,
          Nat.le_max_left .., rfl, rfl, rfl⟩
      · exact ⟨session', hold, .refl _⟩
  | opened made left destination ourAddr port responseKey expiry hnone hroom
      hdestination haddr hport hmade hfirst =>
      refine ⟨rfl, fun id session hmem => ?_⟩
      obtain hnew | ⟨hold, _⟩ := LinearMap.mem_insert.mp hmem
      · cases hnew
        exact .inr ⟨rfl, hnone, ⟨destination, hdestination, haddr⟩, hport, rfl,
          made, _, hmade, hfirst⟩
      · exact .inl ⟨session, hold, .refl _⟩
  | rolledBack made left filter handler responseKey hmade hsent =>
      refine ⟨rfl, fun id session hmem => .inl ⟨session, hmem, .refl _⟩⟩

theorem Opened.restored {digest : MacAddr → Datagram → UInt64}
    {calls : PacketCalls} {packet : Packet} {dispatcher : PacketDispatcher}
    {reflector : SearchReflector} {id : SessionKey} {session : Session}
    {key : Key}
    (h : Opened digest key calls packet (dispatcher.takeHandler key).1
      (dispatcher.takeHandler key).1 reflector id session) :
    Opened digest key calls packet dispatcher (dispatcher.takeHandler key).1
      reflector id session := by
  have htable : (dispatcher.takeHandler key).1.table = dispatcher.table := by
    rw [takeHandler_rest dispatcher key]
  obtain ⟨destination, hdestination, haddr⟩ := h.addressed
  refine ⟨h.asked, h.absent, ⟨destination, hdestination, ?_⟩, h.reserved, ?_,
    h.sent⟩
  · rw [← haddr]
    cases destination with
    | v4 addr => simp only [PacketDispatcher.replySource, htable]
    | v6 addr => simp only [PacketDispatcher.replySource, htable]
  · rw [h.boundTo, htable]

theorem routed_searches {digest : MacAddr → Datagram → UInt64}
    {calls : PacketCalls} {packet : Packet} {key own : Key}
    {daemon after : Daemon} {left : SearchReflector}
    (hb : Bijective daemon.dispatcher.registrations.get)
    (hwf : daemon.dispatcher.registrations.Wf)
    (h : Routed digest calls packet key daemon after)
    (hleft : Searches after.dispatcher.registrations.get own left) :
    ∃ before, Searches daemon.dispatcher.registrations.get own before ∧
      left = { before with sessions := left.sessions } ∧
      ∀ id session, (id, session) ∈ left.sessions.entries →
        (∃ old, (id, old) ∈ before.sessions.entries ∧
          Continues old session) ∨
        (own = key ∧ Opened digest own calls packet daemon.dispatcher
          (daemon.dispatcher.takeHandler own).1 before id session) := by
  -- a reflector that was not called keeps its sessions
  have hkept : Searches daemon.dispatcher.registrations.get own left →
      ∃ before, Searches daemon.dispatcher.registrations.get own before ∧
      left = { before with sessions := left.sessions } ∧
      ∀ id session, (id, session) ∈ left.sessions.entries →
        (∃ old, (id, old) ∈ before.sessions.entries ∧
          Continues old session) ∨
        (own = key ∧ Opened digest own calls packet daemon.dispatcher
          (daemon.dispatcher.takeHandler own).1 before id session) := by
    intro hold
    exact ⟨left, hold, rfl, fun id session hmem =>
      .inl ⟨session, hmem, .refl _⟩⟩
  cases h with
  | simple registration handler leg left' outcome hget hhandler hleg hcalled =>
      rw [show _ = _ from simple_routed_get hget hhandler hcalled] at hleft
      exact hkept hleft
  | search registration creator reflector after left' hget hhandler hacted =>
      have hroot : creator = none :=
        hb.rooted key registration _ reflector hget hhandler rfl
      subst hroot
      by_cases hown : own = key
      · subst hown
        cases hleft.unique (hacted.searches hwf hget)
        obtain ⟨hstatic, hsessions⟩ := hacted.sessions
        refine ⟨reflector, ⟨registration, hget, hhandler⟩, hstatic, ?_⟩
        intro id session hmem
        obtain hold | hopened := hsessions id session hmem
        · exact .inl hold
        · exact .inr ⟨rfl, hopened.restored⟩
      · apply hkept
        obtain ⟨found, hfound, hsearch⟩ := hleft
        rw [hacted.get_restored hwf hget, if_neg hown] at hfound
        obtain hold | ⟨leg, hsimple⟩ :=
          hacted.origin (taken_wf hwf key) hfound
        · rw [taken_get hget, if_neg hown] at hold
          exact ⟨found, hold, hsearch⟩
        · rw [hsimple, Option.some.injEq] at hsearch
          cases hsearch

theorem routed_searches_kept {digest : MacAddr → Datagram → UInt64}
    {calls : PacketCalls} {packet : Packet} {key own : Key}
    {daemon after : Daemon} {before : SearchReflector}
    (hb : Bijective daemon.dispatcher.registrations.get)
    (hwf : daemon.dispatcher.registrations.Wf)
    (h : Routed digest calls packet key daemon after)
    (hbefore : Searches daemon.dispatcher.registrations.get own before) :
    ∃ left, Searches after.dispatcher.registrations.get own left := by
  cases h with
  | simple registration handler leg left' outcome hget hhandler hleg hcalled =>
      rw [show _ = _ from simple_routed_get hget hhandler hcalled]
      exact ⟨before, hbefore⟩
  | search registration creator reflector after left' hget hhandler hacted =>
      have hroot : creator = none :=
        hb.rooted key registration _ reflector hget hhandler rfl
      subst hroot
      by_cases hown : own = key
      · subst hown
        exact ⟨after, hacted.searches hwf hget⟩
      · obtain ⟨found, hfound, hsearch⟩ := hbefore
        refine ⟨before, found, ?_, hsearch⟩
        rw [hacted.get_restored hwf hget, if_neg hown]
        apply hacted.kept (taken_wf hwf key)
        rw [taken_get hget, if_neg hown]
        exact hfound

/-! ## Deadlines and interface changes -/

/-- The call of a search reflector ends the sessions that `keep` leaves out,
by its target; a simple leg does nothing. -/
structure Ends
    (call : PacketHandler → PacketDispatcher →
      PacketHandler × PacketDispatcher)
    (keep : CaptureKey → SessionKey → Session → Bool) : Prop where
  simple : ∀ leg creator dispatcher,
    call ⟨.simple leg, creator⟩ dispatcher =
      (⟨.simple leg, creator⟩, dispatcher)
  search : ∀ reflector creator dispatcher,
    call ⟨.search reflector, creator⟩ dispatcher =
      (⟨.search { reflector with
          sessions := reflector.sessions.retain (keep reflector.target) },
          creator⟩,
        SearchReflector.unregisterAll (reflector.sessions.entries.filter
          fun entry => !keep reflector.target entry.1 entry.2) dispatcher)

theorem onDeadlineOf_ends (now : Nat) :
    Ends (onDeadlineOf now) fun _ _ session =>
      !decide (session.expiry ≤ now) := by
  refine ⟨fun _ _ _ => rfl, ?_⟩
  intro reflector creator dispatcher
  simp only [onDeadlineOf, SearchReflector.onDeadline, Bool.not_not]

theorem onIfaceChange_ends (captures : List CaptureKey) :
    Ends (onIfaceChange captures) fun target _ _ =>
      !captures.contains target := by
  refine ⟨fun _ _ _ => rfl, ?_⟩
  intro reflector creator dispatcher
  by_cases hidle : reflector.sessions.len = 0 ∨
      captures.contains reflector.target = false
  · have hpassed : reflector.onIfaceChange captures dispatcher =
        (reflector, dispatcher) := if_pos hidle
    simp only [onIfaceChange, hpassed]
    obtain ⟨source, target, delivery, macs, protocol, makeReply, entries,
      hnodup⟩ := reflector
    obtain hempty | houtside := hidle
    · rw [LinearMap.len, List.length_eq_zero_iff] at hempty
      subst hempty
      rfl
    · have hnot : target ∉ captures := by simpa using houtside
      simp [hnot, LinearMap.retain, SearchReflector.unregisterAll]
  · have hstale : reflector.onIfaceChange captures dispatcher =
        ({ reflector with sessions := .new },
          SearchReflector.unregisterAll reflector.sessions.entries
            dispatcher) := if_neg hidle
    have hmem : reflector.target ∈ captures := by
      rw [not_or, Bool.not_eq_false] at hidle
      simpa using hidle.2
    simp only [onIfaceChange, hstale]
    simp [hmem, LinearMap.new, LinearMap.retain]

theorem ended_get {dispatcher : PacketDispatcher} {own : Key}
    {registration : Registration PacketHandler}
    {reflector : SearchReflector} (hb : Bijective dispatcher.registrations.get)
    (hget : dispatcher.registrations.get own = some registration)
    (hhandler : registration.handler = some ⟨.search reflector, none⟩)
    (keep : SessionKey → Session → Bool) (handler : PacketHandler)
    (other : Key) :
    ((SearchReflector.unregisterAll (reflector.sessions.entries.filter
      fun entry => !keep entry.1 entry.2)
      (dispatcher.takeHandler own).1).restoreHandler own
        handler).registrations.get other =
      if other = own then some { registration with handler := some handler }
      else if other ∈ (reflector.sessions.entries.filter fun entry =>
        !keep entry.1 entry.2).map (·.2.responseKey) then none
      else dispatcher.registrations.get other := by
  have hsearched : Searches dispatcher.registrations.get own reflector :=
    ⟨registration, hget, hhandler⟩
  have hown : own ∉ (reflector.sessions.entries.filter fun entry =>
      !keep entry.1 entry.2).map (·.2.responseKey) := by
    intro hmem
    obtain ⟨⟨id, session⟩, hentry, hsame⟩ := List.mem_map.mp hmem
    exact (hb.answered own reflector hsearched id session
      (List.mem_filter.mp hentry).1).ne_own hsearched hsame
  have hleft := unregisterAll_get (reflector.sessions.entries.filter
    fun entry => !keep entry.1 entry.2) (dispatcher.takeHandler own).1
  have hkept := hleft own
  rw [if_neg hown, taken_get hget, if_pos rfl] at hkept
  rw [restoreHandler_get hkept]
  by_cases hother : other = own
  · rw [if_pos hother, if_pos hother]
  · rw [if_neg hother, if_neg hother, hleft, taken_get hget, if_neg hother]

theorem callEach_cons
    (call : PacketHandler → PacketDispatcher →
      PacketHandler × PacketDispatcher)
    (key : Key) (keys : List Key) (dispatcher : PacketDispatcher) :
    callEach call (key :: keys) dispatcher =
      callEach call keys (callEach call [key] dispatcher) := by
  rw [callEach, callEach]
  split
  · rfl
  · rfl

section Ends

variable {call : PacketHandler → PacketDispatcher →
    PacketHandler × PacketDispatcher}
  {keep : CaptureKey → SessionKey → Session → Bool}

theorem Ends.wf (h : Ends call keep) (handler : PacketHandler)
    {dispatcher : PacketDispatcher} (hwf : dispatcher.registrations.Wf) :
    (call handler dispatcher).2.registrations.Wf := by
  obtain ⟨leg, creator⟩ := handler
  cases leg with
  | simple leg =>
      rw [h.simple]
      exact hwf
  | search reflector =>
      rw [h.search]
      exact unregisterAll_wf _ hwf

theorem Ends.rest (h : Ends call keep) (handler : PacketHandler)
    (dispatcher : PacketDispatcher) :
    dispatcher.Reregistered (call handler dispatcher).2 := by
  obtain ⟨leg, creator⟩ := handler
  cases leg with
  | simple leg =>
      rw [h.simple]
      rfl
  | search reflector =>
      rw [h.search]
      exact unregisterAll_rest ..

theorem callEach_wf (h : Ends call keep) (keys : List Key)
    {dispatcher : PacketDispatcher} (hwf : dispatcher.registrations.Wf) :
    (callEach call keys dispatcher).registrations.Wf := by
  induction keys generalizing dispatcher with
  | nil => exact hwf
  | cons key keys ih =>
      have htaken := taken_wf hwf key
      rw [callEach]
      split
      next heq =>
        rw [heq] at htaken
        exact ih htaken
      next handler heq =>
        rw [heq] at htaken
        exact ih (restoreHandler_wf (h.wf handler htaken) key _)

theorem callEach_rest (h : Ends call keep) (keys : List Key)
    (dispatcher : PacketDispatcher) :
    dispatcher.Reregistered (callEach call keys dispatcher) := by
  induction keys generalizing dispatcher with
  | nil => rfl
  | cons key keys ih =>
      have htaken := takeHandler_rest dispatcher key
      rw [callEach]
      split
      next heq =>
        rw [heq] at htaken
        exact htaken.trans (ih _)
      next handler heq =>
        rw [heq] at htaken
        exact ((htaken.trans (h.rest handler _)).trans
          (restoreHandler_rest ..)).trans (ih _)

theorem callOne_cases (h : Ends call keep) {dispatcher : PacketDispatcher}
    (hb : Bijective dispatcher.registrations.get) (key : Key) :
    ((callEach call [key] dispatcher).registrations.get =
        dispatcher.registrations.get ∧
      ∀ reflector, ¬Searches dispatcher.registrations.get key reflector) ∨
    ∃ registration reflector,
      dispatcher.registrations.get key = some registration ∧
      registration.handler = some ⟨.search reflector, none⟩ ∧
      callEach call [key] dispatcher =
        (SearchReflector.unregisterAll (reflector.sessions.entries.filter
          fun entry => !keep reflector.target entry.1 entry.2)
          (dispatcher.takeHandler key).1).restoreHandler key
            ⟨.search { reflector with
              sessions := reflector.sessions.retain (keep reflector.target) },
              none⟩ := by
  cases hget : dispatcher.registrations.get key with
  | none =>
      left
      constructor
      · rw [callEach, takeHandler_none hget]
        rfl
      · rintro reflector ⟨registration, hlive, _⟩
        rw [hget] at hlive
        cases hlive
  | some registration =>
      have htaken := takeHandler_some hget
      have hheld : ∀ reflector,
          Searches dispatcher.registrations.get key reflector →
          registration.handler = some ⟨.search reflector, none⟩ := by
        rintro reflector ⟨registration', hget', hhandler'⟩
        rw [hget, Option.some.injEq] at hget'
        rw [hget', hhandler']
      cases hhandler : registration.handler with
      | none =>
          left
          refine ⟨?_, fun reflector hsearches => by
            simpa [hhandler] using hheld reflector hsearches⟩
          rw [callEach, htaken, hhandler]
          funext other
          refine (Arena.get_set hget _ other).trans ?_
          by_cases hother : other = key
          · rw [if_pos hother, hother, hget, ← hhandler]
          · rw [if_neg hother]
      | some handler =>
          obtain ⟨leg, creator⟩ := handler
          cases leg with
          | simple leg =>
              left
              refine ⟨?_, fun reflector hsearches => by
                simpa [hhandler] using hheld reflector hsearches⟩
              rw [callEach, htaken, hhandler]
              simp only [h.simple, callEach]
              refine restored_get _ hget hhandler fun other => ?_
              rw [htaken]
          | search reflector =>
              right
              have hroot : creator = none :=
                hb.rooted key registration _ reflector hget hhandler rfl
              subst hroot
              refine ⟨registration, reflector, rfl, hhandler, ?_⟩
              rw [callEach, htaken, hhandler]
              simp only [h.search, callEach]

theorem Bijective.calledOne (h : Ends call keep)
    {dispatcher : PacketDispatcher}
    (hb : Bijective dispatcher.registrations.get) (key : Key) :
    Bijective (callEach call [key] dispatcher).registrations.get := by
  obtain ⟨hsame, _⟩ | ⟨registration, reflector, hget, hhandler, hcalled⟩ :=
    callOne_cases h hb key
  · rw [hsame]
    exact hb
  · have hlookup := ended_get hb hget hhandler (keep reflector.target)
      ⟨.search { reflector with
        sessions := reflector.sessions.retain (keep reflector.target) }, none⟩
    rw [hcalled]
    refine hb.ended ⟨registration, hget, hhandler⟩ (keep reflector.target) ?_ ?_
    · refine ⟨_, (hlookup key).trans (if_pos rfl), rfl⟩
    · intro other hother
      rw [hlookup, if_neg hother]

theorem Bijective.called (h : Ends call keep) {dispatcher : PacketDispatcher}
    (hb : Bijective dispatcher.registrations.get) (keys : List Key) :
    Bijective (callEach call keys dispatcher).registrations.get := by
  induction keys generalizing dispatcher with
  | nil => exact hb
  | cons key keys ih =>
      rw [callEach_cons]
      exact ih (hb.calledOne h key)

theorem calledOne_searches (h : Ends call keep)
    {dispatcher : PacketDispatcher}
    (hb : Bijective dispatcher.registrations.get) {key own : Key}
    {after : SearchReflector}
    (hafter : Searches (callEach call [key] dispatcher).registrations.get own
      after) :
    ∃ before, Searches dispatcher.registrations.get own before ∧
      after = { before with sessions := after.sessions } ∧
      ∀ entry ∈ after.sessions.entries, entry ∈ before.sessions.entries ∧
        (own = key → keep before.target entry.1 entry.2 = true) := by
  obtain ⟨hsame, hnone⟩ | ⟨registration, reflector, hget, hhandler, hcalled⟩ :=
    callOne_cases h hb key
  · rw [hsame] at hafter
    refine ⟨after, hafter, rfl, fun entry hentry => ⟨hentry, ?_⟩⟩
    rintro rfl
    exact absurd hafter (hnone after)
  · have hlookup := ended_get hb hget hhandler (keep reflector.target)
      ⟨.search { reflector with
        sessions := reflector.sessions.retain (keep reflector.target) }, none⟩
    rw [hcalled] at hafter
    by_cases hown : own = key
    · subst hown
      have hcalledSearches := hafter.unique
        ⟨_, (hlookup own).trans (if_pos rfl), rfl⟩
      subst hcalledSearches
      refine ⟨reflector, ⟨registration, hget, hhandler⟩, rfl, ?_⟩
      intro entry hentry
      obtain ⟨hold, hkeep⟩ := LinearMap.mem_retain.mp hentry
      exact ⟨hold, fun _ => hkeep⟩
    · obtain ⟨registration', hget', hhandler'⟩ := hafter
      rw [hlookup, if_neg hown] at hget'
      split at hget'
      · cases hget'
      · exact ⟨after, ⟨registration', hget', hhandler'⟩, rfl,
          fun entry hentry => ⟨hentry, fun hsame => absurd hsame hown⟩⟩

theorem calledOne_searches_kept (h : Ends call keep)
    {dispatcher : PacketDispatcher}
    (hb : Bijective dispatcher.registrations.get) (key : Key) {own : Key}
    {before : SearchReflector}
    (hbefore : Searches dispatcher.registrations.get own before) :
    ∃ after, Searches (callEach call [key] dispatcher).registrations.get own
      after := by
  obtain ⟨hsame, _⟩ | ⟨registration, reflector, hget, hhandler, hcalled⟩ :=
    callOne_cases h hb key
  · rw [hsame]
    exact ⟨before, hbefore⟩
  · have hlookup := ended_get hb hget hhandler (keep reflector.target)
      ⟨.search { reflector with
        sessions := reflector.sessions.retain (keep reflector.target) }, none⟩
    rw [hcalled]
    by_cases hown : own = key
    · subst hown
      exact ⟨_, _, (hlookup own).trans (if_pos rfl), rfl⟩
    · obtain ⟨found, hfound, hsearch⟩ := hbefore
      refine ⟨before, found, ?_, hsearch⟩
      rw [hlookup, if_neg hown, if_neg, hfound]
      intro hdropped
      obtain ⟨⟨id, session⟩, hentry, hsame⟩ := List.mem_map.mp hdropped
      exact (hb.answered key reflector ⟨registration, hget, hhandler⟩ id session
        (List.mem_filter.mp hentry).1).ne_own ⟨found, hfound, hsearch⟩ hsame

theorem called_searches (h : Ends call keep) (keys : List Key)
    {dispatcher : PacketDispatcher}
    (hb : Bijective dispatcher.registrations.get) {own : Key}
    {after : SearchReflector}
    (hafter : Searches (callEach call keys dispatcher).registrations.get own
      after) :
    ∃ before, Searches dispatcher.registrations.get own before ∧
      after = { before with sessions := after.sessions } ∧
      ∀ entry ∈ after.sessions.entries, entry ∈ before.sessions.entries ∧
        (own ∈ keys → keep before.target entry.1 entry.2 = true) := by
  induction keys generalizing dispatcher with
  | nil => exact ⟨after, hafter, rfl, fun entry hentry => ⟨hentry, by simp⟩⟩
  | cons key keys ih =>
      rw [callEach_cons] at hafter
      obtain ⟨middle, hmiddle, hrest, hlater⟩ := ih (hb.calledOne h key) hafter
      obtain ⟨before, hbefore, hrest', hfirst⟩ := calledOne_searches h hb hmiddle
      have htarget : middle.target = before.target := by rw [hrest']
      refine ⟨before, hbefore, ?_, ?_⟩
      · rw [hrest, hrest']
      · intro entry hentry
        obtain ⟨hmem, hkept⟩ := hlater entry hentry
        obtain ⟨hold, hkept'⟩ := hfirst entry hmem
        refine ⟨hold, fun hkey => ?_⟩
        rcases List.mem_cons.mp hkey with hhead | htail
        · exact hkept' hhead
        · rw [← htarget]
          exact hkept htail

end Ends

end Netflector.Dispatch
