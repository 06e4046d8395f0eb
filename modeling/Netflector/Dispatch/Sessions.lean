import Netflector.Dispatch.Handling

/-!
# Sessions and their registrations

A session's registration is no guard: it is unregistered by hand on each path
that ends the session.  The live registrations that a search reflector created
are exactly those of its sessions, whatever the sends, the reservations and the
addresses come to.
-/

namespace Netflector.Dispatch

open Netflector.Foundation
open Netflector.Net
open Netflector.Reactor
open Netflector.Reflector

abbrev Lookup := Key → Option (Registration PacketHandler)

def Searches (lookup : Lookup) (own : Key) (reflector : SearchReflector) :
    Prop :=
  ∃ registration, lookup own = some registration ∧
    registration.handler = some ⟨.search reflector, none⟩

def CreatedBy (lookup : Lookup) (own key : Key) : Prop :=
  ∃ registration handler, lookup key = some registration ∧
    registration.handler = some handler ∧ handler.creator = some own

/-- The session's registration is live, pins its reserved port on the target
and delivers to its searcher. -/
def Answers (lookup : Lookup) (own : Key) (reflector : SearchReflector)
    (id : SessionKey) (session : Session) : Prop :=
  ∃ registration leg mac, lookup session.responseKey = some registration ∧
    registration.ingress = reflector.target ∧
    registration.filter = reflector.responseFilter session.reservation ∧
    registration.handler = some ⟨.simple leg, some own⟩ ∧
    leg.egress = reflector.source ∧ leg.delivery = .unicast id.searcher mac

structure Bijective (lookup : Lookup) : Prop where
  rooted : ∀ key registration handler reflector,
    lookup key = some registration → registration.handler = some handler →
    handler.leg = .search reflector → handler.creator = none
  created : ∀ own key, CreatedBy lookup own key → ∃ reflector id session,
    Searches lookup own reflector ∧
    (id, session) ∈ reflector.sessions.entries ∧ session.responseKey = key
  answered : ∀ own reflector, Searches lookup own reflector →
    ∀ id session, (id, session) ∈ reflector.sessions.entries →
      Answers lookup own reflector id session
  distinct : ∀ own reflector, Searches lookup own reflector →
    ∀ id session id' session', (id, session) ∈ reflector.sessions.entries →
      (id', session') ∈ reflector.sessions.entries →
      session.responseKey = session'.responseKey → id = id'
  capped : ∀ own reflector, Searches lookup own reflector →
    reflector.sessions.len ≤ maxSessions

theorem Searches.unique {lookup : Lookup} {own : Key}
    {reflector reflector' : SearchReflector}
    (h : Searches lookup own reflector) (h' : Searches lookup own reflector') :
    reflector = reflector' := by
  obtain ⟨registration, hget, hhandler⟩ := h
  obtain ⟨registration', hget', hhandler'⟩ := h'
  rw [hget, Option.some.injEq] at hget'
  subst hget'
  rw [hhandler, Option.some.injEq] at hhandler'
  cases hhandler'
  rfl

theorem Answers.createdBy {lookup : Lookup} {own : Key}
    {reflector : SearchReflector} {id : SessionKey} {session : Session}
    (h : Answers lookup own reflector id session) :
    CreatedBy lookup own session.responseKey := by
  obtain ⟨registration, leg, mac, hget, _, _, hhandler, _⟩ := h
  exact ⟨registration, _, hget, hhandler, rfl⟩

theorem Answers.ne_own {lookup : Lookup} {own own' : Key}
    {reflector reflector' : SearchReflector} {id : SessionKey}
    {session : Session} (h : Answers lookup own reflector id session)
    (hsearches : Searches lookup own' reflector') :
    session.responseKey ≠ own' := by
  rintro rfl
  obtain ⟨registration, leg, mac, hget, _, _, hhandler, _⟩ := h
  obtain ⟨registration', hget', hhandler'⟩ := hsearches
  rw [hget, Option.some.injEq] at hget'
  subst hget'
  rw [hhandler] at hhandler'
  cases hhandler'

theorem CreatedBy.ne_own {lookup : Lookup} {own key : Key}
    {reflector : SearchReflector} (h : CreatedBy lookup own key)
    (hsearches : Searches lookup own reflector) : key ≠ own := by
  rintro rfl
  obtain ⟨registration, handler, hget, hhandler, hcreator⟩ := h
  obtain ⟨registration', hget', hhandler'⟩ := hsearches
  rw [hget, Option.some.injEq] at hget'
  subst hget'
  rw [hhandler, Option.some.injEq] at hhandler'
  subst hhandler'
  cases hcreator

/-! ## One reflector's sessions change -/

/-- `own`'s sessions change from those of `before` to those of `after`, and
only registrations that it created come and go. -/
structure Turned (lookup lookup' : Lookup) (own : Key)
    (before after : SearchReflector) : Prop where
  searched : Searches lookup own before
  searches : Searches lookup' own after
  others : ∀ key registration handler, key ≠ own →
    lookup key = some registration → registration.handler = some handler →
    handler.creator ≠ some own → lookup' key = some registration
  fresh : ∀ key registration handler, key ≠ own →
    lookup' key = some registration → registration.handler = some handler →
    lookup key = some registration ∨
      ((∃ leg, handler.leg = .simple leg) ∧ handler.creator = some own)

theorem Turned.createdBy {lookup lookup' : Lookup} {own other key : Key}
    {before after : SearchReflector}
    (h : Turned lookup lookup' own before after) (hother : other ≠ own)
    (hcreated : CreatedBy lookup' other key) : CreatedBy lookup other key := by
  obtain ⟨registration, handler, hget, hhandler, hcreator⟩ := hcreated
  have hkey : key ≠ own := by
    rintro rfl
    obtain ⟨registration', hget', hhandler'⟩ := h.searches
    rw [hget, Option.some.injEq] at hget'
    subst hget'
    rw [hhandler, Option.some.injEq] at hhandler'
    subst hhandler'
    cases hcreator
  obtain hold | ⟨_, hown⟩ := h.fresh key registration handler hkey hget hhandler
  · exact ⟨registration, handler, hold, hhandler, hcreator⟩
  · rw [hown, Option.some.injEq] at hcreator
    exact absurd hcreator.symm hother

theorem Turned.others_searches {lookup lookup' : Lookup} {own other : Key}
    {before after reflector : SearchReflector}
    (h : Turned lookup lookup' own before after) (hother : other ≠ own)
    (hsearches : Searches lookup' other reflector) :
    Searches lookup other reflector := by
  obtain ⟨registration, hget, hhandler⟩ := hsearches
  obtain hold | ⟨⟨leg, hleg⟩, _⟩ :=
    h.fresh other registration _ hother hget hhandler
  · exact ⟨registration, hold, hhandler⟩
  · cases hleg

theorem Turned.searches_kept {lookup lookup' : Lookup} {own other : Key}
    {before after reflector : SearchReflector}
    (h : Turned lookup lookup' own before after) (hother : other ≠ own)
    (hsearches : Searches lookup other reflector) :
    Searches lookup' other reflector := by
  obtain ⟨registration, hget, hhandler⟩ := hsearches
  exact ⟨registration, h.others other registration _ hother hget hhandler
    (by simp), hhandler⟩

theorem Turned.others_answer {lookup lookup' : Lookup} {own other : Key}
    {before after reflector : SearchReflector} {id : SessionKey}
    {session : Session} (h : Turned lookup lookup' own before after)
    (hother : other ≠ own)
    (hanswers : Answers lookup other reflector id session) :
    Answers lookup' other reflector id session := by
  have hne := hanswers.ne_own h.searched
  obtain ⟨registration, leg, mac, hget, hingress, hfilter, hhandler, hrest⟩ :=
    hanswers
  have hcreator : (⟨.simple leg, some other⟩ : PacketHandler).creator ≠
      some own := by
    simpa using hother
  exact ⟨registration, leg, mac,
    h.others _ registration _ hne hget hhandler hcreator, hingress, hfilter,
    hhandler, hrest⟩

/-- The rule for every path: what is left to show is about the sessions of the
reflector that was called. -/
theorem Bijective.turned {lookup lookup' : Lookup} {own : Key}
    {before after : SearchReflector} (h : Bijective lookup)
    (hturned : Turned lookup lookup' own before after)
    (hcreated : ∀ key, CreatedBy lookup' own key → ∃ id session,
      (id, session) ∈ after.sessions.entries ∧ session.responseKey = key)
    (hanswered : ∀ id session, (id, session) ∈ after.sessions.entries →
      Answers lookup' own after id session)
    (hdistinct : ∀ id session id' session',
      (id, session) ∈ after.sessions.entries →
      (id', session') ∈ after.sessions.entries →
      session.responseKey = session'.responseKey → id = id')
    (hcapped : after.sessions.len ≤ maxSessions) : Bijective lookup' := by
  constructor
  case rooted =>
    intro key registration handler reflector hget hhandler hleg
    by_cases hkey : key = own
    · subst hkey
      obtain ⟨registration', hget', hhandler'⟩ := hturned.searches
      rw [hget, Option.some.injEq] at hget'
      subst hget'
      rw [hhandler, Option.some.injEq] at hhandler'
      rw [hhandler']
    · obtain hold | ⟨⟨leg, hsimple⟩, _⟩ :=
        hturned.fresh key registration handler hkey hget hhandler
      · exact h.rooted key registration handler reflector hold hhandler hleg
      · rw [hsimple] at hleg
        cases hleg
  case created =>
    intro other key hkey
    by_cases hother : other = own
    · subst hother
      obtain ⟨id, session, hmem, hresponse⟩ := hcreated key hkey
      exact ⟨after, id, session, hturned.searches, hmem, hresponse⟩
    · obtain ⟨reflector, id, session, hsearches, hmem, hresponse⟩ :=
        h.created other key (hturned.createdBy hother hkey)
      exact ⟨reflector, id, session,
        hturned.searches_kept hother hsearches, hmem, hresponse⟩
  case answered =>
    intro other reflector hsearches id session hmem
    by_cases hother : other = own
    · subst hother
      cases hsearches.unique hturned.searches
      exact hanswered id session hmem
    · exact hturned.others_answer hother (h.answered other reflector
        (hturned.others_searches hother hsearches) id session hmem)
  case distinct =>
    intro other reflector hsearches
    by_cases hother : other = own
    · subst hother
      cases hsearches.unique hturned.searches
      exact hdistinct
    · exact h.distinct other reflector
        (hturned.others_searches hother hsearches)
  case capped =>
    intro other reflector hsearches
    by_cases hother : other = own
    · subst hother
      cases hsearches.unique hturned.searches
      exact hcapped
    · exact h.capped other reflector (hturned.others_searches hother hsearches)

/-! ## Taking a handler out and putting it back -/

def PacketDispatcher.Reregistered (before after : PacketDispatcher) : Prop :=
  after = { before with registrations := after.registrations }

theorem PacketDispatcher.Reregistered.trans
    {first second third : PacketDispatcher} (h : first.Reregistered second)
    (h' : second.Reregistered third) : first.Reregistered third := by
  unfold Reregistered at h h' ⊢
  rw [h', h]

theorem takeHandler_some {dispatcher : PacketDispatcher} {key : Key}
    {registration : Registration PacketHandler}
    (h : dispatcher.registrations.get key = some registration) :
    dispatcher.takeHandler key =
      ({ dispatcher with
          registrations := dispatcher.registrations.set key
            { registration with handler := none } },
        registration.handler) := by
  simp only [PacketDispatcher.takeHandler, h]

theorem takeHandler_none {dispatcher : PacketDispatcher} {key : Key}
    (h : dispatcher.registrations.get key = none) :
    dispatcher.takeHandler key = (dispatcher, none) := by
  simp only [PacketDispatcher.takeHandler, h]

theorem restoreHandler_get {dispatcher : PacketDispatcher} {key : Key}
    {registration : Registration PacketHandler}
    (h : dispatcher.registrations.get key = some registration)
    (handler : PacketHandler) (other : Key) :
    (dispatcher.restoreHandler key handler).registrations.get other =
      if other = key then some { registration with handler := some handler }
      else dispatcher.registrations.get other := by
  simp only [PacketDispatcher.restoreHandler, h]
  exact Arena.get_set h _ other

theorem restoreHandler_wf {dispatcher : PacketDispatcher}
    (h : dispatcher.registrations.Wf) (key : Key) (handler : PacketHandler) :
    (dispatcher.restoreHandler key handler).registrations.Wf := by
  simp only [PacketDispatcher.restoreHandler]
  split
  · exact h
  · exact Arena.wf_set h key _

theorem takeHandler_rest (dispatcher : PacketDispatcher) (key : Key) :
    dispatcher.Reregistered (dispatcher.takeHandler key).1 := by
  simp only [PacketDispatcher.takeHandler]
  split
  · rfl
  · rfl

theorem restoreHandler_rest (dispatcher : PacketDispatcher) (key : Key)
    (handler : PacketHandler) :
    dispatcher.Reregistered (dispatcher.restoreHandler key handler) := by
  simp only [PacketDispatcher.restoreHandler]
  split
  · rfl
  · rfl

theorem unregister_get (dispatcher : PacketDispatcher) (key other : Key) :
    (dispatcher.unregister key).registrations.get other =
      if other = key then none else dispatcher.registrations.get other := by
  simp only [PacketDispatcher.unregister]
  cases hget : dispatcher.registrations.get key with
  | none =>
      rw [Arena.remove_none hget]
      split
      next hsame => rw [hsame, hget]
      · rfl
  | some registration => exact Arena.get_remove hget other

theorem unregister_wf {dispatcher : PacketDispatcher}
    (h : dispatcher.registrations.Wf) (key : Key) :
    (dispatcher.unregister key).registrations.Wf := by
  simp only [PacketDispatcher.unregister]
  cases hget : dispatcher.registrations.get key with
  | none =>
      rw [Arena.remove_none hget]
      exact h
  | some registration => exact Arena.wf_remove h hget

theorem unregisterAll_get (sessions : List (SessionKey × Session))
    (dispatcher : PacketDispatcher) (key : Key) :
    (SearchReflector.unregisterAll sessions
      dispatcher).registrations.get key =
      if key ∈ sessions.map (·.2.responseKey) then none
      else dispatcher.registrations.get key := by
  induction sessions generalizing dispatcher with
  | nil => rfl
  | cons session sessions ih =>
      change (SearchReflector.unregisterAll sessions (dispatcher.unregister
        session.2.responseKey)).registrations.get key = _
      rw [ih, unregister_get]
      simp only [List.map_cons, List.mem_cons]
      by_cases hlater : key ∈ sessions.map (·.2.responseKey)
      · rw [if_pos hlater, if_pos (.inr hlater)]
      · rw [if_neg hlater]
        by_cases hfirst : key = session.2.responseKey
        · rw [if_pos hfirst, if_pos (.inl hfirst)]
        · rw [if_neg hfirst, if_neg]
          rintro (hsame | hmem)
          · exact hfirst hsame
          · exact hlater hmem

theorem unregisterAll_wf (sessions : List (SessionKey × Session))
    {dispatcher : PacketDispatcher} (h : dispatcher.registrations.Wf) :
    (SearchReflector.unregisterAll sessions
      dispatcher).registrations.Wf := by
  induction sessions generalizing dispatcher with
  | nil => exact h
  | cons session sessions ih =>
      exact ih (unregister_wf h session.2.responseKey)

theorem unregisterAll_rest (sessions : List (SessionKey × Session))
    (dispatcher : PacketDispatcher) :
    dispatcher.Reregistered
      (SearchReflector.unregisterAll sessions dispatcher) := by
  induction sessions generalizing dispatcher with
  | nil => rfl
  | cons session sessions ih =>
      exact ih (dispatcher.unregister session.2.responseKey)

/-! ## The paths -/

theorem Bijective.ended {lookup lookup' : Lookup} {own : Key}
    {reflector : SearchReflector} (h : Bijective lookup)
    (hsearched : Searches lookup own reflector)
    (keep : SessionKey → Session → Bool)
    (hsearches : Searches lookup' own
      { reflector with sessions := reflector.sessions.retain keep })
    (hothers : ∀ key, key ≠ own → lookup' key =
      if key ∈ (reflector.sessions.entries.filter fun entry =>
        !keep entry.1 entry.2).map (·.2.responseKey) then none
      else lookup key) : Bijective lookup' := by
  have hdropped : ∀ key, key ∈ (reflector.sessions.entries.filter fun entry =>
      !keep entry.1 entry.2).map (·.2.responseKey) ↔
      ∃ id session, (id, session) ∈ reflector.sessions.entries ∧
        keep id session = false ∧ session.responseKey = key := by
    intro key
    simp [List.mem_map, List.mem_filter, and_assoc]
  have hturned : Turned lookup lookup' own reflector
      { reflector with sessions := reflector.sessions.retain keep } := by
    refine ⟨hsearched, hsearches, ?_, ?_⟩
    · intro key registration handler hkey hget hhandler hcreator
      rw [hothers key hkey, if_neg, hget]
      rw [hdropped]
      rintro ⟨id, session, hmem, _, rfl⟩
      obtain ⟨registration', leg, mac, hget', _, _, hhandler', _⟩ :=
        h.answered own reflector hsearched id session hmem
      rw [hget, Option.some.injEq] at hget'
      subst hget'
      rw [hhandler, Option.some.injEq] at hhandler'
      subst hhandler'
      exact hcreator rfl
    · intro key registration handler hkey hget hhandler
      rw [hothers key hkey] at hget
      split at hget
      · cases hget
      · exact .inl hget
  have hkept : ∀ id session, (id, session) ∈
      (reflector.sessions.retain keep).entries →
      (id, session) ∈ reflector.sessions.entries ∧ keep id session = true :=
    fun id session hmem => LinearMap.mem_retain.mp hmem
  refine h.turned hturned ?_ ?_ ?_ ?_
  · intro key hcreated
    have hkey := hcreated.ne_own hsearches
    obtain ⟨registration, handler, hget, hhandler, hcreator⟩ := hcreated
    rw [hothers key hkey] at hget
    split at hget
    · cases hget
    next hnot =>
      obtain ⟨reflector', id, session, hsearched', hmem, rfl⟩ :=
        h.created own key ⟨registration, handler, hget, hhandler, hcreator⟩
      cases hsearched.unique hsearched'
      refine ⟨id, session, LinearMap.mem_retain.mpr ⟨hmem, ?_⟩, rfl⟩
      by_contra hkeep
      rw [Bool.not_eq_true] at hkeep
      exact hnot ((hdropped _).mpr ⟨id, session, hmem, hkeep, rfl⟩)
  · intro id session hmem
    obtain ⟨hold, hkeep⟩ := hkept id session hmem
    have hanswers := h.answered own reflector hsearched id session hold
    have hne := hanswers.ne_own hsearched
    obtain ⟨registration, leg, mac, hget, hrest⟩ := hanswers
    refine ⟨registration, leg, mac, ?_, hrest⟩
    rw [hothers _ hne, if_neg, hget]
    rw [hdropped]
    rintro ⟨id', session', hmem', hdrop, hsame⟩
    have hid := h.distinct own reflector hsearched id' session' id session
      hmem' hold hsame
    subst hid
    have hsession := LinearMap.get_eq_some_iff.mpr hold
    rw [LinearMap.get_eq_some_iff.mpr hmem', Option.some.injEq] at hsession
    subst hsession
    rw [hkeep] at hdrop
    cases hdrop
  · intro id session id' session' hmem hmem'
    exact h.distinct own reflector hsearched id session id' session'
      (hkept id session hmem).1 (hkept id' session' hmem').1
  · exact Nat.le_trans (List.length_filter_le _ _)
      (h.capped own reflector hsearched)

theorem Bijective.extended {lookup lookup' : Lookup} {own : Key}
    {reflector : SearchReflector} (h : Bijective lookup)
    (hsearched : Searches lookup own reflector) {id : SessionKey}
    {session : Session} (hsession : reflector.sessions.get id = some session)
    (expiry : Nat)
    (hsearches : Searches lookup' own
      { reflector with
        sessions := reflector.sessions.insert id
          { session with expiry := expiry } })
    (hothers : ∀ key, key ≠ own → lookup' key = lookup key) :
    Bijective lookup' := by
  have hmem := LinearMap.get_eq_some_iff.mp hsession
  have hturned : Turned lookup lookup' own reflector
      { reflector with
        sessions := reflector.sessions.insert id
          { session with expiry := expiry } } := by
    refine ⟨hsearched, hsearches, ?_, ?_⟩
    · intro key registration handler hkey hget _ _
      rw [hothers key hkey, hget]
    · intro key registration handler hkey hget _
      rw [hothers key hkey] at hget
      exact .inl hget
  -- every session has an old one of its key and registration
  have hold : ∀ id' session', (id', session') ∈ (reflector.sessions.insert id
      { session with expiry := expiry }).entries → ∃ old,
      (id', old) ∈ reflector.sessions.entries ∧
      session'.responseKey = old.responseKey ∧
      session'.reservation = old.reservation := by
    intro id' session' hmem'
    obtain hnew | ⟨hkept, _⟩ := LinearMap.mem_insert.mp hmem'
    · cases hnew
      exact ⟨session, hmem, rfl, rfl⟩
    · exact ⟨session', hkept, rfl, rfl⟩
  refine h.turned hturned ?_ ?_ ?_ ?_
  · intro key hcreated
    have hne := hcreated.ne_own hsearches
    obtain ⟨registration, handler, hget, hrest⟩ := hcreated
    rw [hothers key hne] at hget
    obtain ⟨reflector', id', session', hsearched', hmem', rfl⟩ :=
      h.created own key ⟨registration, handler, hget, hrest⟩
    cases hsearched.unique hsearched'
    by_cases hid : id' = id
    · subst hid
      rw [← LinearMap.get_eq_some_iff, hsession, Option.some.injEq] at hmem'
      subst hmem'
      exact ⟨id', _, LinearMap.mem_insert.mpr (.inl rfl), rfl⟩
    · exact ⟨id', session', LinearMap.mem_insert.mpr (.inr ⟨hmem', hid⟩), rfl⟩
  · intro id' session' hmem'
    obtain ⟨old, hmemOld, hresponse, hreservation⟩ := hold id' session' hmem'
    have hanswers := h.answered own reflector hsearched id' old hmemOld
    have hne := hanswers.ne_own hsearched
    obtain ⟨registration, leg, mac, hget, hingress, hfilter, hrest⟩ := hanswers
    refine ⟨registration, leg, mac, ?_, hingress, ?_, hrest⟩
    · rw [hresponse, hothers _ hne, hget]
    · rw [hreservation]
      exact hfilter
  · intro id' session' id'' session'' hmem' hmem'' hsame
    obtain ⟨old, hmemOld, hresponse, _⟩ := hold id' session' hmem'
    obtain ⟨old', hmemOld', hresponse', _⟩ := hold id'' session'' hmem''
    rw [hresponse, hresponse'] at hsame
    exact h.distinct own reflector hsearched _ _ _ _ hmemOld hmemOld' hsame
  · rw [LinearMap.len_insert_of_some hsession]
    exact h.capped own reflector hsearched

theorem Bijective.opened {lookup lookup' : Lookup} {own : Key}
    {reflector : SearchReflector} (h : Bijective lookup)
    (hsearched : Searches lookup own reflector) {id : SessionKey}
    {session : Session} (hnone : reflector.sessions.get id = none)
    (hroom : reflector.sessions.len < maxSessions)
    (hfresh : lookup session.responseKey = none)
    (hsearches : Searches lookup' own
      { reflector with sessions := reflector.sessions.insert id session })
    (hanswers : Answers lookup' own
      { reflector with sessions := reflector.sessions.insert id session } id
      session)
    (hothers : ∀ key, key ≠ own → key ≠ session.responseKey →
      lookup' key = lookup key) : Bijective lookup' := by
  -- a key that was live is not the new one
  have hlive : ∀ {key registration}, lookup key = some registration →
      key ≠ session.responseKey := by
    rintro key registration hget rfl
    rw [hfresh] at hget
    cases hget
  have hturned : Turned lookup lookup' own reflector
      { reflector with sessions := reflector.sessions.insert id session } := by
    refine ⟨hsearched, hsearches, ?_, ?_⟩
    · intro key registration handler hkey hget _ _
      rw [hothers key hkey (hlive hget), hget]
    · intro key registration handler hkey hget hhandler
      by_cases hsame : key = session.responseKey
      · subst hsame
        obtain ⟨registration', leg, mac, hget', _, _, hhandler', _⟩ := hanswers
        rw [hget, Option.some.injEq] at hget'
        subst hget'
        rw [hhandler, Option.some.injEq] at hhandler'
        subst hhandler'
        exact .inr ⟨⟨leg, rfl⟩, rfl⟩
      · rw [hothers key hkey hsame] at hget
        exact .inl hget
  have hmem : ∀ id' session', (id', session') ∈
      (reflector.sessions.insert id session).entries →
      (id', session') = (id, session) ∨
        (id', session') ∈ reflector.sessions.entries := by
    intro id' session' hmem'
    obtain hnew | ⟨hold, _⟩ := LinearMap.mem_insert.mp hmem'
    · exact .inl hnew
    · exact .inr hold
  have hliveKey : ∀ {id' session'}, (id', session') ∈
      reflector.sessions.entries →
      session'.responseKey ≠ session.responseKey := by
    intro id' session' hold
    obtain ⟨registration, leg, mac, hget, _⟩ :=
      h.answered own reflector hsearched id' session' hold
    exact hlive hget
  refine h.turned hturned ?_ ?_ ?_ ?_
  · intro key hcreated
    have hne := hcreated.ne_own hsearches
    by_cases hsame : key = session.responseKey
    · exact ⟨id, session, LinearMap.mem_insert.mpr (.inl rfl), hsame.symm⟩
    obtain ⟨registration, handler, hget, hrest⟩ := hcreated
    rw [hothers key hne hsame] at hget
    obtain ⟨reflector', id', session', hsearched', hold, rfl⟩ :=
      h.created own key ⟨registration, handler, hget, hrest⟩
    cases hsearched.unique hsearched'
    refine ⟨id', session', LinearMap.mem_insert.mpr (.inr ⟨hold, ?_⟩), rfl⟩
    rintro rfl
    exact LinearMap.get_eq_none_iff.mp hnone session' hold
  · intro id' session' hmem'
    obtain hnew | hold := hmem id' session' hmem'
    · cases hnew
      exact hanswers
    have hanswers' := h.answered own reflector hsearched id' session' hold
    have hne := hanswers'.ne_own hsearched
    obtain ⟨registration, leg, mac, hget, hrest⟩ := hanswers'
    exact ⟨registration, leg, mac,
      (hothers _ hne (hliveKey hold)).trans hget, hrest⟩
  · intro id' session' id'' session'' hmem' hmem'' hsame
    obtain hnew | hold := hmem id' session' hmem'
    · cases hnew
      obtain hnew' | hold' := hmem id'' session'' hmem''
      · cases hnew'
        rfl
      · exact absurd hsame.symm (hliveKey hold')
    · obtain hnew' | hold' := hmem id'' session'' hmem''
      · cases hnew'
        exact absurd hsame (hliveKey hold)
      · exact h.distinct own reflector hsearched _ _ _ _ hold hold' hsame
  · rw [LinearMap.len_insert_of_none hnone]
    exact hroom

end Netflector.Dispatch
