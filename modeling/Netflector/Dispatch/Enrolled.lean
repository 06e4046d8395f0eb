import Netflector.Dispatch.Reporting
import Netflector.Reflector.Dial.Release
import Netflector.Reflector.Dial.Fitting
import Netflector.Reflector.Dial.Conduct

/-!
# The registry and the proxies it names

The registry and the reactor own the two halves of a proxy.  Whatever is looked
up, minted or evicted, every live proxy is named by one entry, under the key of
its device, and listens and binds on its captures' addresses.
-/

namespace Netflector.Dispatch

open Netflector.Foundation
open Netflector.Net
open Netflector.Reactor
open Netflector.Reflector
open Netflector.Reflector.Dial

def InterfaceTable.v4Of (table : InterfaceTable) (capture : CaptureKey) :
    Option Ipv4Addr :=
  (table.egressAddrs capture).bind (·.v4)

structure Placed (table : InterfaceTable) (key : DialProxyKey)
    (entry : DialEntry) (proxy : DialDeviceProxy) : Prop where
  own : proxy.key = some entry.handler
  endpoint : proxy.descEndpoint = key.endpoint
  listener : proxy.desc.localAddr = entry.descAddr
  source : table.v4Of key.source = some proxy.desc.localAddr.ip
  rest : table.v4Of key.source = some proxy.rest.localAddr.ip
  target : table.v4Of key.target = some proxy.target

/-- Between two calls: every entry's handler is gone or the entry's proxy, and
every proxy has an entry. -/
structure Enrolled (table : InterfaceTable) (context : DialContext)
    (reactor : Reactor Service) : Prop where
  sane : Sane reactor
  rested : ∀ handler, reactor.standing handler ≠ some none
  len : context.proxies.len ≤ maxDialProxies
  peers : ∀ key entry, (key, entry) ∈ context.proxies.entries →
    isNeverAPeer (.v4 key.endpoint.ip) = false
  named : ∀ key entry, (key, entry) ∈ context.proxies.entries →
    ∀ service, reactor.standing entry.handler = some (some service) →
    ∃ proxy, service = .dialDevice proxy ∧ Placed table key entry proxy
  listed : ∀ handler proxy,
    reactor.standing handler = some (some (.dialDevice proxy)) →
    ∃ key entry, (key, entry) ∈ context.proxies.entries ∧
      entry.handler = handler
  once : ∀ key entry key' entry', (key, entry) ∈ context.proxies.entries →
    (key', entry') ∈ context.proxies.entries →
    entry.handler = entry'.handler →
    reactor.standing entry.handler ≠ none → key = key'

section Registry

variable {table : InterfaceTable} {context : DialContext}
  {reactor after : Reactor Service} {key : DialProxyKey} {entry : DialEntry}

theorem isRegistered_iff {handler : Key} :
    DialContext.isRegistered reactor handler = true ↔
      reactor.standing handler ≠ none := by
  rw [DialContext.isRegistered, contains_standing, Option.isSome_iff_ne_none]

theorem entry_unique (h : (key, entry) ∈ context.proxies.entries)
    {entry' : DialEntry} (h' : (key, entry') ∈ context.proxies.entries) :
    entry = entry' := by
  have hget := LinearMap.get_eq_some_iff.mpr h
  rw [LinearMap.get_eq_some_iff.mpr h'] at hget
  exact (Option.some.inj hget).symm

theorem Enrolled.pruned (h : Enrolled table context reactor)
    {proxies : LinearMap DialProxyKey DialEntry}
    (hsub : ∀ item ∈ proxies.entries, item ∈ context.proxies.entries)
    (hlen : proxies.len ≤ context.proxies.len)
    (hkept : ∀ item ∈ context.proxies.entries,
      reactor.standing item.2.handler ≠ none → item ∈ proxies.entries) :
    Enrolled table ⟨proxies⟩ reactor := by
  constructor
  · exact h.sane
  · exact h.rested
  · exact hlen.trans h.len
  · intro key entry hmem
    exact h.peers key entry (hsub _ hmem)
  · intro key entry hmem
    exact h.named key entry (hsub _ hmem)
  · intro handler proxy hlive
    obtain ⟨key, entry, hmem, hhandler⟩ := h.listed handler proxy hlive
    refine ⟨key, entry, hkept _ hmem ?_, hhandler⟩
    simp only [hhandler, hlive]
    exact Option.some_ne_none _
  · intro key entry key' entry' hmem hmem'
    exact h.once key entry key' entry' (hsub _ hmem) (hsub _ hmem')

theorem Enrolled.sameHandlers (h : Enrolled table context reactor)
    (hsame : SameHandlers reactor after) : Enrolled table context after := by
  have hstanding := hsame.standing
  constructor
  · exact hsame.sane
  · intro handler
    rw [hstanding]
    exact h.rested handler
  · exact h.len
  · exact h.peers
  · intro key entry hmem service hservice
    rw [hstanding] at hservice
    exact h.named key entry hmem service hservice
  · intro handler proxy hlive
    rw [hstanding] at hlive
    exact h.listed handler proxy hlive
  · intro key entry key' entry' hmem hmem' hhandler hlive
    rw [hstanding] at hlive
    exact h.once key entry key' entry' hmem hmem' hhandler hlive

/-! ## Looking up -/

theorem lookup_cases (context : DialContext) (key : DialProxyKey)
    (reactor : Reactor Service) (descGrace : Nat) :
    (∃ entry, (key, entry) ∈ context.proxies.entries ∧
      reactor.standing entry.handler ≠ none ∧
      context.lookup key reactor descGrace =
        (⟨context.proxies.insert key { entry with descGrace := descGrace }⟩,
          some entry.descAddr)) ∨
    ((∀ entry, (key, entry) ∈ context.proxies.entries →
        reactor.standing entry.handler = none) ∧
      context.lookup key reactor descGrace =
        (⟨(context.proxies.remove key).1⟩, none)) := by
  rw [DialContext.lookup]
  cases hfound : (context.proxies.get key).filter
      fun entry => DialContext.isRegistered reactor entry.handler with
  | some entry =>
      obtain ⟨hget, hregistered⟩ := Option.filter_eq_some_iff.mp hfound
      exact .inl ⟨entry, LinearMap.get_eq_some_iff.mp hget,
        isRegistered_iff.mp hregistered, rfl⟩
  | none =>
      refine .inr ⟨?_, rfl⟩
      intro entry hmem
      by_contra hlive
      rw [LinearMap.get_eq_some_iff.mpr hmem, Option.filter_some,
        if_pos (isRegistered_iff.mpr hlive)] at hfound
      cases hfound

theorem Enrolled.refreshed (h : Enrolled table context reactor)
    (hmem : (key, entry) ∈ context.proxies.entries) (descGrace : Nat) :
    Enrolled table
      ⟨context.proxies.insert key { entry with descGrace := descGrace }⟩
      reactor := by
  -- what an entry of the new map was, but for its grace
  have hwas : ∀ key' entry',
      (key', entry') ∈ (context.proxies.insert key
        { entry with descGrace := descGrace }).entries →
      ∃ old, (key', old) ∈ context.proxies.entries ∧
        old.handler = entry'.handler ∧ old.descAddr = entry'.descAddr := by
    intro key' entry' hnew
    rcases LinearMap.mem_insert.mp hnew with hsame | ⟨hold, _⟩
    · cases hsame
      exact ⟨entry, hmem, rfl, rfl⟩
    · exact ⟨entry', hold, rfl, rfl⟩
  constructor
  · exact h.sane
  · exact h.rested
  · have hget := LinearMap.get_eq_some_iff.mpr hmem
    exact (LinearMap.len_insert_of_some hget _).trans_le h.len
  · intro key' entry' hnew
    obtain ⟨old, hold, _⟩ := hwas key' entry' hnew
    exact h.peers key' old hold
  · intro key' entry' hnew service hservice
    obtain ⟨old, hold, hhandler, haddr⟩ := hwas key' entry' hnew
    rw [← hhandler] at hservice
    obtain ⟨proxy, hproxy, hplaced⟩ := h.named key' old hold service hservice
    refine ⟨proxy, hproxy, ?_⟩
    exact { hplaced with
      own := by rw [hplaced.own, hhandler]
      listener := by rw [hplaced.listener, haddr] }
  · intro handler proxy hlive
    obtain ⟨key', entry', hold, hhandler⟩ := h.listed handler proxy hlive
    by_cases hsame : key' = key
    · subst hsame
      cases entry_unique hold hmem
      exact ⟨key', _, LinearMap.mem_insert.mpr (.inl rfl), hhandler⟩
    · exact ⟨key', entry', LinearMap.mem_insert.mpr (.inr ⟨hold, hsame⟩),
        hhandler⟩
  · intro key' entry' key'' entry'' hnew hnew' hhandler hlive
    obtain ⟨old, hold, hsame, _⟩ := hwas key' entry' hnew
    obtain ⟨old', hold', hsame', _⟩ := hwas key'' entry'' hnew'
    rw [← hsame] at hlive
    exact h.once key' old key'' old' hold hold'
      (by rw [hsame, hsame', hhandler]) hlive

theorem Enrolled.forgotten (h : Enrolled table context reactor)
    (hstale : ∀ entry, (key, entry) ∈ context.proxies.entries →
      reactor.standing entry.handler = none) :
    Enrolled table ⟨(context.proxies.remove key).1⟩ reactor := by
  refine h.pruned ?_ ?_ ?_
  · intro item hmem
    exact (LinearMap.mem_remove.mp hmem).1
  · cases hget : context.proxies.get key with
    | none =>
        rw [LinearMap.remove_none (by rw [LinearMap.remove_value, hget])]
    | some entry =>
        have hlen := LinearMap.len_remove (LinearMap.get_eq_some_iff.mp hget)
        omega
  · rintro ⟨key', entry⟩ hmem hlive
    refine LinearMap.mem_remove.mpr ⟨hmem, ?_⟩
    rintro rfl
    exact hlive (hstale entry hmem)

/-! ## Minting -/

theorem hasCapacity_cases (h : Enrolled table context reactor) :
    Enrolled table (context.hasCapacity reactor).1 reactor ∧
      (∀ item ∈ (context.hasCapacity reactor).1.proxies.entries,
        item ∈ context.proxies.entries ∧
          reactor.standing item.2.handler ≠ none) ∧
      ((context.hasCapacity reactor).2 = true →
        (context.hasCapacity reactor).1.proxies.len < maxDialProxies) := by
  refine ⟨h.pruned ?_ (LinearMap.len_retain_le _ _) ?_, ?_, ?_⟩
  · intro item hmem
    exact (LinearMap.mem_retain.mp hmem).1
  · intro item hmem hlive
    exact LinearMap.mem_retain.mpr ⟨hmem, isRegistered_iff.mpr hlive⟩
  · intro item hmem
    obtain ⟨hold, hlive⟩ := LinearMap.mem_retain.mp hmem
    exact ⟨hold, isRegistered_iff.mp hlive⟩
  · intro hroom
    exact of_decide_eq_true hroom

theorem Enrolled.joined {handler : Key} {proxy : DialDeviceProxy}
    (h : Enrolled table context reactor)
    (hroom : context.proxies.len < maxDialProxies)
    (hlive : ∀ item ∈ context.proxies.entries,
      reactor.standing item.2.handler ≠ none)
    (habsent : context.proxies.get key = none)
    (hpeer : isNeverAPeer (.v4 key.endpoint.ip) = false)
    (hjoins : Joins handler (.dialDevice proxy) reactor after)
    (hhandler : entry.handler = handler)
    (hplaced : Placed table key entry proxy) :
    Enrolled table ⟨context.proxies.insert key entry⟩ after := by
  have hother : ∀ key' entry', (key', entry') ∈ context.proxies.entries →
      entry'.handler ≠ handler := by
    rintro key' entry' hmem rfl
    exact hlive _ hmem hjoins.vacant
  have hstanding : ∀ key' entry', (key', entry') ∈ context.proxies.entries →
      after.standing entry'.handler = reactor.standing entry'.handler := by
    intro key' entry' hmem
    rw [hjoins.standing, if_neg (hother key' entry' hmem)]
  constructor
  · exact hjoins.sane
  · intro other
    rw [hjoins.standing]
    split
    · exact nofun
    · exact h.rested other
  · exact (LinearMap.len_insert_of_none habsent entry).trans_le hroom
  · intro key' entry' hmem
    rcases LinearMap.mem_insert.mp hmem with hsame | ⟨hold, _⟩
    · cases hsame
      exact hpeer
    · exact h.peers key' entry' hold
  · intro key' entry' hmem service hservice
    rcases LinearMap.mem_insert.mp hmem with hsame | ⟨hold, _⟩
    · cases hsame
      rw [hhandler, hjoins.standing, if_pos rfl] at hservice
      cases hservice
      exact ⟨proxy, rfl, hplaced⟩
    · rw [hstanding key' entry' hold] at hservice
      exact h.named key' entry' hold service hservice
  · intro other proxy' hproxy
    rw [hjoins.standing] at hproxy
    split at hproxy
    · rename_i hsame
      exact ⟨key, entry, LinearMap.mem_insert.mpr (.inl rfl),
        hhandler.trans hsame.symm⟩
    · obtain ⟨key', entry', hold, hsame⟩ := h.listed other proxy' hproxy
      refine ⟨key', entry', LinearMap.mem_insert.mpr (.inr ⟨hold, ?_⟩), hsame⟩
      rintro rfl
      exact LinearMap.get_eq_none_iff.mp habsent entry' hold
  · intro key' entry' key'' entry'' hmem hmem' hsame hstands
    rcases LinearMap.mem_insert.mp hmem with hnew | ⟨hold, _⟩
    · rcases LinearMap.mem_insert.mp hmem' with hnew' | ⟨hold', _⟩
      · cases hnew
        cases hnew'
        rfl
      · cases hnew
        exact absurd (hsame.symm.trans hhandler)
          (hother key'' entry'' hold')
    · rcases LinearMap.mem_insert.mp hmem' with hnew' | ⟨hold', _⟩
      · cases hnew'
        exact absurd (hsame.trans hhandler) (hother key' entry' hold)
      · rw [hstanding key' entry' hold] at hstands
        exact h.once key' entry' key'' entry'' hold hold' hsame hstands

structure Situated (table : InterfaceTable) (placement : ProxyPlacement) :
    Prop where
  source : table.v4Of placement.sourceCapture = some placement.source
  target : table.v4Of placement.targetCapture = some placement.target

theorem listen_ip {addr : Ipv4Addr} {answer : Except Errno (Nat × UInt16)}
    {socket : ListenSocket} (h : listen addr answer = some socket) :
    socket.localAddr.ip = addr := by
  cases answer with
  | error error => cases h
  | ok found =>
      cases h
      rfl

theorem mintProxy_enrolled {calls : MintCalls} {placement : ProxyPlacement}
    {descGrace : Nat} {context' : DialContext}
    {answer : Option SocketAddrV4} (h : Enrolled table context reactor)
    (habsent : context.proxies.get key = none)
    (hpeer : isNeverAPeer (.v4 key.endpoint.ip) = false)
    (hsource : key.source = placement.sourceCapture)
    (htarget : key.target = placement.targetCapture)
    (hsituated : Situated table placement)
    (hrun : mintProxy calls context reactor placement key descGrace =
      .ok (context', after, answer)) : Enrolled table context' after := by
  obtain ⟨hpruned, hlive, hroom⟩ := hasCapacity_cases h
  unfold mintProxy at hrun
  cases hcheck : context.hasCapacity reactor with
  | mk checked room =>
      rw [hcheck] at hpruned hlive hroom hrun
      cases room with
      | false =>
          cases hrun
          exact hpruned
      | true =>
          have hgone : checked.proxies.get key = none := by
            rw [LinearMap.get_eq_none_iff]
            intro entry hmem
            exact LinearMap.get_eq_none_iff.mp habsent entry
              (hlive _ hmem).1
          dsimp only at hrun
          split at hrun
          · cases hrun
            exact hpruned
          split at hrun
          next desc rest hdesc hrest =>
            obtain ⟨⟨next, registered⟩, hregister, hrun⟩ :=
              except_bind_ok hrun
            cases registered with
            | error error =>
                cases hrun
                exact hpruned.sameHandlers
                  (registerWithFds_failed h.sane hregister)
            | ok handler =>
                cases hrun
                refine hpruned.joined (hroom rfl)
                  (fun item hmem => (hlive item hmem).2) hgone hpeer
                  (registerWithFds_joins h.sane hregister) rfl ?_
                constructor
                · rfl
                · rfl
                · rfl
                · rw [hsource, hsituated.source]
                  exact congrArg some (listen_ip hdesc).symm
                · rw [hsource, hsituated.source]
                  exact congrArg some (listen_ip hrest).symm
                · rw [htarget, hsituated.target]
                  rfl
          next =>
            cases hrun
            exact hpruned

theorem rewriteLocation_enrolled {calls : MintCalls} {now : Nat}
    {payload : Bytes} {placement : ProxyPlacement} {context' : DialContext}
    {rewritten : Option Bytes} (h : Enrolled table context reactor)
    (hsituated : Situated table placement)
    (hrun : rewriteLocation calls now context reactor payload placement =
      .ok (context', after, rewritten)) : Enrolled table context' after := by
  rw [rewriteLocation_eq] at hrun
  obtain ⟨⟨found, next, proxy⟩, hfound, hrun⟩ := except_bind_ok hrun
  cases hrun
  unfold proxyAddress at hfound
  split at hfound
  · cases hfound
    exact h
  split at hfound
  · cases hfound
    exact h
  next location hlocation =>
    split at hfound
    · cases hfound
      exact h
    next hpeer =>
      rw [Bool.not_eq_true] at hpeer
      obtain ⟨⟨left, kept, addr⟩, hproxy, hfound⟩ := except_bind_ok hfound
      cases hfound
      rw [proxyFor] at hproxy
      rcases lookup_cases context ⟨placement.sourceCapture,
          placement.targetCapture, location.endpoint⟩ reactor
          (descGraceAt now payload) with
        ⟨entry, hmem, _, hlookup⟩ | ⟨hstale, hlookup⟩
      · rw [hlookup] at hproxy
        cases hproxy
        exact h.refreshed hmem _
      · rw [hlookup] at hproxy
        refine mintProxy_enrolled (h.forgotten hstale) ?_ hpeer rfl rfl
          hsituated hproxy
        rw [LinearMap.get_remove, if_pos rfl]

/-! ## Evicting -/

section Evicting

variable {poll : Reactor.Poll} {evict : DialProxyKey → DialEntry → Bool}

/-- What an eviction over a list of entries leaves standing, and which keys it
keeps: at least those of the live entries that it does not pick. -/
structure Evicted (evict : DialProxyKey → DialEntry → Bool)
    (entries : List (DialProxyKey × DialEntry))
    (before after : Reactor Service) (kept : List DialProxyKey) : Prop where
  sane : Sane after
  gone : ∀ item ∈ entries, evict item.1 item.2 = true →
    after.standing item.2.handler = none
  stands : ∀ handler, after.standing handler = none ∨
    after.standing handler = before.standing handler
  spared : ∀ handler, after.standing handler = none →
    before.standing handler ≠ none →
    ∃ item ∈ entries, evict item.1 item.2 = true ∧ item.2.handler = handler
  unpicked : ∀ key ∈ kept, ∃ entry, (key, entry) ∈ entries ∧
    evict key entry = false
  live : ∀ item ∈ entries, evict item.1 item.2 = false →
    after.standing item.2.handler ≠ none → item.1 ∈ kept

theorem evictEach_evicted (h : Sane reactor)
    (entries : List (DialProxyKey × DialEntry)) :
    Evicted evict entries reactor
      (DialContext.evictEach poll evict entries reactor).1
      (DialContext.evictEach poll evict entries reactor).2 := by
  induction entries generalizing reactor with
  | nil =>
      constructor
      · exact h
      · exact nofun
      · exact fun _ => .inr rfl
      · intro handler hnone hsome
        exact absurd hnone hsome
      · exact nofun
      · exact nofun
  | cons item entries ih =>
      obtain ⟨key, entry⟩ := item
      rw [DialContext.evictEach]
      by_cases hevict : evict key entry = true
      · rw [if_pos hevict]
        have hleaves := unregister_leaves h entry.handler poll
        have hrest := ih hleaves.sane
        have hgone : (DialContext.evictEach poll evict entries
            (reactor.unregister entry.handler poll).1).1.standing
              entry.handler = none := by
          rcases hrest.stands entry.handler with hnone | hsame
          · exact hnone
          · rw [hsame, hleaves.standing, if_pos rfl]
        constructor
        · exact hrest.sane
        · intro item hmem hpicked
          rcases List.mem_cons.mp hmem with rfl | hlater
          · exact hgone
          · exact hrest.gone item hlater hpicked
        · intro handler
          rcases hrest.stands handler with hnone | hsame
          · exact .inl hnone
          · rw [hsame, hleaves.standing]
            split
            · exact .inl rfl
            · exact .inr rfl
        · intro handler hnone hsome
          by_cases hsame : handler = entry.handler
          · exact ⟨(key, entry), List.mem_cons_self, hevict, hsame.symm⟩
          · obtain ⟨item, hmem, hpicked⟩ := hrest.spared handler hnone (by
              rw [hleaves.standing, if_neg hsame]
              exact hsome)
            exact ⟨item, List.mem_cons_of_mem _ hmem, hpicked⟩
        · intro kept hmem
          obtain ⟨found, hfound, hspared⟩ := hrest.unpicked kept hmem
          exact ⟨found, List.mem_cons_of_mem _ hfound, hspared⟩
        · intro item hmem hspared hlive
          rcases List.mem_cons.mp hmem with rfl | hlater
          · rw [hevict] at hspared
            cases hspared
          · exact hrest.live item hlater hspared hlive
      · rw [if_neg hevict]
        rw [Bool.not_eq_true] at hevict
        have hrest := ih h
        constructor
        · exact hrest.sane
        · intro item hmem hpicked
          rcases List.mem_cons.mp hmem with rfl | hlater
          · rw [hevict] at hpicked
            cases hpicked
          · exact hrest.gone item hlater hpicked
        · exact hrest.stands
        · intro handler hnone hsome
          obtain ⟨item, hmem, hpicked⟩ := hrest.spared handler hnone hsome
          exact ⟨item, List.mem_cons_of_mem _ hmem, hpicked⟩
        · intro kept hmem
          dsimp only at hmem
          have hcases : kept = key ∨ kept ∈
              (DialContext.evictEach poll evict entries reactor).2 := by
            split at hmem
            · exact List.mem_cons.mp hmem
            · exact .inr hmem
          rcases hcases with rfl | hlater
          · exact ⟨entry, List.mem_cons_self, hevict⟩
          · obtain ⟨found, hfound, hspared⟩ := hrest.unpicked kept hlater
            exact ⟨found, List.mem_cons_of_mem _ hfound, hspared⟩
        · intro item hmem hspared hlive
          dsimp only
          rcases List.mem_cons.mp hmem with rfl | hlater
          · have hregistered :
                DialContext.isRegistered reactor entry.handler = true := by
              rw [isRegistered_iff]
              rcases hrest.stands entry.handler with hnone | hsame
              · exact absurd hnone hlive
              · rw [← hsame]
                exact hlive
            rw [if_pos hregistered]
            exact List.mem_cons_self
          · have hkept := hrest.live item hlater hspared hlive
            split
            · exact List.mem_cons_of_mem _ hkept
            · exact hkept

theorem evictWhere_enrolled (poll : Reactor.Poll)
    (evict : DialProxyKey → DialEntry → Bool)
    (h : Enrolled table context reactor) :
    Enrolled table (context.evictWhere reactor poll evict).1
        (context.evictWhere reactor poll evict).2 ∧
      ∀ item ∈ (context.evictWhere reactor poll evict).1.proxies.entries,
        item ∈ context.proxies.entries ∧ evict item.1 item.2 = false := by
  have hevicted : Evicted evict context.proxies.entries reactor
      (DialContext.evictEach poll evict context.proxies.entries reactor).1
      (DialContext.evictEach poll evict context.proxies.entries reactor).2 :=
    evictEach_evicted h.sane context.proxies.entries
  simp only [DialContext.evictWhere]
  generalize DialContext.evictEach poll evict context.proxies.entries
    reactor = answer at *
  obtain ⟨left, kept⟩ := answer
  dsimp only at hevicted ⊢
  have hleft : ∀ item ∈ (context.proxies.retain fun key _ =>
      kept.contains key).entries,
      item ∈ context.proxies.entries ∧ evict item.1 item.2 = false := by
    rintro ⟨key, entry⟩ hmem
    obtain ⟨hold, hkept⟩ := LinearMap.mem_retain.mp hmem
    obtain ⟨found, hfound, hspared⟩ :=
      hevicted.unpicked key (List.contains_iff_mem.mp hkept)
    rw [entry_unique hold hfound]
    exact ⟨hfound, hspared⟩
  refine ⟨?_, hleft⟩
  have hstands : ∀ handler service,
      left.standing handler = some (some service) →
      reactor.standing handler = some (some service) := by
    intro handler service hservice
    rcases hevicted.stands handler with hnone | hsame
    · rw [hnone] at hservice
      cases hservice
    · rw [← hsame]
      exact hservice
  constructor
  · exact hevicted.sane
  · intro handler hout
    rcases hevicted.stands handler with hnone | hsame
    · rw [hnone] at hout
      cases hout
    · rw [hsame] at hout
      exact h.rested handler hout
  · exact (LinearMap.len_retain_le _ _).trans h.len
  · intro key entry hmem
    exact h.peers key entry (hleft _ hmem).1
  · intro key entry hmem service hservice
    exact h.named key entry (hleft _ hmem).1 service
      (hstands entry.handler service hservice)
  · intro handler proxy hlive
    obtain ⟨key, entry, hmem, hhandler⟩ :=
      h.listed handler proxy (hstands handler _ hlive)
    have hstanding : left.standing entry.handler ≠ none := by
      rw [hhandler, hlive]
      exact Option.some_ne_none _
    have hspared : evict key entry = false := by
      rw [← Bool.not_eq_true]
      intro hpicked
      exact hstanding (hevicted.gone (key, entry) hmem hpicked)
    refine ⟨key, entry, LinearMap.mem_retain.mpr ⟨hmem, ?_⟩, hhandler⟩
    exact List.contains_iff_mem.mpr
      (hevicted.live (key, entry) hmem hspared hstanding)
  · intro key entry key' entry' hmem hmem' hhandler hlive
    refine h.once key entry key' entry' (hleft _ hmem).1 (hleft _ hmem').1
      hhandler ?_
    rcases hevicted.stands entry.handler with hnone | hsame
    · exact absurd hnone hlive
    · rw [← hsame]
      exact hlive

theorem evictOnInterfaceChange_enrolled (h : Enrolled table context reactor)
    (poll : Reactor.Poll) (changed : List CaptureKey) :
    Enrolled table
        (context.evictOnInterfaceChange reactor poll changed).1
        (context.evictOnInterfaceChange reactor poll changed).2 ∧
      ∀ item ∈ (context.evictOnInterfaceChange reactor poll
          changed).1.proxies.entries,
        item ∈ context.proxies.entries ∧ item.1.source ∉ changed ∧
          item.1.target ∉ changed := by
  obtain ⟨henrolled, hleft⟩ := evictWhere_enrolled poll
    (fun key _ =>
      changed.contains key.source || changed.contains key.target) h
  refine ⟨henrolled, ?_⟩
  intro item hmem
  obtain ⟨hold, hspared⟩ := hleft item hmem
  rw [Bool.or_eq_false_iff, ← Bool.not_eq_true, ← Bool.not_eq_true,
    List.contains_iff_mem, List.contains_iff_mem] at hspared
  exact ⟨hold, hspared⟩

theorem sweep_enrolled (h : Enrolled table context reactor) (now : Nat)
    (poll : Reactor.Poll) :
    Enrolled table (context.sweep now reactor poll).1
        (context.sweep now reactor poll).2 ∧
      ∀ item ∈ (context.sweep now reactor poll).1.proxies.entries,
        now < item.2.descGrace := by
  obtain ⟨henrolled, hleft⟩ := evictWhere_enrolled poll
    (fun _ entry => decide (entry.descGrace ≤ now)) h
  refine ⟨henrolled, ?_⟩
  intro item hmem
  obtain ⟨_, hspared⟩ := hleft item hmem
  exact Nat.lt_of_not_le (of_decide_eq_false hspared)

end Evicting

end Registry

end Netflector.Dispatch
