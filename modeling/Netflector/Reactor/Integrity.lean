import Netflector.Reactor.Generations
import Netflector.Reactor.Registry

/-!
# Integrity of the registry

Every live registration belongs to one live handler and is listed by it once,
whatever is called, from outside or by a handler that is out for a call.
-/

set_option linter.dupNamespace false

namespace Netflector.Reactor

open Netflector.Foundation

/-! ## The relation between the two arenas -/

/-- Handlers and registrations that belong together, by what their keys resolve
to. -/
structure Integral {Handler : Type}
    (handlers : Key → Option (HandlerEntry Handler))
    (registrations : Key → Option Registration) : Prop where
  owned : ∀ reg registration, registrations reg = some registration →
    ∃ entry, handlers registration.handlerKey = some entry ∧ reg ∈ entry.regs
  listed : ∀ key entry reg, handlers key = some entry → reg ∈ entry.regs →
    ∃ registration, registrations reg = some registration ∧
      registration.handlerKey = key
  once : ∀ key entry, handlers key = some entry → entry.regs.Nodup
  distinct : ∀ reg reg' registration registration',
    registrations reg = some registration →
    registrations reg' = some registration' →
    registration.fd = registration'.fd → reg = reg'

section Integral

variable {Handler : Type} {handlers handlers' : Key → Option (HandlerEntry Handler)}
  {registrations registrations' : Key → Option Registration}

structure Alike (handlers handlers' : Key → Option (HandlerEntry Handler))
    (registrations registrations' : Key → Option Registration) : Prop where
  regs : ∀ key, (handlers' key).map HandlerEntry.regs =
    (handlers key).map HandlerEntry.regs
  fields : ∀ reg, (registrations' reg).map (fun registration =>
      (registration.fd, registration.handlerKey, registration.userData)) =
    (registrations reg).map fun registration =>
      (registration.fd, registration.handlerKey, registration.userData)

theorem Alike.entry (h : Alike handlers handlers' registrations registrations')
    {key : Key} {entry : HandlerEntry Handler} (hentry : handlers' key = some entry) :
    ∃ old, handlers key = some old ∧ old.regs = entry.regs := by
  have hregs := h.regs key
  rw [hentry, Option.map_some] at hregs
  obtain ⟨old, hold, hsame⟩ := Option.map_eq_some_iff.mp hregs.symm
  exact ⟨old, hold, hsame⟩

theorem Alike.registration
    (h : Alike handlers handlers' registrations registrations')
    {reg : Key} {registration : Registration}
    (hreg : registrations' reg = some registration) :
    ∃ old, registrations reg = some old ∧ old.fd = registration.fd ∧
      old.handlerKey = registration.handlerKey ∧
      old.userData = registration.userData := by
  have hfields := h.fields reg
  rw [hreg, Option.map_some] at hfields
  obtain ⟨old, hold, hsame⟩ := Option.map_eq_some_iff.mp hfields.symm
  simp only [Prod.mk.injEq] at hsame
  exact ⟨old, hold, hsame⟩

theorem Alike.symm (h : Alike handlers handlers' registrations registrations') :
    Alike handlers' handlers registrations' registrations :=
  ⟨fun key => (h.regs key).symm, fun reg => (h.fields reg).symm⟩

theorem Integral.alike (h : Integral handlers registrations)
    (halike : Alike handlers handlers' registrations registrations') :
    Integral handlers' registrations' := by
  constructor
  · intro reg registration hreg
    obtain ⟨old, hold, _, hkey, _⟩ := halike.registration hreg
    obtain ⟨entry, hentry, hmem⟩ := h.owned reg old hold
    obtain ⟨entry', hentry', hregs⟩ := halike.symm.entry hentry
    rw [← hkey]
    exact ⟨entry', hentry', by rwa [hregs]⟩
  · intro key entry reg hentry hmem
    obtain ⟨old, hold, hregs⟩ := halike.entry hentry
    obtain ⟨registration, hreg, hkey⟩ :=
      h.listed key old reg hold (by rwa [hregs])
    obtain ⟨registration', hreg', _, hkey', _⟩ := halike.symm.registration hreg
    exact ⟨registration', hreg', by rw [hkey', hkey]⟩
  · intro key entry hentry
    obtain ⟨old, hold, hregs⟩ := halike.entry hentry
    rw [← hregs]
    exact h.once key old hold
  · intro reg reg' registration registration' hreg hreg' hfd
    obtain ⟨old, hold, hsame, _⟩ := halike.registration hreg
    obtain ⟨old', hold', hsame', _⟩ := halike.registration hreg'
    exact h.distinct reg reg' old old' hold hold' (by rw [hsame, hsame', hfd])

theorem Integral.registered (h : Integral handlers registrations) {key : Key}
    (hfresh : handlers key = none) {handler : Option Handler}
    (hhandlers : ∀ other, handlers' other =
      if other = key then some ⟨handler, []⟩ else handlers other) :
    Integral handlers' registrations := by
  constructor
  · intro reg registration hreg
    obtain ⟨entry, hentry, hmem⟩ := h.owned reg registration hreg
    refine ⟨entry, ?_, hmem⟩
    rw [hhandlers, if_neg, hentry]
    rintro rfl
    rw [hfresh] at hentry
    cases hentry
  · intro other entry reg hentry hmem
    rw [hhandlers] at hentry
    split at hentry
    · cases hentry
      cases hmem
    · exact h.listed other entry reg hentry hmem
  · intro other entry hentry
    rw [hhandlers] at hentry
    split at hentry
    · cases hentry
      exact List.nodup_nil
    · exact h.once other entry hentry
  · exact h.distinct

theorem Integral.watched (h : Integral handlers registrations)
    {key reg : Key} {entry : HandlerEntry Handler}
    {registration : Registration} (hentry : handlers key = some entry)
    (hfresh : registrations reg = none) (hkey : registration.handlerKey = key)
    (hfd : ∀ other found, registrations other = some found →
      found.fd ≠ registration.fd)
    (hhandlers : ∀ other, handlers' other =
      if other = key then some { entry with regs := entry.regs ++ [reg] }
      else handlers other)
    (hregistrations : ∀ other, registrations' other =
      if other = reg then some registration else registrations other) :
    Integral handlers' registrations' := by
  have hunlisted : ∀ other found, handlers other = some found →
      reg ∉ found.regs := by
    intro other found hfound hmem
    obtain ⟨listed, hlisted, _⟩ := h.listed other found reg hfound hmem
    rw [hfresh] at hlisted
    cases hlisted
  constructor
  · intro other found hfound
    rw [hregistrations] at hfound
    split at hfound
    · rename_i hsame
      cases hfound
      subst hsame
      refine ⟨{ entry with regs := entry.regs ++ [other] }, ?_, by simp⟩
      rw [hhandlers, if_pos hkey]
    · obtain ⟨owner, howner, hmem⟩ := h.owned other found hfound
      by_cases hsame : found.handlerKey = key
      · rw [hsame, hentry, Option.some.injEq] at howner
        refine ⟨{ entry with regs := entry.regs ++ [reg] }, ?_, ?_⟩
        · rw [hhandlers, if_pos hsame]
        · rw [howner]
          exact List.mem_append_left _ hmem
      · exact ⟨owner, by rw [hhandlers, if_neg hsame, howner], hmem⟩
  · intro other found listed hfound hmem
    rw [hhandlers] at hfound
    split at hfound
    · rename_i hsame
      cases hfound
      rcases List.mem_append.mp hmem with hold | hnew
      · obtain ⟨old, hold', hkey'⟩ := h.listed key entry listed hentry hold
        refine ⟨old, ?_, by rw [hkey', hsame]⟩
        rw [hregistrations, if_neg, hold']
        rintro rfl
        exact hunlisted key entry hentry hold
      · rw [List.mem_singleton] at hnew
        exact ⟨registration, by rw [hregistrations, if_pos hnew],
          by rw [hkey, hsame]⟩
    · obtain ⟨old, hold, hkey'⟩ := h.listed other found listed hfound hmem
      refine ⟨old, ?_, hkey'⟩
      rw [hregistrations, if_neg, hold]
      rintro rfl
      exact hunlisted other found hfound hmem
  · intro other found hfound
    rw [hhandlers] at hfound
    split at hfound
    · cases hfound
      rw [List.nodup_append]
      refine ⟨h.once key entry hentry, by simp, ?_⟩
      intro listed hlisted other hother
      rw [List.mem_singleton] at hother
      subst hother
      rintro rfl
      exact hunlisted key entry hentry hlisted
    · exact h.once other found hfound
  · intro first second found found' hfirst hsecond hsame
    rw [hregistrations] at hfirst hsecond
    split at hfirst
    · rename_i hfirstKey
      cases hfirst
      split at hsecond
      · rename_i hsecondKey
        rw [hfirstKey, hsecondKey]
      · exact absurd hsame.symm (hfd second found' hsecond)
    · split at hsecond
      · cases hsecond
        exact absurd hsame (hfd first found hfirst)
      · exact h.distinct first second found found' hfirst hsecond hsame

theorem Integral.unwatched (h : Integral handlers registrations)
    {reg : Key} {registration : Registration} {entry : HandlerEntry Handler}
    (hreg : registrations reg = some registration)
    (hentry : handlers registration.handlerKey = some entry)
    (hhandlers : ∀ other, handlers' other =
      if other = registration.handlerKey then
        some { entry with regs := entry.regs.filter (· ≠ reg) }
      else handlers other)
    (hregistrations : ∀ other, registrations' other =
      if other = reg then none else registrations other) :
    Integral handlers' registrations' := by
  constructor
  · intro other found hfound
    rw [hregistrations] at hfound
    split at hfound
    · cases hfound
    rename_i hne
    obtain ⟨owner, howner, hmem⟩ := h.owned other found hfound
    by_cases hsame : found.handlerKey = registration.handlerKey
    · rw [hsame, hentry, Option.some.injEq] at howner
      refine ⟨{ entry with regs := entry.regs.filter (· ≠ reg) }, ?_, ?_⟩
      · rw [hhandlers, if_pos hsame]
      · rw [howner, List.mem_filter]
        exact ⟨hmem, decide_eq_true hne⟩
    · exact ⟨owner, by rw [hhandlers, if_neg hsame, howner], hmem⟩
  · intro other found listed hfound hmem
    rw [hhandlers] at hfound
    split at hfound
    · rename_i hsame
      cases hfound
      obtain ⟨hlisted, hne⟩ := List.mem_filter.mp hmem
      obtain ⟨old, hold, hkey⟩ := h.listed _ entry listed hentry hlisted
      exact ⟨old, by rw [hregistrations, if_neg (of_decide_eq_true hne), hold],
        by rw [hkey, hsame]⟩
    · rename_i hother
      obtain ⟨old, hold, hkey⟩ := h.listed other found listed hfound hmem
      refine ⟨old, ?_, hkey⟩
      rw [hregistrations, if_neg, hold]
      rintro rfl
      rw [hreg, Option.some.injEq] at hold
      exact hother (by rw [hold, hkey])
  · intro other found hfound
    rw [hhandlers] at hfound
    split at hfound
    · cases hfound
      exact (h.once _ entry hentry).filter _
    · exact h.once other found hfound
  · intro first second found found' hfirst hsecond hsame
    rw [hregistrations] at hfirst hsecond
    split at hfirst
    · cases hfirst
    split at hsecond
    · cases hsecond
    exact h.distinct first second found found' hfirst hsecond hsame

theorem Integral.unregistered (h : Integral handlers registrations)
    {key : Key} {entry : HandlerEntry Handler}
    (hentry : handlers key = some entry)
    (hhandlers : ∀ other, handlers' other =
      if other = key then none else handlers other)
    (hregistrations : ∀ other, registrations' other =
      if other ∈ entry.regs then none else registrations other) :
    Integral handlers' registrations' := by
  constructor
  · intro reg registration hreg
    rw [hregistrations] at hreg
    split at hreg
    · cases hreg
    rename_i hunlisted
    obtain ⟨owner, howner, hmem⟩ := h.owned reg registration hreg
    refine ⟨owner, ?_, hmem⟩
    rw [hhandlers, if_neg, howner]
    intro hsame
    rw [hsame, hentry, Option.some.injEq] at howner
    exact hunlisted (by rw [howner]; exact hmem)
  · intro other found reg hfound hmem
    rw [hhandlers] at hfound
    split at hfound
    · cases hfound
    rename_i hother
    obtain ⟨old, hold, hkey⟩ := h.listed other found reg hfound hmem
    refine ⟨old, ?_, hkey⟩
    rw [hregistrations, if_neg, hold]
    intro hlisted
    obtain ⟨old', hold', hkey'⟩ := h.listed key entry reg hentry hlisted
    rw [hold, Option.some.injEq] at hold'
    rw [← hold', hkey] at hkey'
    exact hother hkey'
  · intro other found hfound
    rw [hhandlers] at hfound
    split at hfound
    · cases hfound
    exact h.once other found hfound
  · intro first second found found' hfirst hsecond hsame
    rw [hregistrations] at hfirst hsecond
    split at hfirst
    · cases hfirst
    split at hsecond
    · cases hsecond
    exact h.distinct first second found found' hfirst hsecond hsame

end Integral

/-! ## The calls -/

structure Sane {Handler : Type} (reactor : Reactor Handler) : Prop where
  handlers : reactor.handlers.Aged reactor.retiredHandlers
  registrations : reactor.registrations.Aged reactor.retiredRegs
  integral : Integral reactor.handlers.get reactor.registrations.get

/-- What no call changes: a key that does not resolve any more is retired, and
what a live one resolves to stays what it was registered as. -/
structure Advances {Handler : Type} (before after : Reactor Handler) :
    Prop where
  handlers_suffix : before.retiredHandlers <:+ after.retiredHandlers
  regs_suffix : before.retiredRegs <:+ after.retiredRegs
  handler : ∀ key entry, before.handlers.get key = some entry →
    key ∈ after.retiredHandlers ∨ ∃ entry',
      after.handlers.get key = some entry' ∧ entry'.handler = entry.handler
  registration : ∀ reg found, before.registrations.get reg = some found →
    reg ∈ after.retiredRegs ∨ ∃ found',
      after.registrations.get reg = some found' ∧ found'.fd = found.fd ∧
      found'.handlerKey = found.handlerKey ∧ found'.userData = found.userData

section Calls

variable {Handler : Type} {reactor : Reactor Handler} {key reg : Key}

theorem Advances.refl (reactor : Reactor Handler) :
    Advances reactor reactor :=
  ⟨List.suffix_refl _, List.suffix_refl _, fun _ entry h => .inr ⟨entry, h, rfl⟩,
    fun _ found h => .inr ⟨found, h, rfl, rfl, rfl⟩⟩

theorem Advances.trans {first second third : Reactor Handler}
    (h : Advances first second) (h' : Advances second third) :
    Advances first third := by
  refine ⟨h.handlers_suffix.trans h'.handlers_suffix,
    h.regs_suffix.trans h'.regs_suffix, ?_, ?_⟩
  · intro key entry hentry
    rcases h.handler key entry hentry with hretired | ⟨entry', hentry', hsame⟩
    · exact .inl (h'.handlers_suffix.mem hretired)
    · rcases h'.handler key entry' hentry' with hretired | ⟨last, hlast, hsame'⟩
      · exact .inl hretired
      · exact .inr ⟨last, hlast, hsame'.trans hsame⟩
  · intro reg found hfound
    rcases h.registration reg found hfound with hretired |
      ⟨found', hfound', hfd, hkey, hdata⟩
    · exact .inl (h'.regs_suffix.mem hretired)
    · rcases h'.registration reg found' hfound' with hretired |
        ⟨last, hlast, hfd', hkey', hdata'⟩
      · exact .inl hretired
      · exact .inr ⟨last, hlast, hfd'.trans hfd, hkey'.trans hkey,
          hdata'.trans hdata⟩

theorem sane_new : Sane (Reactor.new : Reactor Handler) := by
  refine ⟨Arena.aged_new, Arena.aged_new, ?_, ?_, ?_, ?_⟩
  · intro reg found hfound
    cases hfound
  · intro key entry reg hentry
    cases hentry
  · intro key entry hentry
    cases hentry
  · intro reg reg' found found' hfound
    cases hfound

def exhausted : Panic := .expect "arena index space exhausted"

theorem register_total (h : Sane reactor) (adoptKey : Key → Handler → Handler)
    (handler : Handler) :
    reactor.register adoptKey handler = .error exhausted ∨
    ∃ after key, reactor.register adoptKey handler = .ok (after, key) ∧
      Sane after ∧ Advances reactor after ∧
      reactor.handlers.get key = none ∧
      after.registrations = reactor.registrations ∧
      (∀ other, after.handlers.get other =
        if other = key then some ⟨some (adoptKey key handler), []⟩
        else reactor.handlers.get other) := by
  rcases Arena.insertFrom_total h.handlers.wf fun key =>
      (⟨some (adoptKey key handler), []⟩ : HandlerEntry Handler) with
    ⟨handlers, key, hinsert, hplaced⟩ | hpanic
  · right
    have hget := hplaced.inserted.get_eq
    refine ⟨{ reactor with handlers := handlers }, key, ?_,
      ⟨h.handlers.placed hplaced, h.registrations,
        h.integral.registered hplaced.inserted.fresh hget⟩,
      ⟨List.suffix_refl _, List.suffix_refl _, ?_, ?_⟩,
      hplaced.inserted.fresh, rfl, hget⟩
    · simp only [Reactor.register, hinsert, bind, Except.bind]
    · intro other entry hentry
      refine .inr ⟨entry, ?_, rfl⟩
      rw [hget, if_neg, hentry]
      rintro rfl
      rw [hplaced.inserted.fresh] at hentry
      cases hentry
    · exact fun other found hfound => .inr ⟨found, hfound, rfl, rfl, rfl⟩
  · left
    simp only [Reactor.register, hpanic, bind, Except.bind]
    rfl

theorem removeRegistration_some {found : Registration}
    (h : reactor.registrations.get reg = some found) :
    reactor.removeRegistration reg =
      ({ reactor with
        registrations := (reactor.registrations.remove reg).1
        retiredRegs := reg :: reactor.retiredRegs }, some found) := by
  simp only [Reactor.removeRegistration, Arena.remove_some h]

theorem removeHandler_some {entry : HandlerEntry Handler}
    (h : reactor.handlers.get key = some entry) :
    reactor.removeHandler key =
      ({ reactor with
        handlers := (reactor.handlers.remove key).1
        retiredHandlers := key :: reactor.retiredHandlers }, some entry) := by
  simp only [Reactor.removeHandler, Arena.remove_some h]

theorem removeRegistration_none (h : reactor.registrations.get reg = none) :
    reactor.removeRegistration reg = (reactor, none) := by
  simp only [Reactor.removeRegistration, Arena.remove_none h]

theorem watched_iff (h : Sane reactor) (fd : RawFd) :
    (reactor.registrations.iter.any fun item => decide (item.2.fd = fd)) =
        true ↔
      ∃ reg found, reactor.registrations.get reg = some found ∧
        found.fd = fd := by
  simp only [List.any_eq_true, decide_eq_true_eq, Prod.exists,
    Arena.mem_iter h.registrations.wf]

structure Unchanged (before after : Reactor Handler) : Prop where
  handlers : ∀ key, after.handlers.get key = before.handlers.get key
  registrations : ∀ reg,
    after.registrations.get reg = before.registrations.get reg

theorem Unchanged.refl (reactor : Reactor Handler) :
    Unchanged reactor reactor :=
  ⟨fun _ => rfl, fun _ => rfl⟩

theorem Unchanged.advances {before after : Reactor Handler}
    (h : Unchanged before after)
    (hhandlers : before.retiredHandlers <:+ after.retiredHandlers)
    (hregs : before.retiredRegs <:+ after.retiredRegs) :
    Advances before after := by
  refine ⟨hhandlers, hregs, ?_, ?_⟩
  · intro key entry hentry
    exact .inr ⟨entry, by rw [h.handlers, hentry], rfl⟩
  · intro reg found hfound
    exact .inr ⟨found, by rw [h.registrations, hfound], rfl, rfl, rfl⟩

theorem Unchanged.integral {before after : Reactor Handler}
    (h : Unchanged before after)
    (hintegral : Integral before.handlers.get before.registrations.get) :
    Integral after.handlers.get after.registrations.get :=
  hintegral.alike ⟨fun key => by rw [h.handlers], fun reg => by
    rw [h.registrations]⟩

inductive Watched (before after : Reactor Handler) (handlerKey : Key)
    (fd : RawFd) (userData : UInt64) : Except IoError Key → Prop where
  | failed (error : IoError) (unchanged : Unchanged before after) :
      Watched before after handlerKey fd userData (.error error)
  | added (reg : Key) (entry : HandlerEntry Handler)
      (hentry : before.handlers.get handlerKey = some entry)
      (hfresh : before.registrations.get reg = none)
      (hhandlers : ∀ other, after.handlers.get other =
        if other = handlerKey then
          some { entry with regs := entry.regs ++ [reg] }
        else before.handlers.get other)
      (hregistrations : ∀ other, after.registrations.get other =
        if other = reg then some ⟨fd, handlerKey, true, false, userData⟩
        else before.registrations.get other) :
      Watched before after handlerKey fd userData (.ok reg)

theorem watch_total (h : Sane reactor) (handlerKey : Key) (fd : RawFd)
    (userData : UInt64) (poll : Poll) :
    reactor.watch handlerKey fd userData poll = .error exhausted ∨
    ∃ after result, reactor.watch handlerKey fd userData poll =
        .ok (after, result) ∧
      Sane after ∧ Advances reactor after ∧
      Watched reactor after handlerKey fd userData result := by
  cases hentry : reactor.handlers.get handlerKey with
  | none =>
      right
      have hwatch : reactor.watch handlerKey fd userData poll =
          .ok (reactor, .error (.notFound "watch: no such handler")) := by
        simp only [Reactor.watch, hentry]
      exact ⟨reactor, _, hwatch, h, .refl reactor, .failed _ (.refl reactor)⟩
  | some entry =>
      by_cases hwatched : (reactor.registrations.iter.any fun item =>
          decide (item.2.fd = fd)) = true
      · right
        have hwatch : reactor.watch handlerKey fd userData poll =
            .ok (reactor, .error (.alreadyExists
              "watch: fd already watched")) := by
          simp only [Reactor.watch, hentry, if_pos hwatched]
        exact ⟨reactor, _, hwatch, h, .refl reactor,
          .failed _ (.refl reactor)⟩
      have hfd : ∀ other found,
          reactor.registrations.get other = some found → found.fd ≠ fd := by
        intro other found hfound hsame
        exact hwatched ((watched_iff h fd).mpr ⟨other, found, hfound, hsame⟩)
      rcases Arena.insertFrom_total h.registrations.wf fun _ =>
          (⟨fd, handlerKey, true, false, userData⟩ : Registration) with
        ⟨registrations, reg, hinsert, hplaced⟩ | hpanic
      case inr =>
        left
        simp only [Reactor.watch, hentry, if_neg hwatched, Arena.insert,
          hpanic, bind, Except.bind]
        rfl
      right
      have hget := hplaced.inserted.get_eq
      have haged := h.registrations.placed hplaced
      cases hpoll : poll fd with
      | some error =>
          -- The kernel refused: the registration goes again.
          have hnew : registrations.get reg =
              some ⟨fd, handlerKey, true, false, userData⟩ := by
            rw [hget, if_pos rfl]
          have hunchanged : Unchanged reactor
              { reactor with
                registrations := (registrations.remove reg).1
                retiredRegs := reg :: reactor.retiredRegs } := by
            refine ⟨fun _ => rfl, ?_⟩
            intro other
            rw [Arena.get_remove hnew, hget]
            split
            · rename_i hsame
              rw [hsame, hplaced.inserted.fresh]
            · rfl
          have hwatch : reactor.watch handlerKey fd userData poll =
              .ok ({ reactor with
                registrations := (registrations.remove reg).1
                retiredRegs := reg :: reactor.retiredRegs }, .error error) := by
            simp only [Reactor.watch, hentry, if_neg hwatched, Arena.insert,
              hinsert, bind, Except.bind, hpoll]
            rw [removeRegistration_some hnew]
          exact ⟨_, _, hwatch, ⟨h.handlers, haged.remove hnew,
            hunchanged.integral h.integral⟩, hunchanged.advances
              (List.suffix_refl _) (List.suffix_cons _ _),
            .failed error hunchanged⟩
      | none =>
          have hset := Arena.get_set hentry
            { entry with regs := entry.regs ++ [reg] }
          refine ⟨{ reactor with
            registrations := registrations
            handlers := reactor.handlers.set handlerKey
              { entry with regs := entry.regs ++ [reg] } }, .ok reg, ?_,
            ⟨h.handlers.set _ _, haged, h.integral.watched hentry
              hplaced.inserted.fresh rfl hfd hset hget⟩,
            ⟨List.suffix_refl _, List.suffix_refl _, ?_, ?_⟩,
            .added reg entry hentry hplaced.inserted.fresh hset hget⟩
          · simp only [Reactor.watch, hentry, if_neg hwatched, Arena.insert,
              hinsert, bind, Except.bind, hpoll]
          · intro other found hfound
            right
            by_cases hsame : other = handlerKey
            · subst hsame
              rw [hentry, Option.some.injEq] at hfound
              exact ⟨_, by rw [hset, if_pos rfl], by rw [← hfound]⟩
            · exact ⟨found, by rw [hset, if_neg hsame, hfound], rfl⟩
          · intro other found hfound
            refine .inr ⟨found, ?_, rfl, rfl, rfl⟩
            rw [hget, if_neg, hfound]
            rintro rfl
            rw [hplaced.inserted.fresh] at hfound
            cases hfound

theorem unwatch_total (h : Sane reactor) (reg : Key) (poll : Poll) :
    ∃ after result, reactor.unwatch reg poll = (after, result) ∧
      Sane after ∧ Advances reactor after := by
  cases hreg : reactor.registrations.get reg with
  | none =>
      refine ⟨reactor, .ok false, ?_, h, .refl reactor⟩
      simp only [Reactor.unwatch, removeRegistration_none hreg]
  | some found =>
      obtain ⟨entry, hentry, _⟩ := h.integral.owned reg found hreg
      have hset := Arena.get_set hentry
        { entry with regs := entry.regs.filter (· ≠ reg) }
      have hget := Arena.get_remove hreg
      have hunwatch : ∃ result, reactor.unwatch reg poll =
          ({ reactor with
            registrations := (reactor.registrations.remove reg).1
            retiredRegs := reg :: reactor.retiredRegs
            handlers := reactor.handlers.set found.handlerKey
              { entry with regs := entry.regs.filter (· ≠ reg) } },
            result) := by
        simp only [Reactor.unwatch, removeRegistration_some hreg, hentry]
        cases poll found.fd with
        | none => exact ⟨_, rfl⟩
        | some error => exact ⟨_, rfl⟩
      obtain ⟨result, hunwatch⟩ := hunwatch
      refine ⟨_, result, hunwatch, ⟨h.handlers.set _ _,
        h.registrations.remove hreg,
        h.integral.unwatched hreg hentry hset hget⟩,
        List.suffix_refl _, List.suffix_cons _ _, ?_, ?_⟩
      · intro other old hold
        right
        by_cases hsame : other = found.handlerKey
        · subst hsame
          rw [hentry, Option.some.injEq] at hold
          exact ⟨_, by rw [hset, if_pos rfl], by rw [← hold]⟩
        · exact ⟨old, by rw [hset, if_neg hsame, hold], rfl⟩
      · intro other old hold
        by_cases hsame : other = reg
        · exact .inl (by rw [hsame]; exact List.mem_cons_self ..)
        · exact .inr ⟨old, by rw [hget, if_neg hsame, hold], rfl, rfl, rfl⟩

structure Cleared (regs : List Key) (before after : Reactor Handler) :
    Prop where
  handlers : after.handlers = before.handlers
  retiredHandlers : after.retiredHandlers = before.retiredHandlers
  aged : after.registrations.Aged after.retiredRegs
  suffix : before.retiredRegs <:+ after.retiredRegs
  get_eq : ∀ reg, after.registrations.get reg =
    if reg ∈ regs then none else before.registrations.get reg
  retired : ∀ reg found, before.registrations.get reg = some found →
    reg ∈ regs → reg ∈ after.retiredRegs

theorem unwatchAll_cleared (poll : Poll) (regs : List Key)
    (firstErr : Option IoError)
    (h : reactor.registrations.Aged reactor.retiredRegs) :
    Cleared regs reactor (reactor.unwatchAll poll regs firstErr).1 := by
  induction regs generalizing reactor firstErr with
  | nil =>
      refine ⟨rfl, rfl, h, List.suffix_refl _, ?_, ?_⟩
      · intro reg
        rw [if_neg (List.not_mem_nil)]
        rfl
      · intro reg found _ hmem
        cases hmem
  | cons reg regs ih =>
      cases hreg : reactor.registrations.get reg with
      | none =>
          simp only [Reactor.unwatchAll, removeRegistration_none hreg]
          have hrest := ih firstErr h
          refine ⟨hrest.handlers, hrest.retiredHandlers, hrest.aged,
            hrest.suffix, ?_, ?_⟩
          · intro other
            rw [hrest.get_eq]
            by_cases hsame : other = reg
            · subst hsame
              rw [if_pos (List.mem_cons_self ..), hreg]
              split <;> rfl
            · simp only [List.mem_cons, hsame, false_or]
          · intro other found hfound hmem
            rcases List.mem_cons.mp hmem with rfl | hlater
            · rw [hreg] at hfound
              cases hfound
            · exact hrest.retired other found hfound hlater
      | some found =>
          simp only [Reactor.unwatchAll, removeRegistration_some hreg]
          have hget := Arena.get_remove hreg
          let removed : Reactor Handler := { reactor with
            registrations := (reactor.registrations.remove reg).1
            retiredRegs := reg :: reactor.retiredRegs }
          have hrest : Cleared regs removed (removed.unwatchAll poll regs
              (firstErr.or (poll found.fd))).1 := ih _ (h.remove hreg)
          refine ⟨hrest.handlers, hrest.retiredHandlers, hrest.aged,
            (List.suffix_cons _ _).trans hrest.suffix, ?_, ?_⟩
          · intro other
            rw [hrest.get_eq, hget]
            by_cases hsame : other = reg
            · simp [hsame]
            · simp [hsame]
          · intro other old hold hmem
            by_cases hsame : other = reg
            · rw [hsame]
              exact hrest.suffix.mem (List.mem_cons_self ..)
            · rcases List.mem_cons.mp hmem with hother | hlater
              · exact absurd hother hsame
              · exact hrest.retired other old (by
                  rw [hget, if_neg hsame, hold]) hlater

theorem unregister_none (poll : Poll)
    (hentry : reactor.handlers.get key = none) :
    reactor.unregister key poll = (reactor, .ok false) := by
  simp only [Reactor.unregister, Reactor.removeHandler,
    Arena.remove_none hentry]

structure Unregistered (before after : Reactor Handler) (key : Key)
    (regs : List Key) : Prop where
  handlers : ∀ other, after.handlers.get other =
    if other = key then none else before.handlers.get other
  registrations : ∀ reg, after.registrations.get reg =
    if reg ∈ regs then none else before.registrations.get reg

theorem unregister_some (h : Sane reactor) {entry : HandlerEntry Handler}
    (hentry : reactor.handlers.get key = some entry) (poll : Poll) :
    ∃ after result, reactor.unregister key poll = (after, result) ∧
      Sane after ∧ Advances reactor after ∧
      Unregistered reactor after key entry.regs := by
  let removed : Reactor Handler := { reactor with
    handlers := (reactor.handlers.remove key).1
    retiredHandlers := key :: reactor.retiredHandlers }
  have hget := Arena.get_remove hentry
  have hcleared : Cleared entry.regs removed
      (removed.unwatchAll poll entry.regs none).1 :=
    unwatchAll_cleared poll entry.regs none h.registrations
  have hunregister : ∃ result, reactor.unregister key poll =
      ((removed.unwatchAll poll entry.regs none).1, result) := by
    simp only [Reactor.unregister, removeHandler_some hentry]
    split
    · rename_i after error hall
      have hall' : removed.unwatchAll poll entry.regs none =
          (after, some error) := hall
      exact ⟨.error error, by rw [hall']⟩
    · rename_i after hall
      have hall' : removed.unwatchAll poll entry.regs none =
          (after, none) := hall
      exact ⟨.ok true, by rw [hall']⟩
  obtain ⟨result, hunregister⟩ := hunregister
  generalize (removed.unwatchAll poll entry.regs none).1 = after at *
  have hhandlers : ∀ other, after.handlers.get other =
      if other = key then none else reactor.handlers.get other := by
    intro other
    rw [hcleared.handlers]
    exact hget other
  refine ⟨after, result, hunregister, ⟨?_, hcleared.aged,
    h.integral.unregistered hentry hhandlers hcleared.get_eq⟩,
    ⟨?_, hcleared.suffix, ?_, ?_⟩, hhandlers, hcleared.get_eq⟩
  · rw [hcleared.handlers, hcleared.retiredHandlers]
    exact h.handlers.remove hentry
  · rw [hcleared.retiredHandlers]
    exact List.suffix_cons _ _
  · intro other old hold
    by_cases hsame : other = key
    · left
      rw [hcleared.retiredHandlers, hsame]
      exact List.mem_cons_self ..
    · exact .inr ⟨old, by rw [hhandlers, if_neg hsame, hold], rfl⟩
  · intro reg found hfound
    by_cases hlisted : reg ∈ entry.regs
    · exact .inl (hcleared.retired reg found hfound hlisted)
    · refine .inr ⟨found, ?_, rfl, rfl, rfl⟩
      rw [hcleared.get_eq, if_neg hlisted]
      exact hfound

theorem unregister_total (h : Sane reactor) (key : Key) (poll : Poll) :
    ∃ after result, reactor.unregister key poll = (after, result) ∧
      Sane after ∧ Advances reactor after := by
  cases hentry : reactor.handlers.get key with
  | none => exact ⟨_, _, unregister_none poll hentry, h, .refl reactor⟩
  | some entry =>
      obtain ⟨after, result, hunregister, hsane, hadvances, _⟩ :=
        unregister_some h hentry poll
      exact ⟨after, result, hunregister, hsane, hadvances⟩

theorem set_registration (h : Sane reactor) {found : Registration}
    (stored : Registration)
    (hreg : reactor.registrations.get reg = some found)
    (hfd : stored.fd = found.fd) (hkey : stored.handlerKey = found.handlerKey)
    (hdata : stored.userData = found.userData) :
    Sane { reactor with
      registrations := reactor.registrations.set reg stored } ∧
    Advances reactor { reactor with
      registrations := reactor.registrations.set reg stored } := by
  have hset := Arena.get_set hreg stored
  refine ⟨⟨h.handlers, h.registrations.set reg stored, h.integral.alike
    ⟨fun _ => rfl, ?_⟩⟩, List.suffix_refl _, List.suffix_refl _, ?_, ?_⟩
  · intro other
    rw [hset]
    by_cases hsame : other = reg
    · rw [if_pos hsame, hsame, hreg, Option.map_some, Option.map_some, hfd,
        hkey, hdata]
    · rw [if_neg hsame]
  · exact fun other entry hentry => .inr ⟨entry, hentry, rfl⟩
  · intro other old hold
    right
    by_cases hsame : other = reg
    · rw [hsame, hreg, Option.some.injEq] at hold
      refine ⟨stored, by rw [hset, if_pos hsame], ?_⟩
      rw [← hold]
      exact ⟨hfd, hkey, hdata⟩
    · exact ⟨old, by rw [hset, if_neg hsame, hold], rfl, rfl, rfl⟩

theorem setWriteInterest_total (h : Sane reactor) (reg : Key)
    (enabled : Bool) (poll : Poll) :
    ∃ after result, reactor.setWriteInterest reg enabled poll =
        (after, result) ∧
      Sane after ∧ Advances reactor after := by
  unfold Reactor.setWriteInterest
  cases hreg : reactor.registrations.get reg with
  | none => exact ⟨_, _, rfl, h, .refl reactor⟩
  | some found =>
      simp only
      split
      · exact ⟨_, _, rfl, h, .refl reactor⟩
      · cases poll found.fd with
        | some error => exact ⟨_, _, rfl, h, .refl reactor⟩
        | none =>
            obtain ⟨hsane, hadvances⟩ := set_registration h
              { found with writeInterest := enabled } hreg rfl rfl rfl
            exact ⟨_, _, rfl, hsane, hadvances⟩

theorem setReadInterest_total (h : Sane reactor) (reg : Key)
    (enabled : Bool) (poll : Poll) :
    ∃ after result, reactor.setReadInterest reg enabled poll =
        (after, result) ∧
      Sane after ∧ Advances reactor after := by
  unfold Reactor.setReadInterest
  cases hreg : reactor.registrations.get reg with
  | none => exact ⟨_, _, rfl, h, .refl reactor⟩
  | some found =>
      simp only
      cases poll found.fd with
      | some error => exact ⟨_, _, rfl, h, .refl reactor⟩
      | none =>
          obtain ⟨hsane, hadvances⟩ := set_registration h
            { found with readInterest := enabled } hreg rfl rfl rfl
          exact ⟨_, _, rfl, hsane, hadvances⟩

/-- What `registerWithFds` has built when it comes to the next descriptor: one
more handler, and registrations that it alone lists. -/
structure Building (before reactor : Reactor Handler) (key : Key)
    (entry : HandlerEntry Handler) : Prop where
  fresh : before.handlers.get key = none
  live : reactor.handlers.get key = some entry
  handlers : ∀ other, other ≠ key →
    reactor.handlers.get other = before.handlers.get other
  registrations : ∀ reg, reg ∉ entry.regs →
    reactor.registrations.get reg = before.registrations.get reg
  new : ∀ reg ∈ entry.regs, before.registrations.get reg = none

theorem Building.unregistered {before reactor after : Reactor Handler}
    {entry : HandlerEntry Handler} (h : Building before reactor key entry)
    (hgone : Unregistered reactor after key entry.regs) :
    Unchanged before after := by
  constructor
  · intro other
    rw [hgone.handlers]
    by_cases hsame : other = key
    · rw [if_pos hsame, hsame, h.fresh]
    · rw [if_neg hsame, h.handlers other hsame]
  · intro reg
    rw [hgone.registrations]
    by_cases hlisted : reg ∈ entry.regs
    · rw [if_pos hlisted, h.new reg hlisted]
    · rw [if_neg hlisted, h.registrations reg hlisted]

theorem watchAll_total {before : Reactor Handler}
    {entry : HandlerEntry Handler} (h : Sane reactor)
    (hbuilding : Building before reactor key entry) (poll removed : Poll)
    (fds : List (RawFd × UInt64)) :
    reactor.watchAll key poll removed fds = .error exhausted ∨
    ∃ after result, reactor.watchAll key poll removed fds =
        .ok (after, result) ∧
      Sane after ∧ Advances reactor after ∧
      (∀ error, result = .error error → Unchanged before after) := by
  induction fds generalizing reactor entry with
  | nil =>
      refine .inr ⟨reactor, _, rfl, h, .refl reactor, ?_⟩
      intro error herror
      cases herror
  | cons item fds ih =>
      obtain ⟨fd, userData⟩ := item
      rcases watch_total h key fd userData poll with hpanic |
        ⟨next, result, hwatch, hsane, hadvances, hwatched⟩
      · left
        simp only [Reactor.watchAll, hpanic, bind, Except.bind]
      cases hwatched with
      | failed error hunchanged =>
          have hentry : next.handlers.get key = some entry := by
            rw [hunchanged.handlers, hbuilding.live]
          obtain ⟨after, result, hunregister, hafter, hadvances', hgone⟩ :=
            unregister_some hsane hentry removed
          have hnext : Building before next key entry :=
            ⟨hbuilding.fresh, hentry,
              fun other hne => by
                rw [hunchanged.handlers, hbuilding.handlers other hne],
              fun reg hne => by
                rw [hunchanged.registrations, hbuilding.registrations reg hne],
              hbuilding.new⟩
          refine .inr ⟨after, .error error, ?_, hafter,
            hadvances.trans hadvances', ?_⟩
          · simp only [Reactor.watchAll, hwatch, bind, Except.bind,
              hunregister]
          · exact fun _ _ => hnext.unregistered hgone
      | added reg owner howner hfresh hhandlers hregistrations =>
          rw [hbuilding.live, Option.some.injEq] at howner
          subst howner
          have hnext : Building before next key
              { entry with regs := entry.regs ++ [reg] } := by
            refine ⟨hbuilding.fresh, by rw [hhandlers, if_pos rfl], ?_, ?_, ?_⟩
            · intro other hne
              rw [hhandlers, if_neg hne, hbuilding.handlers other hne]
            · intro other hother
              rw [List.mem_append, List.mem_singleton, not_or] at hother
              rw [hregistrations, if_neg hother.2,
                hbuilding.registrations other hother.1]
            · intro other hother
              rcases List.mem_append.mp hother with hold | hnew
              · exact hbuilding.new other hold
              · rw [List.mem_singleton] at hnew
                subst hnew
                by_cases hlisted : other ∈ entry.regs
                · exact hbuilding.new other hlisted
                · rw [← hbuilding.registrations other hlisted, hfresh]
          simp only [Reactor.watchAll, hwatch, bind, Except.bind]
          rcases ih hsane hnext with hpanic |
            ⟨after, result, hall, hafter, hadvances', hfailed⟩
          · exact .inl hpanic
          · exact .inr ⟨after, result, hall, hafter,
              hadvances.trans hadvances', hfailed⟩

theorem registerWithFds_total (h : Sane reactor)
    (adoptKey : Key → Handler → Handler) (handler : Handler)
    (fds : List (RawFd × UInt64)) (poll removed : Poll) :
    reactor.registerWithFds adoptKey handler fds poll removed =
      .error exhausted ∨
    ∃ after result,
      reactor.registerWithFds adoptKey handler fds poll removed =
        .ok (after, result) ∧
      Sane after ∧ Advances reactor after ∧
      (∀ error, result = .error error → Unchanged reactor after) := by
  rcases register_total h adoptKey handler with hpanic |
    ⟨next, key, hregister, hsane, hadvances, hfresh, hregistrations, hhandlers⟩
  · left
    simp only [Reactor.registerWithFds, hpanic, bind, Except.bind]
  have hbuilding : Building reactor next key
      ⟨some (adoptKey key handler), []⟩ := by
    refine ⟨hfresh, by rw [hhandlers, if_pos rfl], ?_, ?_, ?_⟩
    · intro other hne
      rw [hhandlers, if_neg hne]
    · intro reg _
      rw [hregistrations]
    · intro reg hmem
      cases hmem
  simp only [Reactor.registerWithFds, hregister, bind, Except.bind]
  rcases watchAll_total hsane hbuilding poll removed fds with hpanic |
    ⟨after, result, hall, hafter, hadvances', hfailed⟩
  · exact .inl hpanic
  · exact .inr ⟨after, result, hall, hafter, hadvances.trans hadvances',
      hfailed⟩

end Calls

end Netflector.Reactor
