import Netflector.Reactor.Polling

/-!
# What the kernel reports

Runs of the reactor over a backend: which registrations the kernel reports
events for, which of these events reach a handler, and what the kernel answers.
-/

set_option linter.dupNamespace false

namespace Netflector.Reactor

open Netflector.Foundation

/-! ## A kernel that turns nothing down -/

/-- The kernel serves every system call of the request that it can. -/
def Request.Obliged {Handler : Type} : Request Handler → Prop
  | .register _ | .close _ => True
  | .registerWithFds _ _ refuses removed =>
      ∀ fd call, refuses fd call = none ∧ removed fd call = none
  | .watch _ _ _ refuses => ∀ call, refuses call = none
  | .unwatch _ refuses => ∀ call, refuses call = none
  | .unregister _ refuses => ∀ fd call, refuses fd call = none
  | .setWriteInterest _ _ refuses => ∀ call, refuses call = none
  | .setReadInterest _ _ refuses => ∀ call, refuses call = none

def Reaction.Obliged {Handler : Type} (reaction : Reaction Handler) : Prop :=
  ∀ request ∈ reaction.requests, request.Obliged

def Sight.answer : Sight → Option (Option IoError)
  | .answered error => some error
  | .delivered .. => none

def Unfailing (error : Option IoError) : Prop :=
  ∀ code, error ≠ some (.os code)

theorem unfailing_none : Unfailing none :=
  fun code h => by cases h

namespace Polled

variable {P Handler : Type} [Poller P] [LawfulPoller P]
  {polled between after : Polled P Handler}

def Clean (polled : Polled P Handler) : Prop :=
  ∀ fd reg, (polled.interest fd).Holds reg →
    ∃ found, polled.reactor.registrations.get reg = some found ∧ found.fd = fd

theorem Clean.sameRegistrations {reactor : Reactor Handler}
    (h : polled.Clean)
    (hregs : reactor.registrations = polled.reactor.registrations) :
    ({ polled with reactor := reactor } : Polled P Handler).Clean := by
  intro fd reg hholds
  rw [hregs]
  exact h fd reg hholds

theorem Clean.unheld (h : polled.Clean) {fd : RawFd}
    (hfd : ∀ reg found, polled.reactor.registrations.get reg = some found →
      found.fd ≠ fd) (reg : Key) : ¬ (polled.interest fd).Holds reg := by
  intro hholds
  obtain ⟨found, hfound, hsame⟩ := h fd reg hholds
  exact hfd reg found hfound hsame

theorem Clean.dropped (h : polled.Clean) {reg : Key} {found : Registration}
    (hreg : polled.reactor.registrations.get reg = some found)
    (hregs : ∀ other, after.reactor.registrations.get other =
      if other = reg then none
      else polled.reactor.registrations.get other)
    (hcleared : after.interest found.fd = .none)
    (hframe : ∀ other, other ≠ found.fd →
      after.interest other = polled.interest other) : after.Clean := by
  intro fd other hholds
  by_cases hfd : fd = found.fd
  · rw [hfd, hcleared] at hholds
    exact absurd hholds (Interest.not_holds_none other)
  · rw [hframe fd hfd] at hholds
    obtain ⟨live, hlive, hlivefd⟩ := h fd other hholds
    refine ⟨live, ?_, hlivefd⟩
    rw [hregs, if_neg, hlive]
    rintro rfl
    rw [hreg, Option.some.injEq] at hlive
    exact hfd (by rw [← hlivefd, hlive])

structure Serves (obliged : Prop) (before after : Polled P Handler)
    (errors : List (Option IoError)) : Prop where
  passes : Passes before after
  clean : obliged → after.orphaned = [] → Bounded after.reactor →
    before.Agrees → before.Clean →
    after.Clean ∧ ∀ error ∈ errors, Unfailing error

theorem Serves.refl (obliged : Prop) (h : Sane polled.reactor) :
    Serves obliged polled polled [] :=
  ⟨.refl h, fun _ _ _ _ hclean => ⟨hclean, fun _ hmem => by cases hmem⟩⟩

theorem Serves.trans {obliged obliged' : Prop}
    {errors errors' : List (Option IoError)}
    (h : Serves obliged polled between errors)
    (h' : Serves obliged' between after errors') :
    Serves (obliged ∧ obliged') polled after (errors ++ errors') := by
  refine ⟨h.passes.trans h'.passes, ?_⟩
  rintro ⟨hobliged, hobliged'⟩ hwhole hbounded hagrees hclean
  have hbetween := h'.passes.keeps.bounded hbounded
  obtain ⟨hfirst, herrors⟩ :=
    h.clean hobliged (h'.passes.whole hwhole) hbetween hagrees hclean
  obtain ⟨hlast, herrors'⟩ := h'.clean hobliged' hwhole hbounded
    (h.passes.agrees hbetween hagrees) hfirst
  refine ⟨hlast, ?_⟩
  intro error hmem
  exact (List.mem_append.mp hmem).elim (herrors error) (herrors' error)

theorem Serves.weaken {obliged obliged' : Prop}
    {errors errors' : List (Option IoError)}
    (h : Serves obliged polled after errors) (himp : obliged' → obliged)
    (hsub : errors' ⊆ errors) : Serves obliged' polled after errors' :=
  ⟨h.passes, fun hobliged hwhole hbounded hagrees hclean =>
    (h.clean (himp hobliged) hwhole hbounded hagrees hclean).imp_right
      fun hall error hmem => hall error (hsub hmem)⟩

theorem Serves.sameRegistrations {reactor : Reactor Handler}
    (obliged : Prop) (h : Passes polled { polled with reactor := reactor })
    (hregs : reactor.registrations = polled.reactor.registrations) :
    Serves obliged polled { polled with reactor := reactor } [] :=
  ⟨h, fun _ _ _ _ hclean => ⟨hclean.sameRegistrations hregs,
    fun _ hmem => by cases hmem⟩⟩

theorem takeHandler_serves (obliged : Prop) (h : Sane polled.reactor)
    (key : Key) : Serves obliged polled (polled.takeHandler key).1 [] :=
  .sameRegistrations obliged (takeHandler_passes h key)
    (takeHandler_keeps polled.reactor key).1

theorem restoreHandler_serves (obliged : Prop) (h : Sane polled.reactor)
    (key : Key) (handler : Handler) :
    Serves obliged polled (polled.restoreHandler key handler) [] :=
  .sameRegistrations obliged (restoreHandler_passes h key handler)
    (restoreHandler_keeps polled.reactor key handler).1

/-! ## Calls -/

theorem register_serves (h : Sane polled.reactor)
    {adoptKey : Key → Handler → Handler} {handler : Handler}
    {reactor : Reactor Handler} {key : Key}
    (hregister : polled.reactor.register adoptKey handler =
      .ok (reactor, key)) :
    Serves True polled { polled with reactor := reactor } [none] := by
  refine ⟨register_passes h hregister, ?_⟩
  intro _ _ _ _ hclean
  simp only [List.forall_mem_singleton]
  refine ⟨?_, unfailing_none⟩
  rcases register_total h adoptKey handler with hpanic |
    ⟨registered, own, hok, _, _, _, hregs, _⟩
  · rw [hpanic] at hregister
    cases hregister
  · rw [hok] at hregister
    cases hregister
    exact hclean.sameRegistrations hregs

theorem watch_serves (h : Sane polled.reactor) {handlerKey : Key} {fd : RawFd}
    {userData : UInt64} {refuses : Refusals} {result : Except IoError Key}
    (hwatch : polled.watch handlerKey fd userData refuses =
      .ok (after, result)) :
    Serves (refuses 0 = none) polled after [errorOf result] := by
  refine ⟨watch_passes h hwatch, ?_⟩
  intro hobliged _ _ _ hclean
  simp only [List.forall_mem_singleton]
  obtain ⟨⟨poll, hreactor⟩, hwatching⟩ := watch_cases h hwatch
  rcases watch_total h handlerKey fd userData poll with hpanic |
    ⟨reactor, result', hok, _, _, hwatched⟩
  · rw [hpanic] at hreactor
    cases hreactor
  rw [hok, Except.ok.injEq, Prod.mk.injEq] at hreactor
  obtain ⟨rfl, rfl⟩ := hreactor
  cases hwatching with
  | failed error hinterest hghosts hserved =>
      cases hwatched with
      | failed _ hunchanged =>
          constructor
          · intro fd reg hholds
            rw [hinterest] at hholds
            rw [hunchanged.registrations]
            exact hclean fd reg hholds
          · intro code hcode
            obtain ⟨hheld, hfd⟩ := hserved hobliged code (Option.some.inj hcode)
            obtain ⟨⟨reg, armed⟩, hread⟩ := Option.ne_none_iff_exists'.mp hheld
            exact hclean.unheld hfd reg (.read armed hread)
  | added reg hfd hhere hframe hghosts =>
      cases hwatched with
      | added _ entry hentry hfresh hhandlers hregistrations =>
          refine ⟨?_, unfailing_none⟩
          intro other key hholds
          rw [hregistrations]
          by_cases hsame : other = fd
          · rw [hsame, hhere] at hholds
            cases hholds with
            | read armed hheld =>
                rw [Option.some.injEq, Prod.mk.injEq] at hheld
                exact ⟨_, if_pos hheld.1.symm, hsame.symm⟩
            | write hheld =>
                exact absurd (.write hheld) (hclean.unheld hfd key)
          · rw [hframe other hsame] at hholds
            obtain ⟨live, hlive, hlivefd⟩ := hclean other key hholds
            refine ⟨live, ?_, hlivefd⟩
            rw [if_neg, hlive]
            rintro rfl
            rw [hfresh] at hlive
            cases hlive

theorem unwatch_serves (h : Sane polled.reactor) (reg : Key)
    (refuses : Refusals) :
    Serves (∀ call, refuses call = none) polled (polled.unwatch reg refuses).1
      [errorOf (polled.unwatch reg refuses).2] := by
  refine ⟨unwatch_passes h reg refuses, ?_⟩
  intro hobliged _ _ hagrees hclean
  simp only [List.forall_mem_singleton]
  cases hreg : polled.reactor.registrations.get reg with
  | none =>
      rw [unwatch_absent refuses hreg]
      exact ⟨hclean, unfailing_none⟩
  | some found =>
      obtain ⟨after, result, answer, hunwatch, hresult, hreactor, hdropping⟩ :=
        unwatch_cases hreg refuses
      have hget := unwatch_get h reg fun _ => answer
      have hanswer := hdropping.served (hobliged 0) (hobliged 1)
      rw [hreactor] at hget
      rw [hunwatch, hresult, hanswer]
      exact ⟨hclean.dropped hreg hget (hdropping.cleared hanswer)
        hdropping.frame, unfailing_none⟩

theorem unwatchAll_clean {refuses : RawFd → Refusals} (regs : List Key)
    (firstErr : Option IoError) (hobliged : ∀ fd call, refuses fd call = none)
    (hagrees : polled.Agrees) (hclean : polled.Clean) :
    (unwatchAll refuses polled regs firstErr).1.Clean := by
  induction regs generalizing polled firstErr with
  | nil => exact hclean
  | cons reg regs ih =>
      cases hreg : polled.reactor.registrations.get reg with
      | none =>
          simp only [unwatchAll, removeRegistration_none hreg]
          exact ih firstErr hagrees hclean
      | some found =>
          simp only [unwatchAll, removeRegistration_some hreg]
          have hdropping := dropping polled
            { polled.reactor with
              registrations := (polled.reactor.registrations.remove reg).1
              retiredRegs := reg :: polled.reactor.retiredRegs }
            found.fd (refuses found.fd)
          have hget := Arena.get_remove hreg
          exact ih _ (Agreement.dropped hagrees hreg hget hdropping.shrinks
            hdropping.frame) (hclean.dropped hreg hget
              (hdropping.cleared (hdropping.served (hobliged _ 0)
                (hobliged _ 1))) hdropping.frame)

theorem unregister_serves (h : Sane polled.reactor) (key : Key)
    (refuses : RawFd → Refusals) :
    Serves (∀ fd call, refuses fd call = none) polled
      (polled.unregister key refuses).1
      [errorOf (polled.unregister key refuses).2] := by
  refine ⟨unregister_passes h key refuses, ?_⟩
  intro hobliged _ _ hagrees hclean
  simp only [List.forall_mem_singleton]
  cases hentry : polled.reactor.handlers.get key with
  | none =>
      rw [unregister_absent refuses hentry]
      exact ⟨hclean, unfailing_none⟩
  | some entry =>
      obtain ⟨after, result, hunregister, rfl, hresult, _⟩ :=
        unregister_cases h hentry refuses
      rw [hunregister, hresult, unwatchAll_served entry.regs none hobliged]
      exact ⟨unwatchAll_clean entry.regs none hobliged hagrees hclean,
        unfailing_none⟩

theorem watchAll_serves (h : Sane polled.reactor) {key : Key}
    {refuses removed : RawFd → Refusals} {fds : List (RawFd × UInt64)}
    {result : Except IoError Key}
    (hwatch : watchAll key refuses removed polled fds = .ok (after, result)) :
    Serves (∀ fd call, refuses fd call = none ∧ removed fd call = none) polled
      after [errorOf result] := by
  induction fds generalizing polled with
  | nil =>
      cases hwatch
      refine ⟨.refl h, fun _ _ _ _ hclean => ⟨hclean, ?_⟩⟩
      intro error hmem
      rw [List.mem_singleton] at hmem
      subst hmem
      exact unfailing_none
  | cons item fds ih =>
      obtain ⟨fd, userData⟩ := item
      obtain ⟨⟨next, made⟩, hnext, hrest⟩ := except_bind_ok hwatch
      have hserves := watch_serves h hnext
      cases made with
      | error error =>
          cases hrest
          exact (hserves.trans (unregister_serves hserves.passes.sane key
            removed)).weaken (fun hobliged => ⟨(hobliged fd 0).1,
              fun fd call => (hobliged fd call).2⟩) (by
                rw [List.singleton_append]
                exact List.cons_subset_cons _ (List.nil_subset _))
      | ok reg =>
          exact (hserves.trans (ih hserves.passes.sane hrest)).weaken
            (fun hobliged => ⟨(hobliged fd 0).1, hobliged⟩)
            (List.subset_append_right _ _)

theorem setInterest_served (hagrees : polled.Agrees)
    (hwhole : polled.orphaned = []) {reg : Key}
    {found : Registration}
    (hreg : polled.reactor.registrations.get reg = some found)
    (read write : Bool) {refuses : Refusals}
    (hobliged : ∀ call, refuses call = none) :
    (Poller.setInterest polled.poll found.fd reg read write refuses).2 =
      none := by
  obtain ⟨armed, hread, _⟩ := hagrees.read reg found hreg (by simp [hwhole])
  refine LawfulPoller.setInterest_served polled.poll found.fd reg read write
    refuses (hobliged 0) (hobliged 1) ?_
  intro hnone
  simp only [interest] at hread
  rw [hnone] at hread
  cases hread

theorem Clean.switched (h : polled.Clean) {reg : Key}
    {found : Registration} (stored : Registration)
    (hreg : polled.reactor.registrations.get reg = some found)
    (hfd : stored.fd = found.fd) {read write : Bool} {refuses : Refusals}
    (hok : (Poller.setInterest polled.poll found.fd reg read write
      refuses).2 = none) (torn : List Key) :
    ({ polled with
       reactor := { polled.reactor with
          registrations := polled.reactor.registrations.set reg stored }
       poll := (Poller.setInterest polled.poll found.fd reg read write
        refuses).1
       torn := torn } : Polled P Handler).Clean := by
  intro fd other hholds
  simp only [interest] at hholds
  simp only [Arena.get_set hreg]
  by_cases hsame : fd = found.fd
  · rw [hsame, (LawfulPoller.setInterest_ok polled.poll found.fd reg read write
      refuses hok).2] at hholds
    have hother : other = reg := by
      cases hholds with
      | read armed hheld =>
          rw [Option.some.injEq, Prod.mk.injEq] at hheld
          exact hheld.1.symm
      | write hheld =>
          split at hheld
          · exact (Option.some.inj hheld).symm
          · cases hheld
    exact ⟨stored, if_pos hother, by rw [hfd, hsame]⟩
  · rw [LawfulPoller.setInterest_frame polled.poll found.fd reg read write
      refuses fd hsame] at hholds
    obtain ⟨live, hlive, hlivefd⟩ := h fd other hholds
    by_cases hother : other = reg
    · rw [hother, hreg, Option.some.injEq] at hlive
      exact absurd (by rw [← hlivefd, hlive]) hsame
    · exact ⟨live, by rw [if_neg hother, hlive], hlivefd⟩

theorem setWriteInterest_serves (h : Sane polled.reactor) (reg : Key)
    (enabled : Bool) (refuses : Refusals) :
    Serves (∀ call, refuses call = none) polled
      (polled.setWriteInterest reg enabled refuses).1
      [errorOf (polled.setWriteInterest reg enabled refuses).2] := by
  have hpasses := setWriteInterest_passes h reg enabled refuses
  refine ⟨hpasses, ?_⟩
  intro hobliged hwhole _ hagrees hclean
  have hwhole := hpasses.whole hwhole
  simp only [List.forall_mem_singleton]
  unfold setWriteInterest
  cases hreg : polled.reactor.registrations.get reg with
  | none => exact ⟨hclean, unfailing_none⟩
  | some found =>
      have hserved := setInterest_served hagrees hwhole hreg
        found.readInterest enabled hobliged
      dsimp only
      split
      · exact ⟨hclean, unfailing_none⟩
      split
      · rename_i poll error hset
        rw [hset] at hserved
        cases hserved
      · rename_i poll hset
        have hafter := hclean.switched { found with writeInterest := enabled }
          hreg rfl hserved (polled.torn.filter (· ≠ reg))
        rw [hset] at hafter
        exact ⟨hafter, unfailing_none⟩

theorem setReadInterest_serves (h : Sane polled.reactor) (reg : Key)
    (enabled : Bool) (refuses : Refusals) :
    Serves (∀ call, refuses call = none) polled
      (polled.setReadInterest reg enabled refuses).1
      [errorOf (polled.setReadInterest reg enabled refuses).2] := by
  have hpasses := setReadInterest_passes h reg enabled refuses
  refine ⟨hpasses, ?_⟩
  intro hobliged hwhole _ hagrees hclean
  have hwhole := hpasses.whole hwhole
  simp only [List.forall_mem_singleton]
  unfold setReadInterest
  cases hreg : polled.reactor.registrations.get reg with
  | none => exact ⟨hclean, unfailing_none⟩
  | some found =>
      have hserved := setInterest_served hagrees hwhole hreg enabled
        found.writeInterest hobliged
      dsimp only
      split
      · rename_i poll error hset
        rw [hset] at hserved
        cases hserved
      · rename_i poll hset
        have hafter := hclean.switched { found with readInterest := enabled }
          hreg rfl hserved (polled.torn.filter (· ≠ reg))
        rw [hset] at hafter
        exact ⟨hafter, unfailing_none⟩

theorem close_serves (h : Sane polled.reactor) (fd : RawFd) :
    Serves True polled (polled.close fd) [none] := by
  refine ⟨close_passes h fd, ?_⟩
  intro _ _ _ _ hclean
  simp only [List.forall_mem_singleton]
  refine ⟨?_, unfailing_none⟩
  intro other reg hholds
  simp only [interest, close] at hholds
  by_cases hsame : other = fd
  · rw [hsame, LawfulPoller.closed_eq polled.poll fd] at hholds
    exact absurd hholds (Interest.not_holds_none reg)
  · rw [LawfulPoller.closed_frame polled.poll fd other hsame] at hholds
    exact hclean other reg hholds

/-! ## Runs -/

def errorsIn (sights : List Sight) : List (Option IoError) :=
  sights.filterMap Sight.answer

@[simp] theorem errorsIn_append (first second : List Sight) :
    errorsIn (first ++ second) = errorsIn first ++ errorsIn second :=
  List.filterMap_append

section Runs

variable (adoptKey : Key → Handler → Handler)
  (nextDeadline : Handler → Option Nat)

theorem perform_serves (h : Sane polled.reactor) {request : Request Handler}
    {error : Option IoError}
    (hperform : polled.perform adoptKey request = .ok (after, error)) :
    Serves request.Obliged polled after [error] := by
  cases request with
  | register handler =>
      obtain ⟨⟨reactor, key⟩, hregister, hok⟩ := except_bind_ok hperform
      cases hok
      exact register_serves h hregister
  | registerWithFds handler fds refuses removed =>
      obtain ⟨⟨next, result⟩, hmade, hok⟩ := except_bind_ok hperform
      cases hok
      obtain ⟨⟨reactor, key⟩, hregister, hwatch⟩ := except_bind_ok hmade
      have hserves := register_serves h hregister
      exact (hserves.trans (watchAll_serves hserves.passes.sane hwatch)).weaken
        (fun hobliged => ⟨trivial, hobliged⟩) (List.subset_append_right _ _)
  | watch handlerKey fd userData refuses =>
      obtain ⟨⟨next, result⟩, hwatch, hok⟩ := except_bind_ok hperform
      cases hok
      exact (watch_serves h hwatch).weaken (fun hobliged => hobliged 0)
        (List.Subset.refl _)
  | unwatch reg refuses =>
      cases hperform
      exact unwatch_serves h reg refuses
  | unregister key refuses =>
      cases hperform
      exact unregister_serves h key refuses
  | setWriteInterest reg enabled refuses =>
      cases hperform
      exact setWriteInterest_serves h reg enabled refuses
  | setReadInterest reg enabled refuses =>
      cases hperform
      exact setReadInterest_serves h reg enabled refuses
  | close fd =>
      cases hperform
      exact close_serves h fd

theorem performAll_serves (h : Sane polled.reactor)
    {requests : List (Request Handler)} {sights : List Sight}
    (hperform : polled.performAll adoptKey requests = .ok (after, sights)) :
    Serves (∀ request ∈ requests, request.Obliged) polled after
        (errorsIn sights) ∧
      ∀ sight ∈ sights, ∃ error, sight = .answered error := by
  induction requests generalizing polled sights with
  | nil =>
      cases hperform
      exact ⟨.refl _ h, fun _ hmem => by cases hmem⟩
  | cons request requests ih =>
      obtain ⟨⟨next, error⟩, hnext, hrest⟩ := except_bind_ok hperform
      obtain ⟨⟨last, rest⟩, hlast, hok⟩ := except_bind_ok hrest
      cases hok
      have hserves := perform_serves adoptKey h hnext
      obtain ⟨hlater, hanswers⟩ := ih hserves.passes.sane hlast
      refine ⟨(hserves.trans hlater).weaken
        (fun hobliged => List.forall_mem_cons.mp hobliged)
        (List.Subset.refl _), ?_⟩
      rw [List.forall_mem_cons]
      exact ⟨⟨error, rfl⟩, hanswers⟩

/-- What a delivery was for, at some moment between the two states: a live
registration that one of the events names. -/
def Hits (polled after : Polled P Handler) (events : List PollEvent) :
    Sight → Prop
  | .answered _ => True
  | .delivered regKey handlerKey event writable =>
      ∃ reported ∈ events, reported.key = regKey ∧
        (writable = true → reported.readiness.writable = true) ∧
        (writable = false → reported.readiness.readable = true) ∧
        ∃ (between : Polled P Handler) (found : Registration),
          Passes polled between ∧ Keeps between.reactor after.reactor ∧
          between.reactor.registrations.get regKey = some found ∧
          found.handlerKey = handlerKey ∧ found.fd = event.fd ∧
          found.userData = event.userData

theorem deliver_serves (h : Sane polled.reactor) {regKey handlerKey : Key}
    {event : ReadyEvent} {writable fires : Bool} {reaction : Reaction Handler}
    {handler left : Handler} {sights : List Sight}
    (hdeliver : polled.deliver adoptKey regKey handlerKey event writable fires
      reaction handler = .ok (after, left, sights)) :
    Serves reaction.Obliged polled after (errorsIn sights) ∧
      ∀ sight ∈ sights, (∃ error, sight = .answered error) ∨
        fires = true ∧
          sight = .delivered regKey handlerKey event writable := by
  cases fires with
  | false =>
      cases hdeliver
      exact ⟨.refl _ h, fun _ hmem => by cases hmem⟩
  | true =>
      simp only [deliver, if_true] at hdeliver
      obtain ⟨⟨next, seen⟩, hperform, hok⟩ := except_bind_ok hdeliver
      cases hok
      obtain ⟨hserves, hanswers⟩ := performAll_serves adoptKey h hperform
      refine ⟨hserves, ?_⟩
      rw [List.forall_mem_cons]
      exact ⟨.inr ⟨rfl, rfl⟩, fun sight hmem => .inl (hanswers sight hmem)⟩

theorem dispatch_serves (h : Sane polled.reactor) {event : PollEvent}
    {onReadable onWritable : Reaction Handler} {sights : List Sight}
    (hdispatch : polled.dispatch adoptKey event.key event.readiness onReadable
      onWritable = .ok (after, sights)) :
    Serves (onReadable.Obliged ∧ onWritable.Obliged) polled after
        (errorsIn sights) ∧
      ∀ sight ∈ sights, Hits polled after [event] sight := by
  unfold dispatch at hdispatch
  cases hreg : polled.reactor.registrations.get event.key with
  | none =>
      simp only [hreg] at hdispatch
      cases hdispatch
      exact ⟨.refl _ h, fun _ hmem => by cases hmem⟩
  | some found =>
      have htaken := takeHandler_serves True h found.handlerKey
      simp only [hreg] at hdispatch
      generalize polled.takeHandler found.handlerKey = taken at *
      obtain ⟨taken, handler⟩ := taken
      cases handler with
      | none =>
          cases hdispatch
          exact ⟨htaken.weaken (fun _ => trivial) (List.Subset.refl _),
            fun _ hmem => by cases hmem⟩
      | some handler =>
          obtain ⟨⟨read, handler', readSights⟩, hread, hdispatch⟩ :=
            except_bind_ok hdispatch
          obtain ⟨⟨written, last, writeSights⟩, hwrite, hok⟩ :=
            except_bind_ok hdispatch
          cases hok
          obtain ⟨hreadServes, hreadSights⟩ :=
            deliver_serves adoptKey htaken.passes.sane hread
          obtain ⟨hwriteServes, hwriteSights⟩ :=
            deliver_serves adoptKey hreadServes.passes.sane hwrite
          have hrestored := restoreHandler_serves True hwriteServes.passes.sane
            found.handlerKey last
          have hall := ((htaken.trans hreadServes).trans hwriteServes).trans
            hrestored
          refine ⟨hall.weaken
            (fun hobliged => ⟨⟨⟨trivial, hobliged.1⟩, hobliged.2⟩, trivial⟩)
            (by simp), ?_⟩
          intro sight hmem
          rcases List.mem_append.mp hmem with hmem | hmem
          · rcases hreadSights sight hmem with ⟨error, rfl⟩ | ⟨hfires, rfl⟩
            · trivial
            · refine ⟨event, List.mem_singleton_self _, rfl,
                fun hwritable => absurd hwritable Bool.false_ne_true,
                fun _ => hfires, polled, found, .refl h, hall.passes.keeps,
                hreg, rfl, rfl, rfl⟩
          · rcases hwriteSights sight hmem with ⟨error, rfl⟩ | ⟨hfires, rfl⟩
            · trivial
            · rw [Bool.and_eq_true] at hfires
              refine ⟨event, List.mem_singleton_self _, rfl,
                fun _ => hfires.1,
                fun hreadable => absurd hreadable.symm Bool.false_ne_true,
                polled, found, .refl h, hall.passes.keeps, hreg, rfl, rfl, rfl⟩

theorem Hits.later {events : List PollEvent} {event : PollEvent}
    {sight : Sight} (hpasses : Passes polled between)
    (h : Hits between after events sight) :
    Hits polled after (event :: events) sight := by
  cases sight with
  | answered error => trivial
  | delivered regKey handlerKey ready writable =>
      obtain ⟨reported, hmem, hkey, hwritable, hreadable, here, found,
        hbetween, hrest⟩ := h
      exact ⟨reported, List.mem_cons_of_mem _ hmem, hkey, hwritable, hreadable,
        here, found, hpasses.trans hbetween, hrest⟩

theorem Hits.earlier {events : List PollEvent} {event : PollEvent}
    {sight : Sight} (hkeeps : Keeps between.reactor after.reactor)
    (h : Hits polled between [event] sight) :
    Hits polled after (event :: events) sight := by
  cases sight with
  | answered error => trivial
  | delivered regKey handlerKey ready writable =>
      obtain ⟨reported, hmem, hkey, hwritable, hreadable, here, found, hpasses,
        hlater, hrest⟩ := h
      rw [List.mem_singleton] at hmem
      exact ⟨reported, by rw [hmem]; exact List.mem_cons_self .., hkey,
        hwritable, hreadable, here, found, hpasses, hlater.trans hkeeps, hrest⟩

theorem dispatchAll_serves (h : Sane polled.reactor)
    {reactions : Nat → Reaction Handler × Reaction Handler}
    {events : List PollEvent} {sights : List Sight}
    (hdispatch : dispatchAll adoptKey reactions polled events =
      .ok (after, sights)) :
    Serves (∀ index, (reactions index).1.Obliged ∧
        (reactions index).2.Obliged) polled after (errorsIn sights) ∧
      ∀ sight ∈ sights, Hits polled after events sight := by
  induction events generalizing polled reactions sights with
  | nil =>
      cases hdispatch
      exact ⟨.refl _ h, fun _ hmem => by cases hmem⟩
  | cons event events ih =>
      obtain ⟨⟨next, seen⟩, hnext, hrest⟩ := except_bind_ok hdispatch
      obtain ⟨⟨last, rest⟩, hlast, hok⟩ := except_bind_ok hrest
      cases hok
      obtain ⟨hserves, hseen⟩ := dispatch_serves adoptKey h hnext
      obtain ⟨hlater, hhits⟩ := ih hserves.passes.sane hlast
      refine ⟨(hserves.trans hlater).weaken
        (fun hobliged => ⟨hobliged 0, fun index => hobliged (index + 1)⟩)
        (by simp), ?_⟩
      intro sight hmem
      rcases List.mem_append.mp hmem with hmem | hmem
      · exact (hseen sight hmem).earlier hlater.passes.keeps
      · exact (hhits sight hmem).later hserves.passes

theorem sweep_serves (h : Sane polled.reactor)
    {reaction : Key → Reaction Handler} {keys : List Key}
    {sights : List Sight}
    (hsweep : sweep adoptKey reaction polled keys = .ok (after, sights)) :
    Serves (∀ key, (reaction key).Obliged) polled after
      (errorsIn sights) := by
  induction keys generalizing polled sights with
  | nil =>
      cases hsweep
      exact .refl _ h
  | cons key keys ih =>
      have htaken := takeHandler_serves True h key
      unfold sweep at hsweep
      generalize polled.takeHandler key = taken at *
      obtain ⟨taken, handler⟩ := taken
      cases handler with
      | none =>
          exact (htaken.trans (ih htaken.passes.sane hsweep)).weaken
            (fun hobliged => ⟨trivial, hobliged⟩) (List.Subset.refl _)
      | some handler =>
          obtain ⟨⟨next, seen⟩, hnext, hrest⟩ := except_bind_ok hsweep
          obtain ⟨⟨last, rest⟩, hlast, hok⟩ := except_bind_ok hrest
          cases hok
          obtain ⟨hserves, _⟩ :=
            performAll_serves adoptKey htaken.passes.sane hnext
          have hrestored := restoreHandler_serves True hserves.passes.sane key
            ((reaction key).becomes handler)
          exact (((htaken.trans hserves).trans hrestored).trans
            (ih hrestored.passes.sane hlast)).weaken
            (fun hobliged => ⟨⟨⟨trivial, hobliged key⟩, trivial⟩, hobliged⟩)
            (by simp)

def Turn.Obliged : Turn Handler → Prop
  | .request asked => asked.Obliged
  | .wait _ reactions =>
      ∀ index, (reactions index).1.Obliged ∧ (reactions index).2.Obliged
  | .deadlines _ onDeadline => ∀ key, (onDeadline key).Obliged
  | .control onControl => ∀ key, (onControl key).Obliged

theorem turn_serves (h : Sane polled.reactor) {turn : Turn Handler}
    {sights : List Sight}
    (hturn : polled.turn adoptKey nextDeadline turn = .ok (after, sights)) :
    Serves turn.Obliged polled after (errorsIn sights) := by
  cases turn with
  | request request =>
      obtain ⟨hserves, _⟩ := performAll_serves adoptKey h hturn
      exact hserves.weaken (fun hobliged request' hmem => by
        rw [List.mem_singleton] at hmem
        rw [hmem]
        exact hobliged) (List.Subset.refl _)
  | wait conditions reactions => exact (dispatchAll_serves adoptKey h hturn).1
  | deadlines now onDeadline => exact sweep_serves adoptKey h hturn
  | control onControl => exact sweep_serves adoptKey h hturn

theorem run_serves (h : Sane polled.reactor) {turns : List (Turn Handler)}
    {sights : List Sight}
    (hrun : polled.run adoptKey nextDeadline turns = .ok (after, sights)) :
    Serves (∀ turn ∈ turns, turn.Obliged) polled after (errorsIn sights) := by
  induction turns generalizing polled sights with
  | nil =>
      cases hrun
      exact .refl _ h
  | cons turn turns ih =>
      obtain ⟨⟨next, seen⟩, hnext, hrest⟩ := except_bind_ok hrun
      obtain ⟨⟨last, rest⟩, hlast, hok⟩ := except_bind_ok hrest
      cases hok
      have hserves := turn_serves adoptKey nextDeadline h hnext
      exact (hserves.trans (ih hserves.passes.sane hlast)).weaken
        (fun hobliged => List.forall_mem_cons.mp hobliged) (by simp)

end Runs

/-! ## What is reported, and to whom it is delivered -/

/-- What is ready as it was armed is reported, under the key of its
registration, and nothing else is but what is stale. -/
structure Attentive (polled : Polled P Handler) : Prop where
  input : ∀ reg found condition,
    polled.reactor.registrations.get reg = some found →
    found.readInterest = true → condition.input = true →
    reg ∉ polled.orphaned → ¬ (LawfulPoller.Tears P ∧ reg ∈ polled.torn) →
    ∃ event ∈ Poller.report polled.poll found.fd condition,
      event.key = reg ∧ event.readiness.readable = true
  output : ∀ reg found condition,
    polled.reactor.registrations.get reg = some found →
    found.writeInterest = true → condition.output = true →
    reg ∉ polled.orphaned →
    ∃ event ∈ Poller.report polled.poll found.fd condition,
      event.key = reg ∧ event.readiness.writable = true
  reported : ∀ fd condition event,
    event ∈ Poller.report polled.poll fd condition →
    (event.key ∈ polled.reactor.retiredRegs ∧
      polled.reactor.registrations.get event.key = none) ∨
    ∃ found, polled.reactor.registrations.get event.key = some found ∧
      found.fd = fd ∧ event.key ∉ polled.orphaned ∧
      (event.readiness.writable = true → found.writeInterest = true) ∧
      (event.readiness.readable = true → found.readInterest = true ∨
        condition.error = true ∨ condition.hangup = true ∨
        LawfulPoller.Tears P ∧ event.key ∈ polled.torn)

theorem report_holds {fd : RawFd} {condition : Condition} {event : PollEvent}
    (h : event ∈ Poller.report polled.poll fd condition) :
    (polled.interest fd).Holds event.key := by
  rcases LawfulPoller.report_ready polled.poll fd condition event h with
    hreadable | hwritable
  · obtain ⟨armed, hread, _⟩ :=
      LawfulPoller.report_read polled.poll fd condition event h hreadable
    exact .read armed hread
  · exact .write
      (LawfulPoller.report_write polled.poll fd condition event h hwritable)

theorem Agrees.armed (hagrees : polled.Agrees) {reg : Key}
    {found : Registration}
    (hreg : polled.reactor.registrations.get reg = some found)
    {condition : Condition} {event : PollEvent}
    (h : event ∈ Poller.report polled.poll found.fd condition)
    (hkey : event.key = reg) : reg ∉ polled.orphaned ∧
    (event.readiness.writable = true → found.writeInterest = true) ∧
      (event.readiness.readable = true → found.readInterest = true ∨
        condition.error = true ∨ condition.hangup = true ∨
        LawfulPoller.Tears P ∧ reg ∈ polled.torn) := by
  have hwhole : reg ∉ polled.orphaned := by
    intro hmem
    have hholds := report_holds h
    rw [hagrees.orphan reg found hreg hmem] at hholds
    exact Interest.not_holds_none _ hholds
  refine ⟨hwhole, ?_, ?_⟩
  · intro hwritable
    have hwrite := LawfulPoller.report_write polled.poll found.fd condition
      event h hwritable
    rw [hkey] at hwrite
    exact (hagrees.write reg found hreg hwhole).mp hwrite
  · intro hreadable
    obtain ⟨armed, hread, hready⟩ := LawfulPoller.report_read polled.poll
      found.fd condition event h hreadable
    obtain ⟨armed', hread', hsame⟩ := hagrees.read reg found hreg hwhole
    have hboth := hread.symm.trans hread'
    rw [Option.some.injEq, Prod.mk.injEq] at hboth
    rcases hready with harmed | herror | hhangup
    · rcases hsame with hsame | htorn
      · exact .inl (by rw [← hsame, ← hboth.2, harmed])
      · exact .inr (.inr (.inr htorn))
    · exact .inr (.inl herror)
    · exact .inr (.inr (.inl hhangup))

theorem Agrees.attentive (hagrees : polled.Agrees) (h : Sane polled.reactor)
    (hbounded : Bounded polled.reactor) : polled.Attentive := by
  constructor
  · intro reg found condition hreg hinterest hinput hwhole htorn
    obtain ⟨armed, hread, hsame⟩ := hagrees.read reg found hreg hwhole
    refine LawfulPoller.input_reported polled.poll found.fd condition reg ?_
      hinput
    have harmed : armed = true := by
      rw [hsame.resolve_right htorn, hinterest]
    rw [← harmed]
    exact hread
  · intro reg found condition hreg hinterest houtput hwhole
    exact LawfulPoller.output_reported polled.poll found.fd condition reg
      ((hagrees.write reg found hreg hwhole).mpr hinterest) houtput
  · intro fd condition event hmem
    rcases hagrees.known fd event.key (report_holds hmem) with
      ⟨found, hfound, rfl⟩ | hretired
    · exact .inr ⟨found, hfound, rfl, hagrees.armed hfound hmem rfl⟩
    · exact .inl ⟨hretired, h.registrations.stale hretired
        (hbounded event.key.index).2⟩

/-- A delivery is for a registration that was live when the kernel looked, on
the same descriptor and for the same handler, and for what it was armed for. -/
def Vouched (waited : Polled P Handler)
    (conditions : List (RawFd × Condition)) : Sight → Prop
  | .answered _ => True
  | .delivered regKey handlerKey event writable =>
      ∃ found condition,
        waited.reactor.registrations.get regKey = some found ∧
        found.handlerKey = handlerKey ∧ found.fd = event.fd ∧
        found.userData = event.userData ∧
        (event.fd, condition) ∈ conditions ∧ regKey ∉ waited.orphaned ∧
        (writable = true → found.writeInterest = true) ∧
        (writable = false → found.readInterest = true ∨
          condition.error = true ∨ condition.hangup = true ∨
          LawfulPoller.Tears P ∧ regKey ∈ waited.torn)

omit [LawfulPoller P] in
theorem mem_waited {conditions : List (RawFd × Condition)} {event : PollEvent}
    (h : event ∈ polled.waited conditions) :
    ∃ fd condition, (fd, condition) ∈ conditions ∧
      event ∈ Poller.report polled.poll fd condition := by
  obtain ⟨⟨fd, condition⟩, hitem, hreport⟩ :=
    List.mem_flatMap.mp (List.mem_of_mem_take h)
  exact ⟨fd, condition, hitem, hreport⟩

theorem Hits.vouched (hagrees : polled.Agrees)
    (hbounded : Bounded after.reactor)
    {conditions : List (RawFd × Condition)} {sight : Sight}
    (h : Hits polled after (polled.waited conditions) sight) :
    polled.Vouched conditions sight := by
  cases sight with
  | answered error => trivial
  | delivered regKey handlerKey event writable =>
      obtain ⟨reported, hmem, rfl, hwritable, hreadable, here, live, hpasses,
        hlater, hlive, hhandler, hfd, hdata⟩ := h
      obtain ⟨fd, condition, hcondition, hreport⟩ := mem_waited hmem
      have hstale : reported.key ∉ here.reactor.retiredRegs := by
        intro hretired
        rw [hpasses.sane.registrations.stale hretired
          (hlater.bounded hbounded reported.key.index).2] at hlive
        cases hlive
      rcases hagrees.known fd reported.key (report_holds hreport) with
        ⟨found, hfound, rfl⟩ | hretired
      · rcases hpasses.keeps.registration reported.key found hfound with
          hretired | ⟨live', hlive', hfd', hhandler', hdata'⟩
        · exact absurd hretired hstale
        rw [hlive, Option.some.injEq] at hlive'
        subst hlive'
        obtain ⟨hwhole, hwrite, hread⟩ := hagrees.armed hfound hreport rfl
        exact ⟨found, condition, hfound, hhandler'.symm.trans hhandler,
          hfd'.symm.trans hfd, hdata'.symm.trans hdata,
          by rw [← hfd, hfd']; exact hcondition, hwhole,
          fun h => hwrite (hwritable h), fun h => hread (hreadable h)⟩
      · exact absurd (hpasses.keeps.retired.mem hretired) hstale

theorem agrees_new : (new : Polled P Handler).Agrees := by
  refine ⟨?_, ?_, ?_, ?_, ?_, ?_⟩
  · intro reg reg' found found' hfound
    cases hfound
  · intro reg found hfound
    cases hfound
  · intro reg found hfound
    cases hfound
  · intro reg found hfound
    cases hfound
  · intro reg hmem
    cases hmem
  · intro fd reg hholds
    simp only [interest, new] at hholds
    rw [LawfulPoller.interest_new] at hholds
    exact absurd hholds (Interest.not_holds_none reg)

theorem clean_new : (new : Polled P Handler).Clean := by
  intro fd reg hholds
  simp only [interest, new] at hholds
  rw [LawfulPoller.interest_new] at hholds
  exact absurd hholds (Interest.not_holds_none reg)

def armedTurns : List (Turn Unit) :=
  [.request (.registerWithFds () [(3, 7)] (fun _ _ => none) fun _ _ => none),
    .request (.setWriteInterest ⟨0, 0⟩ true fun _ => none)]

/-- The descriptor is watched anew when it is read; `refuses` of its removal is
turned down. -/
def rewatching (refuses : Refusals) : Nat → Reaction Unit × Reaction Unit :=
  fun _ => (⟨[.unwatch ⟨0, 0⟩ refuses, .watch ⟨0, 0⟩ 3 9 fun _ => none], id⟩,
    ⟨[], id⟩)

def bothReady : List (RawFd × Condition) := [(3, ⟨true, true, false, false⟩)]

def refused : Refusals := fun _ => some ⟨9, by decide⟩

theorem bounded_of_few {Handler : Type} {reactor : Reactor Handler}
    (hhandlers : reactor.retiredHandlers = [])
    (hregs : reactor.retiredRegs.length ≤ 1) : Bounded reactor := by
  intro index
  rw [hhandlers]
  have hreuses : Arena.reuses reactor.retiredRegs index ≤ 1 :=
    Nat.le_trans List.countP_le_length hregs
  exact ⟨Nat.two_pow_pos 32, Nat.lt_of_le_of_lt hreuses (by decide)⟩

/-- In every state that a run leaves the kernel in, it reports what is ready as
the reactor has it armed, and nothing else but what is stale. -/
theorem interests_agree (adoptKey : Key → Handler → Handler)
    (nextDeadline : Handler → Option Nat) {turns : List (Turn Handler)}
    {sights : List Sight}
    (hrun : new.run adoptKey nextDeadline turns = .ok (polled, sights))
    (hbounded : Bounded polled.reactor) : polled.Attentive := by
  have hserves := run_serves adoptKey nextDeadline sane_new hrun
  exact (hserves.passes.agrees hbounded agrees_new).attentive
    hserves.passes.sane hbounded

theorem interests_agree_left :
    ∃ (polled : Polled Kqueue Unit) (sights : List Sight),
      new.run (fun _ handler => handler) (fun _ => none)
        (armedTurns ++ [.wait bothReady (rewatching refused)]) =
          .ok (polled, sights) ∧
      polled.poll.filters 3 = ⟨some ⟨1, true⟩, some ⟨0, true⟩⟩ ∧
      polled.Attentive := by
  have hrun : ((new : Polled Kqueue Unit).run (fun _ handler => handler)
      (fun _ => none) (armedTurns ++ [.wait bothReady (rewatching refused)])).map
      (fun result => (result.1.reactor.retiredHandlers,
        result.1.reactor.retiredRegs, result.1.poll.filters 3)) =
      .ok ([], [⟨0, 0⟩], ⟨some ⟨1, true⟩, some ⟨0, true⟩⟩) := by
    decide +kernel
  obtain ⟨⟨polled, sights⟩, hok, hseen⟩ := except_map_ok hrun
  simp only [Prod.mk.injEq] at hseen
  obtain ⟨hhandlers, hregs, hfilters⟩ := hseen
  refine ⟨polled, sights, hok, hfilters, interests_agree _ _ hok
    (bounded_of_few hhandlers ?_)⟩
  rw [hregs]
  decide

/-- Whatever the handlers of one batch do to the registrations, an event is
delivered only as what the kernel reported it for. -/
theorem deliveries_vouched (adoptKey : Key → Handler → Handler)
    (nextDeadline : Handler → Option Nat) {turns : List (Turn Handler)}
    {sights : List Sight}
    (hrun : new.run adoptKey nextDeadline turns = .ok (polled, sights))
    {conditions : List (RawFd × Condition)}
    {reactions : Nat → Reaction Handler × Reaction Handler}
    {seen : List Sight}
    (hpoll : polled.pollOnce adoptKey conditions reactions = .ok (after, seen))
    (hbounded : Bounded after.reactor) :
    ∀ sight ∈ seen, polled.Vouched conditions sight := by
  have hserves := run_serves adoptKey nextDeadline sane_new hrun
  obtain ⟨hlater, hhits⟩ :=
    dispatchAll_serves adoptKey hserves.passes.sane hpoll
  have hagrees := hserves.passes.agrees
    (hlater.passes.keeps.bounded hbounded) agrees_new
  exact fun sight hmem => (hhits sight hmem).vouched hagrees hbounded

theorem deliveries_vouched_rewatched :
    ∃ (polled after : Polled Kqueue Unit) (sights seen : List Sight),
      new.run (fun _ handler => handler) (fun _ => none) armedTurns =
        .ok (polled, sights) ∧
      polled.pollOnce (fun _ handler => handler) bothReady
        (rewatching fun _ => none) = .ok (after, seen) ∧
      seen.length = 3 ∧ ∀ sight ∈ seen, polled.Vouched bothReady sight := by
  have hrun : ((new : Polled Kqueue Unit).run (fun _ handler => handler)
      (fun _ => none) armedTurns).bind (fun result =>
        (result.1.pollOnce (fun _ handler => handler) bothReady
          (rewatching fun _ => none)).map fun last =>
            (last.1.reactor.retiredHandlers, last.1.reactor.retiredRegs,
              last.2.length)) = .ok ([], [⟨0, 0⟩], 3) := by
    decide +kernel
  obtain ⟨⟨polled, sights⟩, hok, hrest⟩ := except_bind_ok hrun
  obtain ⟨⟨after, seen⟩, hpoll, hseen⟩ := except_map_ok hrest
  simp only [Prod.mk.injEq] at hseen
  obtain ⟨hhandlers, hregs, hlength⟩ := hseen
  refine ⟨polled, after, sights, seen, hok, hpoll, hlength,
    deliveries_vouched _ _ hok hpoll (bounded_of_few hhandlers ?_)⟩
  rw [hregs]
  decide

/-- A kernel that turns nothing down fails nothing, and holds nothing but what
is registered, where no descriptor is closed under a registration. -/
theorem kernel_obliges (adoptKey : Key → Handler → Handler)
    (nextDeadline : Handler → Option Nat) {turns : List (Turn Handler)}
    {sights : List Sight}
    (hrun : new.run adoptKey nextDeadline turns = .ok (polled, sights))
    (hbounded : Bounded polled.reactor) (hwhole : polled.orphaned = [])
    (hobliged : ∀ turn ∈ turns, turn.Obliged) :
    polled.Clean ∧ ∀ error ∈ errorsIn sights, Unfailing error :=
  (run_serves adoptKey nextDeadline sane_new hrun).clean hobliged hwhole
    hbounded agrees_new clean_new

theorem kernel_obliges_rewatched :
    ∃ (polled : Polled Epoll Unit) (sights : List Sight),
      new.run (fun _ handler => handler) (fun _ => none)
        (armedTurns ++ [.wait bothReady (rewatching fun _ => none)]) =
          .ok (polled, sights) ∧
      polled.poll.entries 3 = some ⟨⟨true, false⟩, 1⟩ ∧ polled.Clean ∧
      ∀ error ∈ errorsIn sights, Unfailing error := by
  have hrun : ((new : Polled Epoll Unit).run (fun _ handler => handler)
      (fun _ => none)
      (armedTurns ++ [.wait bothReady (rewatching fun _ => none)])).map
      (fun result => (result.1.reactor.retiredHandlers,
        result.1.reactor.retiredRegs, result.1.orphaned,
        result.1.poll.entries 3)) =
      .ok ([], [⟨0, 0⟩], [], some ⟨⟨true, false⟩, 1⟩) := by
    decide +kernel
  obtain ⟨⟨polled, sights⟩, hok, hseen⟩ := except_map_ok hrun
  simp only [Prod.mk.injEq] at hseen
  obtain ⟨hhandlers, hregs, hwhole, hentry⟩ := hseen
  have hobliged : ∀ turn ∈ armedTurns ++
      [.wait bothReady (rewatching fun _ => none)], turn.Obliged := by
    simp [armedTurns, rewatching, Turn.Obliged, Request.Obliged,
      Reaction.Obliged]
  refine ⟨polled, sights, hok, hentry, kernel_obliges _ _ hok
    (bounded_of_few hhandlers ?_) hwhole hobliged⟩
  rw [hregs]
  decide

end Polled

end Netflector.Reactor
