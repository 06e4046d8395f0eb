import Netflector.Reactor.Integrity

/-!
# Runs of the reactor

Every call to a handler is for a registration it owns at that moment, and what
is put back after a call is the handler that was taken out for it.
-/

set_option linter.dupNamespace false

namespace Netflector.Reactor

open Netflector.Foundation

def Call.Adds {Handler : Type} : Call Handler → Prop
  | .registerWithFds .. => True
  | .watch .. => True
  | _ => False

def Sound {Handler : Type} : Moment Handler → Prop
  | .called before call after failed =>
      Integral after.handlers.get after.registrations.get ∧
        (call.Adds → failed = true → Unchanged before after)
  | .delivered reactor handlerKey event writable =>
      Integral reactor.handlers.get reactor.registrations.get ∧
        (∃ entry, reactor.handlers.get handlerKey = some entry ∧
          entry.handler = none) ∧
        ∃ reg found, reactor.registrations.get reg = some found ∧
          found.handlerKey = handlerKey ∧ found.fd = event.fd ∧
          found.userData = event.userData ∧
          (writable = true → found.writeInterest = true)
  | .restored before handlerKey after =>
      Integral after.handlers.get after.registrations.get ∧
        (handlerKey ∈ before.retiredHandlers → after = before) ∧
        (handlerKey ∉ before.retiredHandlers →
          ∃ entry, before.handlers.get handlerKey = some entry ∧
            entry.handler = none) ∧
        after.registrations = before.registrations ∧
        ∀ other, other ≠ handlerKey →
          after.handlers.get other = before.handlers.get other

def Bounded {Handler : Type} (reactor : Reactor Handler) : Prop :=
  ∀ index, Arena.reuses reactor.retiredHandlers index < 0x100000000 ∧
    Arena.reuses reactor.retiredRegs index < 0x100000000

structure Grows {Handler : Type} (before after : Reactor Handler) : Prop where
  handlers : before.retiredHandlers <:+ after.retiredHandlers
  regs : before.retiredRegs <:+ after.retiredRegs

section Runs

variable {Handler : Type} {reactor : Reactor Handler}
  {key reg : Key} (adoptKey : Key → Handler → Handler)

theorem Grows.refl (reactor : Reactor Handler) : Grows reactor reactor :=
  ⟨List.suffix_refl _, List.suffix_refl _⟩

theorem Grows.trans {first second third : Reactor Handler}
    (h : Grows first second) (h' : Grows second third) : Grows first third :=
  ⟨h.handlers.trans h'.handlers, h.regs.trans h'.regs⟩

theorem Advances.grows {before after : Reactor Handler}
    (h : Advances before after) : Grows before after :=
  ⟨h.handlers_suffix, h.regs_suffix⟩

theorem Grows.bounded {before after : Reactor Handler}
    (h : Grows before after) (hbounded : Bounded after) : Bounded before := by
  intro index
  obtain ⟨hhandlers, hregs⟩ := hbounded index
  exact ⟨Nat.lt_of_le_of_lt h.handlers.sublist.countP_le hhandlers,
    Nat.lt_of_le_of_lt h.regs.sublist.countP_le hregs⟩

/-! ## Calls -/

theorem perform_total (h : Sane reactor) (call : Call Handler) :
    reactor.perform adoptKey call = .error exhausted ∨
    ∃ after failed, reactor.perform adoptKey call = .ok (after, failed) ∧
      Sane after ∧ Advances reactor after ∧
      (call.Adds → failed = true → Unchanged reactor after) := by
  cases call with
  | register handler =>
      rcases register_total h adoptKey handler with hpanic |
        ⟨after, key, hregister, hsane, hadvances, _⟩
      · left
        simp only [Reactor.perform, hpanic, bind, Except.bind]
      · right
        refine ⟨after, false, ?_, hsane, hadvances, fun hadds => hadds.elim⟩
        simp only [Reactor.perform, hregister, bind, Except.bind]
  | registerWithFds handler fds poll removed =>
      rcases registerWithFds_total h adoptKey handler fds poll removed with
        hpanic | ⟨after, result, hregister, hsane, hadvances, hfailed⟩
      · left
        simp only [Reactor.perform, hpanic, bind, Except.bind]
      · right
        refine ⟨after, Reactor.failed result, ?_, hsane, hadvances, ?_⟩
        · simp only [Reactor.perform, hregister, bind, Except.bind]
        · intro _ hfail
          cases result with
          | error error => exact hfailed error rfl
          | ok key => cases hfail
  | watch handlerKey fd userData poll =>
      rcases watch_total h handlerKey fd userData poll with hpanic |
        ⟨after, result, hwatch, hsane, hadvances, hwatched⟩
      · left
        simp only [Reactor.perform, hpanic, bind, Except.bind]
      · right
        refine ⟨after, Reactor.failed result, ?_, hsane, hadvances, ?_⟩
        · simp only [Reactor.perform, hwatch, bind, Except.bind]
        · intro _ hfail
          cases hwatched with
          | failed error hunchanged => exact hunchanged
          | added => cases hfail
  | unwatch regKey poll =>
      obtain ⟨after, result, hunwatch, hsane, hadvances⟩ :=
        unwatch_total h regKey poll
      refine .inr ⟨after, Reactor.failed result, ?_, hsane, hadvances,
        fun hadds => hadds.elim⟩
      simp only [Reactor.perform, hunwatch]
  | unregister handlerKey poll =>
      obtain ⟨after, result, hunregister, hsane, hadvances⟩ :=
        unregister_total h handlerKey poll
      refine .inr ⟨after, Reactor.failed result, ?_, hsane, hadvances,
        fun hadds => hadds.elim⟩
      simp only [Reactor.perform, hunregister]
  | setWriteInterest regKey enabled poll =>
      obtain ⟨after, result, hset, hsane, hadvances⟩ :=
        setWriteInterest_total h regKey enabled poll
      refine .inr ⟨after, Reactor.failed result, ?_, hsane, hadvances,
        fun hadds => hadds.elim⟩
      simp only [Reactor.perform, hset]
  | setReadInterest regKey enabled poll =>
      obtain ⟨after, result, hset, hsane, hadvances⟩ :=
        setReadInterest_total h regKey enabled poll
      refine .inr ⟨after, Reactor.failed result, ?_, hsane, hadvances,
        fun hadds => hadds.elim⟩
      simp only [Reactor.perform, hset]

theorem performAll_total (h : Sane reactor) (calls : List (Call Handler)) :
    reactor.performAll adoptKey calls = .error exhausted ∨
    ∃ after moments, reactor.performAll adoptKey calls =
        .ok (after, moments) ∧
      Sane after ∧ Advances reactor after ∧
      ∀ moment ∈ moments, Sound moment := by
  induction calls generalizing reactor with
  | nil =>
      refine .inr ⟨reactor, [], rfl, h, .refl reactor, ?_⟩
      intro moment hmem
      cases hmem
  | cons call calls ih =>
      rcases perform_total adoptKey h call with hpanic |
        ⟨next, failed, hperform, hnext, hadvances, hadds⟩
      · left
        simp only [Reactor.performAll, hpanic, bind, Except.bind]
      rcases ih hnext with hpanic |
        ⟨after, moments, hall, hafter, hadvances', hsound⟩
      · left
        simp only [Reactor.performAll, hperform, hpanic, bind, Except.bind]
      · refine .inr ⟨after, .called reactor call next failed :: moments, ?_,
          hafter, hadvances.trans hadvances', ?_⟩
        · simp only [Reactor.performAll, hperform, hall, bind, Except.bind]
        · rw [List.forall_mem_cons]
          exact ⟨⟨hnext.integral, hadds⟩, hsound⟩

/-! ## Handlers out for a call -/

def Out (reactor : Reactor Handler) (key : Key) : Prop :=
  key ∈ reactor.retiredHandlers ∨
    ∃ entry, reactor.handlers.get key = some entry ∧ entry.handler = none

theorem Out.advances {before after : Reactor Handler} (h : Out before key)
    (hadvances : Advances before after) : Out after key := by
  rcases h with hretired | ⟨entry, hentry, hnone⟩
  · exact .inl (hadvances.handlers_suffix.mem hretired)
  · rcases hadvances.handler key entry hentry with hretired |
      ⟨entry', hentry', hsame⟩
    · exact .inl hretired
    · exact .inr ⟨entry', hentry', hsame.trans hnone⟩

def Kept (reactor : Reactor Handler) (reg : Key) (found : Registration) :
    Prop :=
  reg ∈ reactor.retiredRegs ∨
    ∃ found', reactor.registrations.get reg = some found' ∧
      found'.fd = found.fd ∧ found'.handlerKey = found.handlerKey ∧
      found'.userData = found.userData

theorem set_handler (h : Sane reactor) {entry : HandlerEntry Handler}
    (hentry : reactor.handlers.get key = some entry)
    (handler : Option Handler) :
    Sane { reactor with
      handlers := reactor.handlers.set key
        { entry with handler := handler } } := by
  have hset := Arena.get_set hentry { entry with handler := handler }
  refine ⟨h.handlers.set _ _, h.registrations, h.integral.alike
    ⟨?_, fun _ => rfl⟩⟩
  intro other
  rw [hset]
  by_cases hsame : other = key
  · rw [if_pos hsame, hsame, hentry]
    rfl
  · rw [if_neg hsame]

theorem takeHandler_total (h : Sane reactor) (key : Key) :
    ∃ after taken, reactor.takeHandler key = (after, taken) ∧ Sane after ∧
      after.registrations = reactor.registrations ∧ Grows reactor after ∧
      (∀ handler, taken = some handler →
        ∃ entry, after.handlers.get key = some entry ∧
          entry.handler = none) := by
  unfold Reactor.takeHandler
  cases hentry : reactor.handlers.get key with
  | none =>
      refine ⟨_, _, rfl, h, rfl, .refl reactor, ?_⟩
      intro handler hnone
      cases hnone
  | some entry =>
      refine ⟨_, _, rfl, set_handler h hentry none, rfl, ⟨List.suffix_refl _,
        List.suffix_refl _⟩, ?_⟩
      intro _ _
      refine ⟨{ entry with handler := none }, ?_, rfl⟩
      rw [Arena.get_set hentry, if_pos rfl]

theorem restoreHandler_sound (h : Sane reactor) (hout : Out reactor key)
    (handler : Handler) :
    Sane (reactor.restoreHandler key handler) ∧
      Grows reactor (reactor.restoreHandler key handler) ∧
      (Bounded reactor →
        Sound (.restored reactor key (reactor.restoreHandler key handler))) := by
  unfold Reactor.restoreHandler
  cases hentry : reactor.handlers.get key with
  | none =>
      refine ⟨h, .refl reactor, ?_⟩
      intro _
      refine ⟨h.integral, fun _ => rfl, ?_, rfl, fun _ _ => rfl⟩
      intro hlive
      rcases hout with hretired | ⟨entry, hsome, _⟩
      · exact absurd hretired hlive
      · rw [hentry] at hsome
        cases hsome
  | some entry =>
      have hsane := set_handler h hentry (some handler)
      have hset := Arena.get_set hentry { entry with handler := some handler }
      refine ⟨hsane, ⟨List.suffix_refl _, List.suffix_refl _⟩, ?_⟩
      intro hbounded
      refine ⟨hsane.integral, ?_, ?_, rfl, ?_⟩
      · intro hretired
        have hstale := h.handlers.stale hretired (hbounded key.index).1
        rw [hentry] at hstale
        cases hstale
      · intro hlive
        rcases hout with hretired | hnone
        · exact absurd hretired hlive
        · exact hnone
      · intro other hne
        simp only
        rw [hset, if_neg hne]

theorem deliver_total (h : Sane reactor) (key : Key) (event : ReadyEvent)
    (writable fires : Bool) (callback : Callback Handler) (handler : Handler) :
    reactor.deliver adoptKey key event writable fires callback handler =
      .error exhausted ∨
    ∃ after left moments,
      reactor.deliver adoptKey key event writable fires callback handler =
        .ok (after, left, moments) ∧
      Sane after ∧ Advances reactor after ∧
      ∀ moment ∈ moments, Sound moment ∨
        (fires = true ∧ moment = .delivered reactor key event writable) := by
  cases fires with
  | false => exact .inr ⟨reactor, handler, [], rfl, h, .refl reactor, by simp⟩
  | true =>
      rcases performAll_total adoptKey h callback.calls with hpanic |
        ⟨after, moments, hall, hafter, hadvances, hsound⟩
      · left
        simp only [Reactor.deliver, if_true, hpanic, bind, Except.bind]
      · refine .inr ⟨after, callback.becomes handler,
          .delivered reactor key event writable :: moments, ?_, hafter,
          hadvances, ?_⟩
        · simp only [Reactor.deliver, if_true, hall, bind, Except.bind]
        · rw [List.forall_mem_cons]
          exact ⟨.inr ⟨rfl, rfl⟩, fun moment hmem => .inl (hsound moment hmem)⟩

theorem armed_sound (h : Sane reactor) (hbounded : Bounded reactor)
    {found : Registration} (hkept : Kept reactor reg found)
    (hout : Out reactor found.handlerKey)
    (harmed : (reactor.registrations.get reg).any (·.writeInterest) = true) :
    Sound (.delivered reactor found.handlerKey ⟨found.fd, found.userData⟩
      true) := by
  obtain ⟨live, hlive, hwrite⟩ := (Option.any_eq_true _ _).mp harmed
  rcases hkept with hretired | ⟨found', hfound', hfd, hkey, hdata⟩
  · rw [h.registrations.stale hretired (hbounded reg.index).2] at hlive
    cases hlive
  rw [hlive, Option.some.injEq] at hfound'
  subst hfound'
  refine ⟨h.integral, ?_, reg, live, hlive, hkey, hfd, hdata, fun _ => hwrite⟩
  rcases hout with hretired | hnone
  · obtain ⟨entry, hentry, _⟩ := h.integral.owned reg live hlive
    rw [hkey, h.handlers.stale hretired (hbounded _).1] at hentry
    cases hentry
  · exact hnone

def Proceeds (reactor : Reactor Handler)
    (action : Except Panic (Reactor Handler × List (Moment Handler))) : Prop :=
  action = .error exhausted ∨
    ∃ after moments, action = .ok (after, moments) ∧ Sane after ∧
      Grows reactor after ∧
      (Bounded after → ∀ moment ∈ moments, Sound moment)

theorem dispatch_proceeds (h : Sane reactor) (regKey : Key)
    (readiness : Readiness) (onReadable onWritable : Callback Handler) :
    Proceeds reactor
      (reactor.dispatch adoptKey regKey readiness onReadable onWritable) := by
  unfold Reactor.dispatch
  cases hreg : reactor.registrations.get regKey with
  | none => exact .inr ⟨reactor, [], rfl, h, .refl reactor, by simp⟩
  | some found =>
      obtain ⟨taken, handler, htake, hsane, hregs, hgrows, hout⟩ :=
        takeHandler_total h found.handlerKey
      simp only [htake]
      cases handler with
      | none => exact .inr ⟨taken, [], rfl, hsane, hgrows, by simp⟩
      | some handler =>
          have hopen := hout handler rfl
          have hhere : taken.registrations.get regKey = some found := by
            rw [hregs, hreg]
          rcases deliver_total adoptKey hsane found.handlerKey
              ⟨found.fd, found.userData⟩ false readiness.readable onReadable
              handler with hpanic |
            ⟨read, handler', readMoments, hread, hreadSane, hreadAdvances,
              hreadSound⟩
          · left
            simp only [hpanic, bind, Except.bind]
          rcases deliver_total adoptKey hreadSane found.handlerKey
              ⟨found.fd, found.userData⟩ true
              (readiness.writable &&
                (read.registrations.get regKey).any (·.writeInterest))
              onWritable handler' with hpanic |
            ⟨written, last, writeMoments, hwrite, hwriteSane, hwriteAdvances,
              hwriteSound⟩
          · left
            simp only [hread, hpanic, bind, Except.bind]
          have houtRead : Out read found.handlerKey :=
            Out.advances (.inr hopen) hreadAdvances
          obtain ⟨hrestoredSane, hrestoredGrows, hrestored⟩ :=
            restoreHandler_sound hwriteSane (houtRead.advances hwriteAdvances)
              last
          refine .inr ⟨_, readMoments ++ writeMoments ++
            [.restored written found.handlerKey
              (written.restoreHandler found.handlerKey last)], ?_,
            hrestoredSane, hgrows.trans (hreadAdvances.grows.trans
              (hwriteAdvances.grows.trans hrestoredGrows)), ?_⟩
          · simp only [hread, hwrite, bind, Except.bind]
          intro hbounded moment hmem
          have hboundedWritten := hrestoredGrows.bounded hbounded
          have hboundedRead := hwriteAdvances.grows.bounded hboundedWritten
          rw [List.mem_append, List.mem_append, List.mem_singleton] at hmem
          rcases hmem with (hmem | hmem) | rfl
          · rcases hreadSound moment hmem with hsound | ⟨_, rfl⟩
            · exact hsound
            · refine ⟨hsane.integral, hopen, regKey, found, hhere, rfl, rfl,
                rfl, ?_⟩
              intro hwritable
              cases hwritable
          · rcases hwriteSound moment hmem with hsound | ⟨hfires, rfl⟩
            · exact hsound
            · rw [Bool.and_eq_true] at hfires
              exact armed_sound hreadSane hboundedRead
                (hreadAdvances.registration regKey found hhere) houtRead
                hfires.2
          · exact hrestored hboundedWritten

theorem sweep_proceeds (h : Sane reactor) (callback : Key → Callback Handler)
    (keys : List Key) :
    Proceeds reactor (reactor.sweep adoptKey callback keys) := by
  induction keys generalizing reactor with
  | nil => exact .inr ⟨reactor, [], rfl, h, .refl reactor, by simp⟩
  | cons key keys ih =>
      obtain ⟨taken, handler, htake, hsane, _, hgrows, hout⟩ :=
        takeHandler_total h key
      unfold Reactor.sweep
      simp only [htake]
      cases handler with
      | none =>
          rcases ih hsane with hpanic |
            ⟨after, moments, hsweep, hafter, hgrows', hsound⟩
          · exact .inl hpanic
          · exact .inr ⟨after, moments, hsweep, hafter, hgrows.trans hgrows',
              hsound⟩
      | some handler =>
          rcases performAll_total adoptKey hsane (callback key).calls with
            hpanic | ⟨called, moments, hall, hcalled, hadvances, hsound⟩
          · left
            simp only [hpanic, bind, Except.bind]
          obtain ⟨hrestoredSane, hrestoredGrows, hrestored⟩ :=
            restoreHandler_sound hcalled
              (Out.advances (.inr (hout handler rfl)) hadvances)
              ((callback key).becomes handler)
          rcases ih hrestoredSane with hpanic |
            ⟨after, rest, hsweep, hafter, hgrows', hrest⟩
          · left
            simp only [hall, hpanic, bind, Except.bind]
          refine .inr ⟨after, moments ++ .restored called key
            (called.restoreHandler key ((callback key).becomes handler)) ::
            rest, ?_, hafter, hgrows.trans
            (hadvances.grows.trans (hrestoredGrows.trans hgrows')), ?_⟩
          · simp only [hall, hsweep, bind, Except.bind]
          intro hbounded moment hmem
          rcases List.mem_append.mp hmem with hmem | hmem
          · exact hsound moment hmem
          rcases List.mem_cons.mp hmem with rfl | hmem
          · exact hrestored
              (hrestoredGrows.bounded (hgrows'.bounded hbounded))
          · exact hrest hbounded moment hmem

theorem turn_proceeds (nextDeadline : Handler → Option Nat)
    (h : Sane reactor) (turn : Turn Handler) :
    Proceeds reactor (reactor.turn adoptKey nextDeadline turn) := by
  cases turn with
  | call call =>
      rcases performAll_total adoptKey h [call] with hpanic |
        ⟨after, moments, hall, hafter, hadvances, hsound⟩
      · exact .inl hpanic
      · exact .inr ⟨after, moments, hall, hafter, hadvances.grows,
          fun _ => hsound⟩
  | event regKey readiness onReadable onWritable =>
      exact dispatch_proceeds adoptKey h regKey readiness onReadable onWritable
  | deadlines now onDeadline => exact sweep_proceeds adoptKey h onDeadline _
  | control onControl => exact sweep_proceeds adoptKey h onControl _

theorem run_proceeds (nextDeadline : Handler → Option Nat)
    (h : Sane reactor) (turns : List (Turn Handler)) :
    Proceeds reactor (reactor.run adoptKey nextDeadline turns) := by
  induction turns generalizing reactor with
  | nil => exact .inr ⟨reactor, [], rfl, h, .refl reactor, by simp⟩
  | cons turn turns ih =>
      rcases turn_proceeds adoptKey nextDeadline h turn with hpanic |
        ⟨next, moments, hturn, hnext, hgrows, hsound⟩
      · left
        simp only [Reactor.run, hpanic, bind, Except.bind]
      rcases ih hnext with hpanic |
        ⟨after, rest, hrun, hafter, hgrows', hrest⟩
      · left
        simp only [Reactor.run, hturn, hpanic, bind, Except.bind]
      refine .inr ⟨after, moments ++ rest, ?_, hafter, hgrows.trans hgrows', ?_⟩
      · simp only [Reactor.run, hturn, hrun, bind, Except.bind]
      intro hbounded moment hmem
      rcases List.mem_append.mp hmem with hmem | hmem
      · exact hsound (hgrows'.bounded hbounded) moment hmem
      · exact hrest hbounded moment hmem

end Runs

/-- Whatever is called, from outside and by handlers that are out for a call,
the registry keeps its integrity, and every moment of the run is sound. -/
theorem registry_integrity {Handler : Type}
    (adoptKey : Key → Handler → Handler) (nextDeadline : Handler → Option Nat)
    (turns : List (Turn Handler)) :
    Reactor.new.run adoptKey nextDeadline turns = .error exhausted ∨
    ∃ reactor moments,
      Reactor.new.run adoptKey nextDeadline turns = .ok (reactor, moments) ∧
      Integral reactor.handlers.get reactor.registrations.get ∧
      (Bounded reactor → ∀ moment ∈ moments, Sound moment) := by
  rcases run_proceeds adoptKey nextDeadline sane_new turns with hpanic |
    ⟨reactor, moments, hrun, hsane, _, hsound⟩
  · exact .inl hpanic
  · exact .inr ⟨reactor, moments, hrun, hsane.integral, hsound⟩

/-- A handler that, while it is called for its second descriptor, unregisters
itself and lets another one take its slot. -/
def replacingTurns : List (Turn Unit) :=
  [.call (.registerWithFds () [(3, 7), (4, 8)] (fun _ => none)
      (fun _ => none)),
    .event ⟨1, 0⟩ ⟨true, true⟩
      ⟨[.unregister ⟨0, 0⟩ (fun _ => none),
        .registerWithFds () [(4, 9)] (fun _ => none) (fun _ => none)], id⟩
      ⟨[], id⟩]

theorem registry_integrity_replacing :
    ∃ reactor moments,
      Reactor.new.run (fun _ handler => handler) (fun _ => none)
        replacingTurns = .ok (reactor, moments) ∧
      moments.length = 5 ∧ ∀ moment ∈ moments, Sound moment := by
  have hrun : (Reactor.new.run (fun _ handler => handler) (fun _ => none)
      replacingTurns).map (fun result =>
        (result.2.length, result.1.retiredHandlers, result.1.retiredRegs)) =
      .ok (5, [⟨0, 0⟩], [⟨1, 0⟩, ⟨0, 0⟩]) := by decide +kernel
  obtain ⟨⟨reactor, moments⟩, hok, hseen⟩ := except_map_ok hrun
  simp only [Prod.mk.injEq] at hseen
  obtain ⟨hlength, hhandlers, hregs⟩ := hseen
  rcases registry_integrity (fun _ handler => handler) (fun _ => none)
    replacingTurns with hpanic | ⟨reactor', moments', hok', _, hsound⟩
  · rw [hok] at hpanic
    cases hpanic
  rw [hok] at hok'
  cases hok'
  refine ⟨reactor, moments, hok, hlength, hsound ?_⟩
  intro index
  rw [hhandlers, hregs]
  refine ⟨Nat.lt_of_le_of_lt List.countP_le_length (by decide),
    Nat.lt_of_le_of_lt List.countP_le_length (by decide)⟩

end Netflector.Reactor
