import Netflector.Reactor.Population
import Netflector.Reactor.Interests

/-!
# The reactor and the kernel agree

Every live registration is held in the kernel under its own key, armed as the
reactor has it, and whatever else the kernel holds is under keys that no
registration has any more.  Nothing is held of a registration whose descriptor
was closed under it.
-/

set_option linter.dupNamespace false

namespace Netflector.Reactor

open Netflector.Foundation

/-! ## Agreement -/

/-- What the kernel holds is what is registered, or was. -/
structure Agreement (Tears : Prop) (registrations : Key → Option Registration)
    (retired torn orphaned : List Key) (interest : RawFd → Interest) :
    Prop where
  /-- No two registrations are of one descriptor. -/
  distinct : ∀ reg reg' found found', registrations reg = some found →
    registrations reg' = some found' → found.fd = found'.fd → reg = reg'
  read : ∀ reg found, registrations reg = some found → reg ∉ orphaned →
    ∃ armed, (interest found.fd).read = some (reg, armed) ∧
      (armed = found.readInterest ∨ Tears ∧ reg ∈ torn)
  write : ∀ reg found, registrations reg = some found → reg ∉ orphaned →
    ((interest found.fd).write = some reg ↔ found.writeInterest = true)
  orphan : ∀ reg found, registrations reg = some found → reg ∈ orphaned →
    interest found.fd = .none
  past : ∀ reg ∈ orphaned, registrations reg ≠ none ∨ reg ∈ retired
  known : ∀ fd reg, (interest fd).Holds reg →
    (∃ found, registrations reg = some found ∧ found.fd = fd) ∨ reg ∈ retired

section Agreement

variable {Tears : Prop} {registrations registrations' : Key → Option Registration}
  {retired retired' torn torn' orphaned : List Key}
  {interest interest' : RawFd → Interest} {reg : Key} {found : Registration}

theorem Agreement.unchanged
    (h : Agreement Tears registrations retired torn orphaned interest)
    (hregs : ∀ reg, registrations' reg = registrations reg)
    (hretired : ∀ reg ∈ retired, reg ∈ retired') :
    Agreement Tears registrations' retired' torn orphaned interest := by
  obtain rfl : registrations' = registrations := funext hregs
  refine { h with past := ?_, known := ?_ }
  · exact fun reg hmem => (h.past reg hmem).imp_right (hretired reg)
  · exact fun fd reg hholds => (h.known fd reg hholds).imp_right (hretired reg)

/-- The kernel arms a registration as it is stored, or tears its read interest
from it. -/
theorem Agreement.stored
    (h : Agreement Tears registrations retired torn orphaned interest)
    (hregs : ∀ other, registrations' other =
      if other = reg then some found else registrations other)
    (hfd : ∀ other live, other ≠ reg → registrations other = some live →
      live.fd ≠ found.fd)
    (hwhole : reg ∉ orphaned)
    (hown : ∀ fd, (interest fd).Holds reg → fd = found.fd ∨ reg ∈ retired)
    {armed : Bool} (hread : (interest' found.fd).read = some (reg, armed))
    (harmed : armed = found.readInterest ∨ Tears ∧ reg ∈ torn')
    (hwrite : (interest' found.fd).write = some reg ↔
      found.writeInterest = true)
    (hshrinks : ∀ other, (interest' found.fd).Holds other →
      other = reg ∨ (interest found.fd).Holds other)
    (hframe : ∀ other, other ≠ found.fd → interest' other = interest other)
    (htorn : ∀ other, other ≠ reg → other ∈ torn → other ∈ torn') :
    Agreement Tears registrations' retired torn' orphaned interest' := by
  -- A registration is the stored one, or an old one elsewhere.
  have hcases : ∀ other live, registrations' other = some live →
      other = reg ∧ live = found ∨
        other ≠ reg ∧ registrations other = some live ∧
          live.fd ≠ found.fd := by
    intro other live hlive
    rw [hregs] at hlive
    split at hlive
    · rename_i hsame
      exact .inl ⟨hsame, (Option.some.inj hlive).symm⟩
    · rename_i hne
      exact .inr ⟨hne, hlive, hfd other live hne hlive⟩
  constructor
  · intro first second live live' hlive hlive' hsame
    rcases hcases first live hlive with ⟨rfl, rfl⟩ | ⟨_, hold, hne⟩
    · rcases hcases second live' hlive' with ⟨rfl, rfl⟩ | ⟨_, _, hne'⟩
      · rfl
      · exact absurd hsame.symm hne'
    · rcases hcases second live' hlive' with ⟨rfl, rfl⟩ | ⟨_, hold', _⟩
      · exact absurd hsame hne
      · exact h.distinct first second live live' hold hold' hsame
  · intro other live hlive hother
    rcases hcases other live hlive with ⟨rfl, rfl⟩ | ⟨hne, hold, hnefd⟩
    · exact ⟨armed, hread, harmed⟩
    · rw [hframe live.fd hnefd]
      obtain ⟨armed, hheld, harmed⟩ := h.read other live hold hother
      exact ⟨armed, hheld, harmed.imp_right fun hin =>
        ⟨hin.1, htorn other hne hin.2⟩⟩
  · intro other live hlive hother
    rcases hcases other live hlive with ⟨rfl, rfl⟩ | ⟨_, hold, hnefd⟩
    · exact hwrite
    · rw [hframe live.fd hnefd]
      exact h.write other live hold hother
  · intro other live hlive hother
    rcases hcases other live hlive with ⟨rfl, rfl⟩ | ⟨_, hold, hnefd⟩
    · exact absurd hother hwhole
    · rw [hframe live.fd hnefd]
      exact h.orphan other live hold hother
  · intro other hmem
    have hne : other ≠ reg := by
      rintro rfl
      exact hwhole hmem
    rw [hregs, if_neg hne]
    exact h.past other hmem
  · intro fd other hholds
    have hbefore : other = reg ∧ fd = found.fd ∨
        (interest fd).Holds other := by
      by_cases hne : fd = found.fd
      · rw [hne] at hholds ⊢
        exact (hshrinks other hholds).imp_left fun hsame => ⟨hsame, rfl⟩
      · rw [hframe fd hne] at hholds
        exact .inr hholds
    by_cases hsame : other = reg
    · subst hsame
      rw [hregs, if_pos rfl]
      rcases hbefore with ⟨_, hhere⟩ | hheld
      · exact .inl ⟨found, rfl, hhere.symm⟩
      · exact (hown fd hheld).imp_left fun hhere => ⟨found, rfl, hhere.symm⟩
    · rw [hregs, if_neg hsame]
      rcases hbefore with ⟨hreg, _⟩ | hheld
      · exact absurd hreg hsame
      · exact h.known fd other hheld

theorem Agreement.added
    (h : Agreement Tears registrations retired torn orphaned interest)
    (hregs : ∀ other, registrations' other =
      if other = reg then some found else registrations other)
    (hfresh : registrations reg = none) (hnew : reg ∉ retired)
    (hfd : ∀ other live, registrations other = some live → live.fd ≠ found.fd)
    (hread : found.readInterest = true) (hwrite : found.writeInterest = false)
    (hhere : interest' found.fd =
      ⟨some (reg, true), (interest found.fd).write⟩)
    (hframe : ∀ other, other ≠ found.fd → interest' other = interest other) :
    Agreement Tears registrations' retired torn orphaned interest' := by
  have hunheld : ∀ fd, ¬ (interest fd).Holds reg := by
    intro fd hholds
    rcases h.known fd reg hholds with ⟨live, hlive, _⟩ | hmem
    · rw [hfresh] at hlive
      cases hlive
    · exact hnew hmem
  have hwhole : reg ∉ orphaned := fun hmem =>
    (h.past reg hmem).elim (fun hlive => hlive hfresh) hnew
  refine h.stored hregs (fun other live _ => hfd other live) hwhole
    (fun fd hholds => absurd hholds (hunheld fd)) (by rw [hhere])
    (.inl hread.symm) ?_ ?_ hframe fun _ _ hmem => hmem
  · rw [hhere, hwrite]
    constructor
    · exact fun hheld => absurd (.write hheld) (hunheld found.fd)
    · intro hfalse
      cases hfalse
  · intro other hholds
    rw [hhere] at hholds
    cases hholds with
    | read armed hheld =>
        rw [Option.some.injEq, Prod.mk.injEq] at hheld
        exact .inl hheld.1.symm
    | write hheld => exact .inr (.write hheld)

theorem Agreement.dropped
    (h : Agreement Tears registrations retired torn orphaned interest)
    (hreg : registrations reg = some found)
    (hregs : ∀ other, registrations' other =
      if other = reg then none else registrations other)
    (hshrinks : (interest found.fd).Shrinks (interest' found.fd))
    (hframe : ∀ other, other ≠ found.fd → interest' other = interest other) :
    Agreement Tears registrations' (reg :: retired) torn orphaned
      interest' := by
  have hother : ∀ other live, registrations' other = some live →
      registrations other = some live ∧ live.fd ≠ found.fd := by
    intro other live hlive
    rw [hregs] at hlive
    split at hlive
    · cases hlive
    · rename_i hne
      exact ⟨hlive, fun hfd =>
        hne (h.distinct other reg live found hlive hreg hfd)⟩
  constructor
  · intro first second live live' hlive hlive'
    exact h.distinct first second live live' (hother first live hlive).1
      (hother second live' hlive').1
  · intro other live hlive
    obtain ⟨hlive, hne⟩ := hother other live hlive
    rw [hframe live.fd hne]
    exact h.read other live hlive
  · intro other live hlive
    obtain ⟨hlive, hne⟩ := hother other live hlive
    rw [hframe live.fd hne]
    exact h.write other live hlive
  · intro other live hlive
    obtain ⟨hlive, hne⟩ := hother other live hlive
    rw [hframe live.fd hne]
    exact h.orphan other live hlive
  · intro other hmem
    by_cases hsame : other = reg
    · exact .inr (by rw [hsame]; exact List.mem_cons_self ..)
    · rw [hregs, if_neg hsame]
      exact (h.past other hmem).imp_right (List.mem_cons_of_mem _)
  · intro fd other hholds
    by_cases hsame : other = reg
    · exact .inr (by rw [hsame]; exact List.mem_cons_self ..)
    · have hbefore : (interest fd).Holds other := by
        by_cases hne : fd = found.fd
        · rw [hne] at hholds ⊢
          exact hshrinks other hholds
        · rwa [hframe fd hne] at hholds
      rw [hregs, if_neg hsame]
      exact (h.known fd other hbefore).imp_right (List.mem_cons_of_mem _)

theorem Agreement.switched
    (h : Agreement Tears registrations retired torn orphaned interest)
    (hreg : registrations reg = some found)
    (hthere : (interest found.fd).read ≠ none) {stored : Registration}
    (hregs : ∀ other, registrations' other =
      if other = reg then some stored else registrations other)
    (hfd : stored.fd = found.fd) {armed : Bool}
    (hread : (interest' found.fd).read = some (reg, armed))
    (harmed : armed = stored.readInterest ∨ Tears ∧ reg ∈ torn')
    (hwrite : (interest' found.fd).write = some reg ↔
      stored.writeInterest = true)
    (hshrinks : ∀ other, (interest' found.fd).Holds other →
      other = reg ∨ (interest found.fd).Holds other)
    (hframe : ∀ other, other ≠ found.fd → interest' other = interest other)
    (htorn : ∀ other, other ≠ reg → other ∈ torn → other ∈ torn') :
    Agreement Tears registrations' retired torn' orphaned interest' := by
  have hwhole : reg ∉ orphaned := by
    intro hmem
    rw [h.orphan reg found hreg hmem] at hthere
    exact hthere rfl
  rw [← hfd] at hread hwrite hshrinks hframe
  refine h.stored hregs ?_ hwhole ?_ hread harmed hwrite hshrinks hframe htorn
  · intro other live hne hlive hsame
    exact hne (h.distinct other reg live found hlive hreg (hsame.trans hfd))
  · intro fd hholds
    rcases h.known fd reg hholds with ⟨live, hlive, hlivefd⟩ | hmem
    · rw [hreg, Option.some.injEq] at hlive
      exact .inl (by rw [hfd, hlive, hlivefd])
    · exact .inr hmem

theorem Agreement.still
    (h : Agreement Tears registrations retired torn orphaned interest)
    (hsame : ∀ fd, interest' fd = interest fd)
    (htorn : ∀ other, other ∉ orphaned → registrations other ≠ none →
      other ∈ torn → other ∈ torn') :
    Agreement Tears registrations retired torn' orphaned interest' := by
  obtain rfl : interest' = interest := funext hsame
  refine { h with read := ?_ }
  intro other live hlive hother
  obtain ⟨armed, hheld, harmed⟩ := h.read other live hlive hother
  exact ⟨armed, hheld, harmed.imp_right fun hin =>
    ⟨hin.1, htorn other hother (by simp [hlive]) hin.2⟩⟩

theorem Agreement.closed
    (h : Agreement Tears registrations retired torn orphaned interest)
    {fd : RawFd} {under : List Key}
    (hunder : ∀ reg, reg ∈ under ↔
      ∃ found, registrations reg = some found ∧ found.fd = fd)
    (hnone : interest' fd = .none)
    (hframe : ∀ other, other ≠ fd → interest' other = interest other) :
    Agreement Tears registrations retired torn (under ++ orphaned)
      interest' := by
  have helse : ∀ reg found, registrations reg = some found →
      reg ∉ under ++ orphaned →
      reg ∉ orphaned ∧ interest' found.fd = interest found.fd := by
    intro reg found hfound hmem
    rw [List.mem_append, not_or, hunder] at hmem
    exact ⟨hmem.2, hframe found.fd fun hfd => hmem.1 ⟨found, hfound, hfd⟩⟩
  refine ⟨h.distinct, ?_, ?_, ?_, ?_, ?_⟩
  · intro reg found hfound hmem
    obtain ⟨hwhole, hsame⟩ := helse reg found hfound hmem
    rw [hsame]
    exact h.read reg found hfound hwhole
  · intro reg found hfound hmem
    obtain ⟨hwhole, hsame⟩ := helse reg found hfound hmem
    rw [hsame]
    exact h.write reg found hfound hwhole
  · intro reg found hfound hmem
    by_cases hfd : found.fd = fd
    · rw [hfd, hnone]
    · rcases List.mem_append.mp hmem with hnew | hold
      · obtain ⟨other, hother, hotherfd⟩ := (hunder reg).mp hnew
        rw [hfound, Option.some.injEq] at hother
        exact absurd (hother ▸ hotherfd) hfd
      · rw [hframe found.fd hfd]
        exact h.orphan reg found hfound hold
  · intro reg hmem
    rcases List.mem_append.mp hmem with hnew | hold
    · obtain ⟨found, hfound, _⟩ := (hunder reg).mp hnew
      exact .inl (by simp [hfound])
    · exact h.past reg hold
  · intro other reg hholds
    by_cases hsame : other = fd
    · rw [hsame, hnone] at hholds
      exact absurd hholds (Interest.not_holds_none reg)
    · rw [hframe other hsame] at hholds
      exact h.known other reg hholds

end Agreement

/-! ## Progress of the registrations -/

/-- Nothing that was retired is forgotten, and a registration stays what it was
watched as until it is retired. -/
structure Keeps {Handler : Type} (before after : Reactor Handler) : Prop where
  retired : before.retiredRegs <:+ after.retiredRegs
  handlers : before.retiredHandlers <:+ after.retiredHandlers
  registration : ∀ reg found, before.registrations.get reg = some found →
    Kept after reg found

section Keeps

variable {Handler : Type} {before after : Reactor Handler}

theorem Keeps.refl (reactor : Reactor Handler) : Keeps reactor reactor :=
  ⟨List.suffix_refl _, List.suffix_refl _,
    fun _ found hfound => .inr ⟨found, hfound, rfl, rfl, rfl⟩⟩

theorem Keeps.trans {last : Reactor Handler} (h : Keeps before after)
    (h' : Keeps after last) : Keeps before last := by
  refine ⟨h.retired.trans h'.retired, h.handlers.trans h'.handlers, ?_⟩
  intro reg found hfound
  rcases h.registration reg found hfound with hretired |
    ⟨between, hbetween, hfd, hkey, hdata⟩
  · exact .inl (h'.retired.mem hretired)
  · rcases h'.registration reg between hbetween with hretired |
      ⟨live, hlive, hfd', hkey', hdata'⟩
    · exact .inl hretired
    · exact .inr ⟨live, hlive, hfd'.trans hfd, hkey'.trans hkey,
        hdata'.trans hdata⟩

theorem Advances.keeps (h : Advances before after) : Keeps before after :=
  ⟨h.regs_suffix, h.handlers_suffix, h.registration⟩

theorem Keeps.bounded (h : Keeps before after) (hbounded : Bounded after) :
    Bounded before :=
  Grows.bounded ⟨h.handlers, h.retired⟩ hbounded

theorem takeHandler_keeps (reactor : Reactor Handler) (key : Key) :
    (reactor.takeHandler key).1.registrations = reactor.registrations ∧
      Keeps reactor (reactor.takeHandler key).1 := by
  unfold Reactor.takeHandler
  cases reactor.handlers.get key with
  | none => exact ⟨rfl, .refl reactor⟩
  | some entry =>
      exact ⟨rfl, List.suffix_refl _, List.suffix_refl _,
        fun _ found hfound => .inr ⟨found, hfound, rfl, rfl, rfl⟩⟩

theorem restoreHandler_keeps (reactor : Reactor Handler) (key : Key)
    (handler : Handler) :
    (reactor.restoreHandler key handler).registrations =
        reactor.registrations ∧
      Keeps reactor (reactor.restoreHandler key handler) := by
  unfold Reactor.restoreHandler
  cases reactor.handlers.get key with
  | none => exact ⟨rfl, .refl reactor⟩
  | some entry =>
      exact ⟨rfl, List.suffix_refl _, List.suffix_refl _,
        fun _ found hfound => .inr ⟨found, hfound, rfl, rfl, rfl⟩⟩

end Keeps

/-! ## The calls, with the kernel's answers -/

namespace Polled

variable {P Handler : Type} [Poller P]
  {polled between after : Polled P Handler}

theorem unwatch_absent {reg : Key} (refuses : Refusals)
    (hreg : polled.reactor.registrations.get reg = none) :
    polled.unwatch reg refuses = (polled, .ok false) := by
  simp only [unwatch, removeRegistration_none hreg]

variable [LawfulPoller P]

def interest (polled : Polled P Handler) (fd : RawFd) : Interest :=
  LawfulPoller.interest polled.poll fd

def Agrees (polled : Polled P Handler) : Prop :=
  Agreement (LawfulPoller.Tears P) polled.reactor.registrations.get
    polled.reactor.retiredRegs polled.torn polled.orphaned polled.interest

structure Passes (before after : Polled P Handler) : Prop where
  sane : Sane after.reactor
  keeps : Keeps before.reactor after.reactor
  orphaned : before.orphaned <:+ after.orphaned
  agrees : Bounded after.reactor → before.Agrees → after.Agrees

theorem Passes.refl (h : Sane polled.reactor) : Passes polled polled :=
  ⟨h, .refl _, List.suffix_refl _, fun _ hagrees => hagrees⟩

theorem Passes.trans (h : Passes polled between)
    (h' : Passes between after) : Passes polled after :=
  ⟨h'.sane, h.keeps.trans h'.keeps, h.orphaned.trans h'.orphaned,
    fun hbounded hagrees =>
    h'.agrees hbounded (h.agrees (h'.keeps.bounded hbounded) hagrees)⟩

theorem Passes.whole (h : Passes polled after) (hwhole : after.orphaned = []) :
    polled.orphaned = [] :=
  List.suffix_nil.mp (hwhole ▸ h.orphaned)

theorem Passes.sameRegistrations {reactor : Reactor Handler}
    (hsane : Sane reactor) (hkeeps : Keeps polled.reactor reactor)
    (hregs : reactor.registrations = polled.reactor.registrations) :
    Passes polled { polled with reactor := reactor } :=
  ⟨hsane, hkeeps, List.suffix_refl _,
    fun _ hagrees => Agreement.unchanged hagrees
    (fun reg => by rw [hregs]) fun _ hmem => hkeeps.retired.mem hmem⟩

theorem takeHandler_passes (h : Sane polled.reactor) (key : Key) :
    Passes polled (polled.takeHandler key).1 := by
  obtain ⟨hregs, hkeeps⟩ := takeHandler_keeps polled.reactor key
  exact .sameRegistrations (takeHandler_standing h key).1 hkeeps hregs

theorem restoreHandler_passes (h : Sane polled.reactor) (key : Key)
    (handler : Handler) : Passes polled (polled.restoreHandler key handler) := by
  obtain ⟨hregs, hkeeps⟩ := restoreHandler_keeps polled.reactor key handler
  exact .sameRegistrations (restoreHandler_sane h key handler) hkeeps hregs

inductive Watching (polled : Polled P Handler) (fd : RawFd)
    (refuses : Refusals) : Polled P Handler → Except IoError Key → Prop where
  | failed (after : Polled P Handler) (error : IoError)
      (hinterest : after.interest = polled.interest)
      (hghosts : after.torn = polled.torn ∧ after.orphaned = polled.orphaned)
      (hserved : refuses 0 = none → ∀ code, error = .os code →
        (polled.interest fd).read ≠ none ∧
          ∀ other live, polled.reactor.registrations.get other =
            some live → live.fd ≠ fd) :
      Watching polled fd refuses after (.error error)
  | added (after : Polled P Handler) (reg : Key)
      (hfd : ∀ other live, polled.reactor.registrations.get other =
        some live → live.fd ≠ fd)
      (hhere : after.interest fd =
        ⟨some (reg, true), (polled.interest fd).write⟩)
      (hframe : ∀ other, other ≠ fd →
        after.interest other = polled.interest other)
      (hghosts : after.torn = polled.torn ∧
        after.orphaned = polled.orphaned) :
      Watching polled fd refuses after (.ok reg)

theorem watch_cases (h : Sane polled.reactor) {handlerKey : Key} {fd : RawFd}
    {userData : UInt64} {refuses : Refusals} {result : Except IoError Key}
    (hwatch : polled.watch handlerKey fd userData refuses =
      .ok (after, result)) :
    (∃ poll, polled.reactor.watch handlerKey fd userData poll =
      .ok (after.reactor, result)) ∧
    Watching polled fd refuses after result := by
  cases hentry : polled.reactor.handlers.get handlerKey with
  | none =>
      simp only [watch, hentry, Except.ok.injEq, Prod.mk.injEq] at hwatch
      obtain ⟨rfl, rfl⟩ := hwatch
      refine ⟨⟨fun _ => none, by simp only [Reactor.watch, hentry]⟩,
        .failed _ _ rfl ⟨rfl, rfl⟩ fun _ code hcode => by cases hcode⟩
  | some entry =>
      by_cases hwatched : (polled.reactor.registrations.iter.any fun item =>
          decide (item.2.fd = fd)) = true
      · simp only [watch, hentry, if_pos hwatched, Except.ok.injEq,
          Prod.mk.injEq] at hwatch
        obtain ⟨rfl, rfl⟩ := hwatch
        refine ⟨⟨fun _ => none, by
          simp only [Reactor.watch, hentry, if_pos hwatched]⟩,
          .failed _ _ rfl ⟨rfl, rfl⟩ fun _ code hcode => by cases hcode⟩
      have hfd : ∀ other live, polled.reactor.registrations.get other =
          some live → live.fd ≠ fd := by
        intro other live hlive hsame
        exact hwatched ((watched_iff h fd).mpr ⟨other, live, hlive, hsame⟩)
      simp only [watch, hentry, if_neg hwatched] at hwatch
      obtain ⟨⟨registrations, reg⟩, hinsert, hwatch⟩ := except_bind_ok hwatch
      cases hadd : Poller.add polled.poll fd reg refuses with
      | mk poll answer =>
          simp only [hadd] at hwatch
          cases answer with
          | some error =>
              simp only [Except.ok.injEq, Prod.mk.injEq] at hwatch
              obtain ⟨rfl, rfl⟩ := hwatch
              refine ⟨⟨fun _ => some error, ?_⟩,
                .failed _ _ ?_ ⟨rfl, rfl⟩ ?_⟩
              · simp only [Reactor.watch, hentry, if_neg hwatched, hinsert,
                  bind, Except.bind]
              · have hfailed := LawfulPoller.add_failed polled.poll fd reg
                  refuses error (by rw [hadd])
                rw [hadd] at hfailed
                exact hfailed
              · intro hserved code _
                refine ⟨?_, hfd⟩
                intro hnone
                have hok := LawfulPoller.add_served polled.poll fd reg refuses
                  hserved hnone
                rw [hadd] at hok
                cases hok
          | none =>
              simp only [Except.ok.injEq, Prod.mk.injEq] at hwatch
              obtain ⟨rfl, rfl⟩ := hwatch
              refine ⟨⟨fun _ => none, ?_⟩, .added _ _ hfd ?_ ?_ ⟨rfl, rfl⟩⟩
              · simp only [Reactor.watch, hentry, if_neg hwatched, hinsert,
                  bind, Except.bind]
              · have hok := LawfulPoller.add_ok polled.poll fd reg refuses
                  (by rw [hadd])
                rw [hadd] at hok
                exact hok
              · intro other hne
                have hframe := LawfulPoller.add_frame polled.poll fd reg
                  refuses other hne
                rw [hadd] at hframe
                exact hframe

theorem watch_passes (h : Sane polled.reactor) {handlerKey : Key}
    {fd : RawFd} {userData : UInt64} {refuses : Refusals}
    {result : Except IoError Key}
    (hwatch : polled.watch handlerKey fd userData refuses =
      .ok (after, result)) : Passes polled after := by
  obtain ⟨⟨poll, hreactor⟩, hwatching⟩ := watch_cases h hwatch
  rcases watch_total h handlerKey fd userData poll with hpanic |
    ⟨reactor, result', hok, hsane, hadvances, hwatched⟩
  · rw [hpanic] at hreactor
    cases hreactor
  rw [hok, Except.ok.injEq, Prod.mk.injEq] at hreactor
  obtain ⟨rfl, rfl⟩ := hreactor
  have hsuffix : polled.orphaned <:+ after.orphaned := by
    cases hwatching with
    | failed _ _ hghosts _ => exact hghosts.2 ▸ List.suffix_refl _
    | added _ _ _ _ hghosts => exact hghosts.2 ▸ List.suffix_refl _
  refine ⟨hsane, hadvances.keeps, hsuffix, ?_⟩
  intro hbounded hagrees
  cases hwatching with
  | failed error hinterest hghosts hserved =>
      cases hwatched with
      | failed _ hunchanged =>
          unfold Agrees
          rw [hinterest, hghosts.1, hghosts.2]
          exact Agreement.unchanged hagrees hunchanged.registrations
            fun _ hmem => hadvances.regs_suffix.mem hmem
  | added reg hfd hhere hframe hghosts =>
      cases hwatched with
      | added _ entry hentry hfresh hhandlers hregistrations =>
          have hnew : reg ∉ after.reactor.retiredRegs := by
            intro hmem
            have hstale := hsane.registrations.stale hmem
              (hbounded reg.index).2
            rw [hregistrations, if_pos rfl] at hstale
            cases hstale
          unfold Agrees
          rw [hghosts.1, hghosts.2]
          exact Agreement.added (Agreement.unchanged hagrees (fun _ => rfl)
            fun _ hmem => hadvances.regs_suffix.mem hmem) hregistrations
            hfresh hnew hfd rfl rfl hhere hframe

structure Dropping (polled after : Polled P Handler) (fd : RawFd)
    (refuses : Refusals) (answer : Option IoError) : Prop where
  shrinks : (polled.interest fd).Shrinks (after.interest fd)
  cleared : answer = none → after.interest fd = .none
  frame : ∀ other, other ≠ fd → after.interest other = polled.interest other
  served : refuses 0 = none → refuses 1 = none → answer = none
  ghosts : after.torn = polled.torn ∧ after.orphaned = polled.orphaned

theorem dropping (polled : Polled P Handler) (reactor : Reactor Handler)
    (fd : RawFd) (refuses : Refusals) :
    Dropping polled
      { polled with
        reactor := reactor
        poll := (Poller.remove polled.poll fd refuses).1 } fd refuses
      (Poller.remove polled.poll fd refuses).2 where
  shrinks := LawfulPoller.remove_shrinks polled.poll fd refuses
  cleared := LawfulPoller.remove_ok polled.poll fd refuses
  frame := LawfulPoller.remove_frame polled.poll fd refuses
  served := LawfulPoller.remove_served polled.poll fd refuses
  ghosts := ⟨rfl, rfl⟩

theorem unwatch_cases {reg : Key} {found : Registration}
    (hreg : polled.reactor.registrations.get reg = some found)
    (refuses : Refusals) :
    ∃ after result answer, polled.unwatch reg refuses = (after, result) ∧
      errorOf result = answer ∧
      polled.reactor.unwatch reg (fun _ => answer) = (after.reactor, result) ∧
      Dropping polled after found.fd refuses answer := by
  have hdropping := fun reactor => dropping polled reactor found.fd refuses
  simp only [unwatch, Reactor.unwatch, removeRegistration_some hreg]
  generalize Poller.remove polled.poll found.fd refuses = removed at *
  obtain ⟨poll, answer⟩ := removed
  cases answer with
  | none => exact ⟨_, _, none, rfl, rfl, rfl, hdropping _⟩
  | some error => exact ⟨_, _, some error, rfl, rfl, rfl, hdropping _⟩

theorem unwatch_passes (h : Sane polled.reactor) (reg : Key)
    (refuses : Refusals) : Passes polled (polled.unwatch reg refuses).1 := by
  cases hreg : polled.reactor.registrations.get reg with
  | none =>
      rw [unwatch_absent refuses hreg]
      exact .refl h
  | some found =>
      obtain ⟨after, result, answer, hunwatch, _, hreactor, hdropping⟩ :=
        unwatch_cases hreg refuses
      obtain ⟨after', result', hok, hsane, hadvances⟩ :=
        unwatch_total h reg fun _ => answer
      have hget := unwatch_get h reg fun _ => answer
      rw [hunwatch]
      rw [hreactor] at hok hget
      cases hok
      have hsuffix : polled.orphaned <:+ after.orphaned :=
        hdropping.ghosts.2 ▸ List.suffix_refl _
      refine ⟨hsane, hadvances.keeps, hsuffix, ?_⟩
      intro _ hagrees
      have hdropped := Agreement.dropped hagrees hreg hget hdropping.shrinks
        hdropping.frame
      unfold Agrees
      rw [hdropping.ghosts.1, hdropping.ghosts.2]
      have hretired : after.reactor.retiredRegs =
          reg :: polled.reactor.retiredRegs := by
        have hafter := congrArg (fun pair => pair.1.retiredRegs) hreactor
        simp only [Reactor.unwatch, removeRegistration_some hreg] at hafter
        rw [← hafter]
        split <;> split <;> rfl
      rwa [hretired]

/-! ## Unregistering -/

end Polled

namespace Polled

variable {P Handler : Type} [Poller P] {polled after : Polled P Handler}

theorem unwatchAll_congr {reactor : Reactor Handler} {poll poll' : Poll}
    (regs : List Key) (firstErr : Option IoError)
    (h : ∀ reg found, reactor.registrations.get reg = some found →
      poll found.fd = poll' found.fd) :
    reactor.unwatchAll poll regs firstErr =
      reactor.unwatchAll poll' regs firstErr := by
  induction regs generalizing reactor firstErr with
  | nil => rfl
  | cons reg regs ih =>
      cases hreg : reactor.registrations.get reg with
      | none =>
          simp only [Reactor.unwatchAll, removeRegistration_none hreg]
          exact ih firstErr h
      | some found =>
          simp only [Reactor.unwatchAll, removeRegistration_some hreg,
            h reg found hreg]
          refine ih _ ?_
          intro other live hlive
          rw [Arena.get_remove hreg] at hlive
          split at hlive
          · cases hlive
          · exact h other live hlive

/-- What the loop of `unregister` does is what the reactor does with the
answers it got, each for a descriptor of its own. -/
theorem unwatchAll_refines (polled : Polled P Handler)
    (refuses : RawFd → Refusals) (regs : List Key) (firstErr : Option IoError)
    (hdistinct : ∀ reg reg' found found',
      polled.reactor.registrations.get reg = some found →
      polled.reactor.registrations.get reg' = some found' →
      found.fd = found'.fd → reg = reg') :
    ∃ poll, polled.reactor.unwatchAll poll regs firstErr =
      ((unwatchAll refuses polled regs firstErr).1.reactor,
        (unwatchAll refuses polled regs firstErr).2) := by
  induction regs generalizing polled firstErr with
  | nil => exact ⟨fun _ => none, rfl⟩
  | cons reg regs ih =>
      cases hreg : polled.reactor.registrations.get reg with
      | none =>
          simp only [Reactor.unwatchAll, unwatchAll,
            removeRegistration_none hreg]
          exact ih polled firstErr hdistinct
      | some found =>
          simp only [Reactor.unwatchAll, unwatchAll,
            removeRegistration_some hreg]
          generalize hremove : Poller.remove polled.poll found.fd
            (refuses found.fd) = removed
          obtain ⟨backend, answer⟩ := removed
          have hget := Arena.get_remove hreg
          have hlive : ∀ other live,
              (polled.reactor.registrations.remove reg).1.get other =
                some live → live.fd ≠ found.fd ∧
                polled.reactor.registrations.get other = some live := by
            intro other live hlive
            rw [hget] at hlive
            split at hlive
            · cases hlive
            · rename_i hne
              exact ⟨fun hfd => hne (hdistinct _ _ _ _ hlive hreg hfd), hlive⟩
          obtain ⟨poll, hall⟩ := ih { polled with
            reactor := { polled.reactor with
              registrations := (polled.reactor.registrations.remove reg).1
              retiredRegs := reg :: polled.reactor.retiredRegs }
            poll := backend } (firstErr.or answer)
            fun other other' live live' h h' => hdistinct other other' live
              live' (hlive other live h).2 (hlive other' live' h').2
          refine ⟨Function.update poll found.fd answer, ?_⟩
          rw [Function.update_self, ← hall]
          refine unwatchAll_congr regs _ ?_
          intro other live h
          rw [Function.update_of_ne (hlive other live h).1]

theorem unregister_absent {key : Key} (refuses : RawFd → Refusals)
    (hentry : polled.reactor.handlers.get key = none) :
    polled.unregister key refuses = (polled, .ok false) := by
  simp only [unregister, Reactor.removeHandler, Arena.remove_none hentry]

def unseated (reactor : Reactor Handler) (key : Key) : Reactor Handler :=
  { reactor with
    handlers := (reactor.handlers.remove key).1
    retiredHandlers := key :: reactor.retiredHandlers }

theorem removeHandler_unseated {reactor : Reactor Handler} {key : Key}
    {entry : HandlerEntry Handler}
    (hentry : reactor.handlers.get key = some entry) :
    reactor.removeHandler key = (unseated reactor key, some entry) :=
  removeHandler_some hentry

theorem unregister_cases (h : Sane polled.reactor) {key : Key}
    {entry : HandlerEntry Handler}
    (hentry : polled.reactor.handlers.get key = some entry)
    (refuses : RawFd → Refusals) :
    ∃ after result, polled.unregister key refuses = (after, result) ∧
      after = (unwatchAll refuses
        { polled with reactor := unseated polled.reactor key } entry.regs
        none).1 ∧
      errorOf result = (unwatchAll refuses
        { polled with reactor := unseated polled.reactor key } entry.regs
        none).2 ∧
      ∃ poll, polled.reactor.unregister key poll = (after.reactor, result) := by
  obtain ⟨poll, hall⟩ := unwatchAll_refines
    { polled with reactor := unseated polled.reactor key } refuses entry.regs
    none h.integral.distinct
  simp only [unregister, Reactor.unregister, removeHandler_unseated hentry]
  cases hleft : unwatchAll refuses
      { polled with reactor := unseated polled.reactor key } entry.regs
      none with
  | mk left answer =>
      rw [hleft] at hall
      cases answer with
      | none => exact ⟨_, _, rfl, rfl, rfl, poll, by simp only [hall]⟩
      | some error => exact ⟨_, _, rfl, rfl, rfl, poll, by simp only [hall]⟩

theorem unregister_refines (h : Sane polled.reactor) (key : Key)
    (refuses : RawFd → Refusals) :
    ∃ poll, polled.reactor.unregister key poll =
      ((polled.unregister key refuses).1.reactor,
        (polled.unregister key refuses).2) := by
  cases hentry : polled.reactor.handlers.get key with
  | none =>
      rw [unregister_absent refuses hentry]
      exact ⟨fun _ => none, unregister_none _ hentry⟩
  | some entry =>
      obtain ⟨after, result, hunregister, _, _, poll, hreactor⟩ :=
        unregister_cases h hentry refuses
      rw [hunregister]
      exact ⟨poll, hreactor⟩

variable [LawfulPoller P]

theorem unwatchAll_agrees (refuses : RawFd → Refusals) (regs : List Key)
    (firstErr : Option IoError) (hagrees : polled.Agrees) :
    (unwatchAll refuses polled regs firstErr).1.Agrees := by
  induction regs generalizing polled firstErr with
  | nil => exact hagrees
  | cons reg regs ih =>
      cases hreg : polled.reactor.registrations.get reg with
      | none =>
          simp only [unwatchAll, removeRegistration_none hreg]
          exact ih firstErr hagrees
      | some found =>
          simp only [unwatchAll, removeRegistration_some hreg]
          have hdropping := dropping polled
            { polled.reactor with
              registrations := (polled.reactor.registrations.remove reg).1
              retiredRegs := reg :: polled.reactor.retiredRegs }
            found.fd (refuses found.fd)
          exact ih _ (Agreement.dropped hagrees hreg (Arena.get_remove hreg)
            hdropping.shrinks hdropping.frame)

theorem unwatchAll_served {refuses : RawFd → Refusals} (regs : List Key)
    (firstErr : Option IoError) (hserved : ∀ fd call, refuses fd call = none) :
    (unwatchAll refuses polled regs firstErr).2 = firstErr := by
  induction regs generalizing polled firstErr with
  | nil => rfl
  | cons reg regs ih =>
      cases hreg : polled.reactor.registrations.get reg with
      | none =>
          simp only [unwatchAll, removeRegistration_none hreg]
          exact ih firstErr
      | some found =>
          simp only [unwatchAll, removeRegistration_some hreg]
          rw [ih, LawfulPoller.remove_served polled.poll found.fd
            (refuses found.fd) (hserved found.fd 0) (hserved found.fd 1),
            Option.or_none]

omit [LawfulPoller P] in
theorem unwatchAll_orphaned (refuses : RawFd → Refusals) (regs : List Key)
    (firstErr : Option IoError) :
    (unwatchAll refuses polled regs firstErr).1.orphaned =
      polled.orphaned := by
  induction regs generalizing polled firstErr with
  | nil => rfl
  | cons reg regs ih =>
      cases hreg : polled.reactor.registrations.get reg with
      | none =>
          simp only [unwatchAll, removeRegistration_none hreg]
          exact ih firstErr
      | some found =>
          simp only [unwatchAll, removeRegistration_some hreg]
          exact ih _

theorem unregister_passes (h : Sane polled.reactor) (key : Key)
    (refuses : RawFd → Refusals) :
    Passes polled (polled.unregister key refuses).1 := by
  obtain ⟨poll, hrefines⟩ := unregister_refines h key refuses
  obtain ⟨after, result, hok, hsane, hadvances⟩ := unregister_total h key poll
  rw [hok, Prod.mk.injEq] at hrefines
  obtain ⟨rfl, -⟩ := hrefines
  cases hentry : polled.reactor.handlers.get key with
  | none =>
      rw [unregister_absent refuses hentry] at hsane hadvances ⊢
      exact .refl h
  | some entry =>
      obtain ⟨after, result, hunregister, rfl, _⟩ :=
        unregister_cases h hentry refuses
      rw [hunregister] at hsane hadvances ⊢
      refine ⟨hsane, hadvances.keeps, ?_, fun _ hagrees =>
        unwatchAll_agrees refuses entry.regs none hagrees⟩
      simp only [unwatchAll_orphaned, List.suffix_refl]

/-! ## Registering -/

theorem register_passes (h : Sane polled.reactor)
    {adoptKey : Key → Handler → Handler} {handler : Handler}
    {reactor : Reactor Handler} {key : Key}
    (hregister : polled.reactor.register adoptKey handler =
      .ok (reactor, key)) : Passes polled { polled with reactor := reactor } := by
  rcases register_total h adoptKey handler with hpanic |
    ⟨registered, own, hok, hsane, hadvances, _, hregs, _⟩
  · rw [hpanic] at hregister
    cases hregister
  · rw [hok] at hregister
    cases hregister
    exact .sameRegistrations hsane hadvances.keeps hregs

/-! ## Interests -/

theorem switched_passes (h : Sane polled.reactor) {reg : Key}
    {found : Registration} (stored : Registration) (refuses : Refusals)
    (hreg : polled.reactor.registrations.get reg = some found)
    (hfd : stored.fd = found.fd)
    (hkey : stored.handlerKey = found.handlerKey)
    (hdata : stored.userData = found.userData)
    (hok : (Poller.setInterest polled.poll found.fd reg stored.readInterest
      stored.writeInterest refuses).2 = none) (torn : List Key)
    (htorn : ∀ other, other ≠ reg → other ∈ polled.torn → other ∈ torn) :
    Passes polled
      { polled with
        reactor := { polled.reactor with
          registrations := polled.reactor.registrations.set reg stored }
        poll := (Poller.setInterest polled.poll found.fd reg
          stored.readInterest stored.writeInterest refuses).1
        torn := torn } := by
  obtain ⟨hsane, hadvances⟩ := set_registration h stored hreg hfd hkey hdata
  refine ⟨hsane, hadvances.keeps, List.suffix_refl _, ?_⟩
  intro _ hagrees
  obtain ⟨hthere, hset⟩ := LawfulPoller.setInterest_ok polled.poll found.fd reg
    stored.readInterest stored.writeInterest refuses hok
  refine Agreement.switched hagrees hreg hthere (Arena.get_set hreg stored) hfd
    (by simp only [interest]; rw [hset]) (.inl rfl) ?_ ?_
    (LawfulPoller.setInterest_frame polled.poll found.fd reg _ _ refuses) htorn
  · simp only [interest]
    rw [hset]
    cases stored.writeInterest <;> simp
  · intro other hholds
    simp only [interest] at hholds
    rw [hset] at hholds
    left
    cases hholds with
    | read armed hheld =>
        rw [Option.some.injEq, Prod.mk.injEq] at hheld
        exact hheld.1.symm
    | write hheld =>
        split at hheld
        · exact (Option.some.inj hheld).symm
        · cases hheld

omit [LawfulPoller P] in
theorem mem_tear {torn : List Key} {reg other : Key} {asked stored : Bool}
    {refuses : Refusals} (hne : other ≠ reg) :
    other ∈ tear torn reg asked stored refuses ↔ other ∈ torn := by
  unfold tear
  split
  · rfl
  split
  · simp [hne]
  · simp [hne]

omit [LawfulPoller P] in
theorem tear_refused (torn : List Key) (reg : Key) (asked stored : Bool)
    {refuses : Refusals} (hrefused : refuses 0 ≠ none) :
    tear torn reg asked stored refuses = torn := by
  unfold tear
  rw [if_pos (Option.isSome_iff_ne_none.mpr hrefused)]

omit [LawfulPoller P] in
theorem mem_tear_self (torn : List Key) (reg : Key) {asked stored : Bool}
    {refuses : Refusals} (hserved : refuses 0 = none) (hne : asked ≠ stored) :
    reg ∈ tear torn reg asked stored refuses := by
  unfold tear
  rw [if_neg (by simp [hserved]), if_neg hne]
  exact List.mem_cons_self ..

theorem unswitched_passes (h : Sane polled.reactor) {reg : Key}
    {found : Registration} (read write : Bool) (refuses : Refusals)
    (hreg : polled.reactor.registrations.get reg = some found)
    {error : IoError}
    (hfailed : (Poller.setInterest polled.poll found.fd reg read write
      refuses).2 = some error) :
    Passes polled
      { polled with
        poll := (Poller.setInterest polled.poll found.fd reg read write
          refuses).1
        torn := tear polled.torn reg read found.readInterest refuses } := by
  refine ⟨h, .refl _, List.suffix_refl _, ?_⟩
  intro _ hagrees
  rcases LawfulPoller.setInterest_failed polled.poll found.fd reg read write
      refuses error hfailed with ⟨hkept, habsent⟩ |
      ⟨htears, hserved, hthere, htear⟩
  · refine Agreement.still hagrees ?_ ?_
    · intro fd
      by_cases hfd : fd = found.fd
      · rw [hfd]
        exact hkept
      · exact LawfulPoller.setInterest_frame polled.poll found.fd reg _ _
          refuses fd hfd
    · intro other hwhole hlive hmem
      by_cases hother : other = reg
      · subst hother
        obtain ⟨armed, hheld, _⟩ := hagrees.read other found hreg hwhole
        have hrefused : refuses 0 ≠ none := by
          intro hserved
          have hnone := habsent hserved
          simp only [interest] at hheld
          rw [hnone] at hheld
          cases hheld
        rw [tear_refused _ _ _ _ hrefused]
        exact hmem
      · exact (mem_tear hother).mpr hmem
  · have hwhole : reg ∉ polled.orphaned := by
      intro hmem
      have hnone := hagrees.orphan reg found hreg hmem
      simp only [interest] at hnone
      rw [hnone] at hthere
      exact hthere rfl
    have hsame : ∀ other, polled.reactor.registrations.get other =
        if other = reg then some found
        else polled.reactor.registrations.get other := by
      intro other
      split
      · rename_i hother
        rw [hother, hreg]
      · rfl
    have harmed : read = found.readInterest ∨ LawfulPoller.Tears P ∧
        reg ∈ tear polled.torn reg read found.readInterest refuses := by
      by_cases hread : read = found.readInterest
      · exact .inl hread
      · exact .inr ⟨htears, mem_tear_self _ reg hserved hread⟩
    refine Agreement.switched hagrees hreg hthere hsame rfl
      (by simp only [interest]; rw [htear]) harmed ?_ ?_
      (LawfulPoller.setInterest_frame polled.poll found.fd reg _ _ refuses)
      fun other hne hmem => (mem_tear hne).mpr hmem
    · simp only [interest]
      rw [htear]
      exact hagrees.write reg found hreg hwhole
    · intro other hholds
      simp only [interest] at hholds
      rw [htear] at hholds
      cases hholds with
      | read armed hin =>
          rw [Option.some.injEq, Prod.mk.injEq] at hin
          exact .inl hin.1.symm
      | write hin => exact .inr (.write hin)

theorem setWriteInterest_passes (h : Sane polled.reactor) (reg : Key)
    (enabled : Bool) (refuses : Refusals) :
    Passes polled (polled.setWriteInterest reg enabled refuses).1 := by
  unfold setWriteInterest
  cases hreg : polled.reactor.registrations.get reg with
  | none => exact .refl h
  | some found =>
      dsimp only
      split
      · exact .refl h
      split
      · rename_i poll error hset
        have hpasses := unswitched_passes h found.readInterest enabled refuses
          hreg (congrArg Prod.snd hset)
        rwa [hset] at hpasses
      · rename_i poll hset
        have hpasses := switched_passes h
          { found with writeInterest := enabled } refuses hreg rfl rfl rfl
          (congrArg Prod.snd hset) (polled.torn.filter (· ≠ reg))
          (by simp +contextual)
        rwa [hset] at hpasses

theorem setReadInterest_passes (h : Sane polled.reactor) (reg : Key)
    (enabled : Bool) (refuses : Refusals) :
    Passes polled (polled.setReadInterest reg enabled refuses).1 := by
  unfold setReadInterest
  cases hreg : polled.reactor.registrations.get reg with
  | none => exact .refl h
  | some found =>
      dsimp only
      split
      · rename_i poll error hset
        have hpasses := unswitched_passes h enabled found.writeInterest refuses
          hreg (congrArg Prod.snd hset)
        rwa [hset] at hpasses
      · rename_i poll hset
        have hpasses := switched_passes h
          { found with readInterest := enabled } refuses hreg rfl rfl rfl
          (congrArg Prod.snd hset) (polled.torn.filter (· ≠ reg))
          (by simp +contextual)
        rwa [hset] at hpasses

omit [Poller P] [LawfulPoller P] in
theorem mem_under (h : Sane polled.reactor) (fd : RawFd) (reg : Key) :
    reg ∈ (polled.reactor.registrations.iter.filter fun item =>
        item.2.fd = fd).map Prod.fst ↔
      ∃ found, polled.reactor.registrations.get reg = some found ∧
        found.fd = fd := by
  constructor
  · intro hmem
    obtain ⟨⟨key, found⟩, hitem, rfl⟩ := List.mem_map.mp hmem
    obtain ⟨hlive, hfd⟩ := List.mem_filter.mp hitem
    exact ⟨found, (Arena.mem_iter h.registrations.wf).mp hlive,
      of_decide_eq_true hfd⟩
  · rintro ⟨found, hfound, hfd⟩
    exact List.mem_map.mpr ⟨(reg, found),
      List.mem_filter.mpr ⟨(Arena.mem_iter h.registrations.wf).mpr hfound,
        decide_eq_true hfd⟩, rfl⟩

theorem close_passes (h : Sane polled.reactor) (fd : RawFd) :
    Passes polled (polled.close fd) := by
  refine ⟨h, .refl _, List.suffix_append _ _, ?_⟩
  intro _ hagrees
  exact Agreement.closed hagrees (mem_under h fd)
    (LawfulPoller.closed_eq polled.poll fd)
    (LawfulPoller.closed_frame polled.poll fd)

end Polled

end Netflector.Reactor
