import Netflector.Reactor.Integrity

/-!
# Which registrations a call sheds

A registration by what it was made with, and the calls that drop some of them
and leave the others as they were made.
-/

set_option linter.dupNamespace false

namespace Netflector.Reactor

open Netflector.Foundation

/-- What a registration was made with; its interests may have changed since. -/
def Registration.origin (found : Registration) : RawFd × Key × UInt64 :=
  (found.fd, found.handlerKey, found.userData)

def Reactor.origin {Handler : Type} (reactor : Reactor Handler) (reg : Key) :
    Option (RawFd × Key × UInt64) :=
  (reactor.registrations.get reg).map Registration.origin

structure Drops {Handler : Type} (gone : List Key)
    (before after : Reactor Handler) : Prop where
  sane : Sane after
  origin : ∀ reg, after.origin reg =
    if reg ∈ gone then none else before.origin reg

section Drops

variable {Handler : Type} {reactor between after : Reactor Handler}
  {gone gone' : List Key} {reg : Key}

theorem Drops.refl (h : Sane reactor) : Drops [] reactor reactor :=
  ⟨h, fun _ => (if_neg List.not_mem_nil).symm⟩

theorem Drops.trans (h : Drops gone reactor between)
    (h' : Drops gone' between after) :
    Drops (gone ++ gone') reactor after := by
  refine ⟨h'.sane, ?_⟩
  intro reg
  rw [h'.origin, h.origin]
  by_cases hlater : reg ∈ gone'
  · rw [if_pos hlater, if_pos (List.mem_append_right gone hlater)]
  · rw [if_neg hlater]
    by_cases hearlier : reg ∈ gone
    · rw [if_pos hearlier, if_pos (List.mem_append_left gone' hearlier)]
    · have hkept : reg ∉ gone ++ gone' := by
        rw [List.mem_append, not_or]
        exact ⟨hearlier, hlater⟩
      rw [if_neg hearlier, if_neg hkept]

theorem Drops.origin_some (h : Drops gone reactor after)
    {origin : RawFd × Key × UInt64} (horigin : after.origin reg = some origin) :
    reg ∉ gone ∧ reactor.origin reg = some origin := by
  rw [h.origin] at horigin
  split at horigin
  · cases horigin
  · rename_i hkept
    exact ⟨hkept, horigin⟩

theorem origin_eq_some {origin : RawFd × Key × UInt64} :
    reactor.origin reg = some origin ↔
      ∃ found, reactor.registrations.get reg = some found ∧
        found.origin = origin :=
  Option.map_eq_some_iff

theorem unwatch_drops (h : Sane reactor) (reg : Key) (poll : Poll) :
    Drops [reg] reactor (reactor.unwatch reg poll).1 := by
  obtain ⟨after, result, hunwatch, hsane, _⟩ := unwatch_total h reg poll
  rw [hunwatch]
  refine ⟨hsane, ?_⟩
  intro other
  have hregs : after.registrations =
      (reactor.registrations.remove reg).1 := by
    have hafter := congrArg (fun answer => answer.1.registrations) hunwatch
    rw [← hafter]
    cases hreg : reactor.registrations.get reg with
    | none =>
        simp only [Reactor.unwatch, removeRegistration_none hreg,
          Arena.remove_none hreg]
    | some found =>
        simp only [Reactor.unwatch, removeRegistration_some hreg]
        cases reactor.handlers.get found.handlerKey <;>
          cases poll found.fd <;> rfl
  unfold Reactor.origin
  rw [hregs]
  cases hreg : reactor.registrations.get reg with
  | none =>
      rw [Arena.remove_none hreg]
      by_cases hsame : other = reg
      · rw [if_pos (List.mem_singleton.mpr hsame), hsame, hreg]
        rfl
      · rw [if_neg (hsame ∘ List.mem_singleton.mp)]
  | some found =>
      rw [Arena.get_remove hreg]
      by_cases hsame : other = reg
      · rw [if_pos hsame, if_pos (List.mem_singleton.mpr hsame)]
        rfl
      · rw [if_neg hsame, if_neg (hsame ∘ List.mem_singleton.mp)]

theorem set_drops (h : Sane reactor) {found stored : Registration}
    (hreg : reactor.registrations.get reg = some found)
    (hsame : stored.origin = found.origin) :
    Drops [] reactor { reactor with
      registrations := reactor.registrations.set reg stored } := by
  have hfields := hsame
  simp only [Registration.origin, Prod.mk.injEq] at hfields
  obtain ⟨hfd, hkey, hdata⟩ := hfields
  refine ⟨(set_registration h stored hreg hfd hkey hdata).1, ?_⟩
  intro other
  rw [if_neg List.not_mem_nil]
  unfold Reactor.origin
  rw [Arena.get_set hreg]
  by_cases hother : other = reg
  · rw [if_pos hother, hother, hreg, Option.map_some, Option.map_some, hsame]
  · rw [if_neg hother]

theorem setWriteInterest_drops (h : Sane reactor) (reg : Key)
    (enabled : Bool) (poll : Poll) :
    Drops [] reactor (reactor.setWriteInterest reg enabled poll).1 := by
  unfold Reactor.setWriteInterest
  cases hreg : reactor.registrations.get reg with
  | none => exact .refl h
  | some found =>
      simp only
      split
      · exact .refl h
      · cases poll found.fd with
        | some error => exact .refl h
        | none => exact set_drops h hreg rfl

theorem setReadInterest_drops (h : Sane reactor) (reg : Key)
    (enabled : Bool) (poll : Poll) :
    Drops [] reactor (reactor.setReadInterest reg enabled poll).1 := by
  unfold Reactor.setReadInterest
  cases hreg : reactor.registrations.get reg with
  | none => exact .refl h
  | some found =>
      simp only
      cases poll found.fd with
      | some error => exact .refl h
      | none => exact set_drops h hreg rfl

theorem origin_distinct (h : Sane reactor) {reg reg' : Key} {fd : RawFd}
    {owner owner' : Key} {data data' : UInt64}
    (horigin : reactor.origin reg = some (fd, owner, data))
    (horigin' : reactor.origin reg' = some (fd, owner', data')) :
    reg = reg' := by
  obtain ⟨found, hfound, hsame⟩ := origin_eq_some.mp horigin
  obtain ⟨found', hfound', hsame'⟩ := origin_eq_some.mp horigin'
  simp only [Registration.origin, Prod.mk.injEq] at hsame hsame'
  exact h.integral.distinct reg reg' found found' hfound hfound'
    (by rw [hsame.1, hsame'.1])

theorem Unchanged.origin (h : Unchanged reactor after) (reg : Key) :
    after.origin reg = reactor.origin reg := by
  unfold Reactor.origin
  rw [h.registrations]

theorem Watched.origin {handlerKey : Key} {fd : RawFd} {userData : UInt64}
    (h : Watched reactor after handlerKey fd userData (.ok reg)) :
    reactor.origin reg = none ∧ ∀ other, after.origin other =
      if other = reg then some (fd, handlerKey, userData)
      else reactor.origin other := by
  cases h with
  | added _ entry hentry hfresh hhandlers hregistrations =>
      unfold Reactor.origin
      refine ⟨by rw [hfresh]; rfl, ?_⟩
      intro other
      rw [hregistrations]
      split <;> rfl

theorem Watched.handler {handlerKey : Key} {fd : RawFd} {userData : UInt64}
    (h : Watched reactor after handlerKey fd userData (.ok reg)) :
    ∃ entry, reactor.handlers.get handlerKey = some entry ∧
      after.handlers.get handlerKey =
        some { entry with regs := entry.regs ++ [reg] } := by
  cases h with
  | added _ entry hentry hfresh hhandlers hregistrations =>
      exact ⟨entry, hentry, by rw [hhandlers, if_pos rfl]⟩

end Drops

end Netflector.Reactor
