import Mathlib.Data.List.Perm.Subperm
import Netflector.Reactor.Dispatching

/-!
# Who is registered

What stands under a handler's key, whatever is watched.  Watching and unwatching
leave every handler where it is; registering and unregistering concern one.
-/

set_option linter.dupNamespace false

namespace Netflector.Reactor

open Netflector.Foundation

variable {Handler : Type}

/-- No handler, one that is out for its call, or one at rest. -/
def Reactor.standing (reactor : Reactor Handler) (key : Key) :
    Option (Option Handler) :=
  (reactor.handlers.get key).map HandlerEntry.handler

structure SameHandlers (before after : Reactor Handler) : Prop where
  sane : Sane after
  standing : ∀ key, after.standing key = before.standing key

structure Leaves (key : Key) (before after : Reactor Handler) : Prop where
  sane : Sane after
  standing : ∀ other, after.standing other =
    if other = key then none else before.standing other

structure Joins (key : Key) (handler : Handler)
    (before after : Reactor Handler) : Prop where
  sane : Sane after
  vacant : before.standing key = none
  standing : ∀ other, after.standing other =
    if other = key then some (some handler) else before.standing other

theorem Arena.iter_length_le {Value : Type} {arena arena' : Arena Value}
    (hwf : arena.Wf) (hwf' : arena'.Wf) (extra : List Key)
    (h : ∀ key, arena'.get key ≠ none →
      arena.get key ≠ none ∨ key ∈ extra) :
    arena'.iter.length ≤ arena.iter.length + extra.length := by
  have hsub : arena'.iter.map Prod.fst ⊆ arena.iter.map Prod.fst ++ extra := by
    intro key hmem
    obtain ⟨⟨_, value⟩, hitem, rfl⟩ := List.mem_map.mp hmem
    have hlive : arena'.get _ = some value := (Arena.mem_iter hwf').mp hitem
    rcases h _ (by rw [hlive]; exact Option.some_ne_none _) with hold | hnew
    · obtain ⟨old, hold⟩ := Option.ne_none_iff_exists'.mp hold
      exact List.mem_append_left _
        (List.mem_map.mpr ⟨_, (Arena.mem_iter hwf).mpr hold, rfl⟩)
    · exact List.mem_append_right _ hnew
  have hle := ((Arena.iter_keys_nodup hwf').subperm hsub).length_le
  rwa [List.length_append, List.length_map, List.length_map] at hle

section Handlers

variable {reactor between after : Reactor Handler} {key reg : Key}

theorem standing_eq_none :
    reactor.standing key = none ↔ reactor.handlers.get key = none :=
  Option.map_eq_none_iff

theorem contains_standing (reactor : Reactor Handler) (key : Key) :
    reactor.handlers.contains key = (reactor.standing key).isSome := by
  rw [Arena.contains, Reactor.standing, Option.isSome_map]

theorem SameHandlers.refl (h : Sane reactor) : SameHandlers reactor reactor :=
  ⟨h, fun _ => rfl⟩

theorem SameHandlers.trans (h : SameHandlers reactor between)
    (h' : SameHandlers between after) : SameHandlers reactor after :=
  ⟨h'.sane, fun key => (h'.standing key).trans (h.standing key)⟩

theorem Unchanged.sameHandlers (h : Unchanged reactor after)
    (hsane : Sane after) : SameHandlers reactor after :=
  ⟨hsane, fun key => by rw [Reactor.standing, h.handlers, Reactor.standing]⟩

/-! ## Watching -/

theorem unwatch_sameHandlers (h : Sane reactor) (reg : Key) (poll : Poll) :
    SameHandlers reactor (reactor.unwatch reg poll).1 := by
  obtain ⟨after, result, hunwatch, hsane, _⟩ := unwatch_total h reg poll
  rw [hunwatch]
  refine ⟨hsane, ?_⟩
  intro key
  have hafter : (reactor.unwatch reg poll).1.standing key =
      reactor.standing key := by
    cases hreg : reactor.registrations.get reg with
    | none => simp only [Reactor.unwatch, removeRegistration_none hreg]
    | some found =>
        obtain ⟨entry, hentry, _⟩ := h.integral.owned reg found hreg
        have hset := Arena.get_set hentry
          { entry with regs := entry.regs.filter (· ≠ reg) }
        simp only [Reactor.unwatch, removeRegistration_some hreg, hentry]
        have hstanding : ((reactor.handlers.set found.handlerKey
            { entry with regs := entry.regs.filter (· ≠ reg) }).get key).map
              HandlerEntry.handler = reactor.standing key := by
          rw [hset, Reactor.standing]
          by_cases hsame : key = found.handlerKey
          · rw [if_pos hsame, hsame, hentry]
            rfl
          · rw [if_neg hsame]
        cases poll found.fd <;> exact hstanding
  rw [← hafter, hunwatch]

theorem setWriteInterest_sameHandlers (h : Sane reactor) (reg : Key)
    (enabled : Bool) (poll : Poll) :
    SameHandlers reactor (reactor.setWriteInterest reg enabled poll).1 := by
  obtain ⟨after, result, hset, hsane, _⟩ :=
    setWriteInterest_total h reg enabled poll
  rw [hset]
  refine ⟨hsane, ?_⟩
  have hhandlers : (reactor.setWriteInterest reg enabled poll).1.handlers =
      reactor.handlers := by
    unfold Reactor.setWriteInterest
    split
    · rfl
    split
    · rfl
    · split <;> rfl
  rw [hset] at hhandlers
  intro key
  rw [Reactor.standing, Reactor.standing, hhandlers]

theorem setReadInterest_sameHandlers (h : Sane reactor) (reg : Key)
    (enabled : Bool) (poll : Poll) :
    SameHandlers reactor (reactor.setReadInterest reg enabled poll).1 := by
  obtain ⟨after, result, hset, hsane, _⟩ :=
    setReadInterest_total h reg enabled poll
  rw [hset]
  refine ⟨hsane, ?_⟩
  have hhandlers : (reactor.setReadInterest reg enabled poll).1.handlers =
      reactor.handlers := by
    unfold Reactor.setReadInterest
    split
    · rfl
    · split <;> rfl
  rw [hset] at hhandlers
  intro key
  rw [Reactor.standing, Reactor.standing, hhandlers]

theorem watch_sameHandlers (h : Sane reactor) {handlerKey : Key} {fd : RawFd}
    {userData : UInt64} {poll : Poll} {result : Except IoError Key}
    (hwatch : reactor.watch handlerKey fd userData poll =
      .ok (after, result)) : SameHandlers reactor after := by
  rcases watch_total h handlerKey fd userData poll with hpanic |
    ⟨after', result', hwatch', hsane, _, hwatched⟩
  · rw [hpanic] at hwatch
    cases hwatch
  rw [hwatch'] at hwatch
  cases hwatch
  cases hwatched with
  | failed error hunchanged => exact hunchanged.sameHandlers hsane
  | added reg entry hentry hfresh hhandlers hregistrations =>
      refine ⟨hsane, ?_⟩
      intro key
      rw [Reactor.standing, hhandlers, Reactor.standing]
      by_cases hsame : key = handlerKey
      · rw [if_pos hsame, hsame, hentry]
        rfl
      · rw [if_neg hsame]

/-! ## Registering -/

theorem unregister_leaves (h : Sane reactor) (key : Key) (poll : Poll) :
    Leaves key reactor (reactor.unregister key poll).1 := by
  cases hentry : reactor.handlers.get key with
  | none =>
      rw [unregister_none poll hentry]
      refine ⟨h, ?_⟩
      intro other
      by_cases hsame : other = key
      · rw [if_pos hsame, hsame, standing_eq_none, hentry]
      · rw [if_neg hsame]
  | some entry =>
      obtain ⟨after, result, hunregister, hsane, _, hgone⟩ :=
        unregister_some h hentry poll
      rw [hunregister]
      refine ⟨hsane, ?_⟩
      intro other
      rw [Reactor.standing, hgone.handlers, Reactor.standing]
      by_cases hsame : other = key
      · rw [if_pos hsame, if_pos hsame]
        rfl
      · rw [if_neg hsame, if_neg hsame]

theorem watchAll_sameHandlers (h : Sane reactor) {poll removed : Poll}
    {fds : List (RawFd × UInt64)} {made : Key}
    (hwatch : reactor.watchAll key poll removed fds = .ok (after, .ok made)) :
    made = key ∧ SameHandlers reactor after := by
  induction fds generalizing reactor with
  | nil =>
      cases hwatch
      exact ⟨rfl, .refl h⟩
  | cons item fds ih =>
      obtain ⟨⟨first, result⟩, hfirst, hrest⟩ := except_bind_ok hwatch
      have hsame := watch_sameHandlers h hfirst
      cases result with
      | error error => cases hrest
      | ok reg =>
          obtain ⟨hmade, hall⟩ := ih hsame.sane hrest
          exact ⟨hmade, hsame.trans hall⟩

theorem registerWithFds_joins (h : Sane reactor)
    {adoptKey : Key → Handler → Handler} {handler : Handler}
    {fds : List (RawFd × UInt64)} {poll removed : Poll}
    (hregister : reactor.registerWithFds adoptKey handler fds poll removed =
      .ok (after, .ok key)) :
    Joins key (adoptKey key handler) reactor after := by
  obtain ⟨⟨registered, own⟩, hown, hwatch⟩ := except_bind_ok hregister
  rcases register_total h adoptKey handler with hpanic |
    ⟨_, _, hown', hsane, _, hvacant, _, hhandlers⟩
  · rw [hpanic] at hown
    cases hown
  rw [hown'] at hown
  cases hown
  obtain ⟨rfl, hsame⟩ := watchAll_sameHandlers hsane hwatch
  refine ⟨hsame.sane, standing_eq_none.mpr hvacant, ?_⟩
  intro other
  rw [hsame.standing, Reactor.standing, hhandlers, Reactor.standing]
  by_cases hother : other = key
  · rw [if_pos hother, if_pos hother]
    rfl
  · rw [if_neg hother, if_neg hother]

theorem registerWithFds_failed (h : Sane reactor)
    {adoptKey : Key → Handler → Handler} {handler : Handler}
    {fds : List (RawFd × UInt64)} {poll removed : Poll} {error : IoError}
    (hregister : reactor.registerWithFds adoptKey handler fds poll removed =
      .ok (after, .error error)) : SameHandlers reactor after := by
  rcases registerWithFds_total h adoptKey handler fds poll removed with
    hpanic | ⟨_, _, hregister', hsane, _, hfailed⟩
  · rw [hpanic] at hregister
    cases hregister
  rw [hregister'] at hregister
  cases hregister
  exact (hfailed error rfl).sameHandlers hsane

/-! ## What is watched -/

/-- No registration was added or changed but for those of `regs`. -/
def Calm (regs : List Key) (before after : Reactor Handler) : Prop :=
  ∀ reg found, after.registrations.get reg = some found →
    reg ∈ regs ∨ before.registrations.get reg = some found

theorem Calm.refl (regs : List Key) (reactor : Reactor Handler) :
    Calm regs reactor reactor :=
  fun _ _ hfound => .inr hfound

theorem Calm.trans {regs : List Key} (h : Calm regs reactor between)
    (h' : Calm regs between after) : Calm regs reactor after := by
  intro reg found hfound
  rcases h' reg found hfound with hmem | hbetween
  · exact .inl hmem
  · exact h reg found hbetween

theorem Calm.mono {regs regs' : List Key} (h : Calm regs reactor after)
    (hsub : ∀ reg ∈ regs, reg ∈ regs') : Calm regs' reactor after := by
  intro reg found hfound
  exact (h reg found hfound).imp_left (hsub reg)

theorem Unchanged.calm (h : Unchanged reactor after) (regs : List Key) :
    Calm regs reactor after := by
  intro reg found hfound
  rw [h.registrations] at hfound
  exact .inr hfound

theorem set_calm {reg : Key} {found stored : Registration}
    (hreg : reactor.registrations.get reg = some found) :
    Calm [reg] reactor { reactor with
      registrations := reactor.registrations.set reg stored } := by
  intro other kept hkept
  by_cases hsame : other = reg
  · exact .inl (List.mem_singleton.mpr hsame)
  · right
    rw [← hkept, Arena.get_set hreg stored, if_neg hsame]

theorem setWriteInterest_calm (reactor : Reactor Handler) (reg : Key)
    (enabled : Bool) (poll : Poll) :
    Calm [reg] reactor (reactor.setWriteInterest reg enabled poll).1 := by
  unfold Reactor.setWriteInterest
  cases hreg : reactor.registrations.get reg with
  | none => exact .refl _ _
  | some found =>
      dsimp only
      split
      · exact .refl _ _
      · cases poll found.fd with
        | some error => exact .refl _ _
        | none => exact set_calm hreg

theorem setReadInterest_calm (reactor : Reactor Handler) (reg : Key)
    (enabled : Bool) (poll : Poll) :
    Calm [reg] reactor (reactor.setReadInterest reg enabled poll).1 := by
  unfold Reactor.setReadInterest
  cases hreg : reactor.registrations.get reg with
  | none => exact .refl _ _
  | some found =>
      dsimp only
      cases poll found.fd with
      | some error => exact .refl _ _
      | none => exact set_calm hreg

theorem unwatch_get (h : Sane reactor) (reg : Key) (poll : Poll)
    (other : Key) : (reactor.unwatch reg poll).1.registrations.get other =
      if other = reg then none else reactor.registrations.get other := by
  cases hreg : reactor.registrations.get reg with
  | none =>
      simp only [Reactor.unwatch, removeRegistration_none hreg]
      by_cases hsame : other = reg
      · rw [if_pos hsame, hsame, hreg]
      · rw [if_neg hsame]
  | some found =>
      obtain ⟨entry, hentry, _⟩ := h.integral.owned reg found hreg
      simp only [Reactor.unwatch, removeRegistration_some hreg, hentry]
      cases poll found.fd <;> exact Arena.get_remove hreg other

theorem unwatch_calm (h : Sane reactor) (reg : Key) (poll : Poll)
    (regs : List Key) : Calm regs reactor (reactor.unwatch reg poll).1 := by
  intro other found hfound
  rw [unwatch_get h] at hfound
  split at hfound
  · cases hfound
  · exact .inr hfound

theorem Watched.calm {fd : RawFd} {userData : UInt64} {reg : Key}
    (h : Watched reactor after key fd userData (.ok reg)) :
    Calm [reg] reactor after := by
  cases h with
  | added _ entry hentry hfresh hhandlers hregistrations =>
      intro other found hfound
      rw [hregistrations] at hfound
      split at hfound
      · rename_i hsame
        exact .inl (List.mem_singleton.mpr hsame)
      · exact .inr hfound

theorem watchAll_unarmed (h : Sane reactor) {poll removed : Poll}
    {fds : List (RawFd × UInt64)} {made : Key}
    (hwatch : reactor.watchAll key poll removed fds = .ok (after, .ok made))
    {found : Registration}
    (hfound : after.registrations.get reg = some found) :
    reactor.registrations.get reg = some found ∨
      found.writeInterest = false := by
  induction fds generalizing reactor with
  | nil =>
      cases hwatch
      exact .inl hfound
  | cons item fds ih =>
      obtain ⟨⟨first, result⟩, hfirst, hrest⟩ := except_bind_ok hwatch
      rcases watch_total h key item.1 item.2 poll with hpanic |
        ⟨_, _, hfirst', hsane, _, hwatched⟩
      · rw [hpanic] at hfirst
        cases hfirst
      rw [hfirst'] at hfirst
      cases hfirst
      cases hwatched with
      | failed error hunchanged => cases hrest
      | added fresh entry hentry hfresh hhandlers hregistrations =>
          rcases ih hsane hrest with hbetween | hunarmed
          · rw [hregistrations] at hbetween
            split at hbetween
            · cases hbetween
              exact .inr rfl
            · exact .inl hbetween
          · exact .inr hunarmed

theorem registerWithFds_unarmed (h : Sane reactor)
    {adoptKey : Key → Handler → Handler} {handler : Handler}
    {fds : List (RawFd × UInt64)} {poll removed : Poll}
    (hregister : reactor.registerWithFds adoptKey handler fds poll removed =
      .ok (after, .ok key)) {found : Registration}
    (hfound : after.registrations.get reg = some found)
    (hkey : found.handlerKey = key) : found.writeInterest = false := by
  obtain ⟨⟨registered, own⟩, hown, hwatch⟩ := except_bind_ok hregister
  rcases register_total h adoptKey handler with hpanic |
    ⟨_, _, hown', hsane, _, hvacant, hkept, _⟩
  · rw [hpanic] at hown
    cases hown
  rw [hown'] at hown
  cases hown
  obtain ⟨rfl, _⟩ := watchAll_sameHandlers hsane hwatch
  rcases watchAll_unarmed hsane hwatch hfound with hold | hunarmed
  · rw [hkept] at hold
    obtain ⟨entry, hentry, _⟩ := h.integral.owned reg found hold
    rw [hkey, hvacant] at hentry
    cases hentry
  · exact hunarmed

theorem unregister_calm (h : Sane reactor) (key : Key) (poll : Poll)
    (regs : List Key) : Calm regs reactor (reactor.unregister key poll).1 := by
  cases hentry : reactor.handlers.get key with
  | none =>
      rw [unregister_none poll hentry]
      exact .refl _ _
  | some entry =>
      obtain ⟨after, result, hunregister, _, _, hgone⟩ :=
        unregister_some h hentry poll
      rw [hunregister]
      intro reg found hfound
      rw [hgone.registrations] at hfound
      split at hfound
      · cases hfound
      · exact .inr hfound

/-! ## Calls -/

theorem restoreHandler_standing (reactor : Reactor Handler) (key : Key)
    (handler : Handler) (other : Key) :
    (reactor.restoreHandler key handler).standing other =
      if other = key then (reactor.standing key).map fun _ => some handler
      else reactor.standing other := by
  unfold Reactor.restoreHandler
  cases hentry : reactor.handlers.get key with
  | none =>
      by_cases hsame : other = key
      · rw [if_pos hsame, hsame, standing_eq_none.mpr hentry]
        rfl
      · rw [if_neg hsame]
  | some entry =>
      have hset := Arena.get_set hentry { entry with handler := some handler }
      simp only [Reactor.standing, hset]
      by_cases hsame : other = key
      · rw [if_pos hsame, if_pos hsame, hentry]
        rfl
      · rw [if_neg hsame, if_neg hsame]

theorem restoreHandler_sane (h : Sane reactor) (key : Key)
    (handler : Handler) : Sane (reactor.restoreHandler key handler) := by
  unfold Reactor.restoreHandler
  cases hentry : reactor.handlers.get key with
  | none => exact h
  | some entry => exact set_handler h hentry (some handler)

theorem takeHandler_standing (h : Sane reactor) (key : Key) :
    Sane (reactor.takeHandler key).1 ∧
      (reactor.takeHandler key).2 = (reactor.standing key).join ∧
      ∀ other, (reactor.takeHandler key).1.standing other =
        if other = key then (reactor.standing key).map fun _ => none
        else reactor.standing other := by
  unfold Reactor.takeHandler
  cases hentry : reactor.handlers.get key with
  | none =>
      have hnone := standing_eq_none.mpr hentry
      refine ⟨h, by rw [hnone]; rfl, ?_⟩
      intro other
      by_cases hsame : other = key
      · rw [if_pos hsame, hsame, hnone]
        rfl
      · rw [if_neg hsame]
  | some entry =>
      have hset := Arena.get_set hentry { entry with handler := none }
      refine ⟨set_handler h hentry none, ?_, ?_⟩
      · simp only [Reactor.standing, hentry, Option.map_some, Option.join_some]
      · intro other
        simp only [Reactor.standing, hset]
        by_cases hsame : other = key
        · rw [if_pos hsame, if_pos hsame, hentry]
          rfl
        · rw [if_neg hsame, if_neg hsame]

end Handlers

end Netflector.Reactor
