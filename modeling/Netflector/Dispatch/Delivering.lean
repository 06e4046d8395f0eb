import Netflector.Dispatch.Reentrancy

/-!
# Deliveries under re-entrant changes

Each pass over a snapshot calls what is still registered when it is reached,
once, and leaves every handler where it belongs.
-/

namespace Netflector.Dispatch.Reentrant

open Netflector.Foundation
open Netflector.Net
open Netflector.Reactor
open Netflector.Reflector

/-! ## What the changes say -/

def goners : List Change → List Key
  | [] => []
  | .made _ _ :: log => goners log
  | .gone key :: log => key :: goners log

def makers : List Change → List Key
  | [] => []
  | .made key _ :: log => key :: makers log
  | .gone _ :: log => makers log

def holder (start : Key → Option Owner) : List Change → Key → Option Owner
  | [], key => start key
  | .made made owner :: log, key =>
      if key = made then some owner else holder start log key
  | .gone gone :: log, key =>
      if key = gone then none else holder start log key

/-- No slot is freed 2^32 times. -/
def Bounded (log : List Change) : Prop :=
  ∀ index, Arena.reuses (goners log) index < 0x100000000

theorem holder_kept {start : Key → Option Owner} {log : List Change} {key : Key}
    (hgone : key ∉ goners log) (hmade : key ∉ makers log) :
    holder start log key = start key := by
  induction log with
  | nil => rfl
  | cons change log ih =>
      cases change with
      | made made owner =>
          rw [makers, List.mem_cons, not_or] at hmade
          rw [holder, if_neg hmade.1]
          exact ih hgone hmade.2
      | gone gone =>
          rw [goners, List.mem_cons, not_or] at hgone
          rw [holder, if_neg hgone.1]
          exact ih hgone.2 hmade

theorem bounded_of_suffix {log log' : List Change} (h : log <:+ log')
    (hbounded : Bounded log') : Bounded log := by
  obtain ⟨newer, rfl⟩ := h
  induction newer with
  | nil => exact hbounded
  | cons change newer ih =>
      apply ih
      intro index
      have hnow := hbounded index
      cases change with
      | made key owner => exact hnow
      | gone key =>
          rw [List.cons_append, goners, Arena.reuses_cons] at hnow
          omega

/-! ## Runs of a script -/

section Scripts

variable {Object Rest Answer : Type} {table table' : Table Object Rest}
  {key : Key}

theorem Table.register_cases (hwf : table.registrations.Wf)
    {ingress : CaptureKey} {filter : Filter} {handler : Boxed Object}
    (h : table.register ingress filter handler = .ok (table', key)) :
    table'.rest = table.rest ∧
    table'.log = .made key ⟨ingress, filter, some handler.name⟩ :: table.log ∧
    Arena.Placed table.registrations table'.registrations key
      ⟨ingress, filter, some handler⟩ := by
  rw [Table.register, Arena.insert] at h
  rcases Arena.insertFrom_total hwf
      (fun _ => (⟨ingress, filter, some handler⟩ :
        Registration (Boxed Object))) with ⟨arena, made, heq, hplaced⟩ | heq
  · rw [heq] at h
    obtain ⟨rfl, rfl⟩ := Prod.mk.inj (Except.ok.inj h)
    exact ⟨rfl, rfl, hplaced⟩
  · rw [heq] at h
    cases h

theorem Table.unregister_cases (table : Table Object Rest) (key : Key) :
    table.registrations.get key = none ∧ table.unregister key = table ∨
    ∃ registration, table.registrations.get key = some registration ∧
      table.unregister key =
        ⟨(table.registrations.remove key).1, table.rest,
          .gone key :: table.log⟩ := by
  rw [Table.unregister]
  cases hget : table.registrations.get key with
  | none =>
      rw [Arena.remove_none hget]
      exact .inl ⟨rfl, rfl⟩
  | some registration =>
      rw [Arena.remove_some hget]
      exact .inr ⟨registration, rfl, rfl⟩

theorem Script.run_preserves (Kept : Table Object Rest → Prop)
    (hregister : ∀ (table table' : Table Object Rest) ingress filter handler
      key, Kept table →
      table.register ingress filter handler = .ok (table', key) → Kept table')
    (hunregister : ∀ (table : Table Object Rest) key, Kept table →
      Kept (table.unregister key))
    (hact : ∀ (table : Table Object Rest) rest, Kept table →
      Kept ⟨table.registrations, rest, table.log⟩)
    {name : Nat} {script : Script Object Rest Answer} {boxed : Boxed Object}
    {answer : Answer} (h : Kept table)
    (hrun : script.run name table = .ok (boxed, table', answer)) :
    boxed.name = name ∧ Kept table' := by
  induction script generalizing table with
  | done object found =>
      obtain ⟨rfl, hrest⟩ := Prod.mk.inj (Except.ok.inj hrun)
      obtain ⟨rfl, _⟩ := Prod.mk.inj hrest
      exact ⟨rfl, h⟩
  | fail panic => cases hrun
  | register ingress filter handler next ih =>
      rw [Script.run] at hrun
      cases hmade : table.register ingress filter handler with
      | error panic =>
          rw [hmade] at hrun
          cases hrun
      | ok result =>
          obtain ⟨made, key⟩ := result
          rw [hmade] at hrun
          exact ih key (hregister _ _ _ _ _ _ h hmade) hrun
  | unregister key next ih => exact ih (hunregister _ key h) hrun
  | act effect next ih => exact ih _ (hact _ _ h) hrun

theorem Script.run_log {name : Nat} {script : Script Object Rest Answer}
    {boxed : Boxed Object} {answer : Answer}
    (hwf : table.registrations.Wf)
    (hrun : script.run name table = .ok (boxed, table', answer)) :
    table'.registrations.Wf ∧ table.log <:+ table'.log := by
  refine (Script.run_preserves
    (fun now => now.registrations.Wf ∧ table.log <:+ now.log) ?_ ?_ ?_
    ⟨hwf, List.suffix_rfl⟩ hrun).2
  · rintro before after ingress filter handler key ⟨hwf, hlog⟩ hmade
    obtain ⟨_, hafter, hplaced⟩ := Table.register_cases hwf hmade
    rw [hafter]
    exact ⟨hplaced.wf, hlog.trans (List.suffix_cons _ _)⟩
  · rintro before key ⟨hwf, hlog⟩
    rcases before.unregister_cases key with ⟨_, heq⟩ | ⟨_, hget, heq⟩
    · rw [heq]
      exact ⟨hwf, hlog⟩
    · rw [heq]
      exact ⟨Arena.wf_remove hwf hget, hlog.trans (List.suffix_cons _ _)⟩
  · exact fun _ _ hkept => hkept

end Scripts

@[simp]
theorem Handling.registrations_host {Object Rest : Type}
    (handling : Handling Object Rest) (table : Table Object Rest) :
    handling.host.registrations table = table.registrations :=
  rfl

/-! ## Every handler is in place -/

section Manned

variable {Object Rest Answer : Type}

structure Manned (out : Option Key) (table : Table Object Rest) : Prop where
  wf : table.registrations.Wf
  present : ∀ key registration,
    table.registrations.get key = some registration →
    registration.handler = none → out = some key

variable {out : Option Key} {table table' : Table Object Rest} {key : Key}

theorem Manned.register (h : Manned out table) {ingress : CaptureKey}
    {filter : Filter} {handler : Boxed Object}
    (hmade : table.register ingress filter handler = .ok (table', key)) :
    Manned out table' := by
  obtain ⟨_, _, hplaced⟩ := Table.register_cases h.wf hmade
  refine ⟨hplaced.wf, ?_⟩
  intro other registration hget hnone
  rw [hplaced.inserted.get_eq] at hget
  split at hget
  · cases hget
    cases hnone
  · exact h.present other registration hget hnone

theorem Manned.unregister (h : Manned out table) (key : Key) :
    Manned out (table.unregister key) := by
  rcases table.unregister_cases key with ⟨_, heq⟩ | ⟨_, hlive, heq⟩
  · rw [heq]
    exact h
  · rw [heq]
    refine ⟨Arena.wf_remove h.wf hlive, ?_⟩
    intro other registration hget hnone
    simp only [Arena.get_remove hlive] at hget
    split at hget
    · cases hget
    · exact h.present other registration hget hnone

theorem Manned.run (h : Manned out table) {name : Nat}
    {script : Script Object Rest Answer} {boxed : Boxed Object}
    {answer : Answer}
    (hrun : script.run name table = .ok (boxed, table', answer)) :
    boxed.name = name ∧ Manned out table' :=
  Script.run_preserves (Manned out)
    (fun _ _ _ _ _ _ h hmade => h.register hmade)
    (fun _ key h => h.unregister key) (fun _ _ h => ⟨h.wf, h.present⟩) h hrun

variable (handling : Handling Object Rest)

theorem Manned.take (h : Manned none table)
    {registration : Registration (Boxed Object)}
    (hlive : table.registrations.get key = some registration) :
    ∃ handler, registration.handler = some handler ∧
      takeHandler handling.host table key =
        (⟨table.registrations.set key { registration with handler := none },
          table.rest, table.log⟩, some handler) := by
  cases hhandler : registration.handler with
  | none => cases h.present key registration hlive hhandler
  | some handler =>
      refine ⟨handler, rfl, ?_⟩
      simp only [takeHandler, Handling.host, hlive, hhandler]

theorem Manned.taken (h : Manned none table)
    {registration : Registration (Boxed Object)}
    (hlive : table.registrations.get key = some registration) :
    Manned (some key) (⟨table.registrations.set key
      { registration with handler := none }, table.rest, table.log⟩ :
        Table Object Rest) := by
  refine ⟨Arena.wf_set h.wf key _, ?_⟩
  intro other found hget hnone
  simp only [Arena.get_set hlive] at hget
  split at hget
  · rename_i hsame
    rw [hsame]
  · cases h.present other found hget hnone

theorem Manned.restore (h : Manned (some key) table) (handler : Boxed Object) :
    Manned none (restoreHandler handling.host table key handler) := by
  simp only [restoreHandler, Handling.host]
  cases hget : table.registrations.get key with
  | none =>
      refine ⟨h.wf, ?_⟩
      intro other found hfound hnone
      cases h.present other found hfound hnone
      rw [hget] at hfound
      cases hfound
  | some registration =>
      refine ⟨Arena.wf_set h.wf key _, ?_⟩
      intro other found hfound hnone
      simp only [Arena.get_set hget] at hfound
      split at hfound
      · cases hfound
        cases hnone
      · rename_i hother
        cases h.present other found hfound hnone
        exact absurd rfl hother

end Manned

/-! ## Every handler is its own registration's -/

section Tracked

variable {Object Rest Answer : Type}

def ownersAt (start : Arena (Registration (Boxed Object))) (key : Key) :
    Option Owner :=
  (start.get key).map ownerOf

def absent (out : Option (Key × Nat)) (key : Key) (owner : Owner) : Owner :=
  if out.map Prod.fst = some key then { owner with name := none } else owner

structure Tracked (start : Arena (Registration (Boxed Object)))
    (out : Option (Key × Nat)) (table : Table Object Rest) : Prop where
  aged : table.registrations.AgedFrom start.generations (goners table.log)
  held : ∀ key, (table.registrations.get key).map ownerOf =
    (holder (ownersAt start) table.log key).map (absent out key)
  kept : ∀ key, (start.get key).isSome → key ∉ goners table.log →
    key ∉ makers table.log
  outside : ∀ key name, out = some (key, name) →
    ∃ registration, start.get key = some registration ∧
      (ownerOf registration).name = some name

variable {start : Arena (Registration (Boxed Object))}
  {out : Option (Key × Nat)} {table table' : Table Object Rest} {key : Key}

theorem absent_none (key : Key) : absent none key = id := rfl

theorem tracked_start (hwf : start.Wf) (rest : Rest) :
    Tracked start none ⟨start, rest, []⟩ := by
  refine ⟨Arena.agedFrom_start hwf, ?_, ?_, ?_⟩
  · intro key
    rw [absent_none, Option.map_id_fun, id_eq]
    rfl
  · exact fun _ _ _ hmem => List.not_mem_nil hmem
  · intro key name hout
    cases hout

theorem Tracked.gone (h : Tracked start out table)
    (hbounded : Bounded table.log) (hgone : key ∈ goners table.log) :
    table.registrations.get key = none :=
  h.aged.stale hgone (hbounded key.index)

theorem Tracked.there (h : Tracked start out table)
    (hlive : (start.get key).isSome) (hgone : key ∉ goners table.log) :
    (table.registrations.get key).map ownerOf =
      (ownersAt start key).map (absent out key) := by
  rw [h.held, holder_kept hgone (h.kept key hlive hgone)]

theorem Tracked.isSome_there (h : Tracked start out table)
    (hlive : (start.get key).isSome) (hgone : key ∉ goners table.log) :
    (table.registrations.get key).isSome := by
  have hthere := congrArg Option.isSome (h.there hlive hgone)
  rw [Option.isSome_map, Option.isSome_map, ownersAt, Option.isSome_map,
    hlive] at hthere
  exact hthere

theorem Tracked.fresh (h : Tracked start out table)
    (hbounded : Bounded table.log) {arena : Arena (Registration (Boxed Object))}
    {registration : Registration (Boxed Object)}
    (hplaced : Arena.Placed table.registrations arena key registration)
    {old : Key} (hold : (start.get old).isSome) : old ≠ key := by
  rintro rfl
  by_cases hgone : old ∈ goners table.log
  · have hstale := (h.aged.placed hplaced).stale hgone (hbounded old.index)
    rw [hplaced.inserted.get_eq, if_pos rfl] at hstale
    cases hstale
  · have hthere := h.isSome_there hold hgone
    rw [hplaced.inserted.fresh] at hthere
    cases hthere

theorem absent_of_ne {other : Key} (h : out.map Prod.fst ≠ some other) :
    absent out other = id := by
  funext owner
  rw [absent, if_neg h]
  rfl

theorem Tracked.register (h : Tracked start out table)
    (hbounded : Bounded table.log) {ingress : CaptureKey} {filter : Filter}
    {handler : Boxed Object}
    (hmade : table.register ingress filter handler = .ok (table', key)) :
    Tracked start out table' := by
  obtain ⟨_, hlog, hplaced⟩ := Table.register_cases h.aged.wf hmade
  have hgoners : goners table'.log = goners table.log := by rw [hlog, goners]
  refine ⟨?_, ?_, ?_, h.outside⟩
  · rw [hgoners]
    exact h.aged.placed hplaced
  · intro other
    rw [hplaced.inserted.get_eq, hlog, holder]
    by_cases hsame : other = key
    · rw [if_pos hsame, if_pos hsame, Option.map_some, Option.map_some]
      have hother : out.map Prod.fst ≠ some other := by
        intro hout
        obtain ⟨⟨old, name⟩, hold, hkey⟩ := Option.map_eq_some_iff.mp hout
        obtain ⟨registration, hget, _⟩ := h.outside old name hold
        apply h.fresh hbounded hplaced (Option.isSome_of_eq_some hget)
        rw [← hsame, ← hkey]
      rw [absent_of_ne hother]
      rfl
    · rw [if_neg hsame, if_neg hsame]
      exact h.held other
  · intro old hold hgone
    rw [hgoners] at hgone
    rw [hlog, makers, List.mem_cons, not_or]
    exact ⟨h.fresh hbounded hplaced hold, h.kept old hold hgone⟩

theorem Tracked.unregister (h : Tracked start out table) (key : Key) :
    Tracked start out (table.unregister key) := by
  rcases table.unregister_cases key with ⟨_, heq⟩ | ⟨registration, hlive, heq⟩
  · rw [heq]
    exact h
  · rw [heq]
    refine ⟨h.aged.remove hlive, ?_, ?_, h.outside⟩
    · intro other
      simp only [Arena.get_remove hlive, holder]
      by_cases hsame : other = key
      · rw [if_pos hsame, if_pos hsame]
        rfl
      · rw [if_neg hsame, if_neg hsame]
        exact h.held other
    · intro old hold hgone
      rw [goners, List.mem_cons, not_or] at hgone
      exact h.kept old hold hgone.2

theorem Tracked.run (h : Bounded table.log → Tracked start out table)
    (hwf : table.registrations.Wf) {name : Nat}
    {script : Script Object Rest Answer} {boxed : Boxed Object}
    {answer : Answer}
    (hrun : script.run name table = .ok (boxed, table', answer)) :
    Bounded table'.log → Tracked start out table' := by
  refine (Script.run_preserves (fun now => now.registrations.Wf ∧
    (Bounded now.log → Tracked start out now)) ?_ ?_ ?_ ⟨hwf, h⟩ hrun).2.2
  · rintro before after ingress filter handler key ⟨hwf, htracked⟩ hmade
    obtain ⟨_, hlog, hplaced⟩ := Table.register_cases hwf hmade
    refine ⟨hplaced.wf, ?_⟩
    intro hbounded
    rw [hlog] at hbounded
    have hbefore := bounded_of_suffix (List.suffix_cons _ _) hbounded
    exact (htracked hbefore).register hbefore hmade
  · rintro before key ⟨hwf, htracked⟩
    rcases before.unregister_cases key with ⟨_, heq⟩ | ⟨_, hlive, heq⟩
    · rw [heq]
      exact ⟨hwf, htracked⟩
    · refine ⟨by rw [heq]; exact Arena.wf_remove hwf hlive, ?_⟩
      intro hbounded
      apply Tracked.unregister (htracked _)
      rw [heq] at hbounded
      exact bounded_of_suffix (List.suffix_cons _ _) hbounded
  · rintro before rest ⟨hwf, htracked⟩
    refine ⟨hwf, ?_⟩
    intro hbounded
    have hbefore := htracked hbounded
    exact ⟨hbefore.aged, hbefore.held, hbefore.kept, hbefore.outside⟩

variable (handling : Handling Object Rest)

theorem Tracked.taken (h : Tracked start none table)
    (hbounded : Bounded table.log) (hstart : (start.get key).isSome)
    {registration : Registration (Boxed Object)} {handler : Boxed Object}
    (hlive : table.registrations.get key = some registration)
    (hhandler : registration.handler = some handler) :
    Tracked start (some (key, handler.name)) (⟨table.registrations.set key
      { registration with handler := none }, table.rest, table.log⟩ :
        Table Object Rest) := by
  have hgone : key ∉ goners table.log := by
    intro hgone
    rw [h.gone hbounded hgone] at hlive
    cases hlive
  have hthere := h.there hstart hgone
  rw [absent_none, Option.map_id_fun, id_eq, hlive,
    Option.map_some] at hthere
  refine ⟨h.aged.set key _, ?_, h.kept, ?_⟩
  · intro other
    simp only [Arena.get_set hlive]
    by_cases hsame : other = key
    · subst hsame
      rw [if_pos rfl, holder_kept hgone (h.kept _ hstart hgone), ← hthere]
      simp [absent, ownerOf]
    · have hother : (some (key, handler.name)).map Prod.fst ≠ some other := by
        intro hout
        exact hsame (Option.some.inj hout).symm
      rw [if_neg hsame, absent_of_ne hother, h.held, absent_none]
  · rintro other name hout
    cases hout
    rw [ownersAt] at hthere
    obtain ⟨found, hfound, howner⟩ := Option.map_eq_some_iff.mp hthere.symm
    refine ⟨found, hfound, ?_⟩
    rw [howner, ownerOf, hhandler]
    rfl

theorem Tracked.restore {handler : Boxed Object}
    (h : Tracked start (some (key, handler.name)) table)
    (hbounded : Bounded table.log) :
    Tracked start none (restoreHandler handling.host table key handler) := by
  have hothers : ∀ other, other ≠ key →
      absent (some (key, handler.name)) other = absent none other := by
    intro other hother
    apply absent_of_ne
    intro hout
    exact hother (Option.some.inj hout).symm
  have hnone : ∀ {key name}, (none : Option (Key × Nat)) = some (key, name) →
      ∃ registration, start.get key = some registration ∧
        (ownerOf registration).name = some name := by
    intro key name hout
    cases hout
  simp only [restoreHandler, Handling.host]
  cases hget : table.registrations.get key with
  | none =>
      refine ⟨h.aged, ?_, h.kept, fun _ _ => hnone⟩
      intro other
      by_cases hsame : other = key
      · have hheld := h.held key
        rw [hget, Option.map_none] at hheld
        have hholder := Option.map_eq_none_iff.mp hheld.symm
        rw [hsame, hget, hholder]
        rfl
      · rw [← hothers other hsame]
        exact h.held other
  | some registration =>
      have hgone : key ∉ goners table.log := by
        intro hgone
        rw [h.gone hbounded hgone] at hget
        cases hget
      obtain ⟨first, hfirst, hname⟩ := h.outside key handler.name rfl
      have hstart := Option.isSome_of_eq_some hfirst
      have hthere := h.there hstart hgone
      rw [hget, ownersAt, hfirst, Option.map_some, Option.map_some,
        Option.map_some, Option.some.injEq] at hthere
      refine ⟨h.aged.set key _, ?_, h.kept, fun _ _ => hnone⟩
      intro other
      simp only [Arena.get_set hget]
      by_cases hsame : other = key
      · subst hsame
        rw [if_pos rfl, holder_kept hgone (h.kept _ hstart hgone), ownersAt,
          hfirst, absent_none]
        simp only [absent, Option.map_some, if_true, ownerOf,
          Owner.mk.injEq] at hthere hname
        simp only [Option.map_some, ownerOf, id_eq, Option.some.injEq,
          Owner.mk.injEq]
        exact ⟨hthere.1, hthere.2.1, hname.symm⟩
      · rw [if_neg hsame, ← hothers other hsame]
        exact h.held other

end Tracked

/-! ## A step, and a pass over the snapshot -/

section Passes

variable {Object Rest Answer : Type}
  {start : Arena (Registration (Boxed Object))}

structure Settled (start : Arena (Registration (Boxed Object)))
    (table : Table Object Rest) : Prop where
  manned : Manned none table
  tracked : Bounded table.log → Tracked start none table

/-- What a step of a loop does from a settled table: it calls the handler
where the registration is there and wanted. -/
structure Stepped (start : Arena (Registration (Boxed Object)))
    (wants : Registration (Boxed Object) → Bool) (key : Key)
    (table next : Table Object Rest) (answer : Option Answer) : Prop where
  settled : Settled start next
  log : table.log <:+ next.log
  called : answer.isSome ↔ (table.registrations.get key).any wants

variable {table : Table Object Rest} {key : Key}
  {registration : Registration (Boxed Object)} {handler : Boxed Object}
  (handling : Handling Object Rest)
  (behave : Boxed Object → Script Object Rest Answer)

theorem invoke_settled (hstart : (start.get key).isSome)
    (h : Settled start table)
    (hlive : table.registrations.get key = some registration)
    (hhandler : registration.handler = some handler)
    {next : Table Object Rest} {answer : Option Answer}
    (hinvoke : invoke handling.host
      (fun _ handler => (behave handler).run handler.name) key handler
      ⟨table.registrations.set key { registration with handler := none },
        table.rest, table.log⟩ = .ok (next, answer)) :
    Settled start next ∧ table.log <:+ next.log ∧ answer.isSome := by
  rw [invoke] at hinvoke
  split at hinvoke
  · cases hinvoke
  · rename_i boxed after found hrun
    obtain ⟨rfl, rfl⟩ := Prod.mk.inj (Except.ok.inj hinvoke)
    have hmanned := h.manned.taken hlive
    obtain ⟨hname, hmanned'⟩ := hmanned.run hrun
    obtain ⟨_, hlog⟩ := Script.run_log hmanned.wf hrun
    have hsame : (restoreHandler handling.host after key boxed).log =
        after.log := by
      simp only [restoreHandler, Handling.host]
      split <;> rfl
    refine ⟨⟨hmanned'.restore handling boxed, ?_⟩, ?_, rfl⟩
    · intro hbounded
      rw [hsame] at hbounded
      have hbefore : Bounded table.log → Tracked start
          (some (key, handler.name)) (⟨table.registrations.set key
            { registration with handler := none }, table.rest, table.log⟩ :
              Table Object Rest) :=
        fun hbounded => (h.tracked hbounded).taken hbounded hstart hlive
          hhandler
      have htaken := Tracked.run hbefore hmanned.wf hrun hbounded
      rw [← hname] at htaken
      exact htaken.restore handling hbounded
    · rw [hsame]
      exact hlog

theorem invoke_not_missing (taken : Table Object Rest) :
    invoke handling.host (fun _ handler => (behave handler).run handler.name)
      key handler taken ≠ .error .missing := by
  rw [invoke]
  split
  · intro hsame
    cases hsame
  · intro hsame
    cases hsame

/-- The steps of a loop are as above, and none finds a handler missing. -/
structure StepSound (start : Arena (Registration (Boxed Object)))
    (wants : Registration (Boxed Object) → Bool)
    (step : Key → Table Object Rest →
      Except Crash (Table Object Rest × Option Answer)) : Prop where
  not_missing : ∀ key table, Settled start table →
    step key table ≠ .error .missing
  stepped : ∀ key table next answer, (start.get key).isSome →
    Settled start table → step key table = .ok (next, answer) →
    Stepped start wants key table next answer

theorem routeStep_skips {ingress : CaptureKey} {packet : Packet}
    {addrs : Option InterfaceAddresses}
    (h : (table.registrations.get key).any (fun registration =>
      registration.applies ingress packet addrs) = false) :
    routeStep handling.host
      (fun _ handler => (behave handler).run handler.name) ingress packet
      addrs key table = .ok (table, none) := by
  have hne : ¬ ((handling.host.registrations table).get key).any
      (fun registration => registration.applies ingress packet addrs) =
        true := by
    rw [handling.registrations_host, h]
    exact Bool.false_ne_true
  rw [routeStep, if_neg hne]

theorem routeStep_calls {ingress : CaptureKey} {packet : Packet}
    {addrs : Option InterfaceAddresses} (h : Settled start table)
    (happlies : (table.registrations.get key).any (fun registration =>
      registration.applies ingress packet addrs) = true) :
    ∃ registration handler,
      table.registrations.get key = some registration ∧
      registration.handler = some handler ∧
      routeStep handling.host
        (fun _ handler => (behave handler).run handler.name) ingress packet
        addrs key table =
      invoke handling.host
        (fun _ handler => (behave handler).run handler.name) key handler
        ⟨table.registrations.set key { registration with handler := none },
          table.rest, table.log⟩ := by
  cases hget : table.registrations.get key with
  | none =>
      rw [hget] at happlies
      cases happlies
  | some registration =>
      obtain ⟨handler, hhandler, htake⟩ := h.manned.take handling hget
      have hhost : ((handling.host.registrations table).get key).any
          (fun registration => registration.applies ingress packet addrs) =
            true := happlies
      refine ⟨registration, handler, rfl, hhandler, ?_⟩
      rw [routeStep, if_pos hhost, htake]

theorem routeStep_sound (ingress : CaptureKey) (packet : Packet)
    (addrs : Option InterfaceAddresses) :
    StepSound start (fun registration =>
        registration.applies ingress packet addrs)
      (routeStep handling.host
        (fun _ handler => (behave handler).run handler.name) ingress packet
        addrs) := by
  constructor
  · intro key table h
    cases happlies : (table.registrations.get key).any
      (fun registration => registration.applies ingress packet addrs) with
    | false =>
        rw [routeStep_skips handling behave happlies]
        intro hsame
        cases hsame
    | true =>
        obtain ⟨_, _, _, _, heq⟩ :=
          routeStep_calls handling behave h happlies
        rw [heq]
        exact invoke_not_missing handling behave _
  · intro key table next answer hstart h hstep
    cases happlies : (table.registrations.get key).any
      (fun registration => registration.applies ingress packet addrs) with
    | false =>
        rw [routeStep_skips handling behave happlies] at hstep
        obtain ⟨rfl, rfl⟩ := Prod.mk.inj (Except.ok.inj hstep)
        exact ⟨h, List.suffix_rfl, by rw [happlies]; rfl⟩
    | true =>
        obtain ⟨_, _, hget, hhandler, heq⟩ :=
          routeStep_calls handling behave h happlies
        rw [heq] at hstep
        obtain ⟨hsettled, hlog, hsome⟩ := invoke_settled handling behave
          hstart h hget hhandler hstep
        exact ⟨hsettled, hlog, by rw [happlies, hsome]⟩

theorem callStep_sound :
    StepSound start (fun _ => true)
      (callStep handling.host
        (fun _ handler => (behave handler).run handler.name)) := by
  constructor
  · intro key table h
    rw [callStep]
    cases hget : table.registrations.get key with
    | none =>
        simp only [takeHandler, handling.registrations_host, hget]
        intro hsame
        cases hsame
    | some registration =>
        obtain ⟨handler, _, htake⟩ := h.manned.take handling hget
        rw [htake]
        exact invoke_not_missing handling behave _
  · intro key table next answer hstart h hstep
    rw [callStep] at hstep
    cases hget : table.registrations.get key with
    | none =>
        simp only [takeHandler, handling.registrations_host, hget] at hstep
        obtain ⟨rfl, rfl⟩ := Prod.mk.inj (Except.ok.inj hstep)
        exact ⟨h, List.suffix_rfl, by rw [hget]; rfl⟩
    | some registration =>
        obtain ⟨handler, hhandler, htake⟩ := h.manned.take handling hget
        rw [htake] at hstep
        obtain ⟨hsettled, hlog, hsome⟩ := invoke_settled handling behave
          hstart h hget hhandler hstep
        exact ⟨hsettled, hlog, by rw [hget, Option.any_some, hsome]⟩

structure Passed (start : Arena (Registration (Boxed Object)))
    (wants : Registration (Boxed Object) → Bool) (keys : List Key)
    (table : Table Object Rest)
    (turn : Turn (Table Object Rest) Answer) : Prop where
  order : turn.visits.map (·.key) = keys
  settled : Settled start turn.state
  log : table.log <:+ turn.state.log
  visits : ∀ visit ∈ turn.visits, Settled start visit.reached ∧
    visit.reached.log <:+ turn.state.log ∧
    (visit.answer.isSome ↔
      (visit.reached.registrations.get visit.key).any wants)

theorem pass_not_missing {wants : Registration (Boxed Object) → Bool}
    {step : Key → Table Object Rest →
      Except Crash (Table Object Rest × Option Answer)}
    (hsound : StepSound start wants step) {keys : List Key}
    (hkeys : ∀ key ∈ keys, (start.get key).isSome)
    (h : Settled start table) : pass step keys table ≠ .error .missing := by
  induction keys generalizing table with
  | nil =>
      intro hsame
      cases hsame
  | cons key keys ih =>
      rw [pass]
      cases hstep : step key table with
      | error crash =>
          intro hsame
          rw [Except.error.injEq] at hsame
          exact hsound.not_missing key table h (hstep.trans (by rw [hsame]))
      | ok result =>
          obtain ⟨next, answer⟩ := result
          have hnext := (hsound.stepped key table next answer
            (hkeys key List.mem_cons_self) h hstep).settled
          have hrest := ih (fun key hmem => hkeys key
            (List.mem_cons_of_mem _ hmem)) hnext
          simp only
          cases hpass : pass step keys next with
          | error crash =>
              rw [hpass] at hrest
              exact fun hsame => hrest hsame
          | ok turn =>
              intro hsame
              cases hsame

theorem pass_passed {wants : Registration (Boxed Object) → Bool}
    {step : Key → Table Object Rest →
      Except Crash (Table Object Rest × Option Answer)}
    (hsound : StepSound start wants step) {keys : List Key}
    (hkeys : ∀ key ∈ keys, (start.get key).isSome)
    (h : Settled start table) {turn : Turn (Table Object Rest) Answer}
    (hpass : pass step keys table = .ok turn) :
    Passed start wants keys table turn := by
  induction keys generalizing table turn with
  | nil =>
      cases hpass
      refine ⟨rfl, h, List.suffix_rfl, ?_⟩
      intro visit hmem
      cases hmem
  | cons key keys ih =>
      rw [pass] at hpass
      cases hstep : step key table with
      | error crash =>
          rw [hstep] at hpass
          cases hpass
      | ok result =>
          obtain ⟨next, answer⟩ := result
          have hstepped := hsound.stepped key table next answer
            (hkeys key List.mem_cons_self) h hstep
          simp only [hstep] at hpass
          cases hrest : pass step keys next with
          | error crash =>
              rw [hrest] at hpass
              cases hpass
          | ok rest =>
              have hpassed := ih (fun key hmem => hkeys key
                (List.mem_cons_of_mem _ hmem)) hstepped.settled hrest
              rw [hrest] at hpass
              cases hpass
              refine ⟨congrArg (key :: ·) hpassed.order, hpassed.settled,
                hstepped.log.trans hpassed.log, ?_⟩
              intro visit hmem
              rcases List.mem_cons.mp hmem with rfl | hmem
              · exact ⟨h, hstepped.log.trans hpassed.log, hstepped.called⟩
              · exact hpassed.visits visit hmem

end Passes

/-! ## Deliveries -/

section Deliveries

variable {Object Rest Answer : Type}

structure Ready (registrations : Arena (Registration (Boxed Object))) :
    Prop where
  wf : registrations.Wf
  present : ∀ key registration,
    registrations.get key = some registration → registration.handler.isSome

/-- Those of the `chosen` registrations that are wanted and not removed by the
time they are reached are called, in the order of the snapshot and once each,
and each registration then has the handler it was made with. -/
structure Delivered (start : Arena (Registration (Boxed Object)))
    (chosen wants : Registration (Boxed Object) → Bool) (snapshot : List Key)
    (turn : Turn (Table Object Rest) Answer) : Prop where
  live : ∀ key, key ∈ snapshot ↔ (start.get key).any chosen
  once : snapshot.Nodup
  order : turn.visits.map (·.key) = snapshot
  called : ∀ visit ∈ turn.visits, visit.answer.isSome ↔
    visit.key ∉ goners visit.reached.log ∧ (start.get visit.key).any wants
  notMade : ∀ visit ∈ turn.visits, visit.answer.isSome →
    visit.key ∉ makers visit.reached.log
  owners : ∀ key, (turn.state.registrations.get key).map ownerOf =
    holder (ownersAt start) turn.state.log key
  ready : Ready turn.state.registrations

variable {start : Arena (Registration (Boxed Object))}

theorem Ready.settled (h : Ready start) (rest : Rest) :
    Settled start ⟨start, rest, []⟩ := by
  refine ⟨⟨h.wf, ?_⟩, fun _ => tracked_start h.wf rest⟩
  intro key registration hget hnone
  have hsome := h.present key registration hget
  rw [hnone] at hsome
  cases hsome

/-- What is wanted of a registration does not depend on its handler. -/
def Unhandled (wants : Registration (Boxed Object) → Bool) : Prop :=
  ∀ first second, ownerOf first = ownerOf second → wants first = wants second

theorem Passed.called {wants : Registration (Boxed Object) → Bool}
    (hwants : Unhandled wants) {keys : List Key} {table : Table Object Rest}
    {turn : Turn (Table Object Rest) Answer}
    (h : Passed start wants keys table turn)
    (hkeys : ∀ key ∈ keys, (start.get key).isSome)
    (hbounded : Bounded turn.state.log)
    {visit : Visit (Table Object Rest) Answer}
    (hvisit : visit ∈ turn.visits) :
    (visit.answer.isSome ↔ visit.key ∉ goners visit.reached.log ∧
      (start.get visit.key).any wants) ∧
    (visit.answer.isSome → visit.key ∉ makers visit.reached.log) := by
  obtain ⟨hsettled, hlog, hcalled⟩ := h.visits visit hvisit
  have hreached := bounded_of_suffix hlog hbounded
  have htracked := hsettled.tracked hreached
  have hstart : (start.get visit.key).isSome := by
    apply hkeys
    rw [← h.order]
    exact List.mem_map_of_mem hvisit
  rw [hcalled]
  by_cases hgone : visit.key ∈ goners visit.reached.log
  · rw [htracked.gone hreached hgone]
    constructor
    · constructor
      · intro hnone
        cases hnone
      · exact fun hboth => absurd hgone hboth.1
    · intro hnone
      cases hnone
  · have hthere := htracked.there hstart hgone
    rw [absent_none, Option.map_id_fun, id_eq, ownersAt] at hthere
    have hsame : (visit.reached.registrations.get visit.key).any wants =
        (start.get visit.key).any wants := by
      cases hfirst : start.get visit.key with
      | none =>
          rw [hfirst] at hstart
          cases hstart
      | some first =>
          rw [hfirst, Option.map_some] at hthere
          obtain ⟨second, hsecond, howner⟩ := Option.map_eq_some_iff.mp hthere
          rw [hsecond, Option.any_some, Option.any_some]
          exact hwants second first howner
    rw [hsame]
    exact ⟨⟨fun hany => ⟨hgone, hany⟩, fun hboth => hboth.2⟩,
      fun _ => htracked.kept _ hstart hgone⟩

theorem Passed.delivered {chosen wants : Registration (Boxed Object) → Bool}
    (hwants : Unhandled wants) {keys : List Key} {table : Table Object Rest}
    {turn : Turn (Table Object Rest) Answer}
    (h : Passed start wants keys table turn)
    (hlive : ∀ key, key ∈ keys ↔ (start.get key).any chosen)
    (hkeys : ∀ key ∈ keys, (start.get key).isSome) (honce : keys.Nodup)
    (hbounded : Bounded turn.state.log) :
    Delivered start chosen wants keys turn := by
  refine ⟨hlive, honce, h.order,
    fun visit hvisit => (h.called hwants hkeys hbounded hvisit).1,
    fun visit hvisit => (h.called hwants hkeys hbounded hvisit).2, ?_, ?_⟩
  · intro key
    rw [(h.settled.tracked hbounded).held, absent_none, Option.map_id_fun,
      id_eq]
  · refine ⟨h.settled.manned.wf, ?_⟩
    intro key registration hget
    cases hhandler : registration.handler with
    | none => cases h.settled.manned.present key registration hget hhandler
    | some handler => rfl

theorem any_isSome {chosen : Registration (Boxed Object) → Bool} {key : Key}
    (h : (start.get key).any chosen) : (start.get key).isSome := by
  cases hget : start.get key with
  | none =>
      rw [hget] at h
      cases h
  | some registration => rfl

theorem mem_filtered (hwf : start.Wf)
    (chosen : Registration (Boxed Object) → Bool) (key : Key) :
    key ∈ (start.iter.filter fun item => chosen item.2).map Prod.fst ↔
      (start.get key).any chosen := by
  rw [List.mem_map]
  constructor
  · rintro ⟨⟨found, registration⟩, hmem, rfl⟩
    obtain ⟨hmem, hchosen⟩ := List.mem_filter.mp hmem
    rw [(Arena.mem_iter hwf).mp hmem]
    exact hchosen
  · intro hany
    cases hget : start.get key with
    | none =>
        rw [hget] at hany
        cases hany
    | some registration =>
        rw [hget] at hany
        exact ⟨(key, registration), List.mem_filter.mpr
          ⟨(Arena.mem_iter hwf).mpr hget, hany⟩, rfl⟩

theorem mem_snapshot (hwf : start.Wf) (key : Key) :
    key ∈ start.iter.map Prod.fst ↔
      (start.get key).any (fun _ => true) := by
  rw [← mem_filtered hwf, List.filter_eq_self.mpr (fun _ _ => rfl)]

theorem finalOutcome_some (final : Outcome) (outcomes : List Outcome) :
    (finalOutcome (some final) outcomes).isSome := by
  induction outcomes generalizing final with
  | nil => rfl
  | cons outcome rest ih => exact ih _

theorem finalOutcome_none (outcomes : List Outcome) :
    (finalOutcome none outcomes).isSome ↔ outcomes ≠ [] := by
  cases outcomes with
  | nil => simp [finalOutcome]
  | cons outcome rest =>
      rw [finalOutcome, finalOutcome_some]
      simp

theorem recorded_once (visits : List (Visit (Table Object Rest) Outcome)) :
    (finalOutcome none (visits.filterMap (·.answer))).toList.length =
      if visits.any (·.answer.isSome) then 1 else 0 := by
  have hiff := finalOutcome_none (visits.filterMap (·.answer))
  have hany : visits.filterMap (·.answer) ≠ [] ↔
      visits.any (·.answer.isSome) = true := by
    rw [ne_eq, List.filterMap_eq_nil_iff, List.any_eq_true]
    simp only [not_forall, Option.isSome_iff_ne_none, ne_eq, exists_prop]
  rw [hany] at hiff
  cases hfinal : finalOutcome none (visits.filterMap (·.answer)) with
  | none =>
      rw [hfinal] at hiff
      rw [if_neg (fun htrue => Bool.false_ne_true (hiff.mpr htrue))]
      rfl
  | some outcome =>
      rw [hfinal] at hiff
      rw [if_pos (hiff.mp rfl)]
      rfl

theorem unhandled_all :
    Unhandled (fun _ : Registration (Boxed Object) => true) :=
  fun _ _ _ => rfl

theorem unhandled_applies (ingress : CaptureKey) (packet : Packet)
    (addrs : Option InterfaceAddresses) :
    Unhandled (fun registration : Registration (Boxed Object) =>
      registration.applies ingress packet addrs) := by
  intro first second howner
  simp only [ownerOf, Owner.mk.injEq] at howner
  simp only [Registration.applies, howner.1, howner.2.1]

variable (handling : Handling Object Rest) (rest : Rest)

theorem route_not_echo {ingress : CaptureKey} {packet : Packet}
    (hecho : isOwnEcho packet.srcMac
      ((handling.egressAddrs rest ingress).bind (·.mac)) = false) :
    handling.route ingress packet ⟨start, rest, []⟩ =
      (pass (routeStep handling.host (fun _ handler =>
          (handling.onPacket handler.object packet).run handler.name) ingress
          packet (handling.egressAddrs rest ingress))
        (start.iter.map Prod.fst)
        ⟨start, handling.beginPacket rest, []⟩).map
          (endRoute handling.host) := by
  have hne : ¬ isOwnEcho packet.srcMac
      ((handling.host.egressAddrs ⟨start, rest, []⟩ ingress).bind (·.mac)) =
        true := by
    intro htrue
    exact Bool.false_ne_true (hecho.symm.trans htrue)
  rw [Handling.route, Reentrant.route, if_neg hne]
  rfl

theorem route_delivered (hready : Ready start) {ingress : CaptureKey}
    {packet : Packet} (hecho : isOwnEcho packet.srcMac
      ((handling.egressAddrs rest ingress).bind (·.mac)) = false) :
    handling.route ingress packet ⟨start, rest, []⟩ ≠ .error .missing ∧
    ∀ routed, handling.route ingress packet ⟨start, rest, []⟩ = .ok routed →
      routed.recorded.length =
        (if routed.turn.visits.any (·.answer.isSome) then 1 else 0) ∧
      (Bounded routed.turn.state.log →
        Delivered start (fun _ => true)
          (fun registration => registration.applies ingress packet
            (handling.egressAddrs rest ingress))
          (start.iter.map Prod.fst) routed.turn) := by
  have hlive := mem_snapshot hready.wf
  have hkeys : ∀ key ∈ start.iter.map Prod.fst, (start.get key).isSome :=
    fun key hmem => any_isSome ((hlive key).mp hmem)
  have hsettled := hready.settled (handling.beginPacket rest)
  have hsound : StepSound start _ _ := routeStep_sound handling
    (fun handler => handling.onPacket handler.object packet) ingress packet
    (handling.egressAddrs rest ingress)
  have hnot := pass_not_missing hsound hkeys hsettled
  rw [route_not_echo handling rest hecho]
  cases hpass : pass (routeStep handling.host (fun _ handler =>
      (handling.onPacket handler.object packet).run handler.name) ingress
      packet (handling.egressAddrs rest ingress)) (start.iter.map Prod.fst)
      ⟨start, handling.beginPacket rest, []⟩ with
  | error crash =>
      rw [hpass] at hnot
      refine ⟨fun hsame => hnot (congrArg _ (Except.error.inj hsame)), ?_⟩
      intro routed hrouted
      cases hrouted
  | ok turn =>
      constructor
      · intro hsame
        cases hsame
      intro routed hrouted
      obtain rfl := Except.ok.inj hrouted
      refine ⟨recorded_once _, ?_⟩
      intro hbounded
      have hdelivered := (pass_passed hsound hkeys hsettled hpass).delivered
        (unhandled_applies _ _ _) hlive hkeys
        (Arena.iter_keys_nodup hready.wf) hbounded
      exact ⟨hdelivered.live, hdelivered.once, hdelivered.order,
        hdelivered.called, hdelivered.notMade, hdelivered.owners,
        hdelivered.ready⟩

theorem notify_delivered (hready : Ready start) {captures : List CaptureKey}
    (hcaptures : captures ≠ []) {turn : Turn (Table Object Rest) Unit}
    (hturn : handling.notifyIfaceChange captures ⟨start, rest, []⟩ = .ok turn)
    (hbounded : Bounded turn.state.log) :
    Delivered start (fun _ => true) (fun _ => true) (start.iter.map Prod.fst)
      turn := by
  have hlive := mem_snapshot hready.wf
  have hkeys : ∀ key ∈ start.iter.map Prod.fst, (start.get key).isSome :=
    fun key hmem => any_isSome ((hlive key).mp hmem)
  rw [Handling.notifyIfaceChange, Reentrant.notifyIfaceChange,
    if_neg hcaptures] at hturn
  exact (pass_passed (callStep_sound handling fun handler =>
    handling.onIfaceChange handler.object captures) hkeys
    (hready.settled rest) hturn).delivered unhandled_all hlive hkeys
    (Arena.iter_keys_nodup hready.wf) hbounded

def isDue (now : Nat) (registration : Registration (Boxed Object)) : Bool :=
  registration.handler.any fun handler =>
    (handling.nextDeadline handler.object).any (· ≤ now)

theorem sweep_delivered (hready : Ready start) {now : Nat}
    {turn : Turn (Table Object Rest) Unit}
    (hturn : handling.sweepHandlers now ⟨start, rest, []⟩ = .ok turn)
    (hbounded : Bounded turn.state.log) :
    Delivered start (isDue handling now) (fun _ => true)
      ((start.iter.filter fun item => isDue handling now item.2).map Prod.fst)
      turn := by
  have hlive := mem_filtered hready.wf (isDue handling now)
  have hkeys : ∀ key ∈ (start.iter.filter fun item =>
      isDue handling now item.2).map Prod.fst, (start.get key).isSome :=
    fun key hmem => any_isSome ((hlive key).mp hmem)
  have honce : ((start.iter.filter fun item =>
      isDue handling now item.2).map Prod.fst).Nodup :=
    (Arena.iter_keys_nodup hready.wf).sublist
      (List.filter_sublist.map Prod.fst)
  exact (pass_passed (callStep_sound handling fun handler =>
    handling.onDeadline handler.object now) hkeys (hready.settled rest)
    hturn).delivered unhandled_all hlive hkeys honce hbounded

/-- A packet that is no echo of our own, a change of interfaces, and a
deadline: each reaches the handlers of its snapshot as it should, however they
change the registrations, as long as no slot is freed 2^32 times meanwhile. -/
theorem delivered_once (handling : Handling Object Rest)
    (start : Arena (Registration (Boxed Object))) (rest : Rest)
    (hready : Ready start) :
    (∀ ingress packet,
      isOwnEcho packet.srcMac
        ((handling.egressAddrs rest ingress).bind (·.mac)) = false →
      handling.route ingress packet ⟨start, rest, []⟩ ≠ .error .missing ∧
      ∀ routed, handling.route ingress packet ⟨start, rest, []⟩ = .ok routed →
        routed.recorded.length =
          (if routed.turn.visits.any (·.answer.isSome) then 1 else 0) ∧
        (Bounded routed.turn.state.log →
          Delivered start (fun _ => true)
            (fun registration => registration.applies ingress packet
              (handling.egressAddrs rest ingress))
            (start.iter.map Prod.fst) routed.turn)) ∧
    (∀ captures turn, captures ≠ [] →
      handling.notifyIfaceChange captures ⟨start, rest, []⟩ = .ok turn →
      Bounded turn.state.log →
      Delivered start (fun _ => true) (fun _ => true)
        (start.iter.map Prod.fst) turn) ∧
    (∀ now turn, handling.sweepHandlers now ⟨start, rest, []⟩ = .ok turn →
      Bounded turn.state.log →
      Delivered start (isDue handling now) (fun _ => true)
        ((start.iter.filter fun item => isDue handling now item.2).map
          Prod.fst) turn) := by
  refine ⟨?_, ?_, ?_⟩
  · intro ingress packet hecho
    exact route_delivered handling rest hready hecho
  · intro captures turn hcaptures hturn hbounded
    exact notify_delivered handling rest hready hcaptures hturn hbounded
  · intro now turn hturn hbounded
    exact sweep_delivered handling rest hready hturn hbounded

end Deliveries

/-! ## A handler that wears out a slot -/

def churn : Nat → Script (Option Nat) Unit Outcome
  | 0 => .register ⟨0⟩ .any ⟨2, none⟩ fun _ => .done none .filtered
  | count + 1 => .register ⟨0⟩ .any ⟨2, none⟩ fun key =>
      .unregister key (churn count)

def churning : Handling (Option Nat) Unit where
  onPacket := fun object _ =>
    match object with
    | none => .done none .filtered
    | some count => .unregister ⟨1, 0⟩ (churn count)
  nextDeadline := fun _ => none
  onDeadline := fun object _ => .done object ()
  onIfaceChange := fun object _ => .done object ()
  egressAddrs := fun _ _ => none
  beginPacket := id
  endPacket := id

def neighbours (count : Nat) : Arena (Registration (Boxed (Option Nat))) :=
  ⟨[⟨0, some ⟨⟨0⟩, .any, some ⟨0, some count⟩⟩⟩,
    ⟨0, some ⟨⟨0⟩, .any, some ⟨1, none⟩⟩⟩], []⟩

def anyPacket : Packet :=
  ⟨⟨.v4 ⟨[10, 0, 71, 1], rfl⟩, 5353⟩, ⟨.v4 ⟨[10, 0, 71, 2], rfl⟩, 5353⟩, 255,
    none, none, []⟩

theorem bounded_of_length {log : List Change}
    (h : (goners log).length < 0x100000000) : Bounded log :=
  fun _ => Nat.lt_of_le_of_lt List.countP_le_length h

theorem ready_neighbours (count : Nat) : Ready (neighbours count) := by
  refine ⟨⟨by simp [neighbours], ?_, List.nodup_nil⟩, ?_⟩
  · intro index hmem
    cases hmem
  · intro key registration hget
    obtain ⟨slot, hslot, _, hvalue⟩ := Arena.get_eq_some_iff.mp hget
    have hmem := List.mem_of_getElem? hslot
    simp only [neighbours, List.mem_cons, List.not_mem_nil, or_false] at hmem
    rcases hmem with rfl | rfl
    · cases hvalue
      rfl
    · cases hvalue
      rfl

/-- The first handler removes the second registration and makes another in its
slot: neither is called. -/
theorem delivered_once_reused :
    ∃ routed, churning.route ⟨0⟩ anyPacket ⟨neighbours 0, (), []⟩ =
        .ok routed ∧
      routed.recorded.length = 1 ∧
      Delivered (neighbours 0) (fun _ => true)
        (fun registration => registration.applies ⟨0⟩ anyPacket none)
        [⟨0, 0⟩, ⟨1, 0⟩] routed.turn := by
  have hdelivered := delivered_once churning (neighbours 0) ()
    (ready_neighbours 0)
  obtain ⟨_, hrouted⟩ := hdelivered.1 ⟨0⟩ anyPacket rfl
  refine ⟨_, rfl, rfl, (hrouted _ rfl).2 (bounded_of_length ?_)⟩
  decide

theorem churn_run (count : Nat) (generation : UInt32) (log : List Change)
    (first : Slot (Registration (Boxed (Option Nat)))) :
    ∃ log', (churn count).run 0
        ⟨⟨[first, ⟨generation, none⟩], [1]⟩, (), log⟩ =
      .ok (⟨0, none⟩, ⟨⟨[first, ⟨generation + UInt32.ofNat count,
        some ⟨⟨0⟩, .any, some ⟨2, none⟩⟩⟩], []⟩, (), log'⟩, .filtered) ∧
      ⟨1, generation + UInt32.ofNat count⟩ ∈ makers log' := by
  induction count generalizing generation log with
  | zero =>
      refine ⟨.made ⟨1, generation⟩ ⟨⟨0⟩, .any, some 2⟩ :: log, ?_, ?_⟩
      · have hzero : generation + UInt32.ofNat 0 = generation :=
          UInt32.add_zero generation
        rw [hzero]
        rfl
      · have hzero : generation + UInt32.ofNat 0 = generation :=
          UInt32.add_zero generation
        rw [hzero]
        exact List.mem_cons_self
  | succ count ih =>
      obtain ⟨log', hrun, hmade⟩ := ih (generation + 1)
        (.gone ⟨1, generation⟩ ::
          .made ⟨1, generation⟩ ⟨⟨0⟩, .any, some 2⟩ :: log)
      have hnext : generation + 1 + UInt32.ofNat count =
          generation + UInt32.ofNat (count + 1) := by
        rw [UInt32.ofNat_add, UInt32.add_assoc, UInt32.add_comm 1]
        rfl
      rw [hnext] at hrun hmade
      refine ⟨log', ?_, hmade⟩
      have hfreed : (⟨⟨[first, ⟨generation, some ⟨⟨0⟩, .any, some ⟨2, none⟩⟩⟩],
          []⟩, (), .made ⟨1, generation⟩ ⟨⟨0⟩, .any, some 2⟩ :: log⟩ :
            Table (Option Nat) Unit).unregister ⟨1, generation⟩ =
          ⟨⟨[first, ⟨generation + 1, none⟩], [1]⟩, (),
            .gone ⟨1, generation⟩ ::
              .made ⟨1, generation⟩ ⟨⟨0⟩, .any, some 2⟩ :: log⟩ := by
        simp [Table.unregister, Arena.remove, Arena.get, Arena.slot,
          Option.filter_some]
      rw [← hrun, ← hfreed]
      rfl

/-- A slot worn out by its neighbour's call: the key it started with is in the
snapshot, and what is under it now is called. -/
theorem churned_called {count : Nat} (hworn : 1 + UInt32.ofNat count = 0) :
    ∃ routed, churning.route ⟨0⟩ anyPacket ⟨neighbours count, (), []⟩ =
        .ok routed ∧
      ∃ visit ∈ routed.turn.visits, visit.answer.isSome ∧
        visit.key ∈ makers visit.reached.log := by
  obtain ⟨log', hrun, hmade⟩ := churn_run count 1 [.gone ⟨1, 0⟩]
    ⟨0, some ⟨⟨0⟩, .any, none⟩⟩
  rw [hworn] at hrun hmade
  let next : Table (Option Nat) Unit :=
    ⟨⟨[⟨0, some ⟨⟨0⟩, .any, some ⟨0, none⟩⟩⟩,
      ⟨0, some ⟨⟨0⟩, .any, some ⟨2, none⟩⟩⟩], []⟩, (), log'⟩
  have htake : takeHandler churning.host ⟨neighbours count, (), []⟩ ⟨0, 0⟩ =
      (⟨⟨[⟨0, some ⟨⟨0⟩, .any, none⟩⟩, ⟨0, some ⟨⟨0⟩, .any, some ⟨1, none⟩⟩⟩],
        []⟩, (), []⟩, some ⟨0, some count⟩) := rfl
  have hfirst : routeStep churning.host (fun _ handler =>
      (churning.onPacket handler.object anyPacket).run handler.name) ⟨0⟩
      anyPacket none ⟨0, 0⟩ ⟨neighbours count, (), []⟩ =
        .ok (next, some .filtered) := by
    have happlies : ((churning.host.registrations
        ⟨neighbours count, (), []⟩).get ⟨0, 0⟩).any (fun registration =>
          registration.applies ⟨0⟩ anyPacket none) = true := rfl
    rw [routeStep, if_pos happlies, htake]
    simp only [invoke]
    have hcall : (churning.onPacket (some count) anyPacket).run 0
        ⟨⟨[⟨0, some ⟨⟨0⟩, .any, none⟩⟩,
          ⟨0, some ⟨⟨0⟩, .any, some ⟨1, none⟩⟩⟩], []⟩, (), []⟩ = _ := hrun
    rw [hcall]
    rfl
  have hsecond : ∃ last, pass (routeStep churning.host (fun _ handler =>
      (churning.onPacket handler.object anyPacket).run handler.name) ⟨0⟩
      anyPacket none) [⟨1, 0⟩] next =
        .ok ⟨last, [⟨⟨1, 0⟩, next, some .filtered⟩]⟩ := ⟨_, rfl⟩
  obtain ⟨last, hsecond⟩ := hsecond
  have hpass : pass (routeStep churning.host (fun _ handler =>
      (churning.onPacket handler.object anyPacket).run handler.name) ⟨0⟩
      anyPacket none) [⟨0, 0⟩, ⟨1, 0⟩] ⟨neighbours count, (), []⟩ = .ok ⟨last,
        [⟨⟨0, 0⟩, ⟨neighbours count, (), []⟩, some .filtered⟩,
          ⟨⟨1, 0⟩, next, some .filtered⟩]⟩ := by
    rw [pass, hfirst]
    simp only [hsecond]
  have hroute : churning.route ⟨0⟩ anyPacket ⟨neighbours count, (), []⟩ =
      Except.map (endRoute churning.host) _ :=
    route_not_echo churning () rfl
  have hsnapshot : (neighbours count).iter.map Prod.fst =
      [⟨0, 0⟩, ⟨1, 0⟩] := rfl
  rw [hsnapshot] at hroute
  exact ⟨_, hroute.trans (congrArg _ hpass), ⟨⟨1, 0⟩, next, some .filtered⟩,
    List.mem_cons_of_mem _ List.mem_cons_self, rfl, hmade⟩

theorem churned_reaches_new :
    ∃ routed, churning.route ⟨0⟩ anyPacket ⟨neighbours 4294967295, (), []⟩ =
        .ok routed ∧
      ∃ visit ∈ routed.turn.visits, visit.answer.isSome ∧
        visit.key ∈ makers visit.reached.log :=
  churned_called (by decide)

end Netflector.Dispatch.Reentrant
