import Netflector.Reflector.Dial.Lifetime

/-!
# The registrations of a connection

Which registrations are there in every state the owner keeps, and why no
`expect` of the connection can fail as long as the reactor delivers no edge for
an unwatched registration.
-/

namespace Netflector.Reflector.Dial

open Netflector.Foundation
open Netflector.Reactor

def Setup.destReg (setup : Setup) : Direction → RegKey
  | .clientToDevice => setup.deviceReg
  | .deviceToClient => setup.clientReg

/-- A destination's registration is there, or was taken and unwatched when its
own flow was given up and the other one had seen its end. -/
def Registered (setup : Setup) (connection : Connection) (log : List Event)
    (direction : Direction) : Prop :=
  (connection.context direction).destReg = some (setup.destReg direction) ∨
    ((connection.context direction).destReg = none ∧
      .unwatch (setup.destReg direction) true ∈ log ∧
      (connection.context direction).flow.state = .done ∧
      (connection.context direction.reverse).flow.state ≠ .opened)

theorem Registered.stepped {setup : Setup}
    {connection connection' : Connection} {log log' : List Event}
    {direction : Direction} (h : Registered setup connection log direction)
    (hstep : Stepped connection log connection' log') :
    Registered setup connection' log' direction := by
  unfold Registered
  rw [hstep.destReg]
  rcases h with hreg | ⟨hnone, hmem, hdone, hclosed⟩
  · exact .inl hreg
  · right
    obtain ⟨events, hlog⟩ := hstep.log
    refine ⟨hnone, ?_, ?_, ?_⟩
    · rw [hlog]
      exact List.mem_append_left events hmem
    · exact (hstep.progress direction).done hdone
    · exact (hstep.progress direction.reverse).closed hclosed

theorem destReg_reverse (connection : Connection) (direction : Direction) :
    (connection.context direction.reverse).destReg =
      (connection.context direction).sourceReg := by
  cases direction <;> rfl

theorem reverse_reverse (direction : Direction) :
    direction.reverse.reverse = direction := by
  cases direction <;> rfl

theorem eq_or_eq_reverse (direction direction' : Direction) :
    direction' = direction ∨ direction' = direction.reverse := by
  cases direction <;> cases direction' <;> simp [Direction.reverse]

theorem Registered.hungUp {setup : Setup}
    {connection connection' : Connection} {log log' : List Event}
    {direction : Direction}
    (h : ∀ direction, Registered setup connection log direction)
    (hstep : HungUp direction connection connection' log log')
    (direction' : Direction) :
    Registered setup connection' log' direction' := by
  unfold Registered
  rcases eq_or_eq_reverse direction direction' with rfl | rfl
  · rw [hstep.destReg]
    rcases h direction' with hreg | ⟨hnone, _⟩
    · exact .inl hreg
    · exact absurd hnone hstep.live
  · right
    rw [destReg_reverse, reverse_reverse]
    obtain ⟨reg, hreg, hmem⟩ := hstep.taken
    rw [← destReg_reverse] at hreg
    refine ⟨hstep.sourceReg, ?_, hstep.abandoned, ?_⟩
    · rcases h direction.reverse with hsome | ⟨hnone, _⟩
      · rw [hsome] at hreg
        cases hreg
        exact hmem
      · rw [hnone] at hreg
        cases hreg
    · exact hstep.progress.closed hstep.closed

/-- The reactor delivers no edge for a registration after its unwatch
succeeded. -/
def Setup.Delivers (setup : Setup) (log : List Event) (edge : Edge) : Prop :=
  (edge.fd = setup.client.fd ∧ .unwatch setup.clientReg true ∉ log) ∨
    (edge.fd = setup.device.fd ∧ .unwatch setup.deviceReg true ∉ log)

def Setup.Kept (setup : Setup) (state state' : Connection × World) : Prop :=
  ∃ edge, setup.Delivers state.2.log edge ∧
    state.1.onEdge edge state.2 = .ok (state'.1, state'.2, .keep)

structure Alive (setup : Setup) (connection : Connection)
    (log : List Event) : Prop where
  whole : Whole setup connection log
  registered : ∀ direction, Registered setup connection log direction
  unfinished : connection.Unfinished

theorem alive_connection (setup : Setup) :
    Alive setup setup.connection [] := by
  refine ⟨whole_connection setup, ?_, ?_⟩
  · intro direction
    left
    cases direction <;> rfl
  · rintro ⟨hdone, _⟩
    cases hdone

theorem Alive.onEdge {setup : Setup} {connection connection' : Connection}
    {world world' : World} {edge : Edge}
    (h : Alive setup connection world.log)
    (hedge : connection.onEdge edge world = .ok (connection', world', .keep)) :
    Alive setup connection' world'.log := by
  obtain ⟨hwhole, hunfinished, hstepped | ⟨direction, hhung⟩⟩ :=
    onEdge_keeps h.whole hedge
  · exact ⟨hwhole, fun direction => (h.registered direction).stepped hstepped,
      hunfinished⟩
  · exact ⟨hwhole, .hungUp h.registered hhung, hunfinished⟩

theorem alive_of_run {setup : Setup} {kernel : Kernel}
    {state : Connection × World}
    (h : Relation.ReflTransGen setup.Kept (setup.connection, ⟨kernel, []⟩)
      state) : Alive setup state.1 state.2.log := by
  induction h with
  | refl => exact alive_connection setup
  | tail _ hstep ih =>
      obtain ⟨edge, _, hedge⟩ := hstep
      exact ih.onEdge hedge

theorem Alive.destReg_of_opened {setup : Setup} {connection : Connection}
    {log : List Event} (h : Alive setup connection log)
    {direction : Direction}
    (hopened : (connection.context direction).flow.state = .opened)
    (direction' : Direction) :
    (connection.context direction').destReg =
      some (setup.destReg direction') := by
  rcases eq_or_eq_reverse direction direction' with rfl | rfl
  · rcases h.registered direction' with hreg | ⟨_, _, hdone, _⟩
    · exact hreg
    · rw [hdone] at hopened
      cases hopened
  · rcases h.registered direction.reverse with hreg | ⟨_, _, _, hclosed⟩
    · exact hreg
    · rw [reverse_reverse] at hclosed
      exact absurd hopened hclosed

theorem Alive.destReg_ne_none {setup : Setup} {connection : Connection}
    {log : List Event} (h : Alive setup connection log)
    {direction : Direction}
    (hwatched : .unwatch (setup.destReg direction) true ∉ log) :
    (connection.context direction).destReg ≠ none := by
  rcases h.registered direction with hreg | ⟨_, hmem, _⟩
  · rw [hreg]
    nofun
  · exact absurd hmem hwatched

theorem Alive.forward_total {setup : Setup} {connection : Connection}
    {world : World} (h : Alive setup connection world.log)
    {direction : Direction}
    (hwatched : .unwatch (setup.destReg direction.reverse) true ∉ world.log) :
    ∃ answer, connection.forward direction world = .ok answer := by
  apply (connection_forward_spec h.whole direction).total
  constructor
  · rw [← destReg_reverse]
    exact h.destReg_ne_none hwatched
  · intro hopened
    rw [h.destReg_of_opened hopened]
    nofun

theorem Alive.onEdge_total {setup : Setup} {connection : Connection}
    {world : World} {edge : Edge} (h : Alive setup connection world.log)
    (hedge : setup.Delivers world.log edge) :
    ∃ answer, connection.onEdge edge world = .ok answer := by
  have hclient := h.whole.client
  have hdevice := h.whole.device
  cases edge with
  | readable fd =>
      simp only [Connection.onEdge, Connection.readable, hclient]
      rcases hedge with ⟨hfd, hwatched⟩ | ⟨hfd, hwatched⟩
      · rw [if_pos (by rw [← hfd]; rfl)]
        exact h.forward_total hwatched
      · have hother : setup.client.fd ≠ fd := by
          intro hsame
          exact setup.fds (hsame.trans hfd)
        rw [if_neg hother]
        exact h.forward_total hwatched
  | writable fd =>
      simp only [Connection.onEdge, Connection.writable, hdevice]
      rcases hedge with ⟨hfd, hwatched⟩ | ⟨hfd, hwatched⟩
      · have hother : setup.device.fd ≠ fd := by
          intro hsame
          exact setup.fds (hsame.trans hfd).symm
        rw [if_neg hother]
        exact (onWritable_spec h.whole _).total (h.destReg_ne_none hwatched)
      · rw [if_pos (by rw [← hfd]; rfl)]
        exact (onWritable_spec h.whole _).total (h.destReg_ne_none hwatched)

/-- In every state the owner keeps, the next delivered edge finds every
registration it expects. -/
theorem connection_never_panics (setup : Setup) (kernel : Kernel)
    (connection : Connection) (world : World)
    (hrun : Relation.ReflTransGen setup.Kept (setup.connection, ⟨kernel, []⟩)
      (connection, world)) :
    (∀ direction, (connection.context direction).flow.state = .opened →
      connection.clientReg = some setup.clientReg ∧
        connection.deviceReg = some setup.deviceReg) ∧
    (connection.clientReg ≠ none ∨ connection.deviceReg ≠ none) ∧
    (∀ direction, (connection.context direction).destReg = none →
      (connection.context direction).flow.state = .done) ∧
    ¬ (connection.c2u.state = .done ∧ connection.u2c.state = .done) ∧
    ∀ edge, setup.Delivers world.log edge →
      ∃ answer, connection.onEdge edge world = .ok answer := by
  have halive := alive_of_run hrun
  have hdone : ∀ direction, (connection.context direction).destReg = none →
      (connection.context direction).flow.state = .done := by
    intro direction hnone
    rcases halive.registered direction with hreg | ⟨_, _, hdone, _⟩
    · rw [hreg] at hnone
      cases hnone
    · exact hdone
  refine ⟨?_, ?_, hdone, halive.unfinished, ?_⟩
  · intro direction hopened
    exact ⟨halive.destReg_of_opened hopened .deviceToClient,
      halive.destReg_of_opened hopened .clientToDevice⟩
  · by_contra hnone
    obtain ⟨hclient, hdevice⟩ := not_or.mp hnone
    exact halive.unfinished ⟨hdone .clientToDevice (not_not.mp hdevice),
      hdone .deviceToClient (not_not.mp hclient)⟩
  · intro edge hedge
    exact halive.onEdge_total hedge

instance (setup : Setup) (log : List Event) (edge : Edge) :
    Decidable (setup.Delivers log edge) :=
  inferInstanceAs (Decidable (_ ∨ _))

def Setup.run (setup : Setup) (connection : Connection) (world : World) :
    List Edge → Option (Connection × World)
  | [] => some (connection, world)
  | edge :: edges =>
      if setup.Delivers world.log edge then
        match connection.onEdge edge world with
        | .ok (connection, world, .keep) => run setup connection world edges
        | _ => none
      else none

theorem kept_of_run {setup : Setup} {connection : Connection} {world : World}
    {edges : List Edge} {state : Connection × World}
    (h : setup.run connection world edges = some state) :
    Relation.ReflTransGen setup.Kept (connection, world) state := by
  induction edges generalizing connection world with
  | nil =>
      cases h
      exact .refl
  | cons edge edges ih =>
      simp only [Setup.run] at h
      split at h
      · rename_i hdelivers
        split at h
        · rename_i connection' world' hedge
          exact .head ⟨edge, hdelivers, hedge⟩ (ih h)
        · cases h
      · cases h

/-- A client that hangs up behind a request the device has not taken yet. -/
def hangupEdges : List Edge :=
  [.readable 3, .writable 4, .readable 3, .readable 3]

theorem connection_never_panics_hangupEdges :
    ∃ connection world,
      exampleSetup.run exampleSetup.connection ⟨exampleKernel, []⟩
        hangupEdges = some (connection, world) ∧
      connection.clientReg = none ∧ connection.c2u.state = .sourceClosed ∧
      ∃ answer, connection.onEdge (.writable 4) world = .ok answer := by
  have hrun : ((exampleSetup.run exampleSetup.connection ⟨exampleKernel, []⟩
      hangupEdges).map fun state => (state.1.clientReg, state.1.c2u.state,
        decide (exampleSetup.Delivers state.2.log (.writable 4)))) =
      some (none, .sourceClosed, true) := by
    decide +kernel
  obtain ⟨⟨connection, world⟩, hstate, hfacts⟩ :=
    Option.map_eq_some_iff.mp hrun
  simp only [Prod.mk.injEq, decide_eq_true_eq] at hfacts
  obtain ⟨hreg, hclosed, hdelivers⟩ := hfacts
  refine ⟨connection, world, hstate, hreg, hclosed, ?_⟩
  exact (connection_never_panics exampleSetup exampleKernel connection world
    (kept_of_run hstate)).2.2.2.2 (.writable 4) hdelivers

end Netflector.Reflector.Dial
