import Netflector.Dispatch.Handling

/-!
# Invariants of the daemon's runs

What every moment preserves holds in every state that a packet is routed in.
-/

namespace Netflector.Dispatch

open Netflector.Foundation
open Netflector.Net
open Netflector.Reactor
open Netflector.Reflector

structure Daemon.Invariant (platform : Platform)
    (digest : MacAddr → Datagram → UInt64) (Holds : Daemon → Prop) :
    Prop where
  route : ∀ calls ingress packet daemon after, Holds daemon →
    Dispatch.route digest calls ingress packet daemon = .ok after →
    Holds after
  /-- A capture is taken out or put back. -/
  resting : ∀ (daemon : Daemon) table, Holds daemon →
    daemon.dispatcher.table.Resting table →
    Holds { daemon with dispatcher := { daemon.dispatcher with
      table := table } }
  reassembly : ∀ (daemon : Daemon) reassembly, Holds daemon →
    Holds { daemon with dispatcher := { daemon.dispatcher with
      reassembly := reassembly } }
  lost : ∀ (daemon : Daemon) now, Holds daemon →
    Holds { daemon with dispatcher := { daemon.dispatcher with
      lifecycle := daemon.dispatcher.lifecycle.reconcileNow now } }
  monitor : ∀ calls repair events now daemon, Holds daemon →
    Holds (refreshChangedInterfaces platform calls repair events now daemon)
  deadline : ∀ calls now daemon, Holds daemon →
    Holds (onDeadline platform calls now daemon)
  proxy : ∀ kernel calls key taken (daemon : Daemon) reactor, Holds daemon →
    dispatchProxy kernel calls key taken daemon.reactor = .ok reactor →
    Holds { daemon with reactor := reactor }

/-! ## A capture's drain -/

theorem drainLoop_rule {State : Type} {route : Packet → State → State}
    {reassemble : Fragment → State → State} {Holds : State → Prop}
    (hroute : ∀ packet state, Holds state → Holds (route packet state))
    (hreassemble : ∀ fragment state, Holds state →
      Holds (reassemble fragment state))
    (bound : Bool) (link : LinkType) (polls : List Poll) (drained : Drained)
    {state : State} (h : Holds state) :
    Holds (drainLoop route reassemble bound link polls drained state).1 := by
  induction polls generalizing drained state with
  | nil => exact h
  | cons poll polls ih =>
      rw [drainLoop]
      split
      · exact h
      split
      · exact h
      · exact h
      · exact ih _ h
      · apply ih
        split
        · split
          · exact hroute _ _ h
          · exact hreassemble _ _ h
          · exact h
        · exact h

section Invariant

variable {platform : Platform} {digest : MacAddr → Datagram → UInt64}
  {Holds : Daemon → Prop}

/-- The invariant holds now and held whenever a packet was routed. -/
def Observed.Held (Holds : Daemon → Prop) (observed : Observed) : Prop :=
  Holds observed.daemon ∧ ∀ daemon ∈ observed.routedIn, Holds daemon

theorem Observed.Held.route
    (hinv : Daemon.Invariant platform digest Holds) {observed : Observed}
    (h : observed.Held Holds) {calls : RouteCalls} {ingress : CaptureKey}
    {packet : Packet} {after : Observed}
    (hafter : observed.route digest calls ingress packet = .ok after) :
    after.Held Holds := by
  obtain ⟨daemon, hroute, hsame⟩ := except_bind_ok hafter
  cases hsame
  refine ⟨hinv.route calls.packet ingress packet observed.daemon daemon h.1
    hroute, ?_⟩
  intro state hmem
  rcases List.mem_cons.mp hmem with rfl | hearlier
  · exact h.1
  · exact h.2 state hearlier

theorem Observed.Held.reassemble
    (hinv : Daemon.Invariant platform digest Holds) {observed : Observed}
    (h : observed.Held Holds) {calls : RouteCalls} {ingress : CaptureKey}
    {fragment : Fragment} {after : Observed}
    (hafter : observed.reassemble digest calls ingress fragment = .ok after) :
    after.Held Holds := by
  obtain ⟨⟨reassembly, done⟩, _, hrest⟩ := except_bind_ok hafter
  have hheld : Observed.Held Holds { observed with
      daemon := { observed.daemon with
        dispatcher := { observed.daemon.dispatcher with
          reassembly := reassembly } } } :=
    ⟨hinv.reassembly observed.daemon reassembly h.1, h.2⟩
  cases done with
  | none =>
      cases hrest
      exact hheld
  | some packet => exact hheld.route hinv hrest

def Unless (Holds : Daemon → Prop) : Except Panic Observed → Prop
  | .ok observed => observed.Held Holds
  | .error _ => True

theorem Unless.withTable (hinv : Daemon.Invariant platform digest Holds)
    {state : Except Panic Observed} (h : Unless Holds state)
    {table : InterfaceTable} (hresting : (tableOf state).Resting table) :
    Unless Holds (state.map (Observed.withTable table)) := by
  cases state with
  | error panic => trivial
  | ok observed => exact ⟨hinv.resting observed.daemon table h.1 hresting, h.2⟩

theorem Unless.bind {state : Except Panic Observed}
    {next : Observed → Except Panic Observed} (h : Unless Holds state)
    (hnext : ∀ observed after, observed.Held Holds →
      next observed = .ok after → after.Held Holds) :
    Unless Holds (state.bind next) := by
  cases state with
  | error panic => trivial
  | ok observed =>
      change Unless Holds (next observed)
      cases hresult : next observed with
      | error panic => trivial
      | ok after => exact hnext observed after h hresult

theorem Observed.Held.captureReadable
    (hinv : Daemon.Invariant platform digest Holds) {observed : Observed}
    (h : observed.Held Holds) {calls : Nat → RouteCalls}
    {ingress : CaptureKey} {polls : List Poll} {stopped : Nat}
    {after : Observed}
    (hafter : onCaptureReadable platform digest calls ingress polls stopped
      observed = .ok after) : after.Held Holds := by
  have hdrained : Unless Holds (drainAndRoute tableOf
      (fun state table => state.map (Observed.withTable table))
      (fun packet state => state.bind fun observed =>
        observed.route digest (calls observed.frames) ingress packet)
      (fun fragment state => state.bind fun observed =>
        observed.reassemble digest (calls observed.frames) ingress fragment)
      ingress polls (.ok observed)).1 := by
    have htaken := InterfaceTable.resting_take
      observed.daemon.dispatcher.table ingress
    simp only [drainAndRoute]
    split
    · exact h
    next table capture htake =>
      rw [show observed.daemon.dispatcher.table.take ingress =
        (table, some capture) from htake] at htaken
      refine Unless.withTable hinv ?_ (InterfaceTable.resting_restore ..)
      apply drainLoop_rule
      · intro packet state hstate
        exact hstate.bind fun _ _ hheld hroute => hheld.route hinv hroute
      · intro fragment state hstate
        exact hstate.bind fun _ _ hheld hroute => hheld.reassemble hinv hroute
      · have hobserved : Unless Holds (.ok observed) := h
        exact hobserved.withTable hinv htaken
  obtain ⟨left, hleft, hsame⟩ := except_map_ok hafter
  have hheld : left.Held Holds := Eq.mp (congrArg (Unless Holds) hleft) hdrained
  subst hsame
  split_ifs
  · exact ⟨hinv.lost left.daemon stopped hheld.1, hheld.2⟩
  · exact hheld

/-! ## Moments and runs -/

theorem Observed.Held.moment (hinv : Daemon.Invariant platform digest Holds)
    {observed after : Observed} (h : observed.Held Holds)
    {moment : Daemon.Moment}
    (hafter : observed.moment platform digest moment = .ok after) :
    after.Held Holds := by
  cases moment with
  | capture ingress polls calls stopped => exact h.captureReadable hinv hafter
  | monitor events now calls repair =>
      cases hafter
      exact ⟨hinv.monitor calls repair events now observed.daemon h.1, h.2⟩
  | deadline now calls =>
      cases hafter
      exact ⟨hinv.deadline calls now observed.daemon h.1, h.2⟩
  | proxy key taken kernel calls =>
      obtain ⟨reactor, hproxy, hsame⟩ := except_bind_ok hafter
      cases hsame
      exact ⟨hinv.proxy kernel calls key taken observed.daemon reactor h.1
        hproxy, h.2⟩

theorem Observed.Held.run (hinv : Daemon.Invariant platform digest Holds)
    {observed after : Observed} (h : observed.Held Holds)
    {moments : List Daemon.Moment}
    (hafter : observed.run platform digest moments = .ok after) :
    after.Held Holds := by
  induction moments generalizing observed with
  | nil =>
      cases hafter
      exact h
  | cons moment moments ih =>
      obtain ⟨middle, hmoment, hrest⟩ := except_bind_ok hafter
      exact ih (h.moment hinv hmoment) hrest

/-- What the startup establishes and every moment preserves holds throughout
a run. -/
theorem daemonRun_held (hinv : Daemon.Invariant platform digest Holds)
    {daemon : Daemon} {items : List Setup} {moments : List Daemon.Moment}
    {observed : Observed}
    (hstart : ∀ ready, daemon.setupAll platform items = .ok ready →
      Holds ready)
    (h : daemonRun platform digest daemon items moments = .ok observed) :
    observed.Held Holds := by
  obtain ⟨ready, hready, hrun⟩ := except_bind_ok h
  have hheld : Observed.Held Holds ⟨ready, [], 0⟩ :=
    ⟨hstart ready hready, fun state hmem => by cases hmem⟩
  exact hheld.run hinv hrun

end Invariant

end Netflector.Dispatch
