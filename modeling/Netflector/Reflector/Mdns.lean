import Netflector.Net.Mdns.Addresses

/-!
# The mDNS response gate

What the response leg makes of a payload: the entry's allow-list if it sets
one, then the address filter on whatever the list lets through.
-/

namespace Netflector.Reflector

open Netflector.Foundation
open Netflector.Net.Mdns

inductive Rewrite where
  | verbatim
  | replaced (payload : Bytes)
  | refused
  | unreadable
  deriving DecidableEq, Repr

def ServiceGate.judge (services : ServiceFilter) (payload : Bytes) : Rewrite :=
  match services.decide payload with
  | .pass => .verbatim
  | .refuse _ => .refused
  | .trim trimmed _ _ => .replaced trimmed
  | .malformed => .unreadable

structure ResponseGate where
  services : Option ServiceFilter
  deriving DecidableEq

/-- Strip what the list let through; `trimmed` is the list's own rewrite. -/
def stripTrimmed (payload : Bytes) (trimmed : Option Bytes) : Rewrite :=
  match AddressFilter.strip (trimmed.getD payload) with
  | some (stripped, _) => .replaced stripped
  | none =>
      match trimmed with
      | none => .verbatim
      | some trimmed => .replaced trimmed

def ResponseGate.judge (gate : ResponseGate) (payload : Bytes) : Rewrite :=
  match gate.services.map fun services => ServiceGate.judge services payload with
  | none | some .verbatim => stripTrimmed payload none
  | some (.replaced trimmed) => stripTrimmed payload (some trimmed)
  | some .refused => .refused
  | some .unreadable => .unreadable

/-! ## What leaves the gate -/

def ResponseGate.letThrough (gate : ResponseGate) (payload : Bytes) :
    Option Bytes :=
  match gate.services with
  | none => some payload
  | some services =>
      match services.decide payload with
      | .pass => some payload
      | .trim trimmed _ _ => some trimmed
      | .refuse _ | .malformed => none

theorem judge_eq_replaced {gate : ResponseGate} {payload through out : Bytes}
    {removed : Nat} (hthrough : gate.letThrough payload = some through)
    (hstrip : AddressFilter.strip through = some (out, removed)) :
    gate.judge payload = .replaced out := by
  unfold ResponseGate.letThrough at hthrough
  unfold ResponseGate.judge
  cases hservices : gate.services with
  | none =>
      simp only [hservices, Option.some.injEq] at hthrough
      subst hthrough
      simp [stripTrimmed, hstrip]
  | some services =>
      simp only [hservices] at hthrough
      simp only [Option.map_some, ServiceGate.judge]
      cases hdecide : services.decide payload with
      | pass =>
          simp only [hdecide, Option.some.injEq] at hthrough
          subst hthrough
          simp [stripTrimmed, hstrip]
      | trim trimmed _ _ =>
          simp only [hdecide, Option.some.injEq] at hthrough
          subst hthrough
          simp [stripTrimmed, hstrip]
      | refuse _ => simp [hdecide] at hthrough
      | malformed => simp [hdecide] at hthrough

theorem letThrough_keeps {gate : ResponseGate} {payload through : Bytes}
    {filter : ServiceFilter} {walked : List Entry}
    (hresponse : classify payload = some .response)
    (hthrough : gate.letThrough payload = some through)
    (hfilter : gate.services = some filter)
    (hwalk : entries through = .ok walked) :
    ∀ entry ∈ walked, keeps filter.allowed through entry = true := by
  unfold ResponseGate.letThrough at hthrough
  simp only [hfilter] at hthrough
  cases hdecide : filter.decide payload with
  | pass =>
      simp only [hdecide, Option.some.injEq] at hthrough
      subst hthrough
      obtain ⟨walked', hwalk', hkeeps⟩ := decide_pass_keeps hresponse hdecide
      rw [hwalk] at hwalk'
      cases hwalk'
      exact hkeeps
  | trim trimmed removed refused =>
      simp only [hdecide, Option.some.injEq] at hthrough
      subst hthrough
      obtain ⟨_, copies, _, _, htrimmed, _, hkeeps⟩ :=
        decide_trim_trimmed hdecide
      have hcopies := htrimmed.walk
      rw [hwalk] at hcopies
      cases hcopies
      exact hkeeps
  | refuse _ => simp [hdecide] at hthrough
  | malformed => simp [hdecide] at hthrough

/-- A response that leaves the gate stripped has an answer and a usable
address, no unreachable address and nothing the list refuses, and every other
record the list let through; and a message is left unstripped exactly when it
cannot be walked or re-encoded, or has nothing to keep or nothing to strip. -/
theorem judge_strips_unreachable (gate : ResponseGate) (payload : Bytes)
    (hresponse : classify payload = some .response) :
    (∀ through out removed, gate.letThrough payload = some through →
      AddressFilter.strip through = some (out, removed) →
      gate.judge payload = .replaced out ∧
      ∃ walked copies records, entries through = .ok walked ∧
        Trimmed through out
          (planned (fun entry => !unreachableAt through entry)
            (usableAt through) walked) copies records ∧
        (∃ copy ∈ copies, copy.sect = .answer) ∧
        (∃ copy ∈ copies, usableAt out copy = true) ∧
        (∀ copy ∈ copies, unreachableAt out copy = false) ∧
        ∀ filter, gate.services = some filter →
          ∀ copy ∈ copies, keeps filter.allowed out copy = true) ∧
    ∀ message, AddressFilter.strip message = none ↔
      entries message = .error ⟨⟩ ∨
      ∃ walked, entries message = .ok walked ∧
        ((∀ entry ∈ walked, usableAt message entry = false) ∨
          (∀ entry ∈ walked, unreachableAt message entry = false) ∨
          trim message (keepReachable message) (usableAt message) =
            .error ⟨⟩) := by
  refine ⟨?_, fun message => strip_eq_none_iff⟩
  intro through out removed hthrough hstrip
  refine ⟨judge_eq_replaced hthrough hstrip, ?_⟩
  obtain ⟨walked, copies, records, hwalk, htrimmed, hanswer, husable, hreach⟩ :=
    strip_trimmed hstrip
  refine ⟨walked, copies, records, hwalk, htrimmed, hanswer, husable, hreach,
    fun filter hfilter copy hcopy => ?_⟩
  obtain ⟨placement, hplan, hcopied⟩ := htrimmed.origin copy hcopy
  obtain ⟨hmem, hkind, _⟩ := mem_planned hplan
  exact hcopied.keeps (entries_wellPlaced hwalk _ hmem)
    (entries_wellPlaced htrimmed.walk copy hcopy) hkind
    (letThrough_keeps hresponse hthrough hfilter hwalk _ hmem)

theorem judge_strips_unreachable_mixedResponse :
    (ResponseGate.mk (some firstServiceOnly)).judge mixedResponse = .replaced
      [0, 1, 0x84, 0, 0, 0, 0, 1, 0, 0, 0, 1,
        2, 0x5f, 0x69, 4, 0x5f, 0x74, 0x63, 0x70, 0,
        0, 12, 0, 1, 0, 0, 0, 9, 0, 4, 1, 0x78, 0xc0, 12,
        0xc0, 31, 0, 1, 0, 1, 0, 0, 0, 9, 0, 4, 10, 0, 0, 1] :=
  ((judge_strips_unreachable ⟨some firstServiceOnly⟩ mixedResponse
    (by decide)).1 trimmedResponse _ 1 (by decide) (by decide)).1

end Netflector.Reflector
