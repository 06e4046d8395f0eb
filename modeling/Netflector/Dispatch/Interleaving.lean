import Mathlib.Data.List.Perm.Subperm
import Netflector.Dispatch.Completion
import Netflector.Dispatch.Routing

/-!
# Interleaved datagrams

As long as there is room for all of them, what is offered of one datagram does
not touch another's slot or discard entry.
-/

namespace Netflector.Dispatch.Reassembler

open Netflector.Foundation
open Netflector.Net

structure Steady (key : DatagramKey) (before after : Reassembler) : Prop where
  collected : ∀ slot, (key, slot) ∈ after.collecting.entries ↔
    (key, slot) ∈ before.collecting.entries
  discarded : ∀ since, (key, since) ∈ after.discarding.entries ↔
    (key, since) ∈ before.discarding.entries

theorem Steady.refl (key : DatagramKey) (reassembler : Reassembler) :
    Steady key reassembler reassembler :=
  ⟨fun _ => Iff.rfl, fun _ => Iff.rfl⟩

theorem Steady.trans {key : DatagramKey} {first second third : Reassembler}
    (h : Steady key first second) (h' : Steady key second third) :
    Steady key first third :=
  ⟨fun slot => (h'.collected slot).trans (h.collected slot),
    fun since => (h'.discarded since).trans (h.discarded since)⟩

structure Keyed (keys : List DatagramKey) (reassembler : Reassembler) :
    Prop where
  collected : ∀ entry ∈ reassembler.collecting.entries, entry.1 ∈ keys
  discarded : ∀ entry ∈ reassembler.discarding.entries, entry.1 ∈ keys

variable {reassembler : Reassembler} {keys : List DatagramKey}
  {key other : DatagramKey} {now : Nat}

theorem keyed_new (keys : List DatagramKey) : new.Keyed keys := by
  constructor
  · intro entry hmem
    cases hmem
  · intro entry hmem
    cases hmem

/-! ## Room for all of them -/

theorem Keyed.discards_room (h : reassembler.Keyed keys)
    (hkeys : keys.length ≤ slots) :
    reassembler.discarding.len < discards := by
  have hsubset : reassembler.discarding.entries.map Prod.fst ⊆ keys := by
    intro key hmem
    obtain ⟨entry, hentry, rfl⟩ := List.mem_map.mp hmem
    exact h.discarded entry hentry
  have hlength :=
    (reassembler.discarding.nodup.subperm hsubset).length_le
  rw [List.length_map] at hlength
  unfold LinearMap.len
  have : slots < discards := by decide
  omega

theorem Keyed.slots_room (h : reassembler.Keyed keys)
    (hkeys : keys.length ≤ slots) (hother : other ∈ keys)
    (hnone : reassembler.collecting.get other = none) :
    reassembler.collecting.len < slots := by
  have hnodup : (other :: reassembler.collecting.entries.map
      Prod.fst).Nodup := by
    rw [List.nodup_cons]
    refine ⟨?_, reassembler.collecting.nodup⟩
    intro hmem
    obtain ⟨entry, hentry, rfl⟩ := List.mem_map.mp hmem
    exact LinearMap.get_eq_none_iff.mp hnone entry.2 hentry
  have hsubset : other :: reassembler.collecting.entries.map Prod.fst ⊆
      keys := by
    rw [List.cons_subset]
    refine ⟨hother, ?_⟩
    intro key hmem
    obtain ⟨entry, hentry, rfl⟩ := List.mem_map.mp hmem
    exact h.collected entry hentry
  have hlength := (hnodup.subperm hsubset).length_le
  rw [List.length_cons, List.length_map] at hlength
  unfold LinearMap.len
  omega

/-! ## Other datagrams -/

theorem mem_discard_iff (hroom : reassembler.discarding.len < discards)
    {entry : DatagramKey × Nat} :
    entry ∈ (reassembler.discard key now).discarding.entries ↔
      entry = (key, now) ∨
        (entry ∈ reassembler.discarding.entries ∧ entry.1 ≠ key) := by
  simp only [discard]
  rw [if_neg (by omega), LinearMap.mem_insert]

theorem mem_giveUp_discards (hroom : reassembler.discarding.len < discards)
    {loss : Loss} {entry : DatagramKey × Nat} :
    entry ∈ (reassembler.giveUp key loss now).discarding.entries ↔
      entry = (key, now) ∨
        (entry ∈ reassembler.discarding.entries ∧ entry.1 ≠ key) := by
  unfold giveUp
  split
  · exact mem_discard_iff hroom
  · exact mem_discard_iff hroom

theorem steady_giveUp (hne : other ≠ key)
    (hroom : reassembler.discarding.len < discards) (loss : Loss)
    (now : Nat) : Steady key reassembler (reassembler.giveUp other loss now) := by
  constructor
  · intro slot
    rw [mem_giveUp]
    exact and_iff_left hne.symm
  · intro since
    rw [mem_giveUp_discards hroom]
    constructor
    · rintro (hnew | ⟨hold, _⟩)
      · cases hnew
        exact absurd rfl hne
      · exact hold
    · exact fun hold => .inr ⟨hold, hne.symm⟩

theorem keyed_giveUp (h : reassembler.Keyed keys) (hother : other ∈ keys)
    (loss : Loss) (now : Nat) :
    (reassembler.giveUp other loss now).Keyed keys := by
  constructor
  · intro entry hmem
    exact h.collected entry (mem_giveUp.mp hmem).1
  · intro entry hmem
    rcases giveUp_discarding hmem with rfl | hold
    · exact hother
    · exact h.discarded entry hold

def Current (reassembler : Reassembler) (key : DatagramKey) (now : Nat) :
    Prop :=
  (∀ slot, (key, slot) ∈ reassembler.collecting.entries →
    now - slot.started < expiry) ∧
  ∀ since, (key, since) ∈ reassembler.discarding.entries →
    now - since < expiry

def Leaves (keys : List DatagramKey) (other : DatagramKey)
    (before after : Reassembler) : Prop :=
  after.Keyed keys ∧ ∀ key, key ≠ other → Steady key before after

theorem Leaves.trans {first second third : Reassembler}
    (h : Leaves keys other first second)
    (h' : Leaves keys other second third) : Leaves keys other first third :=
  ⟨h'.1, fun key hne => (h.2 key hne).trans (h'.2 key hne)⟩

theorem leaves_giveUp (h : reassembler.Keyed keys)
    (hkeys : keys.length ≤ slots) (hother : other ∈ keys) (loss : Loss)
    (now : Nat) :
    Leaves keys other reassembler (reassembler.giveUp other loss now) :=
  ⟨keyed_giveUp h hother loss now, fun _ hne =>
    steady_giveUp hne.symm (h.discards_room hkeys) loss now⟩

theorem expireSlots_steady (now rounds : Nat) (h : reassembler.Keyed keys)
    (hkeys : keys.length ≤ slots) :
    (expireSlots rounds reassembler now).Keyed keys ∧
      ∀ key, (∀ slot, (key, slot) ∈ reassembler.collecting.entries →
        now - slot.started < expiry) →
        Steady key reassembler (expireSlots rounds reassembler now) := by
  induction rounds generalizing reassembler with
  | zero => exact ⟨h, fun key _ => .refl key reassembler⟩
  | succ rounds ih =>
      rw [expireSlots]
      cases hfind : reassembler.collecting.entries.find? fun entry =>
          decide (expiry ≤ now - entry.2.started) with
      | none =>
          simp only [firstExpired, hfind, Option.map_none]
          exact ⟨h, fun key _ => .refl key reassembler⟩
      | some expired =>
          simp only [firstExpired, hfind, Option.map_some]
          have hmem := List.mem_of_find?_eq_some hfind
          have hlate : expiry ≤ now - expired.2.started := by
            simpa using List.find?_some hfind
          obtain ⟨hkeyed, hsteady⟩ := leaves_giveUp h hkeys
            (h.collected expired hmem) .expired now
          obtain ⟨hkeyed', hsteady'⟩ := ih hkeyed
          refine ⟨hkeyed', ?_⟩
          intro key hlive
          have hne : key ≠ expired.1 := by
            rintro rfl
            have := hlive expired.2 hmem
            omega
          apply (hsteady key hne).trans
          apply hsteady'
          intro slot hslot
          exact hlive slot (((hsteady key hne).collected slot).mp hslot)

theorem expire_steady (h : reassembler.Keyed keys)
    (hkeys : keys.length ≤ slots) (now : Nat) :
    (reassembler.expire now).Keyed keys ∧
      ∀ key, reassembler.Current key now →
        Steady key reassembler (reassembler.expire now) := by
  let retained : Reassembler := { reassembler with
    discarding := reassembler.discarding.retain fun _ since =>
      decide (now - since < expiry) }
  have hretained : retained.Keyed keys := by
    refine ⟨h.collected, ?_⟩
    intro entry hmem
    exact h.discarded entry (LinearMap.mem_retain.mp hmem).1
  obtain ⟨hkeyed, hsteady⟩ :=
    expireSlots_steady now reassembler.collecting.len hretained hkeys
  refine ⟨hkeyed, ?_⟩
  rintro key ⟨hlive, hrecent⟩
  have hkept : Steady key reassembler retained := by
    refine ⟨fun _ => Iff.rfl, ?_⟩
    intro since
    rw [LinearMap.mem_retain, and_iff_left_iff_imp]
    intro hmem
    exact decide_eq_true (hrecent since hmem)
  exact hkept.trans (hsteady key hlive)

theorem mem_refuse_discards (reassembler : Reassembler) (key : DatagramKey)
    (now : Nat) :
    (key, now) ∈ (reassembler.refuse key now).discarding.entries := by
  simp only [refuse, discard]
  exact LinearMap.mem_insert.mpr (.inl rfl)

theorem refuse_leaves (hsane : reassembler.Sane) (h : reassembler.Keyed keys)
    (hkeys : keys.length ≤ slots) (hother : other ∈ keys) (now : Nat) :
    Leaves keys other reassembler (reassembler.refuse other now) := by
  obtain ⟨_, hslots⟩ := refuse_spec hsane other now
  have hdiscards : ∀ entry : DatagramKey × Nat,
      entry ∈ (reassembler.refuse other now).discarding.entries ↔
        entry = (other, now) ∨
          (entry ∈ reassembler.discarding.entries ∧ entry.1 ≠ other) := by
    intro entry
    unfold refuse
    split
    · exact mem_discard_iff (h.discards_room hkeys)
    · exact mem_discard_iff (h.discards_room hkeys)
  refine ⟨⟨?_, ?_⟩, fun key hne => ⟨?_, ?_⟩⟩
  · intro entry hmem
    exact h.collected entry ((hslots entry).mp hmem).1
  · intro entry hmem
    rcases (hdiscards entry).mp hmem with rfl | ⟨hold, _⟩
    · exact hother
    · exact h.discarded entry hold
  · intro slot
    rw [hslots]
    exact and_iff_left hne
  · intro since
    rw [hdiscards]
    constructor
    · rintro (hnew | ⟨hold, _⟩)
      · cases hnew
        exact absurd rfl hne
      · exact hold
    · exact fun hold => .inr ⟨hold, hne⟩

theorem insert_leaves (h : reassembler.Keyed keys) (hother : other ∈ keys)
    (slot : Collecting) (spare : List Buffer) (lost : List Lost) :
    Leaves keys other reassembler
      ⟨reassembler.collecting.insert other slot, reassembler.discarding, spare,
        lost⟩ := by
  refine ⟨⟨?_, h.discarded⟩, fun key hne => ⟨?_, fun _ => Iff.rfl⟩⟩
  · intro entry hmem
    rcases LinearMap.mem_insert.mp hmem with rfl | ⟨hold, _⟩
    · exact hother
    · exact h.collected entry hold
  · intro found
    rw [LinearMap.mem_insert]
    constructor
    · rintro (hnew | ⟨hold, _⟩)
      · cases hnew
        exact absurd rfl hne
      · exact hold
    · exact fun hold => .inr ⟨hold, hne⟩

theorem openSlot_leaves (h : reassembler.Keyed keys)
    (hkeys : keys.length ≤ slots) (hother : other ∈ keys) (now : Nat) :
    Leaves keys other reassembler (reassembler.openSlot other now) := by
  unfold openSlot
  cases hget : reassembler.collecting.get other with
  | some slot =>
      rw [if_neg (by simp)]
      exact ⟨h, fun key _ => .refl key reassembler⟩
  | none =>
      simp only [Option.isNone_none, if_true]
      have hroom := h.slots_room hkeys hother hget
      have hsame : reassembler.makeRoom now = reassembler := by
        unfold makeRoom
        rw [if_neg (by omega)]
      rw [hsame]
      exact insert_leaves h hother _ _ _

theorem collect_leaves (hsane : reassembler.Sane)
    (h : reassembler.Keyed keys) (hkeys : keys.length ≤ slots)
    (hother : other ∈ keys) {fragment : Fragment}
    (hend : Fragment.EndFits fragment) {slot : Collecting}
    (hget : reassembler.collecting.get other = some slot)
    {reassembler' : Reassembler} {result : Option Reassembled}
    (hcollect : reassembler.collect other fragment now =
      .ok (reassembler', result)) :
    Leaves keys other reassembler reassembler' := by
  have hsized := hsane.sized other slot (LinearMap.get_eq_some_iff.mp hget)
  by_cases haccept : Acceptable slot fragment
  case neg =>
    obtain ⟨loss, hlost⟩ := collect_lost now hget hend haccept
    rw [hlost] at hcollect
    cases hcollect
    exact leaves_giveUp h hkeys hother loss now
  obtain ⟨slot', _, hresult⟩ := collect_taken now hget hsized haccept
  have hinsert := insert_leaves h hother slot' reassembler.spare
    reassembler.lost
  rcases hresult with ⟨_, htaken⟩ | ⟨first, len, _, htaken⟩
  · rw [htaken] at hcollect
    cases hcollect
    exact hinsert
  · rw [htaken] at hcollect
    cases hcollect
    refine hinsert.trans ⟨⟨?_, h.discarded⟩, fun key hne =>
      ⟨?_, fun _ => Iff.rfl⟩⟩
    · intro entry hmem
      exact hinsert.1.collected entry (LinearMap.mem_remove.mp hmem).1
    · intro found
      rw [LinearMap.mem_remove]
      exact and_iff_left hne

/-- Offering a fragment of `other` touches no datagram that is current. -/
theorem offer_leaves (hsane : reassembler.Sane)
    (h : reassembler.Keyed keys) (hkeys : keys.length ≤ slots)
    {ingress : CaptureKey} {fragment : Fragment}
    (hend : Fragment.EndFits fragment) {wanted : Bool}
    (hother : keyOf ingress fragment ∈ keys)
    {reassembler' : Reassembler} {result : Option Reassembled}
    (hoffer : reassembler.offer ingress fragment wanted now =
      .ok (reassembler', result)) :
    reassembler'.Keyed keys ∧
      ∀ key, key ≠ keyOf ingress fragment → reassembler.Current key now →
        Steady key reassembler reassembler' := by
  obtain ⟨hkeyed, hsteady⟩ := expire_steady h hkeys now
  obtain ⟨hexpired, _⟩ := expire_spec hsane now
  suffices hleaves : Leaves keys (keyOf ingress fragment)
      (reassembler.expire now) reassembler' by
    refine ⟨hleaves.1, ?_⟩
    intro key hne hcurrent
    exact (hsteady key hcurrent).trans (hleaves.2 key hne)
  simp only [offer] at hoffer
  split at hoffer
  · cases hoffer
    exact ⟨hkeyed, fun key _ => .refl key _⟩
  rename_i hkept
  rw [Option.not_isSome_iff_eq_none] at hkept
  cases wanted with
  | false =>
      cases hoffer
      exact refuse_leaves hexpired hkeyed hkeys hother now
  | true =>
      obtain ⟨hopened, _, _, slot, hget, _⟩ :=
        openSlot_spec hexpired now hkept
      have hopen := openSlot_leaves hkeyed hkeys hother now
      exact hopen.trans
        (collect_leaves hopened hopen.1 hkeys hother hend hget hoffer)

end Netflector.Dispatch.Reassembler
