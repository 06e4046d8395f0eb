import Netflector.Dispatch.Collecting

/-!
# Slots of the reassembler

What expiry, eviction and an offered fragment do to the slots: apart from the
fragment's own, a slot is kept as it is or given up.
-/

namespace Netflector.Dispatch.Reassembler

open Netflector.Foundation
open Netflector.Net

/-- A datagram is not both collected and discarded, and a slot's datagram fits
its buffer. -/
structure Sane (reassembler : Reassembler) : Prop where
  separate : ∀ key slot since, (key, slot) ∈ reassembler.collecting.entries →
    (key, since) ∉ reassembler.discarding.entries
  sized : ∀ key slot, (key, slot) ∈ reassembler.collecting.entries →
    ∀ len, slot.len = some len → len ≤ maxDatagramLen

theorem sane_new : new.Sane := by
  constructor
  · intro key slot since hmem
    cases hmem
  · intro key slot hmem
    cases hmem

variable {reassembler : Reassembler}

/-! ## Giving up -/

theorem mem_discard {key : DatagramKey} {now : Nat}
    {entry : DatagramKey × Nat}
    (h : entry ∈ (reassembler.discard key now).discarding.entries) :
    entry = (key, now) ∨ entry ∈ reassembler.discarding.entries := by
  simp only [discard, LinearMap.mem_insert] at h
  rcases h with hnew | ⟨hold, _⟩
  · exact .inl hnew
  right
  split at hold
  · split at hold
    · exact (LinearMap.mem_remove.mp hold).1
    · exact hold
  · exact hold

theorem giveUp_collecting (key : DatagramKey) (loss : Loss) (now : Nat) :
    (reassembler.giveUp key loss now).collecting =
      (reassembler.collecting.remove key).1 := by
  unfold giveUp
  split
  · rename_i collecting slot hremove
    rw [hremove]
    rfl
  · rename_i collecting hremove
    rw [LinearMap.remove_none (by rw [hremove])]
    rfl

theorem mem_giveUp {key : DatagramKey} {loss : Loss} {now : Nat}
    {entry : DatagramKey × Collecting} :
    entry ∈ (reassembler.giveUp key loss now).collecting.entries ↔
      entry ∈ reassembler.collecting.entries ∧ entry.1 ≠ key := by
  rw [giveUp_collecting, LinearMap.mem_remove]

theorem giveUp_discarding {key : DatagramKey} {loss : Loss} {now : Nat}
    {entry : DatagramKey × Nat}
    (h : entry ∈ (reassembler.giveUp key loss now).discarding.entries) :
    entry = (key, now) ∨ entry ∈ reassembler.discarding.entries := by
  unfold giveUp at h
  split at h
  · exact mem_discard h
  · exact mem_discard h

theorem sane_dropped {reassembler' : Reassembler} {key : DatagramKey}
    (now : Nat) (h : reassembler.Sane)
    (hslots : reassembler'.collecting = (reassembler.collecting.remove key).1)
    (hdiscards : ∀ entry ∈ reassembler'.discarding.entries,
      entry = (key, now) ∨ entry ∈ reassembler.discarding.entries) :
    reassembler'.Sane := by
  constructor
  · intro other slot since hslot hdiscard
    rw [hslots, LinearMap.mem_remove] at hslot
    rcases hdiscards _ hdiscard with hnew | hdiscard
    · cases hnew
      exact hslot.2 rfl
    · exact h.separate other slot since hslot.1 hdiscard
  · intro other slot hslot
    rw [hslots, LinearMap.mem_remove] at hslot
    exact h.sized other slot hslot.1

theorem sane_giveUp (h : reassembler.Sane) (key : DatagramKey) (loss : Loss)
    (now : Nat) : (reassembler.giveUp key loss now).Sane :=
  sane_dropped now h (giveUp_collecting key loss now)
    (fun _ => giveUp_discarding)

theorem refuse_spec (h : reassembler.Sane) (key : DatagramKey) (now : Nat) :
    (reassembler.refuse key now).Sane ∧
      ∀ entry, entry ∈ (reassembler.refuse key now).collecting.entries ↔
        entry ∈ reassembler.collecting.entries ∧ entry.1 ≠ key := by
  have hcollecting : (reassembler.refuse key now).collecting =
      (reassembler.collecting.remove key).1 := by
    unfold refuse
    split
    · rename_i collecting slot hremove
      rw [hremove]
      rfl
    · rename_i collecting hremove
      rw [LinearMap.remove_none (by rw [hremove])]
      rfl
  refine ⟨sane_dropped now h hcollecting ?_, ?_⟩
  · intro entry hmem
    unfold refuse at hmem
    split at hmem
    · exact mem_discard hmem
    · exact mem_discard hmem
  · intro entry
    rw [hcollecting, LinearMap.mem_remove]

theorem sane_insert (h : reassembler.Sane) {key : DatagramKey}
    {slot : Collecting} (hfree : reassembler.discarding.get key = none)
    (hsized : ∀ len, slot.len = some len → len ≤ maxDatagramLen)
    (spare : List Buffer) (lost : List Lost) :
    Sane ⟨reassembler.collecting.insert key slot, reassembler.discarding,
      spare, lost⟩ := by
  constructor
  · intro other otherSlot since hmem hdiscard
    rcases LinearMap.mem_insert.mp hmem with hnew | ⟨hold, _⟩
    · cases hnew
      exact LinearMap.get_eq_none_iff.mp hfree since hdiscard
    · exact h.separate other otherSlot since hold hdiscard
  · intro other otherSlot hmem
    rcases LinearMap.mem_insert.mp hmem with hnew | ⟨hold, _⟩
    · cases hnew
      exact hsized
    · exact h.sized other otherSlot hold

/-! ## Expiry and eviction -/

theorem expireSlots_spec (now : Nat) (rounds : Nat) (h : reassembler.Sane)
    (hrounds : reassembler.collecting.len ≤ rounds) :
    (expireSlots rounds reassembler now).Sane ∧
      ∀ entry, entry ∈
          (expireSlots rounds reassembler now).collecting.entries ↔
        entry ∈ reassembler.collecting.entries ∧
          now - entry.2.started < expiry := by
  induction rounds generalizing reassembler with
  | zero =>
      have hempty : reassembler.collecting.entries = [] :=
        List.length_eq_zero_iff.mp (Nat.le_zero.mp hrounds)
      refine ⟨h, ?_⟩
      intro entry
      simp [expireSlots, hempty]
  | succ rounds ih =>
      rw [expireSlots]
      cases hfind : reassembler.collecting.entries.find? fun entry =>
          decide (expiry ≤ now - entry.2.started) with
      | none =>
          simp only [firstExpired, hfind, Option.map_none]
          refine ⟨h, ?_⟩
          intro entry
          rw [iff_self_and]
          intro hmem
          have hlive := List.find?_eq_none.mp hfind entry hmem
          simpa using hlive
      | some expired =>
          simp only [firstExpired, hfind, Option.map_some]
          have hmem := List.mem_of_find?_eq_some hfind
          have hlate : expiry ≤ now - expired.2.started := by
            simpa using List.find?_some hfind
          have hlen : (reassembler.giveUp expired.1 .expired now).collecting.len
              ≤ rounds := by
            have hremove := LinearMap.len_remove hmem
            rw [giveUp_collecting]
            omega
          obtain ⟨hsane, hentries⟩ := ih (sane_giveUp h _ _ _) hlen
          refine ⟨hsane, ?_⟩
          intro entry
          rw [hentries, mem_giveUp, and_assoc, and_congr_right_iff]
          intro hentry
          rw [and_iff_right_iff_imp]
          rintro hlive hsame
          have hget := LinearMap.get_eq_some_iff.mpr hmem
          rw [← hsame, LinearMap.get_eq_some_iff.mpr hentry,
            Option.some.injEq] at hget
          rw [hget] at hlive
          omega

theorem expire_spec (h : reassembler.Sane) (now : Nat) :
    (reassembler.expire now).Sane ∧
      ∀ entry, entry ∈ (reassembler.expire now).collecting.entries ↔
        entry ∈ reassembler.collecting.entries ∧
          now - entry.2.started < expiry := by
  apply expireSlots_spec now _ _ (Nat.le_refl _)
  constructor
  · intro key slot since hslot hdiscard
    exact h.separate key slot since hslot (LinearMap.mem_retain.mp hdiscard).1
  · exact h.sized

theorem makeRoom_spec (h : reassembler.Sane) (now : Nat) :
    (reassembler.makeRoom now).Sane ∧
      (∀ entry ∈ (reassembler.makeRoom now).collecting.entries,
        entry ∈ reassembler.collecting.entries) ∧
      ∀ entry ∈ (reassembler.makeRoom now).discarding.entries,
        entry ∈ reassembler.discarding.entries ∨
          ∃ slot, (entry.1, slot) ∈ reassembler.collecting.entries := by
  have hsame : reassembler.Sane ∧
      (∀ entry ∈ reassembler.collecting.entries,
        entry ∈ reassembler.collecting.entries) ∧
      ∀ entry ∈ reassembler.discarding.entries,
        entry ∈ reassembler.discarding.entries ∨
          ∃ slot, (entry.1, slot) ∈ reassembler.collecting.entries :=
    ⟨h, fun _ => id, fun _ => .inl⟩
  unfold makeRoom
  split
  · split
    · rename_i oldest holdest
      refine ⟨sane_giveUp h _ _ _, fun entry hmem => (mem_giveUp.mp hmem).1, ?_⟩
      intro entry hmem
      rcases giveUp_discarding hmem with rfl | hold
      · exact .inr ⟨oldest.2, List.argmin_mem holdest⟩
      · exact .inl hold
    · exact hsame
  · exact hsame

/-! ## A slot for the fragment -/

/-- The slot an offered fragment goes to: one that has not expired, or a fresh
one. -/
def Source (reassembler : Reassembler) (key : DatagramKey) (now : Nat)
    (slot : Collecting) : Prop :=
  ((key, slot) ∈ reassembler.collecting.entries ∧
    now - slot.started < expiry) ∨
  ((reassembler.expire now).collecting.get key = none ∧
    ∃ buf, slot = Collecting.new buf now)

theorem openSlot_spec (h : reassembler.Sane) {key : DatagramKey} (now : Nat)
    (hkept : reassembler.discarding.get key = none) :
    (reassembler.openSlot key now).Sane ∧
      (reassembler.openSlot key now).discarding.get key = none ∧
      (∀ entry ∈ (reassembler.openSlot key now).collecting.entries,
        entry.1 ≠ key → entry ∈ reassembler.collecting.entries) ∧
      ∃ slot, (reassembler.openSlot key now).collecting.get key = some slot ∧
        (reassembler.collecting.get key = some slot ∨
          (reassembler.collecting.get key = none ∧
            ∃ buf, slot = Collecting.new buf now)) := by
  unfold openSlot
  cases hget : reassembler.collecting.get key with
  | some slot =>
      rw [if_neg (by simp)]
      exact ⟨h, hkept, fun _ hmem _ => hmem, slot, hget, .inl rfl⟩
  | none =>
      simp only [Option.isNone_none, if_true]
      obtain ⟨hsane, hslots, hdiscards⟩ := makeRoom_spec h now
      -- The slot given up is another datagram's: this one has none.
      have hfree : (reassembler.makeRoom now).discarding.get key = none := by
        rw [LinearMap.get_eq_none_iff]
        intro since hmem
        rcases hdiscards _ hmem with hold | ⟨slot, hslot⟩
        · exact LinearMap.get_eq_none_iff.mp hkept since hold
        · exact LinearMap.get_eq_none_iff.mp hget slot hslot
      refine ⟨sane_insert hsane hfree ?_ _ _, hfree, ?_, _,
        LinearMap.get_insert _ _ _, .inr ⟨trivial, _, rfl⟩⟩
      · intro len hlen
        cases hlen
      · intro entry hmem hne
        rcases LinearMap.mem_insert.mp hmem with rfl | ⟨hold, _⟩
        · exact absurd rfl hne
        · exact hslots entry hold

theorem took_sized {slot slot' : Collecting} {fragment : Fragment}
    (hslot : ∀ len, slot.len = some len → len ≤ maxDatagramLen)
    (h : Acceptable slot fragment) (htook : Took slot fragment slot') :
    ∀ len, slot'.len = some len → len ≤ maxDatagramLen := by
  intro len hlen
  rw [htook.len] at hlen
  split at hlen
  · exact hslot len hlen
  · cases hlen
    exact h.fits

/-! ## Collecting a fragment -/

section Collect

variable {key : DatagramKey} {slot slot' : Collecting} {fragment : Fragment}

theorem collect_lost (now : Nat)
    (hget : reassembler.collecting.get key = some slot)
    (hend : Fragment.EndFits fragment) (h : ¬ Acceptable slot fragment) :
    ∃ loss, reassembler.collect key fragment now =
      .ok (reassembler.giveUp key loss now, none) := by
  obtain ⟨loss, hadd⟩ := add_fails hend h
  refine ⟨loss, ?_⟩
  simp only [collect, hget, hadd]

theorem collect_kept (now : Nat)
    (hget : reassembler.collecting.get key = some slot)
    (hadd : slot.add fragment = .ok slot')
    (hcomplete : slot'.isComplete = .ok false) :
    reassembler.collect key fragment now =
      .ok ({ reassembler with
        collecting := reassembler.collecting.insert key slot' }, none) := by
  simp only [collect, hget, hadd, hcomplete, bind, Except.bind,
    Bool.not_false, if_true]

theorem collect_completed (now : Nat) {first : FragmentHeader} {len : Nat}
    (hget : reassembler.collecting.get key = some slot)
    (hadd : slot.add fragment = .ok slot')
    (hcomplete : slot'.isComplete = .ok true)
    (hdone : Complete slot' first len) :
    reassembler.collect key fragment now =
      .ok ({ reassembler with
        collecting :=
          ((reassembler.collecting.insert key slot').remove key).1 },
        some ⟨first, slot'.buf, len⟩) := by
  have hfinish := finish_complete hcomplete hdone
  have hremoved : ((reassembler.collecting.insert key slot').remove key).2
      = some slot' := by
    rw [LinearMap.remove_value, LinearMap.get_insert]
  simp only [collect, hget, hadd, hcomplete, bind, Except.bind,
    Bool.not_true, Bool.false_eq_true, if_false]
  split
  · rename_i hnone
    rw [hnone] at hremoved
    cases hremoved
  · rename_i collecting slot'' hsome
    rw [hsome] at hremoved
    cases hremoved
    simp only [hfinish, hsome]

theorem collect_taken (now : Nat)
    (hget : reassembler.collecting.get key = some slot)
    (hsized : ∀ len, slot.len = some len → len ≤ maxDatagramLen)
    (h : Acceptable slot fragment) :
    ∃ slot', Took slot fragment slot' ∧
      (((¬ ∃ first len, Complete slot' first len) ∧
        reassembler.collect key fragment now =
          .ok ({ reassembler with
            collecting := reassembler.collecting.insert key slot' }, none)) ∨
      ∃ first len, Complete slot' first len ∧
        reassembler.collect key fragment now =
          .ok ({ reassembler with
            collecting :=
              ((reassembler.collecting.insert key slot').remove key).1 },
            some ⟨first, slot'.buf, len⟩)) := by
  obtain ⟨slot', hadd, htook⟩ := add_ok h
  obtain ⟨complete, hcomplete, hiff⟩ :=
    isComplete_total (took_sized hsized h htook)
  refine ⟨slot', htook, ?_⟩
  cases complete with
  | false =>
      exact .inl ⟨fun hdone => absurd (hiff.mpr hdone) (by decide),
        collect_kept now hget hadd hcomplete⟩
  | true =>
      obtain ⟨first, len, hdone⟩ := hiff.mp rfl
      exact .inr ⟨first, len, hdone,
        collect_completed now hget hadd hcomplete hdone⟩

end Collect

/-! ## Offering a fragment -/

def Taken (reassembler : Reassembler) (key : DatagramKey)
    (fragment : Fragment) (wanted : Bool) (now : Nat) (slot' : Collecting) :
    Prop :=
  wanted = true ∧ ∃ slot, reassembler.Source key now slot ∧
    Acceptable slot fragment ∧ Took slot fragment slot'

structure Offered (reassembler : Reassembler) (key : DatagramKey)
    (fragment : Fragment) (wanted : Bool) (now : Nat)
    (reassembler' : Reassembler) (result : Option Reassembled) : Prop where
  sane : reassembler'.Sane
  others : ∀ entry ∈ reassembler'.collecting.entries, entry.1 ≠ key →
    entry ∈ reassembler.collecting.entries
  own : ∀ slot', (key, slot') ∈ reassembler'.collecting.entries →
    reassembler.Taken key fragment wanted now slot'
  completed : ∀ done, result = some done → ∃ slot' first len,
    reassembler.Taken key fragment wanted now slot' ∧
    Complete slot' first len ∧ len ≤ maxDatagramLen ∧
    done = ⟨first, slot'.buf, len⟩

theorem offered_dropped {reassembler' : Reassembler} {key : DatagramKey}
    {fragment : Fragment} {wanted : Bool} {now : Nat}
    (hsane : reassembler'.Sane)
    (hslots : ∀ entry ∈ reassembler'.collecting.entries,
      entry.1 ≠ key ∧ entry ∈ reassembler.collecting.entries) :
    reassembler.Offered key fragment wanted now reassembler' none where
  sane := hsane
  others entry hmem _ := (hslots entry hmem).2
  own slot' hmem := absurd rfl (hslots _ hmem).1
  completed done hdone := by cases hdone

theorem offered_collect {opened : Reassembler} {key : DatagramKey}
    {fragment : Fragment} {now : Nat} {slot : Collecting}
    (hend : Fragment.EndFits fragment) (hsane : opened.Sane) (hfree : opened.discarding.get key = none)
    (hget : opened.collecting.get key = some slot)
    (hsource : reassembler.Source key now slot)
    (hothers : ∀ entry ∈ opened.collecting.entries, entry.1 ≠ key →
      entry ∈ reassembler.collecting.entries) :
    ∃ reassembler' result,
      opened.collect key fragment now = .ok (reassembler', result) ∧
      reassembler.Offered key fragment true now reassembler' result := by
  have hsized := hsane.sized key slot (LinearMap.get_eq_some_iff.mp hget)
  by_cases haccept : Acceptable slot fragment
  case neg =>
    obtain ⟨loss, hcollect⟩ := collect_lost now hget hend haccept
    refine ⟨_, _, hcollect, offered_dropped (sane_giveUp hsane _ _ _) ?_⟩
    intro entry hmem
    obtain ⟨hold, hne⟩ := mem_giveUp.mp hmem
    exact ⟨hne, hothers entry hold hne⟩
  obtain ⟨slot', htook, hresult⟩ := collect_taken now hget hsized haccept
  have htaken : reassembler.Taken key fragment true now slot' :=
    ⟨rfl, slot, hsource, haccept, htook⟩
  have hsized' := took_sized hsized haccept htook
  have hsane' := sane_insert hsane hfree hsized' opened.spare opened.lost
  rcases hresult with ⟨_, hcollect⟩ | ⟨first, len, hcomplete, hcollect⟩
  · refine ⟨_, _, hcollect, hsane', ?_, ?_, ?_⟩
    · intro entry hmem hne
      rcases LinearMap.mem_insert.mp hmem with rfl | ⟨hold, _⟩
      · exact absurd rfl hne
      · exact hothers entry hold hne
    · intro otherSlot hmem
      rcases LinearMap.mem_insert.mp hmem with hnew | ⟨_, hne⟩
      · cases hnew
        exact htaken
      · exact absurd rfl hne
    · intro done hdone
      cases hdone
  · refine ⟨_, _, hcollect, sane_dropped now hsane' rfl (fun _ => .inr),
      ?_, ?_, ?_⟩
    · intro entry hmem hne
      obtain ⟨hinsert, _⟩ := LinearMap.mem_remove.mp hmem
      rcases LinearMap.mem_insert.mp hinsert with rfl | ⟨hold, _⟩
      · exact absurd rfl hne
      · exact hothers entry hold hne
    · intro otherSlot hmem
      exact absurd rfl (LinearMap.mem_remove.mp hmem).2
    · intro done hdone
      cases hdone
      exact ⟨slot', first, len, htaken, hcomplete, hsized' len hcomplete.2.1,
        rfl⟩

theorem offer_total (h : reassembler.Sane) (ingress : CaptureKey)
    {fragment : Fragment} (hend : Fragment.EndFits fragment) (wanted : Bool)
    (now : Nat) :
    ∃ reassembler' result,
      reassembler.offer ingress fragment wanted now =
        .ok (reassembler', result) ∧
      reassembler.Offered (keyOf ingress fragment) fragment wanted now
        reassembler' result := by
  obtain ⟨hexpired, hlive⟩ := expire_spec h now
  simp only [offer]
  generalize keyOf ingress fragment = key
  split
  · -- A discarded datagram has no slot.
    rename_i hdiscarded
    obtain ⟨since, hsince⟩ := Option.isSome_iff_exists.mp hdiscarded
    refine ⟨_, _, rfl, offered_dropped hexpired ?_⟩
    intro entry hmem
    refine ⟨?_, ((hlive entry).mp hmem).1⟩
    rintro rfl
    exact hexpired.separate _ _ since hmem
      (LinearMap.get_eq_some_iff.mp hsince)
  rename_i hkept
  rw [Option.not_isSome_iff_eq_none] at hkept
  cases wanted with
  | false =>
      obtain ⟨hsane, hslots⟩ := refuse_spec hexpired key now
      refine ⟨_, _, rfl, offered_dropped hsane ?_⟩
      intro entry hmem
      obtain ⟨hold, hne⟩ := (hslots entry).mp hmem
      exact ⟨hne, ((hlive entry).mp hold).1⟩
  | true =>
      obtain ⟨hsane, hfree, hothers, slot, hget, hslot⟩ :=
        openSlot_spec hexpired now hkept
      have hsource : reassembler.Source key now slot := by
        rcases hslot with hold | hfresh
        · exact .inl ((hlive _).mp (LinearMap.get_eq_some_iff.mp hold))
        · exact .inr hfresh
      apply offered_collect hend hsane hfree hget hsource
      intro entry hmem hne
      exact ((hlive entry).mp (hothers entry hmem hne)).1

end Netflector.Dispatch.Reassembler
