import Netflector.Net.Mdns.Recompression

/-!
# Sections and the message header

The header announces how many entries each section has, and the walk takes
them in that order.  Entries written one after the other are walked back as
such, and patching the four counts touches nothing else.
-/

namespace Netflector.Net.Mdns

open Netflector.Foundation

/-! ## Walking entries -/

def walkStop (offset : Nat) : List Entry → Nat
  | [] => offset
  | entry :: rest => walkStop entry.stop rest

theorem walkEntries_cons_eq_ok_iff {payload : Bytes} {sect : Section}
    {sects : List Section} {offset : Nat} {walked : List Entry} :
    walkEntries payload (sect :: sects) offset = .ok walked ↔
      ∃ entry rest, entryAt payload sect offset = .ok entry ∧
        walkEntries payload sects entry.stop = .ok rest ∧
        walked = entry :: rest := by
  simp only [walkEntries, bind, Except.bind]
  cases hentry : entryAt payload sect offset with
  | error e => simp
  | ok entry =>
      cases hrest : walkEntries payload sects entry.stop with
      | error e => simp [hrest]
      | ok rest => simp [hrest, eq_comm]

theorem walkEntries_append {payload : Bytes} {sects sects' : List Section}
    {offset : Nat} {walked walked' : List Entry}
    (h : walkEntries payload sects offset = .ok walked)
    (h' : walkEntries payload sects' (walkStop offset walked) = .ok walked') :
    walkEntries payload (sects ++ sects') offset = .ok (walked ++ walked') := by
  induction sects generalizing offset walked with
  | nil =>
      cases h
      exact h'
  | cons sect sects ih =>
      obtain ⟨entry, rest, hentry, hrest, rfl⟩ :=
        walkEntries_cons_eq_ok_iff.mp h
      exact walkEntries_cons_eq_ok_iff.mpr
        ⟨entry, rest ++ walked', hentry, ih hrest h', rfl⟩

theorem walkStop_append (offset : Nat) (first second : List Entry) :
    walkStop offset (first ++ second) =
      walkStop (walkStop offset first) second := by
  induction first generalizing offset with
  | nil => rfl
  | cons entry rest ih => exact ih entry.stop

theorem walkEntries_sects {payload : Bytes} {sects : List Section}
    {offset : Nat} {walked : List Entry}
    (h : walkEntries payload sects offset = .ok walked) :
    walked.map Entry.sect = sects := by
  induction sects generalizing offset walked with
  | nil =>
      cases h
      rfl
  | cons sect sects ih =>
      obtain ⟨entry, rest, hentry, hrest, rfl⟩ :=
        walkEntries_cons_eq_ok_iff.mp h
      rw [List.map_cons, ih hrest, (entryAt_eq_ok_iff.mp hentry).2.2]

theorem walkEntries_wellPlaced {payload : Bytes} {sects : List Section}
    {offset : Nat} {walked : List Entry}
    (h : walkEntries payload sects offset = .ok walked) :
    ∀ entry ∈ walked, entry.WellPlaced payload ∧ offset ≤ entry.name := by
  induction sects generalizing offset walked with
  | nil =>
      cases h
      simp
  | cons sect sects ih =>
      obtain ⟨entry, rest, hentry, hrest, rfl⟩ :=
        walkEntries_cons_eq_ok_iff.mp h
      obtain ⟨hplaced, hname, _⟩ := entryAt_eq_ok_iff.mp hentry
      intro other hother
      rcases List.mem_cons.mp hother with rfl | hmem
      · exact ⟨hplaced, by omega⟩
      · have hlt := hplaced.name_lt_stop
        obtain ⟨hplaced', hle⟩ := ih hrest other hmem
        exact ⟨hplaced', by omega⟩

theorem entries_wellPlaced {payload : Bytes} {walked : List Entry}
    (h : entries payload = .ok walked) :
    ∀ entry ∈ walked, entry.WellPlaced payload := by
  unfold entries at h
  split at h
  · cases h
    simp
  · exact fun entry hmem => (walkEntries_wellPlaced h entry hmem).1

/-- The walk moves forward, so no entry is met twice. -/
theorem walkEntries_nodup {payload : Bytes} {sects : List Section}
    {offset : Nat} {walked : List Entry}
    (h : walkEntries payload sects offset = .ok walked) : walked.Nodup := by
  induction sects generalizing offset walked with
  | nil =>
      cases h
      exact List.nodup_nil
  | cons sect sects ih =>
      obtain ⟨entry, rest, hentry, hrest, rfl⟩ :=
        walkEntries_cons_eq_ok_iff.mp h
      refine List.nodup_cons.mpr ⟨fun hmem => ?_, ih hrest⟩
      have hle := (walkEntries_wellPlaced hrest entry hmem).2
      have hlt := (entryAt_eq_ok_iff.mp hentry).1.name_lt_stop
      omega

/-! ## Section order -/

def Section.rank : Section → Nat
  | .question => 0
  | .answer => 1
  | .authority => 2
  | .additional => 3

theorem Section.isLate_iff_rank {sect : Section} :
    sect.isLate = true ↔ 2 ≤ sect.rank := by
  cases sect <;> decide

def countSections (sects : List Section) : SectionCounts :=
  ⟨sects.count .question, sects.count .answer, sects.count .authority,
    sects.count .additional⟩

def SectionCounts.sects (counts : SectionCounts) : List Section :=
  List.replicate counts.question .question ++
  List.replicate counts.answer .answer ++
  List.replicate counts.authority .authority ++
  List.replicate counts.additional .additional

theorem countSections_concat (sects : List Section) (sect : Section) :
    countSections (sects ++ [sect]) = (countSections sects).bump sect := by
  cases sect <;> simp [countSections, SectionCounts.bump]

theorem sects_countSections {sects : List Section}
    (h : sects.Pairwise fun first second => first.rank ≤ second.rank) :
    (countSections sects).sects = sects := by
  induction sects with
  | nil => rfl
  | cons sect sects ih =>
      obtain ⟨hfirst, hrest⟩ := List.pairwise_cons.mp h
      have habsent : ∀ other : Section, other.rank < sect.rank →
          sects.count other = 0 := by
        intro other hlt
        rw [List.count_eq_zero]
        intro hmem
        have := hfirst other hmem
        omega
      have hsects := ih hrest
      simp only [countSections, SectionCounts.sects] at hsects ⊢
      cases sect with
      | question => simpa [List.replicate_succ] using hsects
      | answer =>
          have hquestion := habsent .question (by decide)
          simpa [List.replicate_succ, hquestion] using hsects
      | authority =>
          have hquestion := habsent .question (by decide)
          have hanswer := habsent .answer (by decide)
          simpa [List.replicate_succ, hquestion, hanswer] using hsects
      | additional =>
          have hquestion := habsent .question (by decide)
          have hanswer := habsent .answer (by decide)
          have hauthority := habsent .authority (by decide)
          simpa [List.replicate_succ, hquestion, hanswer, hauthority]
            using hsects

theorem announced_ordered (payload : Bytes) :
    (announced payload).Pairwise
      fun first second => first.rank ≤ second.rank := by
  simp only [announced, List.pairwise_append, List.pairwise_replicate,
    List.mem_append, List.mem_replicate]
  refine ⟨⟨⟨by simp, by simp, ?_⟩, by simp, ?_⟩, by simp, ?_⟩
  · rintro first ⟨_, rfl⟩ second ⟨_, rfl⟩
    decide
  · rintro first (⟨_, rfl⟩ | ⟨_, rfl⟩) second ⟨_, rfl⟩ <;> decide
  · rintro first ((⟨_, rfl⟩ | ⟨_, rfl⟩) | ⟨_, rfl⟩) second ⟨_, rfl⟩ <;> decide

/-! ## The header -/

def headerCounts (payload : Bytes) : SectionCounts :=
  ⟨sectionCount payload qdcountAt, sectionCount payload ancountAt,
    sectionCount payload nscountAt, sectionCount payload arcountAt⟩

theorem announced_eq_sects (payload : Bytes) :
    announced payload = (headerCounts payload).sects := rfl

theorem countSections_announced (payload : Bytes) :
    countSections (announced payload) = headerCounts payload := by
  simp [countSections, announced, headerCounts, List.count_replicate]

structure SectionCounts.Fits (counts : SectionCounts) : Prop where
  question : counts.question < 65536
  answer : counts.answer < 65536
  authority : counts.authority < 65536
  additional : counts.additional < 65536

theorem sectionCount_lt (payload : Bytes) (offset : Nat) :
    sectionCount payload offset < 65536 := by
  unfold sectionCount
  cases hcount : be16At payload offset with
  | none => decide
  | some value => exact be16At_lt hcount

theorem headerCounts_fits (payload : Bytes) : (headerCounts payload).Fits :=
  ⟨sectionCount_lt _ _, sectionCount_lt _ _, sectionCount_lt _ _,
    sectionCount_lt _ _⟩

section Patch

variable (counts : SectionCounts) {out : Bytes}

theorem overwrite_at {before old after data : Bytes} {offset : Nat}
    (hoffset : before.length = offset) (hdata : data.length = old.length) :
    overwrite (before ++ (old ++ after)) offset data =
      before ++ (data ++ after) := by
  subst hoffset
  simpa using overwrite_append before after hdata

theorem patchCounts_eq (h : dnsHeaderLen ≤ out.length) :
    patchCounts counts out = out.take 4 ++ toBe16 counts.question ++
      toBe16 counts.answer ++ toBe16 counts.authority ++
      toBe16 counts.additional ++ out.drop 12 := by
  simp only [dnsHeaderLen] at h
  have hsplit : out = out.take 4 ++ ((out.drop 4).take 2 ++
      ((out.drop 6).take 2 ++ ((out.drop 8).take 2 ++
      ((out.drop 10).take 2 ++ out.drop 12)))) := by
    have hdrop : ∀ start, (out.drop start).take 2 ++ out.drop (start + 2) =
        out.drop start := by
      intro start
      rw [← List.drop_drop]
      exact List.take_append_drop 2 (out.drop start)
    rw [hdrop 10, hdrop 8, hdrop 6, hdrop 4, List.take_append_drop]
  nth_rewrite 1 [hsplit]
  have hfour : (out.take 4).length = 4 := by simp; omega
  have hfield : ∀ start value, start + 2 ≤ 12 →
      (toBe16 value).length = ((out.drop start).take 2).length := by
    intro start value hstart
    simp
    omega
  unfold patchCounts qdcountAt ancountAt nscountAt arcountAt
  rw [overwrite_at hfour (hfield 4 _ (by omega)), ← List.append_assoc,
    overwrite_at (by simp [hfour]) (hfield 6 _ (by omega)), ← List.append_assoc,
    overwrite_at (by simp [hfour]) (hfield 8 _ (by omega)), ← List.append_assoc,
    overwrite_at (by simp [hfour]) (hfield 10 _ (by omega))]
  simp only [List.append_assoc]

theorem patchCounts_grows (h : dnsHeaderLen ≤ out.length) :
    Grows inHeader out (patchCounts counts out) := by
  have hlength : (out.take 4 ++ toBe16 counts.question ++
      toBe16 counts.answer ++ toBe16 counts.authority ++
      toBe16 counts.additional).length = 12 := by
    simp only [dnsHeaderLen] at h
    simp
    omega
  rw [patchCounts_eq counts h]
  refine ⟨?_, fun index hindex hout => ?_⟩
  · rw [List.length_append, hlength, List.length_drop]
    omega
  · have hge : 12 ≤ index := Nat.le_of_not_lt hout
    rw [List.getElem?_append_right (by omega), hlength, List.getElem?_drop]
    congr 1
    omega

theorem patchCounts_length (h : dnsHeaderLen ≤ out.length) :
    (patchCounts counts out).length = out.length := by
  rw [patchCounts_eq counts h]
  simp only [dnsHeaderLen] at h
  simp
  omega

theorem patchCounts_take (h : dnsHeaderLen ≤ out.length) :
    (patchCounts counts out).take 4 = out.take 4 := by
  rw [patchCounts_eq counts h]
  simp only [dnsHeaderLen] at h
  simp only [List.append_assoc]
  rw [List.take_append_of_le_length (by simp; omega), List.take_take]
  rfl

theorem headerCounts_patchCounts {counts : SectionCounts} (h : dnsHeaderLen ≤ out.length)
    (hfits : counts.Fits) : headerCounts (patchCounts counts out) = counts := by
  have hfour : (out.take 4).length = 4 := by
    simp only [dnsHeaderLen] at h
    simp
    omega
  have hread : ∀ (before after : Bytes) (value offset : Nat),
      before.length = offset → value < 65536 →
      sectionCount (before ++ (toBe16 value ++ after)) offset = value := by
    rintro before after value _ rfl hvalue
    rw [← List.append_assoc, sectionCount, be16At_append_middle hvalue]
    rfl
  rw [patchCounts_eq counts h]
  unfold headerCounts qdcountAt ancountAt nscountAt arcountAt
  obtain ⟨question, answer, authority, additional⟩ := counts
  simp only [SectionCounts.mk.injEq]
  refine ⟨?_, ?_, ?_, ?_⟩
  · simp only [List.append_assoc]
    exact hread _ _ _ _ hfour hfits.question
  · rw [List.append_assoc, List.append_assoc, List.append_assoc]
    exact hread _ _ _ _ (by simp [hfour]) hfits.answer
  · rw [List.append_assoc, List.append_assoc]
    exact hread _ _ _ _ (by simp [hfour]) hfits.authority
  · rw [List.append_assoc]
    exact hread _ _ _ _ (by simp [hfour]) hfits.additional

end Patch

end Netflector.Net.Mdns
