import Netflector.Net.Mdns.Progress
import Netflector.Net.Mdns.Totality

/-!
# Trimming and assessing never panic

Writing an entry stays inside the two buffers, the section counts stay inside
a `u16` because the sections come in wire order, and a whole pass spends no
more steps than its budget.
-/

namespace Netflector.Net.Mdns.Guarded

open Netflector.Foundation

variable {usize : Usize} {payload : Bytes}

/-! ## Writing an entry -/

structure Grown (payload : Bytes) (before after : Trimmer) : Prop where
  placed_length : after.placed.length = payload.length
  out_le : before.out.length ≤ after.out.length

theorem Grown.trans {first second third : Trimmer}
    (h : Grown payload first second) (h' : Grown payload second third) :
    Grown payload first third :=
  ⟨h'.placed_length, Nat.le_trans h.out_le h'.out_le⟩

theorem Grown.push {before after : Trimmer} (h : Grown payload before after)
    (bytes : Bytes) : Grown payload before (after.push bytes) :=
  ⟨h.placed_length, by simp only [Trimmer.push, List.length_append]; have := h.out_le; omega⟩

theorem Grown.refl {trimmer : Trimmer}
    (h : trimmer.placed.length = payload.length) :
    Grown payload trimmer trimmer := ⟨h, Nat.le_refl _⟩

theorem place_label {trimmer : Trimmer} {offset : Nat} (label : Bytes)
    (h : offset < trimmer.placed.length) :
    place trimmer.placed offset trimmer.out.length =
      some (trimmer.label offset label).placed := by
  simp only [place, Trimmer.label, if_pos h]
  split <;> rfl

theorem Trimmer.label_grown {trimmer : Trimmer}
    (h : trimmer.placed.length = payload.length) (offset : Nat)
    (label : Bytes) :
    Grown payload trimmer (trimmer.label offset label) := by
  constructor
  · simp only [Trimmer.label]
    split
    · rw [List.length_set, h]
    · exact h
  · simp only [Trimmer.label, List.length_append]
    omega

theorem writeNameFrom_alike (hfits : payload.length ≤ usize.maxLen)
    {start budget : Nat} (offset : Nat) {hops : Nat} {trimmer : Trimmer}
    (hhops : hops ≤ maxPointerHops)
    (hplaced : trimmer.placed.length = payload.length) :
    Metered.Alike budget (Grown payload trimmer)
      (writeNameFrom usize payload start budget offset hops trimmer)
      (Trimmer.writeNameFrom payload start budget offset hops trimmer) := by
  induction budget generalizing offset hops trimmer with
  | zero => exact .error _ 0 (Nat.le_refl 0)
  | succ budget ih =>
      have hhop : hops ≤ 127 := hhops
      have hsame := Grown.refl hplaced
      simp only [writeNameFrom, Trimmer.writeNameFrom]
      split
      · split
        · exact .error _ budget (Nat.le_succ budget)
        · exact .ok _ budget (Nat.le_succ budget) (hsame.push _)
      · cases hoctet : payload[offset]? with
        | none => exact .error _ budget (Nat.le_succ budget)
        | some len =>
            have hlt : offset < payload.length :=
              (List.getElem?_eq_some_iff.mp hoctet).1
            cases htag : labelTag len with
            | root =>
                simp only [htag]
                exact .ok _ budget (Nat.le_succ budget) (hsame.push _)
            | plain =>
                have hshort := label_short htag
                have hroom := usize.maxLen_lt_top
                simp only [htag, add_short hfits hoctet (by omega : 1 ≤ 100000),
                  Usize.add_eq (show offset + 1 + len.toNat < usize.top by
                    omega), Option.bind_eq_bind, Option.bind_some]
                cases hslice : slice? payload offset
                    (offset + 1 + len.toNat) with
                | none => exact .error _ budget (Nat.le_succ budget)
                | some label =>
                    have hlabel : label.length = 1 + len.toNat := by
                      rw [slice?_length hslice]
                      omega
                    simp only [place_label label (hplaced ▸ hlt),
                      Option.bind_some,
                      Usize.add_eq (show offset + label.length < usize.top by
                        omega)]
                    have hlabelled := Trimmer.label_grown hplaced offset label
                    have hnext := ih (offset + label.length) hhops
                      hlabelled.placed_length
                    exact (hnext.weaken fun _ => hlabelled.trans).mono
                      (Nat.le_succ budget)
            | pointer =>
                simp only [htag, add_short hfits hoctet (by omega : 1 ≤ 100000),
                  add_small usize (by omega : hops ≤ 100000)
                    (by omega : 1 ≤ 100000), Option.bind_eq_bind,
                  Option.bind_some]
                cases payload[offset + 1]? with
                | none => exact .error _ budget (Nat.le_succ budget)
                | some low =>
                    simp only
                    split
                    · exact .error _ budget (Nat.le_succ budget)
                    · rename_i hle
                      exact (ih _ (Nat.le_of_not_lt hle) hplaced).mono
                        (Nat.le_succ budget)
            | reserved =>
                simp only [htag]
                exact .error _ budget (Nat.le_succ budget)

theorem writeName_alike (hfits : payload.length ≤ usize.maxLen)
    (offset : Nat) {trimmer : Trimmer}
    (hplaced : trimmer.placed.length = payload.length) (budget : Nat) :
    Metered.Alike budget (Grown payload trimmer)
      (writeName usize payload offset trimmer budget)
      (trimmer.writeName payload offset budget) :=
  writeNameFrom_alike hfits offset (Nat.zero_le _) hplaced

theorem writeNames_cases (hfits : payload.length ≤ usize.maxLen)
    (count offset : Nat) {trimmer : Trimmer}
    (hplaced : trimmer.placed.length = payload.length) (budget : Nat) :
    (∃ after next left,
      writeNames usize payload count offset trimmer budget =
        some (.ok (after, next), left) ∧
      trimmer.writeNames payload count offset budget =
        .ok (after, next, left) ∧
      left ≤ budget ∧ Grown payload trimmer after) ∨
    ∃ reason left,
      writeNames usize payload count offset trimmer budget =
        some (.error reason, left) ∧
      trimmer.writeNames payload count offset budget = .error reason ∧
      left ≤ budget := by
  induction count generalizing offset trimmer budget with
  | zero =>
      exact .inl ⟨trimmer, offset, budget, rfl, rfl, Nat.le_refl budget,
        Grown.refl hplaced⟩
  | succ count ih =>
      simp only [writeNames, skipped_eq hfits, Trimmer.writeNames]
      obtain ⟨after, left, hrun, hmodel, hle, hgrown⟩ |
          ⟨reason, left, hrun, hmodel, hle⟩ :=
        (writeName_alike hfits offset hplaced budget).cases
      · rw [Metered.bind_ok hrun, hmodel]
        cases Mdns.skipName payload offset with
        | none => exact .inr ⟨_, left, rfl, rfl, hle⟩
        | some next =>
            obtain ⟨last, past, rest, hrun, hmodel, hless, hmore⟩ |
                ⟨reason, rest, hrun, hmodel, hless⟩ :=
              ih next hgrown.placed_length left
            · exact .inl ⟨last, past, rest, hrun, hmodel,
                Nat.le_trans hless hle, hgrown.trans hmore⟩
            · exact .inr ⟨reason, rest, hrun, hmodel, Nat.le_trans hless hle⟩
      · rw [Metered.bind_error hrun, hmodel]
        exact .inr ⟨reason, left, rfl, rfl, hle⟩

theorem pushSpan_cases (start stop : Nat) {trimmer : Trimmer}
    (hplaced : trimmer.placed.length = payload.length) :
    (∃ after, pushSpan payload start stop trimmer = pure after ∧
      trimmer.pushSpan payload start stop = .ok after ∧
      Grown payload trimmer after) ∨
    pushSpan payload start stop trimmer = Metered.refuse ⟨⟩ ∧
      trimmer.pushSpan payload start stop = .error ⟨⟩ := by
  simp only [pushSpan, Trimmer.pushSpan]
  cases slice? payload start stop with
  | none => exact .inr ⟨rfl, rfl⟩
  | some span =>
      exact .inl ⟨trimmer.push span, rfl, rfl, (Grown.refl hplaced).push span⟩

theorem writeRdata_alike (hfits : payload.length ≤ usize.maxLen)
    {entry : Entry} (h : entry.WellPlaced payload) {trimmer : Trimmer}
    (hplaced : trimmer.placed.length = payload.length) (budget : Nat) :
    Metered.Alike budget (Grown payload trimmer)
      (writeRdata usize payload entry trimmer budget)
      (trimmer.writeRdata payload entry budget) := by
  simp only [writeRdata, Trimmer.writeRdata]
  cases hnames : entry.rdataNames with
  | none =>
      obtain ⟨after, hrun, hmodel, hgrown⟩ | ⟨hrun, hmodel⟩ :=
        pushSpan_cases entry.rdata entry.stop hplaced
      · simp only [hrun, hmodel]
        exact .ok after budget (Nat.le_refl budget) hgrown
      · simp only [hrun, hmodel]
        exact .error _ budget (Nat.le_refl budget)
  | some names =>
      simp only [names_in_range hfits h hnames, Metered.access_bind]
      obtain ⟨first, hrun, hmodel, hfirst⟩ | ⟨hrun, hmodel⟩ :=
        pushSpan_cases entry.rdata (entry.rdata + names.offset) hplaced
      · simp only [hrun, hmodel, Metered.pure_bind]
        obtain ⟨second, next, left, hwrite, hexpected, hle, hsecond⟩ |
            ⟨reason, left, hwrite, hexpected, hle⟩ :=
          writeNames_cases hfits names.count (entry.rdata + names.offset)
            hfirst.placed_length budget
        · rw [Metered.bind_ok hwrite]
          simp only [bind, Except.bind, hexpected]
          obtain ⟨third, hrun, hmodel, hthird⟩ | ⟨hrun, hmodel⟩ :=
            pushSpan_cases next entry.stop hsecond.placed_length
          · simp only [hrun, hmodel]
            exact .ok third left hle (hfirst.trans (hsecond.trans hthird))
          · simp only [hrun, hmodel]
            exact .error _ left hle
        · rw [Metered.bind_error hwrite]
          simp only [bind, Except.bind, hexpected]
          exact .error reason left hle
      · simp only [hrun, hmodel]
        exact .error _ budget (Nat.le_refl budget)

theorem patch_eq {out : Bytes} {offset : Nat} (value : Nat)
    (h : offset + 2 ≤ out.length) :
    patch out offset value = some (overwrite out offset (toBe16 value)) :=
  if_pos h

/-- The length is patched behind the fixed part, over two octets written
there for it. -/
theorem writeRecord_alike (hfits : payload.length ≤ usize.maxLen)
    {entry : Entry} (h : entry.WellPlaced payload) {trimmer : Trimmer}
    (hplaced : trimmer.placed.length = payload.length) (budget : Nat) :
    Metered.Alike budget (Grown payload trimmer)
      ((do
        let after ← writeRdata usize payload entry (trimmer.push [0, 0])
        let grown ←
          Metered.access (Usize.sub after.out.length trimmer.out.length)
        let length ← Metered.access (Usize.sub grown 2)
        Metered.require ⟨⟩ (length ≤ 0xffff)
        let out ← Metered.access (patch after.out trimmer.out.length length)
        return { after with out := out } : Metered Malformed Trimmer) budget)
      (do
        let written ← (trimmer.push [0, 0]).writeRdata payload entry budget
        let length := written.1.out.length - trimmer.out.length - 2
        if length > 0xffff then .error ⟨⟩
        else
          .ok ({ written.1 with
            out := overwrite written.1.out trimmer.out.length
              (toBe16 length) }, written.2)) := by
  have hopened := (Grown.refl hplaced).push [0, 0]
  obtain ⟨after, left, hrun, hmodel, hle, hafter⟩ |
      ⟨reason, left, hrun, hmodel, hle⟩ :=
    (writeRdata_alike hfits h hopened.placed_length budget).cases
  · rw [Metered.bind_ok hrun, hmodel, except_ok_bind]
    have hlong : trimmer.out.length + 2 ≤ after.out.length := by
      simpa [Trimmer.push] using hafter.out_le
    rw [Usize.sub_eq (by omega), Metered.access_bind,
      Usize.sub_eq (by omega), Metered.access_bind]
    by_cases hlength : after.out.length - trimmer.out.length - 2 ≤ 0xffff
    · rw [Metered.require_bind hlength, patch_eq _ hlong, Metered.access_bind]
      simp only [if_neg (Nat.not_lt.mpr hlength)]
      refine .ok _ left hle ⟨hafter.placed_length, ?_⟩
      simp only
      rw [overwrite_length (by simpa using hlong)]
      omega
    · rw [Metered.require_not_bind hlength]
      simp only [if_pos (Nat.lt_of_not_le hlength)]
      exact .error _ left hle
  · rw [Metered.bind_error hrun, hmodel]
    exact .error reason left hle

theorem writeEntry_alike (hfits : payload.length ≤ usize.maxLen)
    {entry : Entry} (h : entry.WellPlaced payload) {trimmer : Trimmer}
    (hplaced : trimmer.placed.length = payload.length) (budget : Nat) :
    Metered.Alike budget (Grown payload trimmer)
      (writeEntry usize payload entry trimmer budget)
      (trimmer.writeEntry payload entry budget) := by
  simp only [writeEntry, Trimmer.writeEntry]
  obtain ⟨named, left, hname, hexpected, hle, hnamed⟩ |
      ⟨reason, left, hname, hexpected, hle⟩ :=
    (writeName_alike hfits entry.name hplaced budget).cases
  · rw [Metered.bind_ok hname]
    simp only [hexpected, except_ok_bind]
    split
    · obtain ⟨after, hrun, hmodel, hgrown⟩ | ⟨hrun, hmodel⟩ :=
        pushSpan_cases entry.fixed entry.stop hnamed.placed_length
      · simp only [hrun, hmodel]
        exact .ok after left hle (hnamed.trans hgrown)
      · simp only [hrun, hmodel]
        exact .error _ left hle
    · have hfixed := h.inline.bounds.2
      have hroom := usize.maxLen_lt_top
      rw [Usize.add_eq (by omega : entry.fixed + 8 < usize.top),
        Metered.access_bind]
      obtain ⟨fixed, hrun, hmodel, hgrown⟩ | ⟨hrun, hmodel⟩ :=
        pushSpan_cases entry.fixed (entry.fixed + 8) hnamed.placed_length
      · simp only [hrun, hmodel, Metered.pure_bind, except_ok_bind]
        exact (writeRecord_alike hfits h hgrown.placed_length left).weaken
          (fun _ hafter => hnamed.trans (hgrown.trans hafter)) |>.mono hle
      · simp only [hrun, hmodel]
        exact .error _ left hle
  · rw [Metered.bind_error hname]
    simp only [hexpected, except_error_bind]
    exact .error reason left hle

theorem writeEntry_safe (hfits : payload.length ≤ usize.maxLen)
    {entry : Entry} (h : entry.WellPlaced payload) {trimmer : Trimmer}
    (hplaced : trimmer.placed.length = payload.length) :
    (writeEntry usize payload entry trimmer).Safe (Grown payload trimmer) :=
  Metered.Agrees.safe (writeEntry_alike hfits h hplaced)

/-! ## Filters -/

theorem Inspection.safe {β : Type} (hfits : payload.length ≤ usize.maxLen)
    {entry : Entry} (h : entry.WellPlaced payload)
    (inspection : Inspection β) :
    (inspection.run usize payload entry).Safe fun _ => True := by
  induction inspection with
  | verdict outcome =>
      exact fun budget =>
        ⟨outcome, budget, rfl, Nat.le_refl budget, fun _ _ => trivial⟩
  | read offset more resume ih =>
      intro budget
      obtain ⟨ending, left, hread, hle, -⟩ :=
        readWhile_safe hfits more offset budget
      obtain ⟨outcome, rest, hrun, hless, hpost⟩ := ih ending left
      refine ⟨outcome, rest, ?_, Nat.le_trans hless hle, hpost⟩
      simp only [Inspection.run, hread, hrun]
  | check resume ih =>
      intro budget
      obtain ⟨ending, left, hcheck, hle, -⟩ :=
        (checkNames_spends hfits h).safe budget
      obtain ⟨outcome, rest, hrun, hless, hpost⟩ := ih ending left
      refine ⟨outcome, rest, ?_, Nat.le_trans hless hle, hpost⟩
      simp only [Inspection.run, hcheck, hrun]

/-! ## The loops of a trim -/

section Trim

variable {σ : Type}

/-- What holds between two entries of a trim: `sects` are the sections of the
entries still to come, and their counts have room for every one of them. -/
structure Sound (payload : Bytes) (sects : List Section) (state : State σ) :
    Prop where
  placed_length : state.trimmer.placed.length = payload.length
  header_le : dnsHeaderLen ≤ state.trimmer.out.length
  counts_le : ∀ sect, countOf state.counts sect + sects.count sect ≤ 0xffff
  removed_le : state.removed + sects.length ≤ 4 * 0xffff
  ordered : sects.Pairwise (·.rank ≤ ·.rank)

theorem bump_eq_some {counts counts' : SectionCounts} {sect : Section}
    (h : bump counts sect = some counts') :
    counts' = counts.bump sect ∧ countOf counts sect + 1 ≤ 0xffff := by
  unfold bump at h
  split at h
  · rename_i hroom
    cases h
    exact ⟨rfl, hroom⟩
  · cases h

theorem countOf_bump (counts : SectionCounts) (sect other : Section) :
    countOf (counts.bump sect) other =
      countOf counts other + if sect = other then 1 else 0 := by
  cases sect <;> cases other <;> rfl

theorem count_answer_late {sect : Section} {sects : List Section}
    (hlate : sect.isLate = true)
    (hordered : (sect :: sects).Pairwise (·.rank ≤ ·.rank)) :
    (sect :: sects).count .answer = 0 := by
  rw [List.count_eq_zero]
  intro hmem
  have hrank := Section.isLate_iff_rank.mp hlate
  rcases List.mem_cons.mp hmem with rfl | hrest
  · simp [Section.rank] at hrank
  · have hle := (List.pairwise_cons.mp hordered).1 _ hrest
    simp only [Section.rank] at hle hrank
    omega

theorem next_safe (hfits : payload.length ≤ usize.maxLen)
    {walk : Entries} {sect : Section} {sects : List Section}
    (h : Facing walk (sect :: sects)) :
    (walk.next usize payload).Safe fun next => ∃ entry rest,
      next = some (entry, rest) ∧ entry.WellPlaced payload ∧
        entry.sect = sect ∧ Facing rest sects := by
  obtain ⟨remaining, hupcoming, hnext⟩ := h.next_cons hfits
  rw [hnext]
  have hentry : (Metered.ofExcept (Mdns.entryAt payload sect walk.offset)).Safe
      fun entry => entry.WellPlaced payload ∧ entry.sect = sect := by
    intro budget
    refine ⟨_, budget, rfl, Nat.le_refl budget, fun entry hentry => ?_⟩
    obtain ⟨hplaced, -, hsect⟩ := entryAt_eq_ok_iff.mp hentry
    exact ⟨hplaced, hsect⟩
  refine hentry.bind ?_
  rintro entry ⟨hplaced, hsect⟩
  exact Metered.Safe.pure ⟨entry, _, rfl, hplaced, hsect, rfl, hupcoming⟩

theorem Sound.refilled {sects : List Section} {state : State σ}
    (h : Sound payload sects state) (hanswer : sects.count .answer = 0)
    {trimmer : Trimmer} (hgrown : Grown payload state.trimmer trimmer)
    {counts : SectionCounts} (hbump : bump state.counts .answer = some counts) :
    Sound payload sects { state with
      trimmer := trimmer
      counts := counts } where
  placed_length := hgrown.placed_length
  header_le := Nat.le_trans h.header_le hgrown.out_le
  counts_le := by
    obtain ⟨rfl, hroom⟩ := bump_eq_some hbump
    intro sect
    have hcount := h.counts_le sect
    simp only [countOf_bump]
    split
    · rename_i hsect
      subst hsect
      omega
    · exact hcount
  removed_le := h.removed_le
  ordered := h.ordered

theorem refillFrom_safe (hfits : payload.length ≤ usize.maxLen)
    (refill : Entry → Bool) {sects upcoming : List Section}
    (hanswer : sects.count .answer = 0) {rounds : Nat} {walk : Entries}
    (hwalk : Facing walk upcoming) (hrounds : upcoming.length < rounds)
    {state : State σ} (h : Sound payload sects state) :
    (refillFrom usize payload refill rounds walk state).Safe
      (Sound payload sects) := by
  induction upcoming generalizing rounds walk state with
  | nil =>
      obtain ⟨rounds, rfl⟩ := Nat.exists_eq_add_of_lt hrounds
      simp only [refillFrom, hwalk.next_nil, Metered.pure_bind]
      exact Metered.Safe.pure h
  | cons sect upcoming ih =>
      obtain ⟨rounds, rfl⟩ : ∃ more, rounds = more + 1 :=
        ⟨rounds - 1, by omega⟩
      have hless : upcoming.length < rounds := by
        simp only [List.length_cons] at hrounds
        omega
      simp only [refillFrom]
      refine (next_safe hfits hwalk).bind ?_
      rintro _ ⟨candidate, rest, rfl, hplaced, -, hrest⟩
      dsimp only
      split
      · refine (writeEntry_safe hfits hplaced h.placed_length).bind ?_
        intro trimmer hgrown
        have hbumped : (Metered.demand (⟨⟩ : Malformed)
            (bump state.counts .answer)).Safe
            fun counts => bump state.counts .answer = some counts :=
          Metered.Safe.demand fun _ hbump => hbump
        refine hbumped.bind fun counts hbump => ?_
        exact ih hrest hless (h.refilled hanswer hgrown hbump)
      · exact ih hrest hless h

theorem passAnswers_safe (hfits : payload.length ≤ usize.maxLen)
    (hheader : dnsHeaderLen ≤ payload.length) (refill : Entry → Bool)
    {entry : Entry} {sects : List Section} {state : State σ}
    (h : Sound payload (entry.sect :: sects) state) :
    (passAnswers usize payload refill entry state).Safe
      (Sound payload (entry.sect :: sects)) := by
  unfold passAnswers
  split
  · rename_i hlate
    have hanswer : (entry.sect :: sects).count .answer = 0 :=
      count_answer_late (Bool.and_eq_true_iff.mp hlate).2 h.ordered
    have hpassed : Sound payload (entry.sect :: sects) { state with
        answered := true
        refilled := state.counts.answer == 0 } :=
      ⟨h.placed_length, h.header_le, h.counts_le, h.removed_le, h.ordered⟩
    dsimp only
    split
    · exact refillFrom_safe hfits refill hanswer (Facing.new hheader)
        (Nat.lt_succ_self _) hpassed
    · exact Metered.Safe.pure hpassed
  · exact Metered.Safe.pure h

theorem Sound.kept {sect : Section} {sects : List Section} {state : State σ}
    (h : Sound payload (sect :: sects) state) {trimmer : Trimmer}
    (hgrown : Grown payload state.trimmer trimmer) (filter : σ) :
    Sound payload sects { state with
      trimmer := trimmer
      counts := state.counts.bump sect
      filter := filter } where
  placed_length := hgrown.placed_length
  header_le := Nat.le_trans h.header_le hgrown.out_le
  counts_le := by
    intro other
    have hcount := h.counts_le other
    simp only [countOf_bump, List.count_cons, beq_iff_eq] at hcount ⊢
    omega
  removed_le := by
    have hremoved := h.removed_le
    simp only [List.length_cons] at hremoved
    simp only
    omega
  ordered := (List.pairwise_cons.mp h.ordered).2

theorem Sound.rejected {sect : Section} {sects : List Section}
    {state : State σ} (h : Sound payload (sect :: sects) state) (filter : σ) :
    Sound payload sects { state with
      removed := state.removed + 1
      filter := filter } where
  placed_length := h.placed_length
  header_le := h.header_le
  counts_le := by
    intro other
    have hcount := h.counts_le other
    simp only [List.count_cons] at hcount
    simp only
    omega
  removed_le := by
    have hremoved := h.removed_le
    simp only [List.length_cons] at hremoved
    simp only
    omega
  ordered := (List.pairwise_cons.mp h.ordered).2

theorem Sound.skipped {sect : Section} {sects : List Section}
    {state : State σ} (h : Sound payload (sect :: sects) state) :
    Sound payload sects state where
  placed_length := h.placed_length
  header_le := h.header_le
  counts_le := by
    intro other
    have hcount := h.counts_le other
    simp only [List.count_cons] at hcount
    omega
  removed_le := by
    have hremoved := h.removed_le
    simp only [List.length_cons] at hremoved
    omega
  ordered := (List.pairwise_cons.mp h.ordered).2

theorem Sound.bump_eq {sect : Section} {sects : List Section}
    {state : State σ} (h : Sound payload (sect :: sects) state) :
    bump state.counts sect = some (state.counts.bump sect) := by
  have hcount := h.counts_le sect
  rw [List.count_cons_self] at hcount
  exact if_pos (by omega)

theorem visit_safe (hfits : payload.length ≤ usize.maxLen)
    (hheader : dnsHeaderLen ≤ payload.length) (refill : Entry → Bool)
    (keep : Filter σ) {entry : Entry} (hplaced : entry.WellPlaced payload)
    {sects : List Section} {state : State σ}
    (h : Sound payload (entry.sect :: sects) state) :
    (visit usize payload refill keep entry state).Safe
      (Sound payload sects) := by
  unfold visit
  refine (passAnswers_safe hfits hheader refill h).bind ?_
  intro state h
  split
  · exact Metered.Safe.pure h.skipped
  · refine (Inspection.safe hfits hplaced _).bind ?_
    intro kept _
    split
    · refine (writeEntry_safe hfits hplaced h.placed_length).bind ?_
      intro trimmer hgrown
      rw [h.bump_eq, Metered.access_bind]
      exact Metered.Safe.pure (h.kept hgrown kept.2)
    · have hremoved := h.removed_le
      have hroom := usize.maxLen_lt_top
      rw [Usize.add_eq (by omega), Metered.access_bind]
      exact Metered.Safe.pure (h.rejected kept.2)

theorem visitAll_safe (hfits : payload.length ≤ usize.maxLen)
    (hheader : dnsHeaderLen ≤ payload.length) (refill : Entry → Bool)
    (keep : Filter σ) {sects : List Section} {rounds : Nat} {walk : Entries}
    (hwalk : Facing walk sects) (hrounds : sects.length < rounds)
    {state : State σ} (h : Sound payload sects state) :
    (visitAll usize payload refill keep rounds walk state).Safe
      (Sound payload []) := by
  induction sects generalizing rounds walk state with
  | nil =>
      obtain ⟨rounds, rfl⟩ := Nat.exists_eq_add_of_lt hrounds
      simp only [visitAll, hwalk.next_nil, Metered.pure_bind]
      exact Metered.Safe.pure h
  | cons sect sects ih =>
      obtain ⟨rounds, rfl⟩ : ∃ more, rounds = more + 1 :=
        ⟨rounds - 1, by omega⟩
      have hless : sects.length < rounds := by
        simp only [List.length_cons] at hrounds
        omega
      simp only [visitAll]
      refine (next_safe hfits hwalk).bind ?_
      rintro _ ⟨entry, rest, rfl, hplaced, rfl, hrest⟩
      refine (visit_safe hfits hheader refill keep hplaced h).bind ?_
      exact fun state hstate => ih hrest hless hstate

theorem patch_then {out : Bytes} {offset : Nat} (value : Nat)
    (h : offset + 2 ≤ out.length) (next : Bytes → Option Bytes) :
    (patch out offset value >>= next) =
      next (overwrite out offset (toBe16 value)) := by
  rw [patch_eq value h]
  rfl

theorem patched_length {out : Bytes} {offset : Nat} (value : Nat)
    (h : offset + 2 ≤ out.length) :
    (overwrite out offset (toBe16 value)).length = out.length :=
  overwrite_length (by simpa using h)

theorem patchCounts_eq_some (counts : SectionCounts) {out : Bytes}
    (h : dnsHeaderLen ≤ out.length) :
    patchCounts counts out = some (Mdns.patchCounts counts out) := by
  have hlong : 12 ≤ out.length := h
  simp only [patchCounts, Mdns.patchCounts, qdcountAt, ancountAt, nscountAt,
    arcountAt]
  have hfirst := patched_length counts.question
    (show 4 + 2 ≤ out.length by omega)
  rw [patch_then _ (by omega)]
  have hsecond := patched_length counts.answer
    (show 6 + 2 ≤ _ by rw [hfirst]; omega)
  rw [patch_then _ (by omega)]
  have hthird := patched_length counts.authority
    (show 8 + 2 ≤ _ by rw [hsecond]; omega)
  rw [patch_then _ (by omega), patch_eq _ (by omega)]

theorem Sound.opening {header : Bytes}
    (h : slice? payload 0 dnsHeaderLen = some header) (filter : σ) :
    Sound payload (announced payload)
      { trimmer := ⟨header, List.replicate payload.length unplaced⟩
        counts := ⟨0, 0, 0, 0⟩
        removed := 0
        answered := false
        refilled := false
        filter := filter } where
  placed_length := List.length_replicate
  header_le := Nat.le_of_eq (slice?_length h).symm
  counts_le := by
    have hcounts := countSections_announced payload
    obtain ⟨hquestion, hanswer, hauthority, hadditional⟩ :=
      headerCounts_fits payload
    rw [← hcounts] at hquestion hanswer hauthority hadditional
    simp only [countSections] at hquestion hanswer hauthority hadditional
    intro sect
    cases sect <;> simp only [countOf] <;> omega
  removed_le := by
    have hfits := headerCounts_fits payload
    obtain ⟨hquestion, hanswer, hauthority, hadditional⟩ := hfits
    simp only [headerCounts] at hquestion hanswer hauthority hadditional
    simp only [announced, List.length_append, List.length_replicate]
    omega
  ordered := announced_ordered payload

theorem trim_safe (hfits : payload.length ≤ usize.maxLen)
    (refill : Entry → Bool) (keep : Filter σ) (filter : σ) :
    (trim usize payload refill keep filter).Safe
      fun result => result.1.length ≤ payload.length := by
  unfold trim
  have hdemand : (Metered.demand (⟨⟩ : Malformed)
      (slice? payload 0 dnsHeaderLen)).Safe
      fun header => slice? payload 0 dnsHeaderLen = some header :=
    Metered.Safe.demand fun _ hslice => hslice
  refine hdemand.bind fun header hslice => ?_
  have hheader := (slice?_eq_some_iff.mp hslice).2.1
  refine (visitAll_safe hfits hheader refill keep (Facing.new hheader)
    (Nat.lt_succ_self _) (Sound.opening hslice filter)).bind ?_
  intro state hstate
  refine Metered.Safe.require.bind fun _ hlength => ?_
  rw [patchCounts_eq_some state.counts hstate.header_le, Metered.access_bind]
  refine Metered.Safe.pure ?_
  show (Mdns.patchCounts state.counts state.trimmer.out).length ≤ _
  rw [patchCounts_length state.counts hstate.header_le]
  exact hlength

end Trim

/-! ## The loop of an assessment -/

theorem serviceOf_safe (hfits : payload.length ≤ usize.maxLen)
    (offset : Nat) :
    (serviceOf usize payload offset).Safe fun _ => True := by
  unfold serviceOf
  refine (readName_agrees hfits offset).safe.bind ?_
  exact fun _ _ => Metered.Safe.pure trivial

theorem entryService_safe (hfits : payload.length ≤ usize.maxLen)
    (entry : Entry) :
    (entryService usize payload entry).Safe fun _ => True := by
  unfold entryService
  split
  · refine (serviceOf_safe hfits entry.rdata).bind ?_
    intro service _
    cases service with
    | some service => exact Metered.Safe.pure trivial
    | none => exact serviceOf_safe hfits entry.name
  · exact serviceOf_safe hfits entry.name

theorem assessEntries_safe (hfits : payload.length ≤ usize.maxLen)
    (allowed : List ServiceType) (kind : MdnsKind) {sects : List Section}
    {rounds : Nat} {walk : Entries} (hwalk : Facing walk sects)
    (hrounds : sects.length < rounds) (tally : Tally) :
    (assessEntries usize payload allowed kind rounds walk tally).Safe
      fun _ => True := by
  induction sects generalizing rounds walk tally with
  | nil =>
      obtain ⟨rounds, rfl⟩ := Nat.exists_eq_add_of_lt hrounds
      simp only [assessEntries, hwalk.next_nil, Metered.pure_bind]
      exact Metered.Safe.pure trivial
  | cons sect sects ih =>
      obtain ⟨rounds, rfl⟩ : ∃ more, rounds = more + 1 :=
        ⟨rounds - 1, by omega⟩
      have hless : sects.length < rounds := by
        simp only [List.length_cons] at hrounds
        omega
      simp only [assessEntries]
      refine (next_safe hfits hwalk).bind ?_
      rintro _ ⟨entry, rest, rfl, hplaced, -, hrest⟩
      refine (checkNames_spends hfits hplaced).safe.bind fun _ _ => ?_
      split
      · refine (entryService_safe hfits entry).bind fun service _ => ?_
        exact ih hrest hless _
      · exact ih hrest hless tally

theorem assess_safe (hfits : payload.length ≤ usize.maxLen)
    (allowed : List ServiceType) :
    (assess usize payload allowed).Safe fun _ => True := by
  unfold assess
  have hdemand : (Metered.demand (⟨⟩ : Malformed) (classify payload)).Safe
      fun kind => classify payload = some kind :=
    Metered.Safe.demand fun _ hkind => hkind
  refine hdemand.bind fun kind hkind => ?_
  have hheader : dnsHeaderLen ≤ payload.length := by
    unfold classify at hkind
    split at hkind
    · cases hkind
    · rename_i hlong
      exact Nat.le_of_not_lt hlong
  refine (assessEntries_safe hfits allowed kind (Facing.new hheader)
    (Nat.lt_succ_self _) .start).bind ?_
  exact fun _ _ => Metered.Safe.pure trivial

/-! ## All walkers -/

/-- A whole pass over `payload` comes to an end, and has spent at most four
steps an octet by then. -/
def Pass {α : Type} (usize : Usize) (payload : Bytes)
    (run : Metered Malformed α) : Prop :=
  ∃ ending left spent, run (budgetFor usize payload) = some (ending, left) ∧
    left + spent = budgetFor usize payload ∧ spent ≤ 4 * payload.length

theorem Pass.of_safe {α : Type} {run : Metered Malformed α} {post : α → Prop}
    (h : run.Safe post) : Pass usize payload run := by
  obtain ⟨ending, left, hrun, hle, -⟩ := h (budgetFor usize payload)
  refine ⟨ending, left, budgetFor usize payload - left, hrun, by omega, ?_⟩
  simp only [budgetFor, stepsPerByte] at hle ⊢
  omega

/-- What it is for the walkers to be total on `payload`: each one ends where
the walker without panics does, or at least ends. -/
structure Total (usize : Usize) (payload : Bytes) : Prop where
  skipName : ∀ offset,
    Guarded.skipName usize payload offset =
      some (Mdns.skipName payload offset)
  labels : ∀ offset calls budget, ∃ names ending after left,
    yields usize payload calls (Labels.new offset) budget =
      some (names.map (fun label => some (.ok label)) ++ ending, after, left) ∧
    left ≤ budget ∧ nameOctets names ≤ 254 ∧ Ends after ending
  entries :
    drain usize payload (walkRounds payload) (Entries.new payload) =
      Metered.ofExcept (Mdns.entries payload)
  checkNames : ∀ entry : Entry, entry.WellPlaced payload →
    (Guarded.checkNames usize payload entry).Spends (entry.checkNames payload)
  writeName : ∀ offset (trimmer : Trimmer),
    trimmer.placed.length = payload.length →
    ∀ budget, Metered.Alike budget (Grown payload trimmer)
      (Guarded.writeName usize payload offset trimmer budget)
      (trimmer.writeName payload offset budget)
  assess : ∀ allowed, Pass usize payload (Guarded.assess usize payload allowed)
  trim : ∀ (σ : Type) (refill : Entry → Bool) (keep : Filter σ) (filter : σ),
    Pass usize payload (Guarded.trim usize payload refill keep filter)

/-- No payload makes a walker panic, overflow or run on. -/
theorem walkers_total {usize : Usize} {payload : Bytes}
    (hfits : payload.length ≤ usize.maxLen) : Total usize payload where
  skipName := skipName_eq hfits
  labels := by
    intro offset calls budget
    obtain ⟨names, ending, after, left, hyields, hle, hoctets, hends⟩ :=
      yields_going hfits (Going.new offset) calls budget
    simp only [Labels.new, maxNameLen] at hoctets
    exact ⟨names, ending, after, left, hyields, hle, by omega, hends⟩
  entries := drain_eq hfits
  checkNames := fun _ hplaced => checkNames_spends hfits hplaced
  writeName := fun offset _ hplaced budget =>
    writeName_alike hfits offset hplaced budget
  assess := fun allowed => Pass.of_safe (assess_safe hfits allowed)
  trim := fun _ refill keep filter =>
    Pass.of_safe (trim_safe hfits refill keep filter)

/-- A name that points at itself, in a message for a 32-bit platform. -/
theorem walkers_total_loop :
    Total .bits32
      [0, 0, 0x84, 0, 0, 1, 0, 0, 0, 0, 0, 0, 0xc0, 12, 0, 1, 0, 1] :=
  walkers_total (by decide)

end Netflector.Net.Mdns.Guarded
