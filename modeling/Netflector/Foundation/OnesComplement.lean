import Mathlib.Data.Nat.ModEq
import Mathlib.Tactic.Common

/-!
# Ones'-complement sums

Values up to `limit`, the value of all ones, are added with the carry brought
round to the low end.  Zero has two forms: a sum is zero only when every term
is, and otherwise all ones stands for it.
-/

namespace Netflector.Foundation

def onesAdd (limit first second : Nat) : Nat :=
  if first + second ≤ limit then first + second else first + second - limit

def onesSum (limit : Nat) (terms : List Nat) : Nat :=
  terms.foldl (onesAdd limit) 0

def plainSum (terms : List Nat) (start : Nat) : Nat :=
  terms.foldl (· + ·) start

variable {limit : Nat}

/-- `value` is `total` in the ones'-complement form. -/
structure OnesForm (limit total value : Nat) : Prop where
  le : value ≤ limit
  modEq : value ≡ total [MOD limit]
  zero_iff : value = 0 ↔ total = 0

theorem onesForm_self {value : Nat} (h : value ≤ limit) :
    OnesForm limit value value :=
  ⟨h, rfl, Iff.rfl⟩

theorem OnesForm.add {total value term : Nat} (h : OnesForm limit total value)
    (hterm : term ≤ limit) :
    OnesForm limit (total + term) (onesAdd limit value term) := by
  have hle := h.le
  have hzero := h.zero_iff
  unfold onesAdd
  split
  · rename_i hfits
    exact ⟨hfits, h.modEq.add_right term, by omega⟩
  · rename_i hover
    refine ⟨by omega, ?_, by omega⟩
    have hcarried : value + term - limit ≡ value + term [MOD limit] := by
      have hback : value + term - limit + limit = value + term := by omega
      rw [Nat.ModEq, ← hback, Nat.add_mod_right, hback]
    exact hcarried.trans (h.modEq.add_right term)

theorem foldl_onesForm {terms : List Nat} (hterms : ∀ term ∈ terms, term ≤ limit)
    {total value : Nat} (h : OnesForm limit total value) :
    OnesForm limit (plainSum terms total)
      (terms.foldl (onesAdd limit) value) := by
  induction terms generalizing total value with
  | nil => exact h
  | cons term terms ih =>
      exact ih (fun other hmem => hterms other (List.mem_cons_of_mem _ hmem))
        (h.add (hterms term (List.mem_cons_self ..)))

theorem onesSum_form {terms : List Nat}
    (hterms : ∀ term ∈ terms, term ≤ limit) :
    OnesForm limit (plainSum terms 0) (onesSum limit terms) :=
  foldl_onesForm hterms (onesForm_self (Nat.zero_le limit))

theorem OnesForm.all_ones_iff {total value : Nat}
    (h : OnesForm limit total value) (hlimit : 0 < limit) :
    value = limit ↔ 0 < total ∧ total % limit = 0 := by
  have hle := h.le
  have hzero := h.zero_iff
  have hmod : value % limit = total % limit := h.modEq
  constructor
  · rintro rfl
    rw [Nat.mod_self] at hmod
    omega
  · rintro ⟨hpos, htotal⟩
    rcases Nat.lt_or_eq_of_le hle with hlt | heq
    · rw [Nat.mod_eq_of_lt hlt, htotal] at hmod
      omega
    · exact heq

end Netflector.Foundation
