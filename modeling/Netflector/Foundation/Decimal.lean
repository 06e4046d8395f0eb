import Mathlib.Data.List.Induction
import Netflector.Foundation.Ascii

/-!
# Numbers as text

What `decimal` writes is read back by the digit parsers, and how long it gets.
-/

namespace Netflector.Foundation

/-! ## Writing -/

theorem digitValue_ofNat {digit : Nat} (h : digit < 10) :
    digitValue (UInt8.ofNat (0x30 + digit)) = some digit := by
  have hall : ∀ digit : Fin 10,
      digitValue (UInt8.ofNat (0x30 + digit.val)) = some digit.val := by
    decide
  exact hall ⟨digit, h⟩

theorem isDigit_ofNat {digit : Nat} (h : digit < 10) :
    isDigit 10 (UInt8.ofNat (0x30 + digit)) = true := by
  rw [isDigit, digitValue_ofNat h]
  exact decide_eq_true h

theorem reverseDecimal_digits (fuel value : Nat) :
    (reverseDecimal fuel value).all (isDigit 10) = true := by
  induction fuel generalizing value with
  | zero => rfl
  | succ fuel ih =>
      have hdigit : value % 10 < 10 := Nat.mod_lt _ (by omega)
      rw [reverseDecimal, List.all_cons, isDigit_ofNat hdigit, Bool.true_and]
      split
      · rfl
      · exact ih _

theorem reverseDecimal_value {fuel value : Nat} (h : value < fuel) :
    (reverseDecimal fuel value).foldr
      (fun octet rest => rest * 10 + (digitValue octet).getD 0) 0 = value := by
  induction fuel generalizing value with
  | zero => omega
  | succ fuel ih =>
      have hdigit : value % 10 < 10 := Nat.mod_lt _ (by omega)
      rw [reverseDecimal, List.foldr_cons, digitValue_ofNat hdigit,
        Option.getD_some]
      split
      · simp only [List.foldr_nil]
        omega
      · rw [ih (by omega)]
        omega

theorem reverseDecimal_length {fuel value width : Nat}
    (h : value < Nat.pow 10 (width + 1)) :
    (reverseDecimal fuel value).length ≤ width + 1 := by
  induction width generalizing fuel value with
  | zero =>
      cases fuel with
      | zero => exact Nat.zero_le _
      | succ fuel =>
          have hsmall : value < 10 := h
          rw [reverseDecimal, if_pos hsmall]
          exact Nat.le_refl 1
  | succ width ih =>
      cases fuel with
      | zero => exact Nat.zero_le _
      | succ fuel =>
          rw [reverseDecimal, List.length_cons]
          split
          · simp
          · have hten : value < Nat.pow 10 (width + 1) * 10 := h
            have hless : value / 10 < Nat.pow 10 (width + 1) :=
              Nat.div_lt_of_lt_mul (by omega)
            have := @ih fuel _ hless
            omega

theorem reverseDecimal_last {fuel value : Nat} (h : value < fuel)
    (hpos : value ≠ 0) :
    (reverseDecimal fuel value).getLast? ≠ some 0x30 := by
  induction fuel generalizing value with
  | zero => omega
  | succ fuel ih =>
      rw [reverseDecimal]
      split
      next hsmall =>
        intro hlast
        rw [List.getLast?_singleton, Option.some.injEq] at hlast
        have hvalue := digitValue_ofNat (Nat.mod_lt value (by omega : 10 > 0))
        rw [hlast] at hvalue
        have hzero : digitValue 0x30 = some 0 := by decide
        rw [hzero, Option.some.injEq] at hvalue
        omega
      next hlarge =>
        have hrest := @ih (value / 10) (by omega) (by omega)
        cases hdigits : reverseDecimal fuel (value / 10) with
        | nil =>
            cases fuel with
            | zero => omega
            | succ fuel =>
                rw [reverseDecimal] at hdigits
                cases hdigits
        | cons octet digits =>
            rw [hdigits] at hrest
            rwa [List.getLast?_cons_cons]

theorem decimal_digits (value : Nat) :
    (decimal value).all (isDigit 10) = true := by
  rw [decimal, List.all_reverse]
  exact reverseDecimal_digits _ _

theorem decimal_nonempty (value : Nat) : decimal value ≠ [] := by
  rw [decimal, reverseDecimal, List.reverse_cons]
  exact List.append_ne_nil_of_right_ne_nil _ (List.cons_ne_nil _ _)

theorem digitsValue_decimal (value : Nat) :
    digitsValue 10 (decimal value) = value := by
  rw [digitsValue, decimal, List.foldl_reverse]
  exact reverseDecimal_value (Nat.lt_succ_self value)

theorem decimal_length {value width : Nat} (h : value < Nat.pow 10 (width + 1)) :
    (decimal value).length ≤ width + 1 := by
  rw [decimal, List.length_reverse]
  exact reverseDecimal_length h

theorem decimal_head (value : Nat) :
    (decimal value).length = 1 ∨ (decimal value).head? ≠ some 0x30 := by
  by_cases hzero : value = 0
  · subst hzero
    exact .inl rfl
  · right
    rw [decimal, List.head?_reverse]
    exact reverseDecimal_last (Nat.lt_succ_self value) hzero

end Netflector.Foundation
