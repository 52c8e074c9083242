import Outline.Decimal

/-! # Decimal numerals

The digits of a number are read back as the number, whatever zeros stand in front.
-/
namespace Outline.Decimal
set_option autoImplicit false

theorem value_toDigits (n : Nat) : value (Nat.toDigits 10 n) = n :=
  Nat.ofDigitChars_toDigits (by decide) (by decide)

theorem isDigit_of_mem_toDigits {n : Nat} : ∀ c ∈ Nat.toDigits 10 n, c.isDigit = true := by
  intro c hc
  exact Nat.isDigit_of_mem_toDigits (by decide) (by decide) hc

theorem not_mem_toDigits {c : Char} (h : c.isDigit = false) (n : Nat) :
    c ∉ Nat.toDigits 10 n := by
  intro hc
  rw [isDigit_of_mem_toDigits c hc] at h
  cases h

theorem toDigits_eq_cons (n : Nat) : ∃ d digits, Nat.toDigits 10 n = Nat.digitChar d :: digits ∧
    d < 10 ∧ (d = 0 → n = 0) := by
  induction n using Nat.strongRecOn with
  | ind n ih =>
    rcases Nat.lt_or_ge n 10 with hLt | hGe
    · exact ⟨n, [], Nat.toDigits_of_lt_base hLt, hLt, id⟩
    · obtain ⟨d, digits, hFront, hd, hZero⟩ := ih (n / 10) (by omega)
      refine ⟨d, digits ++ [Nat.digitChar (n % 10)], ?_, hd, ?_⟩
      · rw [Nat.toDigits_of_base_le (by decide) hGe, hFront, List.cons_append]
      · intro h
        have hSmall := hZero h
        omega

theorem toDigits_inj {m n : Nat} (h : Nat.toDigits 10 m = Nat.toDigits 10 n) : m = n := by
  rw [← value_toDigits m, h, value_toDigits]

theorem toList_toString (v : Int) : (toString v).toList =
    (if v < 0 then ['-'] else []) ++ Nat.toDigits 10 v.natAbs := by
  cases v with
  | ofNat n =>
    have hSign : ¬ (Int.ofNat n < 0) := Int.not_lt.mpr (Int.natCast_nonneg n)
    rw [if_neg hSign]
    simp [toString, Int.repr]
  | negSucc n =>
    rw [if_pos (Int.negSucc_lt_zero n)]
    simp [toString, Int.repr]

theorem toList_padded (width n : Nat) : (padded width n).toList =
    List.replicate (width - (Nat.toDigits 10 n).length) '0' ++ Nat.toDigits 10 n := by
  rw [padded, String.toList_ofList]

theorem value_zeros_append (zeros : Nat) (digits : List Char) :
    value (List.replicate zeros '0' ++ digits) = value digits := by
  induction zeros with
  | zero => rfl
  | succ zeros ih => exact ih

theorem value_padded (width n : Nat) : value (padded width n).toList = n := by
  rw [toList_padded, value_zeros_append, value_toDigits]

theorem le_length_padded (width n : Nat) : width ≤ (padded width n).toList.length := by
  rw [toList_padded, List.length_append, List.length_replicate]
  omega

theorem isDigit_of_mem_padded {width n : Nat} :
    ∀ c ∈ (padded width n).toList, c.isDigit = true := by
  intro c hc
  rw [toList_padded, List.mem_append] at hc
  rcases hc with hc | hc
  · rw [List.eq_of_mem_replicate hc]
    rfl
  · exact isDigit_of_mem_toDigits c hc

end Outline.Decimal
