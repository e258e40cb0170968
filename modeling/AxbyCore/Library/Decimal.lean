import Mathlib.Data.List.Infix

/-! Digits in decimal are those of their number behind zeros. -/

namespace AxbyCore.Decimal

def value (digits : List Char) : Nat := Nat.ofDigitChars 10 digits 0

theorem exists_of_isDigit {c : Char} (digit : c.isDigit) : ∃ n < 10, c = Char.ofNat (48 + n) := by
  obtain ⟨least, most⟩ : 48 ≤ c.toNat ∧ c.toNat ≤ 57 := Char.isDigit_iff_toNat.mp digit
  refine ⟨c.toNat - 48, by omega, ?_⟩
  rw [Nat.add_sub_cancel' least, Char.ofNat_toNat]

theorem toDigits_digit {c : Char} (digit : c.isDigit) : c.toNat - 48 < 10 ∧ Nat.toDigits 10 (c.toNat - 48) = [c] := by
  have each : ∀ n < 10, (Char.ofNat (48 + n)).toNat - 48 < 10 ∧
      Nat.toDigits 10 ((Char.ofNat (48 + n)).toNat - 48) = [Char.ofNat (48 + n)] := by decide
  obtain ⟨n, small, rfl⟩ := exists_of_isDigit digit
  exact each n small

theorem value_concat (digits : List Char) (c : Char) : value (digits ++ [c]) = 10 * value digits + (c.toNat - 48) := by
  rw [value, Nat.ofDigitChars_append, Nat.ofDigitChars_cons, Nat.ofDigitChars_nil]
  rfl

theorem eq_zeros_append {digits : List Char} (nonempty : digits ≠ []) (all : ∀ c ∈ digits, c.isDigit) :
    ∃ zeros, digits = List.replicate zeros '0' ++ Nat.toDigits 10 (value digits) := by
  induction digits using List.reverseRecOn with
  | nil => exact absurd rfl nonempty
  | append_singleton digits c ih =>
    obtain ⟨small, single⟩ := toDigits_digit (all c (by simp))
    rw [value_concat]
    by_cases empty : digits = []
    · refine ⟨0, ?_⟩
      rw [empty, value, Nat.ofDigitChars_nil, Nat.mul_zero, Nat.zero_add, single]
      rfl
    · obtain ⟨zeros, same⟩ := ih empty fun other member => all other (List.mem_append_left _ member)
      by_cases zero : value digits = 0
      · refine ⟨zeros + 1, ?_⟩
        rw [zero, Nat.mul_zero, Nat.zero_add, single]
        rw [zero, Nat.toDigits_zero] at same
        rw [same, List.replicate_succ']
      · refine ⟨zeros, ?_⟩
        rw [← Nat.toDigits_append_toDigits (by decide) (Nat.pos_of_ne_zero zero) small, single, ← List.append_assoc, ← same]

end AxbyCore.Decimal
