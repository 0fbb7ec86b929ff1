import Mathlib.Data.Nat.Digits.Lemmas
import Mathlib.Data.Rat.Floor
import Mathlib.Tactic.Ring

/-! # Decimal numerals

The value of a list of decimal digits, the first the most significant, and how a
decimal fraction is cut off after a number of places.
-/

namespace Foundation

/-- The number that some decimal digits denote. -/
def digitsValue (digits : List Nat) : Nat := Nat.ofDigits 10 digits.reverse

@[simp] theorem digitsValue_nil : digitsValue [] = 0 := rfl

theorem digitsValue_append (first second : List Nat) :
    digitsValue (first ++ second) = digitsValue first * 10 ^ second.length + digitsValue second := by
  rw [digitsValue, List.reverse_append, Nat.ofDigits_append, List.length_reverse, Nat.add_comm,
    Nat.mul_comm]
  rfl

theorem digitsValue_cons (digit : Nat) (rest : List Nat) :
    digitsValue (digit :: rest) = digit * 10 ^ rest.length + digitsValue rest := by
  rw [← List.singleton_append, digitsValue_append]
  simp [digitsValue]

theorem digitsValue_lt {digits : List Nat} (decimal : ∀ digit ∈ digits, digit < 10) :
    digitsValue digits < 10 ^ digits.length := by
  have bound := Nat.ofDigits_lt_base_pow_length (by omega : 1 < 10)
    (fun digit mem => decimal digit (List.mem_reverse.mp mem))
  rwa [List.length_reverse] at bound

/-- The rational that digits before and after a decimal point denote. -/
def decimalValue (whole fraction : List Nat) : ℚ :=
  digitsValue whole + digitsValue fraction / 10 ^ fraction.length

/-- Cutting a decimal fraction off after `places` digits. -/
theorem floor_decimalValue (whole fraction : List Nat) (places : Nat)
    (decimal : ∀ digit ∈ fraction, digit < 10) :
    ⌊10 ^ places * decimalValue whole fraction⌋ =
      10 ^ places * digitsValue whole +
        digitsValue (fraction.take places) * 10 ^ (places - fraction.length) := by
  have quotient : 10 ^ places * decimalValue whole fraction =
      ((10 ^ places * (digitsValue whole * 10 ^ fraction.length + digitsValue fraction) : ℕ) : ℚ) /
        ((10 ^ fraction.length : ℕ) : ℚ) := by
    rw [decimalValue]
    push_cast
    field_simp
  rw [quotient, Rat.floor_natCast_div_natCast]
  norm_cast
  rcases Nat.le_total fraction.length places with short | long
  · rw [List.take_of_length_le short]
    obtain ⟨more, rfl⟩ := Nat.exists_eq_add_of_le short
    have split : 10 ^ (fraction.length + more) *
          (digitsValue whole * 10 ^ fraction.length + digitsValue fraction) =
        (10 ^ (fraction.length + more) * digitsValue whole + digitsValue fraction * 10 ^ more) *
          10 ^ fraction.length := by
      ring
    rw [split, Nat.mul_div_cancel _ (by positivity), Nat.add_sub_cancel_left]
  · have parts := digitsValue_append (fraction.take places) (fraction.drop places)
    have small := digitsValue_lt (fun digit mem => decimal digit (List.mem_of_mem_drop mem) :
      ∀ digit ∈ fraction.drop places, digit < 10)
    rw [List.take_append_drop] at parts
    rw [List.length_drop] at parts small
    obtain ⟨more, length⟩ := Nat.exists_eq_add_of_le long
    rw [length, Nat.add_sub_cancel_left] at parts small
    have split : 10 ^ places * (digitsValue whole * 10 ^ (places + more) + digitsValue fraction) =
        10 ^ places * digitsValue (fraction.drop places) +
          (10 ^ places * digitsValue whole + digitsValue (fraction.take places)) *
            10 ^ (places + more) := by
      rw [parts]
      ring
    have rest : 10 ^ places * digitsValue (fraction.drop places) < 10 ^ (places + more) := by
      rw [pow_add]
      exact Nat.mul_lt_mul_of_pos_left small (by positivity)
    rw [length, split, Nat.add_mul_div_right _ _ (by positivity), Nat.div_eq_of_lt rest,
      Nat.sub_eq_zero_of_le (Nat.le_add_right ..)]
    ring

theorem decimalValue_nonneg (whole fraction : List Nat) : 0 ≤ decimalValue whole fraction := by
  unfold decimalValue
  positivity

end Foundation
