/-
This file holds what the development uses about numbers that are written with a
fixed number of digits, the most significant digit first. Writing a number with
so many digits and reading digits back undo each other as long as the number fits
and every digit is below the base.
-/

import Mathlib.Data.Nat.Digits.Lemmas

namespace LightWallet.Positional

/-- The number that the digits stand for, the most significant one first. -/
def value (base : Nat) (digits : List Nat) : Nat := Nat.ofDigits base digits.reverse

/-- The last digits of a number, the most significant one first. -/
def digits (base : Nat) : Nat → Nat → List Nat
  | 0, _ => []
  | width + 1, number => digits base width (number / base) ++ [number % base]

/-! ### Reading -/

@[simp] theorem value_nil (base : Nat) : value base [] = 0 := rfl

theorem value_concat (base : Nat) (front : List Nat) (digit : Nat) :
    value base (front ++ [digit]) = digit + base * value base front := by
  unfold value
  rw [List.reverse_append, List.reverse_singleton, List.singleton_append, Nat.ofDigits_cons]

theorem value_cons (base digit : Nat) (rest : List Nat) :
    value base (digit :: rest) = digit * base ^ rest.length + value base rest := by
  unfold value
  rw [List.reverse_cons, Nat.ofDigits_append, Nat.ofDigits_singleton, List.length_reverse]
  ring

theorem value_append (base : Nat) (front back : List Nat) :
    value base (front ++ back) = value base front * base ^ back.length + value base back := by
  unfold value
  rw [List.reverse_append, Nat.ofDigits_append, List.length_reverse]
  ring

theorem value_zeros (base zeros : Nat) : value base (List.replicate zeros 0) = 0 := by
  unfold value
  rw [List.reverse_replicate, Nat.ofDigits_replicate_zero]

/-- Zeros at the end multiply by the base. -/
theorem value_append_zeros (base : Nat) (front : List Nat) (zeros : Nat) :
    value base (front ++ List.replicate zeros 0) = value base front * base ^ zeros := by
  rw [value_append, value_zeros, List.length_replicate, Nat.add_zero]

theorem value_lt {base : Nat} (large : 1 < base) {digits : List Nat}
    (small : ∀ digit ∈ digits, digit < base) : value base digits < base ^ digits.length := by
  have bound := Nat.ofDigits_lt_base_pow_length large
    (fun digit member => small digit (List.mem_reverse.mp member))
  rwa [List.length_reverse] at bound

/-! ### Writing -/

@[simp] theorem digits_zero (base number : Nat) : digits base 0 number = [] := rfl

@[simp] theorem length_digits (base width number : Nat) :
    (digits base width number).length = width := by
  induction width generalizing number with
  | zero => rfl
  | succ width inductionHypothesis =>
    rw [digits, List.length_append, inductionHypothesis, List.length_singleton]

theorem digit_lt {base : Nat} (positive : 0 < base) {width number digit : Nat}
    (member : digit ∈ digits base width number) : digit < base := by
  induction width generalizing number with
  | zero => cases member
  | succ width inductionHypothesis =>
    rw [digits, List.mem_append, List.mem_singleton] at member
    rcases member with before | rfl
    · exact inductionHypothesis before
    · exact Nat.mod_lt _ positive

/-- What is read back of a number is the part that its digits have room for. -/
theorem value_digits (base width number : Nat) :
    value base (digits base width number) = number % base ^ width := by
  induction width generalizing number with
  | zero => rw [digits_zero, value_nil, pow_zero, Nat.mod_one]
  | succ width inductionHypothesis =>
    rw [digits, value_concat, inductionHypothesis, Nat.pow_succ', Nat.mod_mul]

theorem value_digits_of_lt {base width number : Nat} (fits : number < base ^ width) :
    value base (digits base width number) = number := by
  rw [value_digits, Nat.mod_eq_of_lt fits]

theorem digits_value {base : Nat} {written : List Nat}
    (small : ∀ digit ∈ written, digit < base) :
    digits base written.length (value base written) = written := by
  induction written using List.reverseRecOn with
  | nil => rfl
  | append_singleton front digit inductionHypothesis =>
    have below : digit < base := small digit (by simp)
    have positive : 0 < base := Nat.zero_lt_of_lt below
    have quotient : (digit + base * value base front) / base = value base front := by
      rw [Nat.add_mul_div_left _ _ positive, Nat.div_eq_of_lt below, Nat.zero_add]
    have remainder : (digit + base * value base front) % base = digit := by
      rw [Nat.add_mul_mod_self_left, Nat.mod_eq_of_lt below]
    rw [List.length_append, List.length_singleton, digits, value_concat, quotient, remainder,
      inductionHypothesis fun other member => small other (List.mem_append_left _ member)]

/-- Digits of the same number, as many of them, are the same. -/
theorem eq_of_value_eq {base : Nat} {first second : List Nat}
    (firstSmall : ∀ digit ∈ first, digit < base) (secondSmall : ∀ digit ∈ second, digit < base)
    (sameLength : first.length = second.length)
    (sameValue : value base first = value base second) : first = second := by
  rw [← digits_value firstSmall, ← digits_value secondSmall, sameLength, sameValue]

/-- The remainders of the repeated divisions, the last one first, after as many zeros as are
missing. -/
theorem digits_eq_append {base width number : Nat} (large : 1 < base)
    (fits : number < base ^ width) :
    digits base width number =
      List.replicate (width - (base.digits number).length) 0 ++ (base.digits number).reverse := by
  have short : (base.digits number).length ≤ width := (Nat.digits_length_le_iff large _).mpr fits
  have zero : 0 < base := Nat.zero_lt_of_lt large
  refine eq_of_value_eq (fun _ => digit_lt zero) ?_ ?_ ?_
  · intro digit member
    rw [List.mem_append, List.mem_reverse, List.mem_replicate] at member
    rcases member with ⟨_, rfl⟩ | member
    · exact zero
    · exact Nat.digits_lt_base large member
  · rw [length_digits, List.length_append, List.length_replicate, List.length_reverse]
    omega
  · rw [value_digits_of_lt fits, value, List.reverse_append, List.reverse_reverse,
      List.reverse_replicate, Nat.ofDigits_append_replicate_zero, Nat.ofDigits_digits]

/-- The last digits of a number are those of more digits that stand last. -/
theorem digits_eq_drop (base more width number : Nat) :
    digits base width number = (digits base (more + width) number).drop more := by
  induction width generalizing number with
  | zero =>
    rw [digits_zero, Nat.add_zero, List.drop_of_length_le (Nat.le_of_eq (length_digits _ _ _))]
  | succ width inductionHypothesis =>
    have enough : more ≤ (digits base (more + width) (number / base)).length := by
      rw [length_digits]
      exact Nat.le_add_right _ _
    rw [← Nat.add_assoc, digits, digits, List.drop_append_of_le_length enough,
      ← inductionHypothesis]

end LightWallet.Positional
