/-
This file holds what the development uses about numbers that are written in limbs of any size and
sign, the lowest first. A pass over the limbs that hands on what exceeds the base leaves the digits
of the number, whatever limbs it was written in.
-/

import Mathlib.Algebra.Order.Ring.Int
import Mathlib.Tactic.Linarith
import Mathlib.Tactic.Positivity
import Mathlib.Tactic.Ring

namespace LightWallet.SignedLimbs

section

variable (base : ℤ)

/-- The number of a list of limbs. -/
def value : List ℤ → ℤ
  | [] => 0
  | limb :: limbs => limb + base * value limbs

/-- The lowest digits of a number. -/
def digits : Nat → ℤ → List ℤ
  | 0, _ => []
  | count + 1, number => number % base :: digits count (number / base)

end

variable {base : ℤ}

@[simp] theorem value_nil : value base [] = 0 := rfl

@[simp] theorem value_cons (limb : ℤ) (limbs : List ℤ) :
    value base (limb :: limbs) = limb + base * value base limbs := rfl

theorem value_append (low high : List ℤ) :
    value base (low ++ high) = value base low + base ^ low.length * value base high := by
  induction low with
  | nil => rw [List.nil_append, List.length_nil, value_nil, pow_zero, one_mul, zero_add]
  | cons limb low inductionHypothesis =>
    rw [List.cons_append, value_cons, value_cons, inductionHypothesis, List.length_cons, pow_succ']
    ring

@[simp] theorem value_replicate_zero (count : Nat) : value base (List.replicate count 0) = 0 := by
  induction count with
  | zero => rfl
  | succ count inductionHypothesis =>
    rw [List.replicate_succ, value_cons, inductionHypothesis, mul_zero, add_zero]

@[simp] theorem length_digits (count : Nat) (number : ℤ) :
    (digits base count number).length = count := by
  induction count generalizing number with
  | zero => rfl
  | succ count inductionHypothesis =>
    rw [digits, List.length_cons, inductionHypothesis]

/-- Digits are at least zero and below the base. -/
def Proper (base : ℤ) (limbs : List ℤ) : Prop := ∀ limb ∈ limbs, 0 ≤ limb ∧ limb < base

theorem proper_cons {limb : ℤ} {limbs : List ℤ} :
    Proper base (limb :: limbs) ↔ (0 ≤ limb ∧ limb < base) ∧ Proper base limbs :=
  List.forall_mem_cons

theorem proper_digits (positive : 0 < base) (count : Nat) (number : ℤ) :
    Proper base (digits base count number) := by
  induction count generalizing number with
  | zero => exact fun _ absent => absurd absent List.not_mem_nil
  | succ count inductionHypothesis =>
    exact proper_cons.mpr ⟨⟨Int.emod_nonneg _ positive.ne', Int.emod_lt_of_pos _ positive⟩,
      inductionHypothesis _⟩

theorem value_digits (positive : 0 < base) (count : Nat) (number : ℤ) :
    value base (digits base count number) = number % base ^ count := by
  induction count generalizing number with
  | zero => rw [digits, value_nil, pow_zero, Int.emod_one]
  | succ count inductionHypothesis =>
    rw [digits, value_cons, inductionHypothesis, pow_succ', Int.emod_def _ (base ^ count),
      Int.emod_def _ base, Int.emod_def _ (base * base ^ count),
      Int.ediv_ediv_of_nonneg positive.le]
    ring

/-- A number of few enough digits is that of its digits. -/
theorem digits_value {limbs : List ℤ} (proper : Proper base limbs) :
    digits base limbs.length (value base limbs) = limbs := by
  induction limbs with
  | nil => rfl
  | cons limb limbs inductionHypothesis =>
    obtain ⟨⟨nonnegative, below⟩, rest⟩ := proper_cons.mp proper
    rw [List.length_cons, digits, value_cons, Int.add_mul_emod_self_left,
      Int.emod_eq_of_lt nonnegative below,
      Int.add_mul_ediv_left _ _ (nonnegative.trans_lt below).ne',
      Int.ediv_eq_zero_of_lt nonnegative below, zero_add, inductionHypothesis rest]

theorem value_nonneg (positive : 0 < base) {limbs : List ℤ} (proper : Proper base limbs) :
    0 ≤ value base limbs := by
  rw [← digits_value proper, value_digits positive]
  exact Int.emod_nonneg _ (pow_pos positive _).ne'

theorem value_lt (positive : 0 < base) {limbs : List ℤ} (proper : Proper base limbs) :
    value base limbs < base ^ limbs.length := by
  have below := Int.emod_lt_of_pos (value base limbs) (pow_pos positive limbs.length)
  rw [← value_digits positive, digits_value proper] at below
  exact below

/-- No limb is larger than the bound, of either sign. -/
def Bounded (bound : ℤ) (limbs : List ℤ) : Prop := ∀ limb ∈ limbs, |limb| ≤ bound

theorem bounded_cons {bound limb : ℤ} {limbs : List ℤ} :
    Bounded bound (limb :: limbs) ↔ |limb| ≤ bound ∧ Bounded bound limbs :=
  List.forall_mem_cons

theorem Bounded.mono {bound larger : ℤ} {limbs : List ℤ} (bounded : Bounded bound limbs)
    (le : bound ≤ larger) : Bounded larger limbs :=
  fun limb member => (bounded limb member).trans le

theorem Proper.bounded {limbs : List ℤ} (proper : Proper base limbs) :
    Bounded (base - 1) limbs := by
  intro limb member
  obtain ⟨nonnegative, below⟩ := proper limb member
  rw [abs_of_nonneg nonnegative]
  omega

theorem abs_value_le (large : 2 ≤ base) {bound : ℤ} {limbs : List ℤ}
    (bounded : Bounded bound limbs) (nonnegative : 0 ≤ bound) :
    |value base limbs| ≤ bound * (base ^ limbs.length - 1) := by
  induction limbs with
  | nil => simp
  | cons limb limbs inductionHypothesis =>
    obtain ⟨first, rest⟩ := bounded_cons.mp bounded
    have shifted : base * |value base limbs| ≤ base * (bound * (base ^ limbs.length - 1)) :=
      mul_le_mul_of_nonneg_left (inductionHypothesis rest) (by omega)
    have slack : 0 ≤ bound * (base - 2) := mul_nonneg nonnegative (by omega)
    rw [value_cons, List.length_cons, pow_succ']
    calc |limb + base * value base limbs| ≤ |limb| + |base * value base limbs| := abs_add_le _ _
      _ = |limb| + base * |value base limbs| := by rw [abs_mul, abs_of_pos (by omega : 0 < base)]
      _ ≤ bound * (base * base ^ limbs.length - 1) := by linarith

end LightWallet.SignedLimbs
