/-
This file holds how the development proves that large numbers are prime: a number is, if
some other one has the order of its predecessor, which is found out from the prime factors
of the predecessor and a few powers.

Powers are taken by squaring, so that the kernel can take them. The prime factors are known, or
were found to be prime in the same way before.
-/

import Mathlib.NumberTheory.LucasPrimality

namespace LightWallet.Primality

/-- A power to a modulus, where the exponent has no more bits than the fuel. -/
def powMod (modulus : Nat) : Nat → Nat → Nat → Nat
  | 0, _, _ => 1 % modulus
  | fuel + 1, base, exponent =>
    if exponent = 0 then 1 % modulus
    else
      let rest := powMod modulus fuel (base * base % modulus) (exponent / 2)
      if exponent % 2 = 1 then base * rest % modulus else rest

theorem powMod_eq (modulus : Nat) (fuel base exponent : Nat) (enough : exponent < 2 ^ fuel) :
    powMod modulus fuel base exponent = base ^ exponent % modulus := by
  induction fuel generalizing base exponent with
  | zero =>
    obtain rfl : exponent = 0 := by simpa using enough
    rfl
  | succ fuel inductionHypothesis =>
    unfold powMod
    by_cases zero : exponent = 0
    · rw [if_pos zero, zero, pow_zero]
    · have half : exponent / 2 < 2 ^ fuel := by
        rw [Nat.div_lt_iff_lt_mul (by norm_num), ← pow_succ]
        exact enough
      simp only [if_neg zero]
      rw [inductionHypothesis _ _ half, ← Nat.pow_mod, ← pow_two, ← pow_mul]
      have parts := Nat.div_add_mod exponent 2
      rcases Nat.mod_two_eq_zero_or_one exponent with even | odd
      · rw [if_neg (by omega), show 2 * (exponent / 2) = exponent by omega]
      · rw [if_pos odd, Nat.mul_mod_mod, ← pow_succ', show 2 * (exponent / 2) + 1 = exponent by
          omega]

/-- The same in the integers to the modulus. -/
theorem cast_powMod (modulus : Nat) {fuel exponent : Nat} (base : Nat)
    (enough : exponent < 2 ^ fuel) :
    ((powMod modulus fuel base exponent : Nat) : ZMod modulus) =
      (base : ZMod modulus) ^ exponent := by
  rw [powMod_eq modulus fuel base exponent enough, ZMod.natCast_mod, Nat.cast_pow]

/-- The powers that tell that the base has the order of the predecessor of the number. -/
def IsWitness (number base : Nat) (factors : List Nat) : Prop :=
  powMod number 256 base (number - 1) = 1 ∧
    ∀ factor ∈ factors, powMod number 256 base ((number - 1) / factor) ≠ 1

instance (number base : Nat) (factors : List Nat) : Decidable (IsWitness number base factors) :=
  inferInstanceAs (Decidable (_ ∧ _))

theorem prime_of_witness {number base : Nat} {factors : List Nat} (large : 1 < number)
    (small : number ≤ 2 ^ 256) (product : factors.prod + 1 = number)
    (primes : ∀ factor ∈ factors, factor.Prime) (witness : IsWitness number base factors) :
    number.Prime := by
  have enough (divisor : Nat) : (number - 1) / divisor < 2 ^ 256 :=
    (Nat.div_le_self _ _).trans_lt (by omega)
  have one_lt : Fact (1 < number) := ⟨large⟩
  refine lucas_primality number base ?_ fun factor prime divides => ?_
  · have power := cast_powMod number base (enough 1)
    rw [Nat.div_one, witness.1, Nat.cast_one] at power
    exact power.symm
  · rw [show number - 1 = factors.prod by omega, prime.prime.dvd_prod_iff] at divides
    obtain ⟨member, present, divides⟩ := divides
    obtain rfl : factor = member := (Nat.prime_dvd_prime_iff_eq prime (primes member present)).mp
      divides
    have differs := witness.2 factor present
    rw [powMod_eq number 256 base _ (enough factor)] at differs
    intro same
    rw [← Nat.cast_pow, ← ZMod.natCast_mod _ number] at same
    have value : base ^ ((number - 1) / factor) % number ≡ 1 [MOD number] :=
      (ZMod.natCast_eq_natCast_iff _ _ _).mp (by rw [same, Nat.cast_one])
    rw [Nat.ModEq, Nat.mod_mod, Nat.mod_eq_of_lt large] at value
    exact differs value

/-! ### Certificates -/

/-- A number, one that has the order of its predecessor, and the predecessor's prime factors. -/
structure Certificate where
  number : Nat
  base : Nat
  factors : List Nat

/-- The factors are known to be prime. -/
def Certificate.Valid (known : List Nat) (certificate : Certificate) : Prop :=
  1 < certificate.number ∧ certificate.number ≤ 2 ^ 256 ∧
    certificate.factors.prod + 1 = certificate.number ∧
    (∀ factor ∈ certificate.factors, factor ∈ known) ∧
    IsWitness certificate.number certificate.base certificate.factors

instance (known : List Nat) (certificate : Certificate) : Decidable (certificate.Valid known) :=
  inferInstanceAs (Decidable (_ ∧ _))

/-- What was found to be prime is known for the certificates behind it. -/
def AllValid : List Nat → List Certificate → Prop
  | _, [] => True
  | known, certificate :: certificates =>
    certificate.Valid known ∧ AllValid (certificate.number :: known) certificates

instance decidableAllValid : (known : List Nat) → (certificates : List Certificate) →
    Decidable (AllValid known certificates)
  | _, [] => inferInstanceAs (Decidable True)
  | known, certificate :: certificates =>
    have := decidableAllValid (certificate.number :: known) certificates
    inferInstanceAs (Decidable (certificate.Valid known ∧ _))

theorem prime_of_allValid {known : List Nat} {certificates : List Certificate}
    (primes : ∀ number ∈ known, number.Prime) (valid : AllValid known certificates) :
    ∀ certificate ∈ certificates, certificate.number.Prime := by
  induction certificates generalizing known with
  | nil => exact fun _ absent => absurd absent List.not_mem_nil
  | cons certificate certificates inductionHypothesis =>
    obtain ⟨⟨large, small, product, factors, witness⟩, rest⟩ := valid
    have prime := prime_of_witness large small product
      (fun factor member => primes factor (factors factor member)) witness
    exact List.forall_mem_cons.mpr ⟨prime,
      inductionHypothesis (List.forall_mem_cons.mpr ⟨prime, primes⟩) rest⟩

end LightWallet.Primality
