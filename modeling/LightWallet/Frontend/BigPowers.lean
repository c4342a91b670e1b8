/-
This file models how the scripts raise big integers to powers and move their decimal point,
and proves that the results are those of the integers.

A power is taken by squaring, one bit of the exponent at a time. The loop's fuel is the
number of bits; exponents of more than 31 bits are refused before it starts. The decimal
point is moved by whole digits of seven places first, and by the rest with a small factor.
-/

import LightWallet.Frontend.BigDivision
import LightWallet.Frontend.Money

namespace LightWallet.Frontend.BigInteger

open Limbs (Below)

/-! ### Moving the decimal point -/

/-- `BigInteger_base_log10`. -/
def bigIntegerBaseLog10 : Nat := 7

/-- `MAX_EXP`. -/
def maxExp : BigInteger := ofInt 0x7FFFFFFF

/-- Zeros are put in front of the digits, and what is left of the exponent is returned too. -/
def unshiftZeros (n : Nat) (d : List Nat) : List Nat × Nat :=
  if bigIntegerBaseLog10 ≤ n then unshiftZeros (n - bigIntegerBaseLog10) (0 :: d) else (d, n)
termination_by n
decreasing_by exact Nat.sub_lt_self (by decide) ‹_›

/-- The lowest digits are dropped, and what is left of the exponent is returned too. -/
def shiftDigits (n : Nat) (d : List Nat) : List Nat × Nat :=
  if bigIntegerBaseLog10 ≤ n then shiftDigits (n - bigIntegerBaseLog10) d.tail else (d, n)
termination_by n
decreasing_by exact Nat.sub_lt_self (by decide) ‹_›

/-- `exp10`. -/
def exp10 (x : BigInteger) (n : Int) : Except String BigInteger :=
  if n = 0 then .ok x
  else if JSBigInt.maxExp < n.natAbs then .error "exponent too large in BigInteger.exp10"
  else if x.s = 0 then .ok zero
  else if 0 < n then
    let (d, n) := unshiftZeros n.natAbs (construct x.d x.s).d
    if n = 0 then .ok ⟨d, (construct x.d x.s).s⟩
    else
      let k := multiplySingleDigit ⟨d, 1⟩ (10 ^ n)
      .ok (if x.s < 0 then k.negate else k)
  else if x.d.length * bigIntegerBaseLog10 ≤ n.natAbs then .ok zero
  else
    let (d, n) := shiftDigits n.natAbs (construct x.d x.s).d
    let k : BigInteger := ⟨d, (construct x.d x.s).s⟩
    if n = 0 then .ok k else (k.divRemSmall ((10 ^ n : Nat) : Int)).map Prod.fst

/-! ### Powers -/

/-- The loop of `pow`, with `none` where the fuel is used up. The numbers that are multiplied are
two objects. -/
def powLoop : Nat → BigInteger → BigInteger → BigInteger → Except String (Option BigInteger)
  | 0, _, _, _ => .ok none
  | fuel + 1, x, aux, n =>
    if n.isPositive then
      let aux := if n.isOdd then multiply false aux x else aux
      if n.isOdd && n.isUnit then .ok (some aux)
      else n.quotient (small 2) >>= powLoop fuel x.square aux
    else .ok (some aux)

/-- `pow`. -/
def pow (x n : BigInteger) : Except String (Option BigInteger) :=
  if x.isUnit then .ok (some (if 0 < x.s then x else if n.isOdd then x else x.negate))
  else if n.s = 0 then .ok (some one)
  else if n.s < 0 then (if x.s = 0 then .error "Divide by zero" else .ok (some zero))
  else if x.s = 0 then .ok (some zero)
  else if n.isUnit then .ok (some x)
  else if 0 < n.compareAbs maxExp then .error "exponent too large in BigInteger.pow"
  else powLoop 31 x one n

/-! ### The decimal point -/

theorem unshiftZeros_eq (n : Nat) (d : List Nat) :
    unshiftZeros n d = (List.replicate (n / bigIntegerBaseLog10) 0 ++ d,
      n % bigIntegerBaseLog10) := by
  fun_induction unshiftZeros with
  | case1 n d large inductionHypothesis =>
    rw [inductionHypothesis, Nat.div_eq_sub_div (by decide) large, List.replicate_succ',
      List.append_assoc, List.singleton_append, Nat.mod_eq_sub_mod large]
  | case2 n d small =>
    have less := Nat.not_le.mp small
    rw [Nat.div_eq_of_lt less, Nat.mod_eq_of_lt less, List.replicate_zero, List.nil_append]

theorem shiftDigits_eq (n : Nat) (d : List Nat) :
    shiftDigits n d = (d.drop (n / bigIntegerBaseLog10), n % bigIntegerBaseLog10) := by
  fun_induction shiftDigits with
  | case1 n d large inductionHypothesis =>
    rw [inductionHypothesis, Nat.div_eq_sub_div (by decide) large, Nat.mod_eq_sub_mod large,
      List.drop_tail]
  | case2 n d small =>
    have less := Nat.not_le.mp small
    rw [Nat.div_eq_of_lt less, Nat.mod_eq_of_lt less, List.drop_zero]

/-- A power of ten is one of the base and one of fewer than seven places. -/
theorem ten_pow_eq (n : Nat) :
    10 ^ n = bigIntegerBase ^ (n / bigIntegerBaseLog10) * 10 ^ (n % bigIntegerBaseLog10) := by
  have base : bigIntegerBase = 10 ^ bigIntegerBaseLog10 := by decide
  rw [base, ← Nat.pow_mul, ← Nat.pow_add, Nat.div_add_mod]

theorem ten_pow_lt (n : Nat) : 10 ^ (n % bigIntegerBaseLog10) < bigIntegerBase := by
  have base : bigIntegerBase = 10 ^ bigIntegerBaseLog10 := by decide
  rw [base]
  exact Nat.pow_lt_pow_right (by decide) (Nat.mod_lt _ (by decide))

/-- Zeros in front multiply a number by a power of the base. -/
theorem replicate_append_ofInt {x : Int} (some : x ≠ 0) (places : Nat) :
    List.replicate places 0 ++ (ofInt x).d = (ofInt (x * bigIntegerBase ^ places)).d := by
  have magnitude : (x * (bigIntegerBase : Int) ^ places).natAbs =
      bigIntegerBase ^ places * x.natAbs := by
    rw [Int.natAbs_mul, Int.natAbs_pow, Int.natAbs_natCast, Nat.mul_comm]
  unfold ofInt
  rw [magnitude, Nat.digits_base_pow_mul large (Int.natAbs_pos.mpr some)]

/-- Without the lowest digits, a number is divided by a power of the base. -/
theorem drop_ofInt (x : Int) (places : Nat) :
    (ofInt x).d.drop places = (ofInt ((x.natAbs / bigIntegerBase ^ places : Nat) : Int)).d := by
  have trimmed : Limbs.Trimmed ((ofInt x).d.drop places) := fun some => by
    rw [List.getLast_drop]
    exact trimmed_ofInt x _
  have below : Below bigIntegerBase ((ofInt x).d.drop places) := fun limb member =>
    below_ofInt x limb (List.mem_of_mem_drop member)
  have value := Nat.self_div_pow_eq_ofDigits_drop places x.natAbs (large : 2 ≤ bigIntegerBase)
  have digits : (ofInt x).d = Nat.digits bigIntegerBase x.natAbs := rfl
  rw [← digits] at value
  rw [← Limbs.digits_ofDigits large below trimmed, ← value]
  rfl

theorem shifted_ofInt {x : Int} (some : x ≠ 0) (places : Nat) :
    (⟨List.replicate places 0 ++ (ofInt x).d, (ofInt x).s⟩ : BigInteger) =
      ofInt (x * bigIntegerBase ^ places) := by
  rw [replicate_append_ofInt some]
  have sign : (x * (bigIntegerBase : Int) ^ places).sign = x.sign := by
    have power : 0 < (bigIntegerBase : Int) ^ places := Int.pow_pos (by decide)
    rw [Int.sign_mul, Int.sign_eq_one_of_pos power, mul_one]
  rw [ofInt_s, ← sign]
  rfl

/-- Upwards, zeros are put in front of the digits and a small factor does the rest. -/
theorem exp10_up {x : Int} (some : x ≠ 0) (n : Nat) :
    (let rest := unshiftZeros n (ofInt x).d
      if rest.2 = 0 then (.ok ⟨rest.1, (ofInt x).s⟩ : Except String BigInteger)
      else
        let k := multiplySingleDigit ⟨rest.1, 1⟩ (10 ^ rest.2)
        .ok (if (ofInt x).s < 0 then k.negate else k)) = .ok (ofInt (x * 10 ^ n)) := by
  have power : x * (10 : Int) ^ n =
      x * bigIntegerBase ^ (n / bigIntegerBaseLog10) * 10 ^ (n % bigIntegerBaseLog10) := by
    have split : (10 : Int) ^ n = _ := congrArg (fun power : Nat => (power : Int)) (ten_pow_eq n)
    rw [mul_assoc, split]
    push_cast
    rfl
  rw [unshiftZeros_eq, power]
  dsimp only
  split
  · next none => rw [shifted_ofInt some, none, pow_zero, mul_one]
  · have absolute : (⟨List.replicate (n / bigIntegerBaseLog10) 0 ++ (ofInt x).d, 1⟩ : BigInteger) =
        ofInt ((x.natAbs * bigIntegerBase ^ (n / bigIntegerBaseLog10) : Nat) : Int) := by
      have positive : ((x.natAbs : Nat) : Int) ≠ 0 := by omega
      have shifted := shifted_ofInt positive (n / bigIntegerBaseLog10)
      rw [ofInt_s, Int.sign_eq_one_of_pos (by omega)] at shifted
      have magnitude : (ofInt ((x.natAbs : Nat) : Int)).d = (ofInt x).d := rfl
      rw [magnitude] at shifted
      rw [shifted]
      push_cast
      rfl
    rw [absolute, multiplySingleDigit_ofInt _ (ten_pow_lt n), negate_ofInt]
    refine congrArg Except.ok ?_
    rcases isSign_sign some with positive | negative
    · rw [ofInt_s, positive, if_neg (by decide), Nat.cast_mul, Nat.cast_mul,
        Int.natAbs_of_nonneg (Int.sign_eq_one_iff_pos.mp positive).le, mul_comm]
      push_cast
      rfl
    · rw [ofInt_s, negative, if_pos (by decide), Nat.cast_mul, Nat.cast_mul,
        Int.ofNat_natAbs_of_nonpos (Int.sign_eq_neg_one_iff_neg.mp negative).le, mul_comm]
      push_cast
      ring_nf

/-- Downwards, digits are dropped and a small divisor does the rest. -/
theorem exp10_down {x : Int} (some : x ≠ 0) {n : Nat}
    (fewer : n < (ofInt x).d.length * bigIntegerBaseLog10) :
    (let rest := shiftDigits n (ofInt x).d
      let k : BigInteger := ⟨rest.1, (ofInt x).s⟩
      if rest.2 = 0 then (.ok k : Except String BigInteger)
      else (k.divRemSmall ((10 ^ rest.2 : Nat) : Int)).map Prod.fst) =
      .ok (ofInt (x.tdiv (10 ^ n))) := by
  have places : n / bigIntegerBaseLog10 < (ofInt x).d.length :=
    (Nat.div_lt_iff_lt_mul (by decide)).mpr fewer
  have left : 0 < x.natAbs / bigIntegerBase ^ (n / bigIntegerBaseLog10) :=
    Nat.div_pos ((Nat.lt_digits_length_iff large x.natAbs).mp places) (Nat.pow_pos (by decide))
  have isSign := isSign_sign some
  have kept : (⟨(ofInt x).d.drop (n / bigIntegerBaseLog10), (ofInt x).s⟩ : BigInteger) = ofInt
      (x.sign * ((x.natAbs / bigIntegerBase ^ (n / bigIntegerBaseLog10) : Nat) : Int)) := by
    rw [drop_ofInt, ofInt_s]
    generalize x.natAbs / bigIntegerBase ^ (n / bigIntegerBaseLog10) = magnitude at left
    rcases isSign with positive | negative
    · rw [positive, one_mul, ← Int.sign_eq_one_of_pos (Int.natCast_pos.mpr left)]
      rfl
    · rw [negative, neg_one_mul, ← Int.sign_eq_neg_one_of_neg (by omega : -(magnitude : Int) < 0)]
      unfold ofInt
      rw [Int.natAbs_neg]
  have power : x.tdiv (10 ^ n) = (x.sign * ((x.natAbs / bigIntegerBase ^
      (n / bigIntegerBaseLog10) : Nat) : Int)).tdiv (10 ^ (n % bigIntegerBaseLog10) : Nat) := by
    have split : (10 : Int) ^ n = ((10 ^ n : Nat) : Int) := by
      push_cast
      rfl
    have sameSign : (x.sign * ((x.natAbs / bigIntegerBase ^
        (n / bigIntegerBaseLog10) : Nat) : Int)).sign = x.sign := by
      rw [Int.sign_mul, Int.sign_sign, Int.sign_eq_one_of_pos (Int.natCast_pos.mpr left), mul_one]
    have sameMagnitude : (x.sign * ((x.natAbs / bigIntegerBase ^
        (n / bigIntegerBaseLog10) : Nat) : Int)).natAbs =
        x.natAbs / bigIntegerBase ^ (n / bigIntegerBaseLog10) := by
      rcases isSign with positive | negative
      · rw [positive, one_mul, Int.natAbs_natCast]
      · rw [negative, neg_one_mul, Int.natAbs_neg, Int.natAbs_natCast]
    rw [split, tdiv_eq, tdiv_eq, sameSign, sameMagnitude, Int.natAbs_natCast, Int.natAbs_natCast,
      Nat.div_div_eq_div_mul, ← ten_pow_eq,
      Int.sign_eq_one_of_pos (Int.natCast_pos.mpr (Nat.pow_pos (by decide : 0 < 10))),
      Int.sign_eq_one_of_pos (Int.natCast_pos.mpr (Nat.pow_pos (by decide : 0 < 10)))]
  rw [shiftDigits_eq, power]
  dsimp only
  rw [kept]
  split
  · next none => rw [none, pow_zero, Nat.cast_one, Int.tdiv_one]
  · have factor : 0 < 10 ^ (n % bigIntegerBaseLog10) := Nat.pow_pos (by decide)
    have small : ((10 ^ (n % bigIntegerBaseLog10) : Nat) : Int).natAbs < bigIntegerBase := by
      rw [Int.natAbs_natCast]
      exact ten_pow_lt n
    rw [divRemSmall_ofInt _ _ (by omega) small]
    rfl

/-- The decimal point is moved as the integer's is. -/
theorem exp10_ofInt (x n : Int) : (ofInt x).exp10 n = (JSBigInt.exp10 x n).map ofInt := by
  unfold exp10 JSBigInt.exp10
  by_cases nowhere : n = 0
  · rw [if_pos nowhere, if_pos nowhere]
    rfl
  rw [if_neg nowhere, if_neg nowhere]
  by_cases far : JSBigInt.maxExp < n.natAbs
  · rw [if_pos far, if_pos far]
    rfl
  rw [if_neg far, if_neg far]
  by_cases isZero : x = 0
  · rw [if_pos ((ofInt_s_eq_zero x).mpr isZero), isZero, zero_mul, Int.zero_tdiv, ← ofInt_zero]
    split <;> rfl
  rw [if_neg (mt (ofInt_s_eq_zero x).mp isZero)]
  have whole : construct (ofInt x).d (ofInt x).s = ofInt x := by
    rw [ofInt_s, construct_ofInt x (isSign_sign isZero), Int.sign_mul_natAbs]
  rw [whole]
  by_cases up : 0 < n
  · have exponent : n.natAbs = n.toNat := by omega
    rw [if_pos up, if_pos up, exponent]
    exact exp10_up isZero n.toNat
  · have exponent : n.natAbs = (-n).toNat := by omega
    rw [if_neg up, if_neg up, exponent]
    by_cases nothing : (ofInt x).d.length * bigIntegerBaseLog10 ≤ (-n).toNat
    · have less : x.natAbs < 10 ^ (-n).toNat := by
        have room : x.natAbs < bigIntegerBase ^ (ofInt x).d.length :=
          Nat.lt_base_pow_length_digits large
        have base : bigIntegerBase = 10 ^ bigIntegerBaseLog10 := by decide
        rw [base, ← Nat.pow_mul, Nat.mul_comm] at room
        exact room.trans_le (Nat.pow_le_pow_right (by decide) nothing)
      have magnitude : ((10 : Int) ^ (-n).toNat).natAbs = 10 ^ (-n).toNat := by
        rw [Int.natAbs_pow]
        rfl
      rw [if_pos nothing, tdiv_eq, magnitude, Nat.div_eq_of_lt less, Nat.cast_zero, Int.mul_zero,
        ← ofInt_zero]
      rfl
    · rw [if_neg nothing]
      exact exp10_down isZero (Nat.not_le.mp nothing)

/-! ### Powers -/

theorem small_two : small 2 = ofInt 2 := small_eq (by decide)

/-- Half of an exponent, as the loops take it. -/
theorem half_ofInt (exponent : Nat) :
    (ofInt exponent).quotient (small 2) = .ok (ofInt ((exponent / 2 : Nat) : Int)) := by
  rw [small_two, quotient_ofInt, if_neg (by decide), Int.natCast_ediv,
    Int.tdiv_eq_ediv_of_nonneg (Int.natCast_nonneg exponent)]
  rfl

/-- The loop multiplies what has been accumulated by the power. -/
theorem powLoop_ofInt {fuel exponent : Nat} (positive : 0 < exponent) (enough : exponent < 2 ^ fuel)
    (x aux : Int) :
    powLoop fuel (ofInt x) (ofInt aux) (ofInt exponent) =
      .ok (some (ofInt (aux * x ^ exponent))) := by
  induction fuel generalizing exponent x aux with
  | zero => omega
  | succ fuel inductionHypothesis =>
    rw [powLoop, if_pos ((isPositive_ofInt exponent).mpr (by omega)), half_ofInt, square_ofInt,
      multiply_ofInt aux x false (fun isTrue => absurd isTrue Bool.false_ne_true)]
    have halves : exponent / 2 < 2 ^ fuel := by omega
    by_cases odd : exponent % 2 = 1
    · have isOdd : (ofInt exponent).isOdd = true := (isOdd_ofInt exponent).mpr (by omega)
      rw [isOdd, if_pos rfl, Bool.true_and]
      by_cases one : exponent = 1
      · have unit : (ofInt exponent).isUnit = true := (isUnit_ofInt exponent).mpr (by omega)
        rw [unit, if_pos rfl, one, pow_one]
      · have notUnit : (ofInt exponent).isUnit = false :=
          Bool.eq_false_of_not_eq_true (mt (isUnit_ofInt exponent).mp (by omega))
        rw [notUnit, if_neg Bool.false_ne_true]
        refine (inductionHypothesis (by omega) halves (x * x) (aux * x)).trans ?_
        have parts : exponent = 2 * (exponent / 2) + 1 := by omega
        nth_rewrite 2 [parts]
        rw [pow_succ, pow_mul]
        ring_nf
    · have even : (ofInt exponent).isOdd = false :=
        Bool.eq_false_of_not_eq_true (mt (isOdd_ofInt exponent).mp (by omega))
      rw [even, if_neg Bool.false_ne_true, Bool.false_and, if_neg Bool.false_ne_true]
      refine (inductionHypothesis (by omega) halves (x * x) aux).trans ?_
      have parts : exponent = 2 * (exponent / 2) := by omega
      nth_rewrite 2 [parts]
      rw [pow_mul]
      ring_nf

/-- Powers are the integers', and the loop ends within 31 rounds. -/
theorem pow_ofInt (x : Int) (exponent : Nat) :
    (ofInt x).pow (ofInt exponent) = (JSBigInt.pow x exponent).map (some ∘ ofInt) := by
  have exponentSign : (ofInt exponent).s = 0 ↔ exponent = 0 :=
    (ofInt_s_eq_zero exponent).trans Int.natCast_eq_zero
  have notNegative : ¬(ofInt exponent).s < 0 := mt (ofInt_s_neg exponent).mp (by omega)
  unfold pow JSBigInt.pow
  by_cases unit : x.natAbs = 1
  · have odd : (ofInt exponent).isOdd = true ↔ exponent % 2 = 1 :=
      (isOdd_ofInt exponent).trans (by omega)
    rw [if_pos ((isUnit_ofInt x).mpr unit), if_pos unit, negate_ofInt, ofInt_s]
    by_cases positive : 0 < x
    · rw [if_pos (Int.sign_pos_iff.mpr positive), if_pos (.inl positive)]
      rfl
    · rw [if_neg (mt Int.sign_pos_iff.mp positive)]
      by_cases isOdd : exponent % 2 = 1
      · rw [if_pos (odd.mpr isOdd), if_pos (.inr isOdd)]
        rfl
      · rw [if_neg (mt odd.mp isOdd), if_neg (not_or.mpr ⟨positive, isOdd⟩)]
        rfl
  rw [if_neg (mt (isUnit_ofInt x).mp unit), if_neg unit]
  by_cases nowhere : exponent = 0
  · rw [if_pos (exponentSign.mpr nowhere), if_pos nowhere, ← ofInt_one]
    rfl
  rw [if_neg (mt exponentSign.mp nowhere), if_neg nowhere, if_neg notNegative]
  by_cases isZero : x = 0
  · rw [if_pos ((ofInt_s_eq_zero x).mpr isZero), if_pos isZero, ← ofInt_zero]
    rfl
  rw [if_neg (mt (ofInt_s_eq_zero x).mp isZero), if_neg isZero]
  by_cases one : exponent = 1
  · rw [if_pos ((isUnit_ofInt exponent).mpr (by omega)), if_pos one]
    rfl
  rw [if_neg (mt (isUnit_ofInt exponent).mp (by omega)), if_neg one]
  have compared : 0 < (ofInt exponent).compareAbs maxExp ↔ JSBigInt.maxExp < exponent := by
    unfold maxExp JSBigInt.maxExp
    rw [compareAbs_ofInt, Int.sign_pos_iff]
    omega
  by_cases far : JSBigInt.maxExp < exponent
  · rw [if_pos (compared.mpr far), if_pos far]
    rfl
  rw [if_neg (mt compared.mp far), if_neg far, ← ofInt_one,
    powLoop_ofInt (Nat.pos_of_ne_zero nowhere) (by unfold JSBigInt.maxExp at far; omega), one_mul]
  rfl

/-- With a negative exponent nothing is left of a number but of a unit, and zero is refused. -/
theorem pow_negative (x : Int) {exponent : Int} (negative : exponent < 0) :
    (ofInt x).pow (ofInt exponent) =
      if x = 0 then .error "Divide by zero"
      else .ok (some (ofInt (if x.natAbs = 1 then x ^ exponent.natAbs else 0))) := by
  have exponentSign : (ofInt exponent).s < 0 := (ofInt_s_neg exponent).mpr negative
  unfold pow
  by_cases unit : x.natAbs = 1
  · have nonzero : x ≠ 0 := by omega
    rw [if_pos ((isUnit_ofInt x).mpr unit), if_neg nonzero, if_pos unit, negate_ofInt, ofInt_s]
    rcases Int.natAbs_eq x with plus | minus
    · rw [plus, unit, if_pos (by decide), Nat.cast_one, one_pow]
    · rw [minus, unit, if_neg (by decide), Nat.cast_one]
      by_cases odd : exponent % 2 = 1
      · have isOdd : Odd exponent.natAbs := by
          rw [Nat.odd_iff]
          omega
        rw [if_pos ((isOdd_ofInt exponent).mpr odd), isOdd.neg_one_pow]
      · have isEven : Even exponent.natAbs := by
          rw [Nat.even_iff]
          omega
        rw [if_neg (mt (isOdd_ofInt exponent).mp odd), isEven.neg_one_pow]
        rfl
  · rw [if_neg (mt (isUnit_ofInt x).mp unit), if_neg exponentSign.ne, if_pos exponentSign,
      if_neg unit, ofInt_zero]
    by_cases isZero : x = 0
    · rw [if_pos ((ofInt_s_eq_zero x).mpr isZero), if_pos isZero]
    · rw [if_neg (mt (ofInt_s_eq_zero x).mp isZero), if_neg isZero]

/-- Powers and moved decimal points are those of the integers, with the same refusals, and the loop
over the bits of an exponent that is accepted ends. -/
theorem powers_refine :
    (∀ x n : Int, (ofInt x).exp10 n = (JSBigInt.exp10 x n).map ofInt) ∧
    (∀ (x : Int) (exponent : Nat),
      (ofInt x).pow (ofInt exponent) = (JSBigInt.pow x exponent).map (some ∘ ofInt)) ∧
    (∀ x exponent : Int, exponent < 0 → (ofInt x).pow (ofInt exponent) =
      if x = 0 then .error "Divide by zero"
      else .ok (some (ofInt (if x.natAbs = 1 then x ^ exponent.natAbs else 0)))) :=
  ⟨exp10_ofInt, pow_ofInt, fun x _ negative => pow_negative x negative⟩

end LightWallet.Frontend.BigInteger
