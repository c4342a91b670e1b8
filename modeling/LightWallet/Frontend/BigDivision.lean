/-
This file models how the scripts divide big integers and proves that quotient and
remainder are those of division that is cut towards zero.

A digit of the quotient is guessed from the two highest digits of either number, with a
quotient of doubles that is rounded up, and lowered until its multiple of the divisor fits.
Rounding cannot push the guess below the digit.
-/

import LightWallet.Frontend.BigProducts

namespace LightWallet.Frontend.BigInteger

open Limbs (Below LowBelow Trimmed)

/-! ### Dividing by one digit -/

/-- The loop of `divRemSmall` over the digits, the highest first. What `diff` holds in the end is
the remainder. -/
def divideDigits (n : Nat) : List Nat → Nat → Nat → List Nat × Nat
  | [], _, diff => ([], diff)
  | digit :: lower, part, diff =>
    let part := Doubles.add (Doubles.mul part bigIntegerBase) digit
    if part < n then
      let rest := divideDigits n lower part (Doubles.add (Doubles.mul bigIntegerBase diff) part)
      (0 :: rest.1, rest.2)
    else
      let guess := if part = 0 then 0 else Doubles.divInt32 part n
      let diff := part - Doubles.mul n guess
      let rest := divideDigits n lower (if guess = 0 then part else diff) diff
      (guess :: rest.1, rest.2)

/-- `divRemSmall`. -/
def divRemSmall (x : BigInteger) (n : Int) : Except String (BigInteger × BigInteger) :=
  if n = 0 then .error "Divide by zero"
  else
    let sign := x.s * (if n < 0 then -1 else 1)
    let n := n.natAbs
    if n < 1 ∨ bigIntegerBase ≤ n then .error "Argument out of range"
    else if x.s = 0 then .ok (zero, zero)
    else if n = 1 then .ok (if sign = 1 then x.abs else construct x.d sign, zero)
    else
      match x.d with
      | [single] =>
        let q := construct [Doubles.divInt32 single n] 1
        let r := construct [single % n] 1
        .ok (if sign < 0 then q.negate else q, if x.s < 0 then r.negate else r)
      | _ =>
        let (quot, diff) := divideDigits n x.d.reverse 0 0
        let r := construct [diff] 1
        .ok (construct quot.reverse sign, if x.s < 0 then r.negate else r)

/-! ### Dividing -/

/-- The number of the two highest digits. -/
def highDigits (d : List Nat) : Nat :=
  Doubles.add (Doubles.mul (d.getD (d.length - 1) 0) bigIntegerBase) (d.getD (d.length - 2) 0)

/-- The first guess at a digit of the quotient. -/
def firstGuess (part a : List Nat) : Nat :=
  let highx := highDigits part
  let highx :=
    if a.length < part.length then Doubles.mul (Doubles.add highx 1) bigIntegerBase else highx
  Doubles.ceilDiv highx (highDigits a)

/-- The guess is lowered until `check`, its multiple of the divisor, is no larger than `part`. -/
def lowerGuess (a part : BigInteger) : Nat → Nat × BigInteger
  | 0 => (0, a.multiplySingleDigit 0)
  | guess + 1 =>
    let check := a.multiplySingleDigit (guess + 1)
    if check.compareAbs part ≤ 0 then (guess + 1, check)
    else if guess = 0 then (guess, check)
    else lowerGuess a part guess

/-- The loop of `divRem` over the digits, the highest first. -/
def divideParts (n a : BigInteger) : List Nat → List Nat → List Nat × List Nat
  | [], part => ([], part)
  | digit :: lower, part =>
    let part := construct (digit :: part) 1
    if part.compareAbs n < 0 then
      let rest := divideParts n a lower part.d
      (0 :: rest.1, rest.2)
    else
      let (guess, check) := lowerGuess a part (if part.s = 0 then 0 else firstGuess part.d a.d)
      let rest := divideParts n a lower (if guess = 0 then part.d else (part.subtract check).d)
      (guess :: rest.1, rest.2)

/-- `divRem`. -/
def divRem (x n : BigInteger) : Except String (BigInteger × BigInteger) :=
  if n.s = 0 then .error "Divide by zero"
  else if x.s = 0 then .ok (zero, zero)
  else if n.d.length = 1 then x.divRemSmall (n.s * n.d.headD 0)
  else if x.compareAbs n = 0 then .ok (if x.s = n.s then one else minusOne, zero)
  else if x.compareAbs n = -1 then .ok (zero, x)
  else
    let (quot, part) := divideParts n n.abs x.d.reverse []
    .ok (construct quot.reverse (x.s * n.s), construct part x.s)

/-- `quotient`. -/
def quotient (x n : BigInteger) : Except String BigInteger := (x.divRem n).map Prod.fst

/-- `remainder`. -/
def remainder (x n : BigInteger) : Except String BigInteger := (x.divRem n).map Prod.snd

/-! ### One digit -/

/-- The loop is long division. Whenever a digit of the quotient is zero, `part` was so before, so
that `diff` does not take up anything twice. -/
theorem divideDigits_eq {n : Nat} (divisor : n < bigIntegerBase) {digits : List Nat}
    (below : Below bigIntegerBase digits) {part : Nat} (small : part < n) :
    divideDigits n digits part part = Limbs.longDivision bigIntegerBase n digits part := by
  induction digits generalizing part with
  | nil => rfl
  | cons digit lower inductionHypothesis =>
    obtain ⟨digitBelow, lowerBelow⟩ := Limbs.below_cons.mp below
    have positive : 0 < n := Nat.zero_lt_of_lt small
    have bounded : bigIntegerBase * part + digit < bigIntegerBase * n :=
      calc bigIntegerBase * part + digit < bigIntegerBase * part + bigIntegerBase :=
            Nat.add_lt_add_left digitBelow _
        _ = bigIntegerBase * (part + 1) := (Nat.mul_succ _ part).symm
        _ ≤ bigIntegerBase * n := Nat.mul_le_mul_left bigIntegerBase small
    have fits : bigIntegerBase * part + digit < 2 ^ 53 :=
      (bounded.trans (Nat.mul_lt_mul_of_pos_left divisor (by decide))).trans (by decide)
    have read : Doubles.add (Doubles.mul part bigIntegerBase) digit =
        bigIntegerBase * part + digit := by
      rw [Nat.mul_comm] at fits ⊢
      rw [Doubles.mul_eq ((Nat.le_add_right _ digit).trans_lt fits), Doubles.add_eq fits]
    have next := inductionHypothesis lowerBelow
      (Nat.mod_lt (bigIntegerBase * part + digit) positive)
    rw [divideDigits, Limbs.longDivision, read]
    dsimp only
    by_cases less : bigIntegerBase * part + digit < n
    · have isZero : part = 0 := by
        by_contra some
        have much := Nat.le_mul_of_pos_right bigIntegerBase (Nat.pos_of_ne_zero some)
        omega
      rw [Nat.mod_eq_of_lt less, isZero, Nat.mul_zero, Nat.zero_add] at next
      rw [isZero, Nat.mul_zero, Nat.zero_add] at fits less
      have kept : Doubles.add (Doubles.mul bigIntegerBase 0) digit = digit := by
        rw [Doubles.mul_eq (by decide), Doubles.add_eq (by omega), Nat.mul_zero, Nat.zero_add]
      rw [isZero, Nat.mul_zero, Nat.zero_add, if_pos less, kept, Nat.div_eq_of_lt less,
        Nat.mod_eq_of_lt less, next]
    · have reached := Nat.not_lt.mp less
      have digitBound : (bigIntegerBase * part + digit) / n < bigIntegerBase := by
        rwa [Nat.div_lt_iff_lt_mul positive]
      have quotientEq := Doubles.divInt32_eq positive fits (digitBound.trans (by decide))
      have some : (bigIntegerBase * part + digit) / n ≠ 0 :=
        (Nat.div_pos reached positive).ne'
      have product : n * ((bigIntegerBase * part + digit) / n) < 2 ^ 53 :=
        (Nat.mul_div_le _ n).trans_lt fits
      rw [if_neg less, if_neg (by omega), quotientEq, if_neg some, Doubles.mul_eq product,
        ← Nat.mod_eq_sub_mul_div, next]

/-- Division that is cut towards zero, by magnitudes and signs. -/
theorem tdiv_eq (first second : Int) : first.tdiv second =
    first.sign * second.sign * ((first.natAbs / second.natAbs : Nat) : Int) := by
  have magnitude : (first.tdiv second).natAbs = first.natAbs / second.natAbs :=
    Int.natAbs_tdiv first second
  rw [← Int.sign_mul_natAbs (first.tdiv second), Int.sign_tdiv, magnitude]
  split
  · next less => rw [Nat.div_eq_of_lt less, Nat.cast_zero, Int.mul_zero, Int.mul_zero]
  · rfl

theorem tmod_eq (first second : Int) : first.tmod second =
    first.sign * ((first.natAbs % second.natAbs : Nat) : Int) := by
  rw [← Int.sign_mul_natAbs (first.tmod second), Int.sign_tmod, Int.natAbs_tmod]
  split
  · next divides =>
    rw [Nat.mod_eq_zero_of_dvd (Int.natAbs_dvd_natAbs.mpr divides), Nat.cast_zero, Int.mul_zero,
      Int.mul_zero]
  · rfl

/-- What remains has the sign of the number. -/
theorem signed_remainder {x : Int} (isSign : IsSign x.sign) (magnitude : Nat) :
    (if x.sign < 0 then (ofInt magnitude).negate else ofInt magnitude) =
      ofInt (x.sign * magnitude) := by
  rcases isSign with positive | negative
  · rw [positive, if_neg (by decide), one_mul]
  · rw [negative, if_pos (by decide), negate_ofInt, neg_one_mul]

/-- Division by one digit is the integers'. -/
theorem divRemSmall_ofInt (x y : Int) (some : y ≠ 0) (small : y.natAbs < bigIntegerBase) :
    (ofInt x).divRemSmall y = .ok (ofInt (x.tdiv y), ofInt (x.tmod y)) := by
  have positive := Int.natAbs_pos.mpr some
  have otherSign : (if y < 0 then -1 else 1 : Int) = y.sign := by
    split
    · next negative => rw [Int.sign_eq_neg_one_of_neg negative]
    · next notNegative => rw [Int.sign_eq_one_of_pos (by omega)]
  unfold divRemSmall
  rw [if_neg some, otherSign]
  dsimp only
  rw [if_neg (by omega), ofInt_s]
  by_cases isZero : x = 0
  · rw [isZero, if_pos Int.sign_zero, Int.zero_tdiv, Int.zero_tmod, ofInt_zero]
  rw [if_neg (mt Int.sign_eq_zero_iff_zero.mp isZero)]
  have isSign := isSign_sign isZero
  have products := isSign_mul isSign (isSign_sign some)
  have below := below_ofInt x
  have value : Nat.ofDigits bigIntegerBase (ofInt x).d = x.natAbs := ofDigits_ofInt x
  rw [tdiv_eq, tmod_eq]
  by_cases isOne : y.natAbs = 1
  · rw [if_pos isOne, isOne, Nat.div_one, Nat.mod_one, Nat.cast_zero, Int.mul_zero, ofInt_zero]
    split
    · next plus => rw [plus, one_mul, abs_ofInt]
    · rw [construct_ofInt x products]
  rw [if_neg isOne]
  split
  · next single same =>
    rw [same, Nat.ofDigits_singleton] at value
    rw [same] at below
    have digit := (Limbs.below_cons.mp below).1
    have fits : single / y.natAbs < bigIntegerBase := (Nat.div_le_self _ _).trans_lt digit
    have rest : single % y.natAbs < bigIntegerBase := (Nat.mod_le _ _).trans_lt digit
    rw [Doubles.divInt32_eq positive (digit.trans (by decide)) (fits.trans (by decide)), value]
    rw [value] at fits rest
    have quotientIs : construct [x.natAbs / y.natAbs] 1 = ofInt (x.natAbs / y.natAbs : Nat) :=
      small_eq fits
    have remainderIs : construct [x.natAbs % y.natAbs] 1 = ofInt (x.natAbs % y.natAbs : Nat) :=
      small_eq rest
    rw [quotientIs, remainderIs, signed_remainder isSign]
    congr 2
    rcases products with plus | minus
    · rw [plus, if_neg (by decide), one_mul]
    · rw [minus, if_pos (by decide), negate_ofInt, neg_one_mul]
  · have reversed : Below bigIntegerBase (ofInt x).d.reverse := fun limb member =>
      below limb (List.mem_reverse.mp member)
    obtain ⟨quotientBelow, quotientValue, rest⟩ :=
      Limbs.longDivision_digits large positive x.natAbs
    have digits : (ofInt x).d = Nat.digits bigIntegerBase x.natAbs := rfl
    rw [← digits] at quotientBelow quotientValue rest
    rw [divideDigits_eq small reversed positive]
    have restBelow : x.natAbs % y.natAbs < bigIntegerBase := (Nat.mod_lt _ positive).trans small
    have remainderIs : construct [x.natAbs % y.natAbs] 1 = ofInt (x.natAbs % y.natAbs : Nat) :=
      small_eq restBelow
    rw [rest, remainderIs, signed_remainder isSign, construct_eq quotientBelow products,
      quotientValue]

/-! ### Several digits -/

theorem high_lt {number places : Nat}
    (length : (Nat.digits bigIntegerBase number).length = places + 2) :
    number / bigIntegerBase ^ places < bigIntegerBase * bigIntegerBase := by
  have room := Nat.lt_base_pow_length_digits (m := number) large
  rw [length] at room
  rw [Nat.div_lt_iff_lt_mul (Nat.pow_pos (by decide)), Nat.mul_assoc, ← Nat.pow_succ',
    ← Nat.pow_succ']
  exact room

theorem highDigits_eq {number places : Nat}
    (length : (Nat.digits bigIntegerBase number).length = places + 2) :
    highDigits (Nat.digits bigIntegerBase number) = number / bigIntegerBase ^ places := by
  have high := Limbs.highLimbs_eq large length
  have fits : number / bigIntegerBase ^ places < 2 ^ 53 := (high_lt length).trans (by decide)
  unfold highDigits
  rw [length, Nat.add_sub_cancel, show places + 2 - 1 = places + 1 from rfl]
  rw [← high] at fits ⊢
  rw [Doubles.mul_eq ((Nat.le_add_right _ _).trans_lt fits), Doubles.add_eq fits]

/-- The number of the two highest digits, moved up by one place, no longer fits 53 bits. -/
theorem mul_base_error {number : Nat} (bound : number ≤ bigIntegerBase * bigIntegerBase) :
    Doubles.mul number bigIntegerBase ≤ number * bigIntegerBase + 111024 ∧
      number * bigIntegerBase ≤ Doubles.mul number bigIntegerBase + 111024 := by
  have error := abs_le.mp (Doubles.abs_mul_sub_le number bigIntegerBase)
  have product : number * bigIntegerBase ≤ bigIntegerBase * bigIntegerBase * bigIntegerBase :=
    Nat.mul_le_mul_right _ bound
  have cast : (number : ℚ) * (bigIntegerBase : Nat) ≤ 10 ^ 21 := by
    have whole : bigIntegerBase * bigIntegerBase * bigIntegerBase = 10 ^ 21 := by decide
    rw [whole] at product
    exact_mod_cast product
  have slack : (number : ℚ) * (bigIntegerBase : Nat) / 2 ^ 53 + 1 ≤ 111024 := by
    have less : (number : ℚ) * (bigIntegerBase : Nat) / 2 ^ 53 ≤ 10 ^ 21 / 2 ^ 53 :=
      div_le_div_of_nonneg_right cast (by norm_num)
    have value : (10 : ℚ) ^ 21 / 2 ^ 53 ≤ 111023 := by norm_num
    linarith
  constructor
  · have above : (Doubles.mul number bigIntegerBase : ℚ) ≤
        ((number * bigIntegerBase + 111024 : Nat) : ℚ) := by
      push_cast
      linarith [error.2]
    exact_mod_cast above
  · have below : ((number * bigIntegerBase : Nat) : ℚ) ≤
        ((Doubles.mul number bigIntegerBase + 111024 : Nat) : ℚ) := by
      push_cast
      linarith [error.1]
    exact_mod_cast below

section Guess

variable {divisor part : Nat}

/-- The digit of the quotient, by the highest digits of the divisor. -/
theorem digit_mul_high_le (places : Nat) :
    part / divisor * (divisor / bigIntegerBase ^ places) * bigIntegerBase ^ places ≤ part :=
  calc part / divisor * (divisor / bigIntegerBase ^ places) * bigIntegerBase ^ places
      = part / divisor * (divisor / bigIntegerBase ^ places * bigIntegerBase ^ places) :=
        Nat.mul_assoc _ _ _
    _ ≤ part / divisor * divisor := Nat.mul_le_mul_left _ (Nat.div_mul_le_self _ _)
    _ ≤ part := Nat.div_mul_le_self _ _

/-- The guess is at least the digit, and at most the base and two. -/
theorem firstGuess_spec (several : bigIntegerBase ≤ divisor) (reaches : divisor ≤ part)
    (small : part < bigIntegerBase * divisor) :
    part / divisor ≤ firstGuess (Nat.digits bigIntegerBase part)
        (Nat.digits bigIntegerBase divisor) ∧
      firstGuess (Nat.digits bigIntegerBase part) (Nat.digits bigIntegerBase divisor) ≤
        bigIntegerBase + 2 := by
  have positive : 0 < divisor := Nat.lt_of_lt_of_le (by decide) several
  have two : 1 < (Nat.digits bigIntegerBase divisor).length :=
    (Nat.lt_digits_length_iff large divisor).mpr (by rwa [pow_one])
  obtain ⟨places, length⟩ := Nat.exists_eq_add_of_le' two
  have atLeast : (Nat.digits bigIntegerBase divisor).length ≤
      (Nat.digits bigIntegerBase part).length := Nat.le_length_digits_le _ _ _ reaches
  have atMost : (Nat.digits bigIntegerBase part).length ≤ places + 3 := by
    refine (Nat.digits_length_le_iff large part).mpr (small.trans_le ?_)
    have room := Nat.lt_base_pow_length_digits (m := divisor) large
    rw [length] at room
    rw [Nat.pow_succ']
    exact Nat.mul_le_mul_left _ room.le
  have highLarge : bigIntegerBase ≤ divisor / bigIntegerBase ^ places := by
    rw [Nat.le_div_iff_mul_le (Nat.pow_pos (by decide)), ← Nat.pow_succ']
    exact (Nat.lt_digits_length_iff large divisor).mp (by omega)
  have highPositive : 0 < divisor / bigIntegerBase ^ places := highLarge.trans_lt' (by decide)
  have digit : part / divisor * (divisor / bigIntegerBase ^ places) * bigIntegerBase ^ places ≤
      part := digit_mul_high_le places
  unfold firstGuess
  rw [highDigits_eq length]
  dsimp only
  by_cases longer : (Nat.digits bigIntegerBase divisor).length <
      (Nat.digits bigIntegerBase part).length
  · have partLength : (Nat.digits bigIntegerBase part).length = places + 1 + 2 := by omega
    rw [if_pos longer, highDigits_eq partLength]
    have belowSquare := high_lt partLength
    have digitLess : part / divisor * (divisor / bigIntegerBase ^ places) <
        (part / bigIntegerBase ^ (places + 1) + 1) * bigIntegerBase := by
      have power : 0 < bigIntegerBase ^ (places + 1) := Nat.pow_pos (by decide)
      have above : part < (part / bigIntegerBase ^ (places + 1) + 1) * bigIntegerBase *
          bigIntegerBase ^ places :=
        calc part < bigIntegerBase ^ (places + 1) * (part / bigIntegerBase ^ (places + 1) + 1) :=
              Nat.lt_mul_div_succ part power
          _ = _ := by ring
      exact Nat.lt_of_mul_lt_mul_right (digit.trans_lt above)
    have highLess : part / bigIntegerBase ^ (places + 1) ≤ divisor / bigIntegerBase ^ places := by
      rw [Nat.pow_succ', ← Nat.div_div_eq_div_mul]
      refine Nat.div_le_div_right (Nat.lt_succ_iff.mp ?_)
      rw [Nat.div_lt_iff_lt_mul (by decide), Nat.mul_comm]
      exact small.trans (Nat.mul_lt_mul_of_pos_left (Nat.lt_succ_self _) (by decide))
    generalize part / bigIntegerBase ^ (places + 1) = highx at belowSquare digitLess highLess ⊢
    generalize divisor / bigIntegerBase ^ places = highy at *
    have exact : Doubles.add highx 1 = highx + 1 :=
      Doubles.add_eq (Nat.lt_of_le_of_lt (Nat.succ_le_of_lt belowSquare) (by decide))
    obtain ⟨errorAbove, errorBelow⟩ := mul_base_error (Nat.succ_le_of_lt belowSquare)
    rw [exact]
    generalize Doubles.mul (highx + 1) bigIntegerBase = moved at errorAbove errorBelow ⊢
    have bounded : (highx + 1) * bigIntegerBase ≤ bigIntegerBase * highy + bigIntegerBase := by
      rw [Nat.mul_comm, ← Nat.mul_succ]
      exact Nat.mul_le_mul_left _ (Nat.succ_le_succ highLess)
    refine ⟨Doubles.le_ceilDiv highPositive ?_ ?_,
      @Doubles.ceilDiv_le _ _ (bigIntegerBase + 1) highPositive ?_ ?_⟩
    all_goals unfold bigIntegerBase at *; omega
  · have partLength : (Nat.digits bigIntegerBase part).length = places + 2 := by omega
    rw [if_neg longer, highDigits_eq partLength]
    have belowSquare := high_lt partLength
    have digitLess : part / divisor * (divisor / bigIntegerBase ^ places) ≤
        part / bigIntegerBase ^ places :=
      (Nat.le_div_iff_mul_le (Nat.pow_pos (by decide))).mpr digit
    generalize part / bigIntegerBase ^ places = highx at belowSquare digitLess ⊢
    generalize divisor / bigIntegerBase ^ places = highy at *
    refine ⟨Doubles.le_ceilDiv highPositive ?_ ?_,
      (@Doubles.ceilDiv_le _ _ bigIntegerBase highPositive ?_ ?_).trans (Nat.le_succ _)⟩
    all_goals unfold bigIntegerBase at *; omega

theorem length_part_le (small : part < bigIntegerBase * divisor) :
    (Nat.digits bigIntegerBase part).length ≤ (Nat.digits bigIntegerBase divisor).length + 1 := by
  refine (Nat.digits_length_le_iff large part).mpr (small.trans_le ?_)
  rw [Nat.pow_succ']
  exact Nat.mul_le_mul_left _ (Nat.lt_base_pow_length_digits large).le

/-- A multiple that is not written with digits below the base still compares as it should. -/
theorem compareAbs_check {n : Nat} (factor : n ≤ bigIntegerBase + 2) (some : 0 < n)
    (positive : 0 < divisor) (reaches : divisor ≤ part) (small : part < bigIntegerBase * divisor) :
    ((ofInt divisor).multiplySingleDigit n).compareAbs (ofInt part) =
      (((n * divisor : Nat) : Int) - part).sign := by
  obtain ⟨digits, same, low, value, _, room⟩ := multiplySingleDigit_spec divisor factor
  have partNonzero : (part : Int) ≠ 0 := by omega
  have nonempty : Limbs.trim digits ≠ [] := by
    intro empty
    have none : Nat.ofDigits bigIntegerBase (Limbs.trim digits) =
        Nat.ofDigits bigIntegerBase digits := Limbs.ofDigits_trim digits
    rw [empty, value, Nat.ofDigits_nil] at none
    exact (Nat.mul_pos some positive).ne none
  have d : (construct digits 1).d = Limbs.trim digits := rfl
  have s : (construct digits 1).s = 1 := by
    unfold construct
    dsimp only
    rw [if_neg nonempty, if_neg (by decide)]
  have fits : Below bigIntegerBase (Limbs.trim digits) ∨
      (ofInt part).d.length ≤ (Limbs.trim digits).length := by
    rcases room with below | length
    · exact .inl below.trim
    · rcases low.below_or_trimmed (by decide) with below | trimmed
      · exact .inl below.trim
      · right
        rw [Limbs.trim_of_trimmed trimmed, length]
        exact length_part_le small
  rw [same, compareAbs_eq (by rw [s]; decide) (mt (ofInt_s_eq_zero part).mp partNonzero)
    (d ▸ low.trim) (below_ofInt part) (d ▸ Limbs.trimmed_trim digits) (trimmed_ofInt part)
    (d ▸ nonempty) (mt (ofInt_d_eq_nil part).mp partNonzero) (d ▸ fits), d, Limbs.ofDigits_trim,
    value, ofDigits_ofInt, Int.natAbs_natCast]

/-- A guess that is large enough is lowered to the digit of the quotient. -/
theorem lowerGuess_spec (positive : 0 < divisor) (reaches : divisor ≤ part)
    (small : part < bigIntegerBase * divisor) {guess : Nat} (factor : guess ≤ bigIntegerBase + 2)
    (enough : part / divisor ≤ guess) :
    lowerGuess (ofInt divisor) (ofInt part) guess =
      (part / divisor, ofInt ((part / divisor * divisor : Nat) : Int)) := by
  have some : 0 < part / divisor := Nat.div_pos reaches positive
  induction guess with
  | zero => omega
  | succ guess inductionHypothesis =>
    rw [lowerGuess, compareAbs_check factor (Nat.succ_pos guess) positive reaches small]
    by_cases fits : (guess + 1) * divisor ≤ part
    · have digit : part / divisor = guess + 1 :=
        Nat.le_antisymm enough ((Nat.le_div_iff_mul_le positive).mpr fits)
      have below : guess + 1 < bigIntegerBase := by
        rw [← digit, Nat.div_lt_iff_lt_mul positive]
        exact small
      rw [if_pos (Int.sign_nonpos_iff.mpr (by omega)), multiplySingleDigit_ofInt divisor below,
        digit]
    · have lower : part / divisor ≤ guess :=
        Nat.lt_succ_iff.mp ((Nat.div_lt_iff_lt_mul positive).mpr (Nat.not_le.mp fits))
      rw [if_neg (by rw [Int.sign_nonpos_iff]; omega), if_neg (by omega)]
      exact inductionHypothesis ((Nat.le_succ guess).trans factor) lower

end Guess

/-- The loop is long division. -/
theorem divideParts_eq {n : Int} (several : bigIntegerBase ≤ n.natAbs) {digits : List Nat}
    (below : Below bigIntegerBase digits) {part : Nat} (small : part < n.natAbs) :
    divideParts (ofInt n) (ofInt n.natAbs) digits (ofInt part).d =
      ((Limbs.longDivision bigIntegerBase n.natAbs digits part).1,
        (ofInt (Limbs.longDivision bigIntegerBase n.natAbs digits part).2).d) := by
  induction digits generalizing part with
  | nil => rfl
  | cons digit lower inductionHypothesis =>
    obtain ⟨digitBelow, lowerBelow⟩ := Limbs.below_cons.mp below
    have positive : 0 < n.natAbs := Nat.zero_lt_of_lt small
    have read : construct (digit :: (ofInt part).d) 1 =
        ofInt ((bigIntegerBase * part + digit : Nat) : Int) := by
      rw [construct_eq (Limbs.below_cons.mpr ⟨digitBelow, below_ofInt part⟩) (.inl rfl), one_mul,
        Nat.ofDigits_cons, ofDigits_ofInt, Int.natAbs_natCast, Nat.add_comm]
    have bounded : bigIntegerBase * part + digit < bigIntegerBase * n.natAbs :=
      calc bigIntegerBase * part + digit < bigIntegerBase * part + bigIntegerBase :=
            Nat.add_lt_add_left digitBelow _
        _ = bigIntegerBase * (part + 1) := (Nat.mul_succ _ part).symm
        _ ≤ bigIntegerBase * n.natAbs := Nat.mul_le_mul_left bigIntegerBase small
    have next := inductionHypothesis lowerBelow
      (Nat.mod_lt (bigIntegerBase * part + digit) positive)
    rw [divideParts, Limbs.longDivision, read, compareAbs_ofInt, Int.natAbs_natCast]
    dsimp only
    generalize bigIntegerBase * part + digit = whole at bounded next ⊢
    by_cases less : whole < n.natAbs
    · rw [Nat.mod_eq_of_lt less] at next ⊢
      rw [if_pos (Int.sign_neg_iff.mpr (by omega)), next, Nat.div_eq_of_lt less]
    · have reaches := Nat.not_lt.mp less
      have wholeNonzero : (whole : Int) ≠ 0 := by omega
      obtain ⟨enough, factor⟩ := firstGuess_spec several reaches bounded
      have digits := lowerGuess_spec positive reaches bounded factor enough
      have guessIs : firstGuess (ofInt whole).d (ofInt n.natAbs).d =
          firstGuess (Nat.digits bigIntegerBase whole) (Nat.digits bigIntegerBase n.natAbs) := rfl
      have some : whole / n.natAbs ≠ 0 := (Nat.div_pos reaches positive).ne'
      have rest : (whole : Int) - ((whole / n.natAbs * n.natAbs : Nat) : Int) =
          ((whole % n.natAbs : Nat) : Int) := by
        have parts := Nat.div_add_mod' whole n.natAbs
        omega
      rw [if_neg (by rw [Int.sign_neg_iff]; omega),
        if_neg (mt (ofInt_s_eq_zero whole).mp wholeNonzero), guessIs, digits]
      dsimp only
      rw [if_neg some, subtract_ofInt, rest, next]

theorem digits_single {y : Int} (single : (ofInt y).d.length = 1) :
    y.natAbs < bigIntegerBase ∧ (ofInt y).s * (ofInt y).d.headD 0 = y := by
  have below := below_ofInt y
  have value : Nat.ofDigits bigIntegerBase (ofInt y).d = y.natAbs := ofDigits_ofInt y
  obtain ⟨digit, same⟩ := List.length_eq_one_iff.mp single
  rw [same] at below value ⊢
  rw [Nat.ofDigits_singleton] at value
  rw [List.headD_cons, value, ofInt_s, Int.sign_mul_natAbs, ← value]
  exact ⟨(Limbs.below_cons.mp below).1, rfl⟩

/-- With several digits, the loop makes out quotient and remainder. -/
theorem divideParts_ofInt (x : Int) {y : Int} (several : bigIntegerBase ≤ y.natAbs)
    (isSign : IsSign x.sign) (otherSign : IsSign y.sign) :
    construct (divideParts (ofInt y) (ofInt y).abs (ofInt x).d.reverse []).1.reverse
        (x.sign * y.sign) = ofInt (x.tdiv y) ∧
      construct (divideParts (ofInt y) (ofInt y).abs (ofInt x).d.reverse []).2 x.sign =
        ofInt (x.tmod y) := by
  have positive : 0 < y.natAbs := several.trans_lt' (by decide)
  have reversed : Below bigIntegerBase (ofInt x).d.reverse := fun limb member =>
    below_ofInt x limb (List.mem_reverse.mp member)
  have nothing : (ofInt ((0 : Nat) : Int)).d = [] := congrArg BigInteger.d ofInt_zero
  have parts := divideParts_eq several reversed positive
  rw [nothing] at parts
  obtain ⟨quotientBelow, quotientValue, rest⟩ := Limbs.longDivision_digits large positive x.natAbs
  have digits : (ofInt x).d = Nat.digits bigIntegerBase x.natAbs := rfl
  rw [← digits] at quotientBelow quotientValue rest
  rw [abs_ofInt, parts, rest, tdiv_eq, tmod_eq]
  constructor
  · rw [construct_eq quotientBelow (isSign_mul isSign otherSign), quotientValue]
  · rw [construct_ofInt _ isSign, Int.natAbs_natCast]

/-- Quotient and remainder are the integers', cut towards zero. Division by zero throws. -/
theorem divRem_ofInt (x y : Int) :
    (ofInt x).divRem (ofInt y) =
      if y = 0 then .error "Divide by zero" else .ok (ofInt (x.tdiv y), ofInt (x.tmod y)) := by
  unfold divRem
  by_cases otherZero : y = 0
  · rw [if_pos ((ofInt_s_eq_zero y).mpr otherZero), if_pos otherZero]
  rw [if_neg (mt (ofInt_s_eq_zero y).mp otherZero), if_neg otherZero]
  by_cases isZero : x = 0
  · rw [if_pos ((ofInt_s_eq_zero x).mpr isZero), isZero, Int.zero_tdiv, Int.zero_tmod, ofInt_zero]
  rw [if_neg (mt (ofInt_s_eq_zero x).mp isZero)]
  have isSign := isSign_sign isZero
  have otherSign := isSign_sign otherZero
  by_cases single : (ofInt y).d.length = 1
  · obtain ⟨small, whole⟩ := digits_single single
    rw [if_pos single, whole, divRemSmall_ofInt x y otherZero small]
  rw [if_neg single, compareAbs_ofInt]
  have positive := Int.natAbs_pos.mpr otherZero
  have several : bigIntegerBase ≤ y.natAbs := by
    have some := mt (ofInt_d_eq_nil y).mp otherZero
    have length := List.length_pos_iff.mpr some
    have two : 1 < (Nat.digits bigIntegerBase y.natAbs).length := by
      have same : (ofInt y).d.length = (Nat.digits bigIntegerBase y.natAbs).length := rfl
      omega
    have reaches := (Nat.lt_digits_length_iff large y.natAbs).mp two
    rwa [pow_one] at reaches
  rcases Nat.lt_trichotomy x.natAbs y.natAbs with less | same | more
  · rw [Int.sign_eq_neg_one_of_neg (by omega), if_neg (by decide), if_pos rfl, tdiv_eq, tmod_eq,
      Nat.div_eq_of_lt less, Nat.mod_eq_of_lt less, Nat.cast_zero, Int.mul_zero, ofInt_zero,
      Int.sign_mul_natAbs]
  · rw [same, Int.sub_self, Int.sign_zero, if_pos rfl, tdiv_eq, tmod_eq, same,
      Nat.div_self positive, Nat.mod_self, Nat.cast_zero, Int.mul_zero, ofInt_zero, Nat.cast_one,
      mul_one, ofInt_s, ofInt_s]
    congr 2
    rcases isSign with first | first <;> rcases otherSign with second | second <;>
      rw [first, second] <;> rfl
  · rw [Int.sign_eq_one_of_pos (by omega), if_neg (by decide), if_neg (by decide)]
    obtain ⟨quotientIs, remainderIs⟩ := divideParts_ofInt x several isSign otherSign
    exact congrArg Except.ok (Prod.ext quotientIs remainderIs)

/-- Taking quotient and remainder one by one gives the same. -/
theorem quotient_ofInt (x y : Int) : (ofInt x).quotient (ofInt y) =
    if y = 0 then .error "Divide by zero" else .ok (ofInt (x.tdiv y)) := by
  unfold quotient
  rw [divRem_ofInt]
  split <;> rfl

theorem remainder_ofInt (x y : Int) : (ofInt x).remainder (ofInt y) =
    if y = 0 then .error "Divide by zero" else .ok (ofInt (x.tmod y)) := by
  unfold remainder
  rw [divRem_ofInt]
  split <;> rfl

/-- Quotient and remainder, together or one by one, are those of division that is cut towards zero,
for numbers of any length: the guesses, which are rounded, do not show. Zero is refused. -/
theorem divisions_refine (x y : Int) :
    (ofInt x).divRem (ofInt y) =
        (if y = 0 then .error "Divide by zero" else .ok (ofInt (x.tdiv y), ofInt (x.tmod y))) ∧
      (ofInt x).quotient (ofInt y) =
        (if y = 0 then .error "Divide by zero" else .ok (ofInt (x.tdiv y))) ∧
      (ofInt x).remainder (ofInt y) =
        (if y = 0 then .error "Divide by zero" else .ok (ofInt (x.tmod y))) :=
  ⟨divRem_ofInt x y, quotient_ofInt x y, remainder_ofInt x y⟩

end LightWallet.Frontend.BigInteger
