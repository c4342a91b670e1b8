/-
This file models the big integers that the wallet's scripts calculate amounts with, and
proves that they add, subtract and compare as integers do.

A number is an array of digits to the base of ten million, the lowest first, and a sign.
Digits are doubles. Their products and what is carried stay below 53 bits, so that nothing
is rounded, and the quotients by the base are cut to 32 bits without loss.
-/

import LightWallet.Doubles
import LightWallet.Limbs

namespace LightWallet.Frontend

open Limbs (Below LowBelow Trimmed)

/-! ### Numbers -/

/-- `BigInteger_base`. -/
def bigIntegerBase : Nat := 10000000

/-- The digits `_d`, the lowest first, and the sign `_s`. -/
structure BigInteger where
  d : List Nat
  s : Int
  deriving DecidableEq

namespace BigInteger

/-- `new BigInteger(n, s, CONSTRUCT)`. What is dropped at the end of the array is zero, `NaN`, or
was never assigned; the model has a zero for any of these. -/
def construct (n : List Nat) (s : Int) : BigInteger :=
  let d := Limbs.trim n
  ⟨d, if d = [] then 0 else if s = 0 then 1 else s⟩

/-- `ZERO`. -/
def zero : BigInteger := ⟨[], 0⟩

/-- `ONE`. -/
def one : BigInteger := ⟨[1], 1⟩

/-- `M_ONE`. -/
def minusOne : BigInteger := ⟨[1], -1⟩

/-- `BigInteger.small[index]`. -/
def small (index : Nat) : BigInteger := construct [index] 1

/-- `(digit / BigInteger_base) | 0`. -/
def carryOf (digit : Nat) : Nat := Doubles.divInt32 digit bigIntegerBase

/-- `negate`. -/
def negate (x : BigInteger) : BigInteger := construct x.d (-x.s)

/-- `abs`. -/
def abs (x : BigInteger) : BigInteger := if x.s < 0 then x.negate else x

/-- `isUnit`, whatever the sign. -/
def isUnit (x : BigInteger) : Bool := x.d = [1]

/-- `isPositive`. -/
def isPositive (x : BigInteger) : Bool := 0 < x.s

/-- `isNegative`. -/
def isNegative (x : BigInteger) : Bool := x.s < 0

/-- `isZero`. -/
def isZero (x : BigInteger) : Bool := x.s = 0

/-- `isEven`. -/
def isEven (x : BigInteger) : Bool := x.s = 0 || x.d.head?.all (· % 2 = 0)

/-- `isOdd`. -/
def isOdd (x : BigInteger) : Bool := !x.isEven

/-- The lowest digit, as it is. -/
def lowVal (x : BigInteger) : Nat := x.d.headD 0

/-! ### Comparing -/

/-- `compareAbs`. -/
def compareAbs (x n : BigInteger) : Int :=
  if x.s = 0 then (if n.s ≠ 0 then -1 else 0)
  else if n.s = 0 then 1
  else if x.d.length < n.d.length then -1
  else if n.d.length < x.d.length then 1
  else Limbs.compare x.d n.d

/-- `compare`. -/
def compare (x n : BigInteger) : Int :=
  if x.s = 0 then -n.s
  else if x.s = n.s then x.compareAbs n * x.s
  else x.s

/-! ### Adding and subtracting -/

/-- The carry runs through the digits of the longer number, and the others are copied. -/
def addCarry : List Nat → Nat → List Nat
  | [], carry => if carry = 0 then [] else [carry]
  | a :: rest, carry =>
    if carry = 0 then a :: rest
    else
      let digit := Doubles.add a carry
      digit % bigIntegerBase :: addCarry rest (carryOf digit)

/-- The loops of `add`: both operands, then the rest of the longer one. -/
def addDigits : List Nat → List Nat → Nat → List Nat
  | a :: as, b :: bs, carry =>
    let digit := Doubles.add (Doubles.add a b) carry
    digit % bigIntegerBase :: addDigits as bs (carryOf digit)
  | as, [], carry => addCarry as carry
  | [], bs, carry => addCarry bs carry

/-- The borrow runs through the digits of the longer number, and the others are copied. -/
def subtractBorrow : List Nat → Nat → List Nat
  | [], _ => []
  | a :: rest, borrow =>
    if a < borrow then (a + bigIntegerBase - borrow) :: subtractBorrow rest borrow
    else (a - borrow) :: rest

/-- The loops of `subtract`: both operands, then the rest of the longer one. -/
def subtractDigits : List Nat → List Nat → Nat → List Nat
  | a :: as, b :: bs, borrow =>
    if a < borrow + b then (a + bigIntegerBase - (borrow + b)) :: subtractDigits as bs 1
    else (a - (borrow + b)) :: subtractDigits as bs 0
  | as, _, borrow => subtractBorrow as borrow

/-- What `add` does with numbers of one sign. -/
def addSame (x n : BigInteger) : BigInteger := construct (addDigits x.d n.d 0) x.s

/-- What `subtract` does with numbers of one sign. -/
def subtractSame (x n : BigInteger) : BigInteger :=
  let (m, n) := if x.s < 0 then (construct n.d 1, construct x.d 1) else (x, n)
  let sign := m.compareAbs n
  if sign = 0 then zero
  else if sign < 0 then construct (subtractDigits n.d m.d 0) sign
  else construct (subtractDigits m.d n.d 0) sign

/-- Numbers of different signs are handed on to `subtract`, with the second one negated. -/
def add (x n : BigInteger) : BigInteger :=
  if x.s = 0 then n
  else if n.s = 0 then x
  else if x.s ≠ n.s then x.subtractSame n.negate
  else x.addSame n

/-- Numbers of different signs are handed on to `add`, with the second one negated. -/
def subtract (x n : BigInteger) : BigInteger :=
  if x.s = 0 then n.negate
  else if n.s = 0 then x
  else if x.s ≠ n.s then x.addSame n.negate
  else x.subtractSame n

/-! ### The integer of a number -/

/-- The number of an integer. -/
def ofInt (number : Int) : BigInteger :=
  ⟨Nat.digits bigIntegerBase number.natAbs, number.sign⟩

theorem large : 1 < bigIntegerBase := by decide

/-- The sign is one of a number that is not zero. -/
def IsSign (s : Int) : Prop := s = 1 ∨ s = -1

theorem IsSign.neg {s : Int} (sign : IsSign s) : IsSign (-s) := by
  rcases sign with rfl | rfl
  · exact .inr rfl
  · exact .inl rfl

theorem isSign_sign {number : Int} (nonzero : number ≠ 0) : IsSign number.sign := by
  rcases Int.lt_or_gt_of_ne nonzero with negative | positive
  · exact .inr (Int.sign_eq_neg_one_of_neg negative)
  · exact .inl (Int.sign_eq_one_of_pos positive)

theorem ofInt_zero : ofInt 0 = zero := by
  unfold ofInt zero
  rw [Int.natAbs_zero, Nat.digits_zero, Int.sign_zero]

/-- An array of digits with a sign is the number that it is written for. -/
theorem construct_eq {digits : List Nat} {s : Int} (below : Below bigIntegerBase digits)
    (sign : IsSign s) :
    construct digits s = ofInt (s * (Nat.ofDigits bigIntegerBase digits : Nat)) := by
  have same := Limbs.digits_ofDigits_trim large below
  unfold construct ofInt
  dsimp only
  rw [← same]
  generalize Nat.ofDigits bigIntegerBase digits = magnitude
  rcases Nat.eq_zero_or_pos magnitude with rfl | positive
  · simp
  · have some : Nat.digits bigIntegerBase magnitude ≠ [] :=
      Nat.digits_ne_nil_iff_ne_zero.mpr positive.ne'
    rw [if_neg some, if_neg (by rcases sign with rfl | rfl <;> decide)]
    congr 1
    · rcases sign with rfl | rfl <;> simp
    · rcases sign with rfl | rfl
      · rw [one_mul, Int.sign_natCast_of_ne_zero positive.ne']
      · rw [neg_one_mul, Int.sign_neg, Int.sign_natCast_of_ne_zero positive.ne']

section OfInt

variable (x y : Int)

theorem below_ofInt : Below bigIntegerBase (ofInt x).d := Limbs.below_digits large _

theorem trimmed_ofInt : Trimmed (ofInt x).d := Limbs.trimmed_digits bigIntegerBase x.natAbs

@[simp] theorem ofDigits_ofInt : Nat.ofDigits bigIntegerBase (ofInt x).d = x.natAbs :=
  Nat.ofDigits_digits _ _

@[simp] theorem ofInt_s : (ofInt x).s = x.sign := rfl

theorem ofInt_s_eq_zero : (ofInt x).s = 0 ↔ x = 0 := Int.sign_eq_zero_iff_zero

theorem ofInt_s_neg : (ofInt x).s < 0 ↔ x < 0 := Int.sign_neg_iff

theorem ofInt_d_eq_nil : (ofInt x).d = [] ↔ x = 0 := by
  unfold ofInt
  rw [Nat.digits_eq_nil_iff_eq_zero, Int.natAbs_eq_zero]

/-- A number is the integer's only. -/
theorem ofInt_injective : Function.Injective ofInt := by
  intro x y same
  have magnitude := congrArg (fun number => Nat.ofDigits bigIntegerBase number.d) same
  have sign := congrArg BigInteger.s same
  simp only [ofDigits_ofInt] at magnitude
  rw [ofInt_s, ofInt_s] at sign
  rw [← Int.sign_mul_natAbs x, ← Int.sign_mul_natAbs y, magnitude, sign]

theorem construct_ofInt {s : Int} (sign : IsSign s) :
    construct (ofInt x).d s = ofInt (s * x.natAbs) := by
  rw [construct_eq (below_ofInt x) sign, ofDigits_ofInt]

theorem small_eq {index : Nat} (below : index < bigIntegerBase) : small index = ofInt index := by
  unfold small
  rw [construct_eq (Limbs.below_cons.mpr ⟨below, Limbs.below_nil⟩) (.inl rfl)]
  simp

theorem ofInt_one : ofInt 1 = one := by
  unfold ofInt one
  rw [Int.natAbs_one, Nat.digits_of_lt _ _ Nat.one_ne_zero large]
  rfl

theorem negate_ofInt : (ofInt x).negate = ofInt (-x) := by
  unfold negate
  by_cases isZero : x = 0
  · rw [isZero]
    rfl
  · rw [ofInt_s, construct_ofInt x (isSign_sign isZero).neg, neg_mul, Int.sign_mul_natAbs]

theorem abs_ofInt : (ofInt x).abs = ofInt x.natAbs := by
  unfold abs
  rw [negate_ofInt]
  by_cases negative : x < 0
  · rw [if_pos ((ofInt_s_neg x).mpr negative), Int.ofNat_natAbs_of_nonpos negative.le]
  · rw [if_neg (mt (ofInt_s_neg x).mp negative), Int.natAbs_of_nonneg (not_lt.mp negative)]

theorem isUnit_ofInt : (ofInt x).isUnit = true ↔ x.natAbs = 1 := by
  unfold isUnit
  rw [decide_eq_true_iff]
  constructor
  · intro single
    rw [← ofDigits_ofInt, single]
    rfl
  · intro magnitude
    unfold ofInt
    rw [magnitude, Nat.digits_of_lt _ _ Nat.one_ne_zero large]

theorem isPositive_ofInt : (ofInt x).isPositive = true ↔ 0 < x := by
  unfold isPositive
  rw [decide_eq_true_iff, ofInt_s, Int.sign_pos_iff]

theorem isOdd_ofInt : (ofInt x).isOdd = true ↔ x % 2 = 1 := by
  unfold isOdd isEven
  have even : (decide ((ofInt x).s = 0) || (ofInt x).d.head?.all (· % 2 = 0)) = true ↔
      x % 2 = 0 := by
    by_cases isZero : x = 0
    · rw [isZero]
      decide
    · have digits : (ofInt x).d = x.natAbs % bigIntegerBase ::
          Nat.digits bigIntegerBase (x.natAbs / bigIntegerBase) :=
        Nat.digits_def' large (Int.natAbs_pos.mpr isZero)
      rw [digits, ofInt_s]
      simp only [Int.sign_eq_zero_iff_zero, isZero, decide_false, Bool.false_or, List.head?_cons,
        Option.all_some, decide_eq_true_eq]
      rw [Nat.mod_mod_of_dvd _ (by decide : 2 ∣ bigIntegerBase)]
      omega
  rw [Bool.not_eq_true', ← Bool.not_eq_true, even]
  omega

/-! ### Comparing -/

theorem compareAbs_eq {first second : BigInteger} (sign : first.s ≠ 0) (other : second.s ≠ 0)
    (firstLow : LowBelow bigIntegerBase first.d) (below : Below bigIntegerBase second.d)
    (trimmed : Trimmed first.d) (otherTrimmed : Trimmed second.d) (some : first.d ≠ [])
    (otherSome : second.d ≠ [])
    (fits : Below bigIntegerBase first.d ∨ second.d.length ≤ first.d.length) :
    first.compareAbs second = (((Nat.ofDigits bigIntegerBase first.d : Nat) : Int) -
      (Nat.ofDigits bigIntegerBase second.d : Nat)).sign := by
  unfold compareAbs
  rw [if_neg sign, if_neg other]
  rcases Nat.lt_trichotomy first.d.length second.d.length with shorter | same | longer
  · have less := Limbs.ofDigits_lt large (fits.resolve_right (Nat.not_le.mpr shorter))
    have more : bigIntegerBase ^ (second.d.length - 1) ≤ Nat.ofDigits bigIntegerBase second.d :=
      Limbs.le_ofDigits otherTrimmed otherSome
    have between : bigIntegerBase ^ first.d.length ≤ bigIntegerBase ^ (second.d.length - 1) :=
      Nat.pow_le_pow_right large.le (Nat.le_sub_one_of_lt shorter)
    rw [if_pos shorter, Int.sign_eq_neg_one_of_neg (by omega)]
  · rw [if_neg (by omega), if_neg (by omega), Limbs.compare_eq_sign same firstLow below.low]
  · have less := Limbs.ofDigits_lt large below
    have more : bigIntegerBase ^ (first.d.length - 1) ≤ Nat.ofDigits bigIntegerBase first.d :=
      Limbs.le_ofDigits trimmed some
    have between : bigIntegerBase ^ second.d.length ≤ bigIntegerBase ^ (first.d.length - 1) :=
      Nat.pow_le_pow_right large.le (Nat.le_sub_one_of_lt longer)
    rw [if_neg (by omega), if_pos longer, Int.sign_eq_one_of_pos (by omega)]

theorem compareAbs_ofInt :
    (ofInt x).compareAbs (ofInt y) = ((x.natAbs : Int) - y.natAbs).sign := by
  by_cases isZero : x = 0
  · unfold compareAbs
    rw [if_pos ((ofInt_s_eq_zero x).mpr isZero), isZero]
    by_cases otherZero : y = 0
    · rw [if_neg (not_not.mpr ((ofInt_s_eq_zero y).mpr otherZero)), otherZero]
      rfl
    · rw [if_pos (mt (ofInt_s_eq_zero y).mp otherZero), Int.sign_eq_neg_one_of_neg (by omega)]
  · by_cases otherZero : y = 0
    · unfold compareAbs
      rw [if_neg (mt (ofInt_s_eq_zero x).mp isZero), if_pos ((ofInt_s_eq_zero y).mpr otherZero),
        Int.sign_eq_one_of_pos (by omega)]
    · rw [compareAbs_eq (mt (ofInt_s_eq_zero x).mp isZero) (mt (ofInt_s_eq_zero y).mp otherZero)
        (below_ofInt x).low (below_ofInt y) (trimmed_ofInt x) (trimmed_ofInt y)
        (mt (ofInt_d_eq_nil x).mp isZero) (mt (ofInt_d_eq_nil y).mp otherZero)
        (.inl (below_ofInt x)), ofDigits_ofInt, ofDigits_ofInt]

/-- Numbers compare as their integers do. -/
theorem compare_ofInt : (ofInt x).compare (ofInt y) = (x - y).sign := by
  unfold compare
  rw [compareAbs_ofInt]
  by_cases isZero : x = 0
  · rw [if_pos ((ofInt_s_eq_zero x).mpr isZero), isZero, zero_sub, Int.sign_neg]
    rfl
  rw [if_neg (mt (ofInt_s_eq_zero x).mp isZero), ofInt_s, ofInt_s]
  rcases Int.lt_or_gt_of_ne isZero with negative | positive
  · rw [Int.sign_eq_neg_one_of_neg negative]
    rcases lt_trichotomy y 0 with otherNegative | rfl | otherPositive
    · rw [Int.sign_eq_neg_one_of_neg otherNegative, if_pos rfl, mul_neg_one, ← Int.sign_neg]
      congr 1
      omega
    · rw [Int.sign_zero, if_neg (by decide), Int.sign_eq_neg_one_of_neg (by omega)]
    · rw [Int.sign_eq_one_of_pos otherPositive, if_neg (by decide),
        Int.sign_eq_neg_one_of_neg (by omega)]
  · rw [Int.sign_eq_one_of_pos positive]
    rcases lt_trichotomy y 0 with otherNegative | rfl | otherPositive
    · rw [Int.sign_eq_neg_one_of_neg otherNegative, if_neg (by decide),
        Int.sign_eq_one_of_pos (by omega)]
    · rw [Int.sign_zero, if_neg (by decide), Int.sign_eq_one_of_pos (by omega)]
    · rw [Int.sign_eq_one_of_pos otherPositive, if_pos rfl, mul_one]
      congr 1
      omega

end OfInt

/-! ### Adding and subtracting -/

theorem carryOf_eq {digit : Nat} (small : digit < 2 ^ 53) :
    carryOf digit = digit / bigIntegerBase := by
  refine Doubles.divInt32_eq (by decide) small ?_
  unfold bigIntegerBase
  omega

theorem addCarry_spec {digits : List Nat} (below : Below bigIntegerBase digits) {carry : Nat}
    (small : carry ≤ 1) :
    Below bigIntegerBase (addCarry digits carry) ∧
      Nat.ofDigits bigIntegerBase (addCarry digits carry) =
        Nat.ofDigits bigIntegerBase digits + carry := by
  induction digits generalizing carry with
  | nil =>
    unfold addCarry
    split
    · next isZero =>
      rw [isZero]
      exact ⟨Limbs.below_nil, rfl⟩
    · rw [Nat.ofDigits_singleton, Nat.ofDigits_nil, Nat.zero_add]
      exact ⟨Limbs.below_cons.mpr ⟨small.trans_lt large, Limbs.below_nil⟩, rfl⟩
  | cons a rest inductionHypothesis =>
    obtain ⟨aBelow, restBelow⟩ := Limbs.below_cons.mp below
    unfold addCarry
    split
    · next isZero =>
      rw [isZero]
      exact ⟨below, rfl⟩
    · have fits : a + carry < 2 ^ 53 := by
        unfold bigIntegerBase at aBelow
        omega
      have nextSmall : (a + carry) / bigIntegerBase ≤ 1 := by
        unfold bigIntegerBase at aBelow ⊢
        omega
      dsimp only
      rw [Doubles.add_eq fits, carryOf_eq fits]
      obtain ⟨higherBelow, higher⟩ := inductionHypothesis restBelow nextSmall
      refine ⟨Limbs.below_cons.mpr ⟨Nat.mod_lt _ (by decide), higherBelow⟩, ?_⟩
      rw [Nat.ofDigits_cons, Nat.ofDigits_cons, higher]
      have parts := Nat.mod_add_div (a + carry) bigIntegerBase
      rw [Nat.mul_add]
      omega

theorem addDigits_spec {first second : List Nat} (below : Below bigIntegerBase first)
    (otherBelow : Below bigIntegerBase second) {carry : Nat} (small : carry ≤ 1) :
    Below bigIntegerBase (addDigits first second carry) ∧
      Nat.ofDigits bigIntegerBase (addDigits first second carry) =
        Nat.ofDigits bigIntegerBase first + Nat.ofDigits bigIntegerBase second + carry := by
  induction first generalizing second carry with
  | nil =>
    match second with
    | [] => simpa only [addDigits, Nat.ofDigits_nil, Nat.zero_add] using addCarry_spec below small
    | b :: bs =>
      simpa only [addDigits, Nat.ofDigits_nil, Nat.zero_add] using addCarry_spec otherBelow small
  | cons a as inductionHypothesis =>
    match second with
    | [] =>
      simpa only [addDigits, Nat.ofDigits_nil, Nat.add_zero] using addCarry_spec below small
    | b :: bs =>
      obtain ⟨aBelow, asBelow⟩ := Limbs.below_cons.mp below
      obtain ⟨bBelow, bsBelow⟩ := Limbs.below_cons.mp otherBelow
      have fits : a + b + carry < 2 ^ 53 := by
        unfold bigIntegerBase at aBelow bBelow
        omega
      have nextSmall : (a + b + carry) / bigIntegerBase ≤ 1 := by
        unfold bigIntegerBase at aBelow bBelow ⊢
        omega
      unfold addDigits
      dsimp only
      rw [Doubles.add_eq ((Nat.le_add_right (a + b) carry).trans_lt fits), Doubles.add_eq fits,
        carryOf_eq fits]
      obtain ⟨higherBelow, higher⟩ := inductionHypothesis asBelow bsBelow nextSmall
      refine ⟨Limbs.below_cons.mpr ⟨Nat.mod_lt _ (by decide), higherBelow⟩, ?_⟩
      rw [Nat.ofDigits_cons, Nat.ofDigits_cons, Nat.ofDigits_cons, higher]
      have parts := Nat.mod_add_div (a + b + carry) bigIntegerBase
      rw [Nat.mul_add, Nat.mul_add]
      omega

theorem subtractBorrow_spec {digits : List Nat} (below : Below bigIntegerBase digits)
    {borrow : Nat} (small : borrow ≤ 1)
    (enough : borrow ≤ Nat.ofDigits bigIntegerBase digits) :
    Below bigIntegerBase (subtractBorrow digits borrow) ∧
      Nat.ofDigits bigIntegerBase (subtractBorrow digits borrow) + borrow =
        Nat.ofDigits bigIntegerBase digits := by
  induction digits with
  | nil =>
    have none : borrow = 0 := Nat.le_zero.mp enough
    rw [none]
    exact ⟨Limbs.below_nil, rfl⟩
  | cons a rest inductionHypothesis =>
    obtain ⟨aBelow, restBelow⟩ := Limbs.below_cons.mp below
    rw [Nat.ofDigits_cons] at enough
    unfold subtractBorrow
    split
    · next less =>
      have positive : 0 < Nat.ofDigits bigIntegerBase rest := by
        by_contra none
        rw [Nat.eq_zero_of_not_pos none] at enough
        omega
      obtain ⟨higherBelow, higher⟩ := inductionHypothesis restBelow (small.trans positive)
      refine ⟨Limbs.below_cons.mpr ⟨by omega, higherBelow⟩, ?_⟩
      rw [Nat.ofDigits_cons, Nat.ofDigits_cons, ← higher, Nat.mul_add]
      have one : borrow = 1 := by omega
      rw [one, Nat.mul_one]
      omega
    · refine ⟨Limbs.below_cons.mpr ⟨by omega, restBelow⟩, ?_⟩
      rw [Nat.ofDigits_cons, Nat.ofDigits_cons]
      omega

theorem subtractDigits_spec {first second : List Nat} (below : Below bigIntegerBase first)
    (otherBelow : Below bigIntegerBase second) {borrow : Nat} (small : borrow ≤ 1)
    (shorter : second.length ≤ first.length)
    (enough : Nat.ofDigits bigIntegerBase second + borrow ≤ Nat.ofDigits bigIntegerBase first) :
    Below bigIntegerBase (subtractDigits first second borrow) ∧
      Nat.ofDigits bigIntegerBase (subtractDigits first second borrow) +
        (Nat.ofDigits bigIntegerBase second + borrow) = Nat.ofDigits bigIntegerBase first := by
  induction first generalizing second borrow with
  | nil =>
    rw [List.eq_nil_of_length_eq_zero (Nat.le_zero.mp shorter)] at enough ⊢
    rw [Nat.ofDigits_nil, Nat.zero_add] at enough ⊢
    exact subtractBorrow_spec below small enough
  | cons a as inductionHypothesis =>
    match second with
    | [] =>
      rw [Nat.ofDigits_nil, Nat.zero_add] at enough ⊢
      exact subtractBorrow_spec below small enough
    | b :: bs =>
      obtain ⟨aBelow, asBelow⟩ := Limbs.below_cons.mp below
      obtain ⟨bBelow, bsBelow⟩ := Limbs.below_cons.mp otherBelow
      have shorterRest := Nat.le_of_succ_le_succ shorter
      rw [Nat.ofDigits_cons, Nat.ofDigits_cons] at enough
      unfold subtractDigits
      split
      · next less =>
        have more : Nat.ofDigits bigIntegerBase bs + 1 ≤ Nat.ofDigits bigIntegerBase as := by
          by_contra fewer
          have far := Nat.mul_le_mul_left bigIntegerBase (Nat.le_of_lt_succ (not_le.mp fewer))
          omega
        obtain ⟨higherBelow, higher⟩ := inductionHypothesis asBelow bsBelow (le_refl 1)
          shorterRest more
        refine ⟨Limbs.below_cons.mpr ⟨by omega, higherBelow⟩, ?_⟩
        rw [Nat.ofDigits_cons, Nat.ofDigits_cons, Nat.ofDigits_cons, ← higher, Nat.mul_add,
          Nat.mul_add, Nat.mul_one]
        omega
      · next notLess =>
        have more : Nat.ofDigits bigIntegerBase bs + 0 ≤ Nat.ofDigits bigIntegerBase as := by
          by_contra fewer
          have far : bigIntegerBase * Nat.ofDigits bigIntegerBase as + bigIntegerBase ≤
              bigIntegerBase * Nat.ofDigits bigIntegerBase bs :=
            Nat.mul_le_mul_left bigIntegerBase (not_le.mp fewer)
          omega
        obtain ⟨higherBelow, higher⟩ := inductionHypothesis asBelow bsBelow (Nat.zero_le 1)
          shorterRest more
        refine ⟨Limbs.below_cons.mpr ⟨by omega, higherBelow⟩, ?_⟩
        rw [Nat.ofDigits_cons, Nat.ofDigits_cons, Nat.ofDigits_cons, ← higher, Nat.add_zero,
          Nat.mul_add]
        omega

section Sums

variable (x y : Int)

/-- With one sign, the digits are added. -/
theorem addSame_ofInt (isSign : IsSign y.sign) (same : x.sign = y.sign) :
    (ofInt x).addSame (ofInt y) = ofInt (x + y) := by
  obtain ⟨below, magnitude⟩ := addDigits_spec (below_ofInt x) (below_ofInt y) (Nat.zero_le 1)
  unfold addSame
  rw [ofInt_s, same, construct_eq below isSign, magnitude, ofDigits_ofInt, ofDigits_ofInt,
    Nat.add_zero, Nat.cast_add, mul_add, Int.sign_mul_natAbs, ← same, Int.sign_mul_natAbs]

theorem length_le_of_le {first second : Nat} (le : first ≤ second) :
    (Nat.digits bigIntegerBase first).length ≤ (Nat.digits bigIntegerBase second).length :=
  Nat.le_length_digits_le bigIntegerBase first second le

/-- The smaller magnitude is taken from the larger one. -/
theorem subtractMagnitudes {first second : Nat} (sign : Int) (isSign : IsSign sign)
    (le : second ≤ first) :
    construct (subtractDigits (ofInt first).d (ofInt second).d 0) sign =
      ofInt (sign * ((first : Int) - second)) := by
  obtain ⟨below, magnitude⟩ := subtractDigits_spec (below_ofInt first) (below_ofInt second)
    (Nat.zero_le 1) (length_le_of_le le) (by simpa using le)
  rw [construct_eq below isSign]
  simp only [ofDigits_ofInt, Int.natAbs_natCast, Nat.add_zero] at magnitude
  congr 2
  omega

/-- With one sign, the smaller number is taken from the larger one. -/
theorem subtractSame_natCast (first second : Nat) :
    (let sign := (ofInt first).compareAbs (ofInt second)
      if sign = 0 then zero
      else if sign < 0 then construct (subtractDigits (ofInt second).d (ofInt first).d 0) sign
      else construct (subtractDigits (ofInt first).d (ofInt second).d 0) sign) =
      ofInt ((first : Int) - second) := by
  dsimp only
  rw [compareAbs_ofInt, Int.natAbs_natCast, Int.natAbs_natCast]
  rcases Nat.lt_trichotomy first second with less | rfl | more
  · rw [Int.sign_eq_neg_one_of_neg (by omega), if_neg (by decide), if_pos (by decide),
      subtractMagnitudes _ (.inr rfl) less.le]
    congr 1
    ring
  · rw [Int.sub_self, Int.sign_zero, if_pos rfl, ofInt_zero]
  · rw [Int.sign_eq_one_of_pos (by omega), if_neg (by decide), if_neg (by decide),
      subtractMagnitudes _ (.inl rfl) more.le, one_mul]

theorem subtractSame_ofInt (isSign : IsSign y.sign) (same : x.sign = y.sign) :
    (ofInt x).subtractSame (ofInt y) = ofInt (x - y) := by
  unfold subtractSame
  rcases isSign with positive | negative
  · rw [ofInt_s, same, positive, if_neg (by decide)]
    rw [positive] at same
    obtain ⟨first, rfl⟩ := Int.eq_ofNat_of_zero_le (Int.sign_eq_one_iff_pos.mp same).le
    obtain ⟨second, rfl⟩ := Int.eq_ofNat_of_zero_le (Int.sign_eq_one_iff_pos.mp positive).le
    exact subtractSame_natCast first second
  · rw [ofInt_s, same, negative, if_pos (by decide), construct_ofInt _ (.inl rfl),
      construct_ofInt _ (.inl rfl), one_mul, one_mul]
    rw [negative] at same
    refine (subtractSame_natCast y.natAbs x.natAbs).trans ?_
    have firstNegative := Int.sign_eq_neg_one_iff_neg.mp same
    have secondNegative := Int.sign_eq_neg_one_iff_neg.mp negative
    congr 1
    omega

/-- Numbers are added as their integers are. -/
theorem add_ofInt : (ofInt x).add (ofInt y) = ofInt (x + y) := by
  unfold add
  by_cases isZero : x = 0
  · rw [if_pos ((ofInt_s_eq_zero x).mpr isZero), isZero, zero_add]
  rw [if_neg (mt (ofInt_s_eq_zero x).mp isZero)]
  by_cases otherZero : y = 0
  · rw [if_pos ((ofInt_s_eq_zero y).mpr otherZero), otherZero, add_zero]
  rw [if_neg (mt (ofInt_s_eq_zero y).mp otherZero), negate_ofInt, ofInt_s, ofInt_s]
  have isSign := isSign_sign otherZero
  by_cases same : x.sign = y.sign
  · rw [if_neg (not_not.mpr same), addSame_ofInt x y isSign same]
  · have opposite : x.sign = (-y).sign := by
      rw [Int.sign_neg]
      rcases isSign_sign isZero with first | first <;> rcases isSign with second | second <;>
        simp [first, second] at same ⊢
    rw [if_pos same, subtractSame_ofInt x (-y) (by rw [Int.sign_neg]; exact isSign.neg) opposite,
      sub_neg_eq_add]

/-- Numbers are subtracted as their integers are. -/
theorem subtract_ofInt : (ofInt x).subtract (ofInt y) = ofInt (x - y) := by
  unfold subtract
  by_cases isZero : x = 0
  · rw [if_pos ((ofInt_s_eq_zero x).mpr isZero), isZero, negate_ofInt, zero_sub]
  rw [if_neg (mt (ofInt_s_eq_zero x).mp isZero)]
  by_cases otherZero : y = 0
  · rw [if_pos ((ofInt_s_eq_zero y).mpr otherZero), otherZero, sub_zero]
  rw [if_neg (mt (ofInt_s_eq_zero y).mp otherZero), negate_ofInt, ofInt_s, ofInt_s]
  have isSign := isSign_sign otherZero
  by_cases same : x.sign = y.sign
  · rw [if_neg (not_not.mpr same), subtractSame_ofInt x y isSign same]
  · have opposite : x.sign = (-y).sign := by
      rw [Int.sign_neg]
      rcases isSign_sign isZero with first | first <;> rcases isSign with second | second <;>
        simp [first, second] at same ⊢
    rw [if_pos same, addSame_ofInt x (-y) (by rw [Int.sign_neg]; exact isSign.neg) opposite,
      ← sub_eq_add_neg]

/-- Whatever the signs and the number of digits, sums, differences and comparisons are those of the
integers, and the result is written as the integer's number is: no digit reaches the base, and no
zeros are left in front. -/
theorem sums_refine : (ofInt x).add (ofInt y) = ofInt (x + y) ∧
    (ofInt x).subtract (ofInt y) = ofInt (x - y) ∧
    (ofInt x).compare (ofInt y) = (x - y).sign :=
  ⟨add_ofInt x y, subtract_ofInt x y, compare_ofInt x y⟩

end Sums

end BigInteger

end LightWallet.Frontend
