/-
This file holds what the development uses about numbers that are written in limbs, the
lowest limb first. A list of limbs below the base without zeros at the end is determined
by its number, and comparing two of them from the highest limb on compares the numbers.
-/

import Mathlib.Data.List.DropRight
import Mathlib.Data.Nat.Digits.Lemmas

namespace LightWallet.Limbs

/-- The limbs without the zeros at the end. -/
def trim (limbs : List Nat) : List Nat := limbs.rdropWhile (· == 0)

/-- Every limb is below the base. -/
def Below (base : Nat) (limbs : List Nat) : Prop := ∀ limb ∈ limbs, limb < base

/-- Every limb but the highest is below the base. -/
def LowBelow (base : Nat) (limbs : List Nat) : Prop := Below base limbs.dropLast

/-- The highest limb is not zero. -/
def Trimmed (limbs : List Nat) : Prop := ∀ some : limbs ≠ [], limbs.getLast some ≠ 0

section

variable {base : Nat} {limbs : List Nat}

@[simp] theorem below_nil : Below base [] := fun _ absent => absurd absent List.not_mem_nil

theorem below_cons {limb : Nat} : Below base (limb :: limbs) ↔ limb < base ∧ Below base limbs :=
  List.forall_mem_cons

theorem below_append {front back : List Nat} :
    Below base (front ++ back) ↔ Below base front ∧ Below base back :=
  List.forall_mem_append

theorem below_replicate {count : Nat} (positive : 0 < base) :
    Below base (List.replicate count 0) := by
  intro limb member
  rw [(List.mem_replicate.mp member).2]
  exact positive

theorem Below.low (below : Below base limbs) : LowBelow base limbs :=
  fun limb member => below limb (List.dropLast_subset _ member)

theorem lowBelow_cons_cons {first second : Nat} :
    LowBelow base (first :: second :: limbs) ↔
      first < base ∧ LowBelow base (second :: limbs) := by
  unfold LowBelow
  rw [List.dropLast_cons_cons, below_cons]

/-! ### Zeros at the end -/

theorem trim_eq (limbs : List Nat) :
    ∃ zeros, limbs = trim limbs ++ List.replicate zeros 0 := by
  refine ⟨(limbs.rtakeWhile (· == 0)).length, ?_⟩
  have zeros : limbs.rtakeWhile (· == 0) =
      List.replicate (limbs.rtakeWhile (· == 0)).length 0 :=
    List.eq_replicate_length.mpr fun limb member =>
      beq_iff_eq.mp (List.mem_rtakeWhile_imp (p := (· == 0)) member)
  rw [← zeros]
  exact List.rdropWhile_append_rtakeWhile.symm

theorem trimmed_trim (limbs : List Nat) : Trimmed (trim limbs) := fun some zero =>
  List.rdropWhile_last_not (fun limb : Nat => limb == 0) limbs some (beq_iff_eq.mpr zero)

theorem trim_of_trimmed (trimmed : Trimmed limbs) : trim limbs = limbs :=
  List.rdropWhile_eq_self_iff.mpr fun some isZero => trimmed some (beq_iff_eq.mp isZero)

theorem ofDigits_trim (limbs : List Nat) :
    Nat.ofDigits base (trim limbs) = Nat.ofDigits base limbs := by
  obtain ⟨zeros, same⟩ := trim_eq limbs
  nth_rewrite 2 [same]
  rw [Nat.ofDigits_append_replicate_zero]

theorem Below.trim (below : Below base limbs) : Below base (trim limbs) := by
  obtain ⟨zeros, same⟩ := trim_eq limbs
  rw [same] at below
  exact (below_append.mp below).1

theorem LowBelow.trim (low : LowBelow base limbs) : LowBelow base (trim limbs) := by
  obtain ⟨zeros, same⟩ := trim_eq limbs
  rcases Nat.eq_zero_or_pos zeros with rfl | positive
  · rw [List.replicate_zero, List.append_nil] at same
    rwa [← same]
  · rw [same] at low
    have whole : (Limbs.trim limbs ++ List.replicate zeros 0).dropLast =
        Limbs.trim limbs ++ List.replicate (zeros - 1) 0 := by
      rw [List.dropLast_append_of_ne_nil (by simpa using positive.ne'), List.dropLast_replicate]
    unfold LowBelow at low
    rw [whole, below_append] at low
    exact Below.low low.1

/-- A highest limb that is not below the base is not zero. -/
theorem LowBelow.below_or_trimmed (low : LowBelow base limbs) (positive : 0 < base) :
    Below base limbs ∨ Trimmed limbs := by
  by_cases trimmed : Trimmed limbs
  · exact .inr trimmed
  · left
    obtain ⟨some, isZero⟩ := not_forall.mp trimmed
    rw [← List.dropLast_concat_getLast some, not_not.mp isZero]
    exact below_append.mpr ⟨low, below_cons.mpr ⟨positive, below_nil⟩⟩

/-! ### The number of the limbs -/

/-- Limbs below the base without zeros at the end are those of their number. -/
theorem digits_ofDigits (large : 1 < base) (below : Below base limbs) (trimmed : Trimmed limbs) :
    Nat.digits base (Nat.ofDigits base limbs) = limbs :=
  Nat.digits_ofDigits base large limbs below trimmed

theorem digits_ofDigits_trim (large : 1 < base) (below : Below base limbs) :
    Nat.digits base (Nat.ofDigits base limbs) = trim limbs := by
  rw [← ofDigits_trim limbs]
  exact digits_ofDigits large below.trim (trimmed_trim limbs)

theorem below_digits (large : 1 < base) (number : Nat) : Below base (Nat.digits base number) :=
  fun _ member => Nat.digits_lt_base large member

theorem trimmed_digits (base number : Nat) : Trimmed (Nat.digits base number) := fun some =>
  Nat.getLast_digit_ne_zero base (Nat.digits_ne_nil_iff_ne_zero.mp some)

theorem ofDigits_lt (large : 1 < base) (below : Below base limbs) :
    Nat.ofDigits base limbs < base ^ limbs.length :=
  Nat.ofDigits_lt_base_pow_length large below

theorem le_ofDigits (trimmed : Trimmed limbs) (some : limbs ≠ []) :
    base ^ (limbs.length - 1) ≤ Nat.ofDigits base limbs := by
  have split := List.dropLast_concat_getLast some
  rw [← split, Nat.ofDigits_append, Nat.ofDigits_singleton, List.length_append,
    List.length_singleton, Nat.add_sub_cancel]
  calc base ^ limbs.dropLast.length
      ≤ base ^ limbs.dropLast.length * limbs.getLast some :=
        Nat.le_mul_of_pos_right _ (Nat.pos_of_ne_zero (trimmed some))
    _ ≤ _ := Nat.le_add_left _ _

end

/-! ### Comparing -/

/-- Two lists of one length are compared, from the highest limb on. -/
def compare : List Nat → List Nat → Int
  | first :: firsts, second :: seconds =>
    let higher := compare firsts seconds
    if higher ≠ 0 then higher else if first < second then -1 else if first = second then 0 else 1
  | _, _ => 0

theorem sign_limbs (first second : Nat) :
    (if first < second then -1 else if first = second then 0 else 1) =
      ((first : Int) - second).sign := by
  rcases Nat.lt_trichotomy first second with less | rfl | more
  · rw [if_pos less, Int.sign_eq_neg_one_of_neg (by omega)]
  · rw [if_neg (Nat.lt_irrefl first), if_pos rfl, Int.sub_self]
    rfl
  · rw [if_neg (by omega), if_neg (by omega), Int.sign_eq_one_of_pos (by omega)]

theorem compare_eq_sign {base : Nat} {first second : List Nat}
    (same : first.length = second.length) (firstLow : LowBelow base first)
    (secondLow : LowBelow base second) :
    compare first second =
      (((Nat.ofDigits base first : Nat) : Int) - (Nat.ofDigits base second : Nat)).sign := by
  induction first generalizing second with
  | nil =>
    rw [List.eq_nil_of_length_eq_zero same.symm]
    rfl
  | cons limb firsts inductionHypothesis =>
    match second with
    | [] => cases same
    | other :: seconds =>
      have sameLength : firsts.length = seconds.length := Nat.succ.inj same
      rw [compare, Nat.ofDigits_cons, Nat.ofDigits_cons, sign_limbs]
      match firsts, seconds with
      | [], [] =>
        have nothing : compare [] [] = 0 := rfl
        rw [if_neg (not_not.mpr nothing), Nat.ofDigits_nil, Nat.mul_zero, Nat.add_zero,
          Nat.add_zero]
      | firstNext :: firstRest, secondNext :: secondRest =>
        obtain ⟨limbBelow, firstLow⟩ := lowBelow_cons_cons.mp firstLow
        obtain ⟨otherBelow, secondLow⟩ := lowBelow_cons_cons.mp secondLow
        rw [inductionHypothesis sameLength firstLow secondLow]
        generalize Nat.ofDigits base (firstNext :: firstRest) = high
        generalize Nat.ofDigits base (secondNext :: secondRest) = otherHigh
        -- a higher limb weighs more than all lower ones
        rcases Nat.lt_trichotomy high otherHigh with less | rfl | more
        · have far : base * high + base ≤ base * otherHigh := Nat.mul_le_mul_left base less
          rw [Int.sign_eq_neg_one_of_neg (by omega : (high : Int) - otherHigh < 0),
            if_pos (by decide), Int.sign_eq_neg_one_of_neg (by push_cast at far ⊢; omega)]
        · rw [Int.sub_self, if_neg (by decide)]
          congr 1
          push_cast
          ring
        · have far : base * otherHigh + base ≤ base * high := Nat.mul_le_mul_left base more
          rw [Int.sign_eq_one_of_pos (by omega : 0 < (high : Int) - otherHigh),
            if_pos (by decide), Int.sign_eq_one_of_pos (by push_cast at far ⊢; omega)]

/-! ### Long division -/

/-- The quotient, the highest limb first, and what remains. The limbs of the number are put one
by one, the highest first, behind what has remained so far. -/
def longDivision (base divisor : Nat) : List Nat → Nat → List Nat × Nat
  | [], part => ([], part)
  | limb :: lower, part =>
    let whole := base * part + limb
    let rest := longDivision base divisor lower (whole % divisor)
    (whole / divisor :: rest.1, rest.2)

theorem ofDigits_reverse_cons (base limb : Nat) (lower : List Nat) :
    Nat.ofDigits base (limb :: lower).reverse =
      base ^ lower.length * limb + Nat.ofDigits base lower.reverse := by
  rw [List.reverse_cons, Nat.ofDigits_append, Nat.ofDigits_singleton, List.length_reverse,
    Nat.add_comm]

theorem longDivision_spec {base divisor part : Nat} {limbs : List Nat} (small : part < divisor)
    (below : Below base limbs) :
    Below base (longDivision base divisor limbs part).1 ∧
      (longDivision base divisor limbs part).2 < divisor ∧
      (longDivision base divisor limbs part).1.length = limbs.length ∧
      divisor * Nat.ofDigits base (longDivision base divisor limbs part).1.reverse +
          (longDivision base divisor limbs part).2 =
        base ^ limbs.length * part + Nat.ofDigits base limbs.reverse := by
  induction limbs generalizing part with
  | nil =>
    refine ⟨below_nil, small, rfl, ?_⟩
    rw [longDivision, List.reverse_nil, Nat.ofDigits_nil, List.length_nil, pow_zero, Nat.mul_zero,
      Nat.zero_add, Nat.one_mul, Nat.add_zero]
  | cons limb lower inductionHypothesis =>
    obtain ⟨limbBelow, lowerBelow⟩ := below_cons.mp below
    have positive : 0 < divisor := Nat.zero_lt_of_lt small
    obtain ⟨quotientBelow, restSmall, length, equation⟩ :=
      inductionHypothesis (Nat.mod_lt (base * part + limb) positive) lowerBelow
    have digit : (base * part + limb) / divisor < base := by
      rw [Nat.div_lt_iff_lt_mul positive]
      calc base * part + limb < base * part + base := Nat.add_lt_add_left limbBelow _
        _ = base * (part + 1) := (Nat.mul_succ base part).symm
        _ ≤ base * divisor := Nat.mul_le_mul_left base small
    rw [longDivision]
    refine ⟨below_cons.mpr ⟨digit, quotientBelow⟩, restSmall, congrArg Nat.succ length, ?_⟩
    have parts := Nat.div_add_mod (base * part + limb) divisor
    dsimp only
    rw [ofDigits_reverse_cons, ofDigits_reverse_cons, length, List.length_cons]
    calc _ = base ^ lower.length * (divisor * ((base * part + limb) / divisor)) +
          (divisor * Nat.ofDigits base
            (longDivision base divisor lower ((base * part + limb) % divisor)).1.reverse +
            (longDivision base divisor lower ((base * part + limb) % divisor)).2) := by ring
      _ = base ^ lower.length * (divisor * ((base * part + limb) / divisor) +
            (base * part + limb) % divisor) + Nat.ofDigits base lower.reverse := by
          rw [equation]
          ring
      _ = _ := by
          rw [parts]
          ring

/-- Long division of a number's limbs divides the number. -/
theorem longDivision_digits {base divisor : Nat} (large : 1 < base) (positive : 0 < divisor)
    (number : Nat) :
    Below base (longDivision base divisor (Nat.digits base number).reverse 0).1.reverse ∧
      Nat.ofDigits base (longDivision base divisor (Nat.digits base number).reverse 0).1.reverse =
        number / divisor ∧
      (longDivision base divisor (Nat.digits base number).reverse 0).2 = number % divisor := by
  have limbsBelow : Below base (Nat.digits base number).reverse := fun limb member =>
    below_digits large number limb (List.mem_reverse.mp member)
  obtain ⟨below, small, _, equation⟩ := longDivision_spec positive limbsBelow
  rw [Nat.mul_zero, Nat.zero_add, List.reverse_reverse, Nat.ofDigits_digits] at equation
  refine ⟨fun limb member => below limb (List.mem_reverse.mp member), ?_, ?_⟩
  · exact (Nat.div_eq_of_lt_le (by rw [Nat.mul_comm]; omega)
      (by rw [Nat.succ_mul, Nat.mul_comm]; omega)).symm
  · have remainder := congrArg (· % divisor) equation
    rwa [Nat.mul_add_mod, Nat.mod_eq_of_lt small] at remainder

/-- The two highest limbs make up what is left without the lower ones. -/
theorem highLimbs_eq {base : Nat} (large : 1 < base) {number places : Nat}
    (length : (Nat.digits base number).length = places + 2) :
    (Nat.digits base number).getD (places + 1) 0 * base +
        (Nat.digits base number).getD places 0 = number / base ^ places := by
  have room := Nat.lt_base_pow_length_digits (m := number) large
  have below : number / base ^ (places + 1) < base := by
    rw [Nat.div_lt_iff_lt_mul (Nat.pow_pos (Nat.zero_lt_of_lt large)), ← Nat.pow_succ']
    rwa [length] at room
  rw [Nat.getD_digits _ _ large, Nat.getD_digits _ _ large, Nat.mod_eq_of_lt below, Nat.pow_succ,
    ← Nat.div_div_eq_div_mul, Nat.div_add_mod']

end LightWallet.Limbs
