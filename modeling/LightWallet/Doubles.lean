/-
This file holds what the development uses about arithmetic in double precision. A
number is rounded to the nearest one with 53 significant bits, of two to the one whose
last bit is zero. Integers of 53 bits are kept, so that sums and products of integers are
exact as long as they are no larger.

The integral part of a quotient of such integers is exact as well. A quotient that is
rounded up may be off, but does not fall below an integer that the exact one reaches.
-/

import Mathlib.Data.Int.Log
import Mathlib.Data.Rat.Floor
import Mathlib.Tactic.Linarith
import Mathlib.Tactic.Positivity
import Mathlib.Tactic.Ring

namespace LightWallet.Doubles

/-! ### Rounding -/

/-- The nearest integer, of two the even one. -/
def roundEven (number : ℚ) : ℤ :=
  if Int.fract number < 1 / 2 then ⌊number⌋
  else if 1 / 2 < Int.fract number then ⌊number⌋ + 1
  else ⌊number⌋ + ⌊number⌋ % 2

/-- How far apart the numbers of 53 significant bits are around the number. -/
def spacing (number : ℚ) : ℚ := (2 : ℚ) ^ (Int.log 2 number - 52)

/-- The nearest double. The exponent is not bounded: the numbers of the development are neither
so large nor so small that it matters. -/
def nearest (number : ℚ) : ℚ := roundEven (number / spacing number) * spacing number

theorem abs_roundEven_sub_le (number : ℚ) : |(roundEven number : ℚ) - number| ≤ 1 / 2 := by
  have parts : number = ⌊number⌋ + Int.fract number := (Int.floor_add_fract number).symm
  have positive := Int.fract_nonneg number
  have below := Int.fract_lt_one number
  unfold roundEven
  split
  · rw [abs_le]
    constructor <;> linarith
  · next notBelow =>
    split
    · rw [abs_le]
      push_cast
      constructor <;> linarith
    · next notAbove =>
      have half : Int.fract number = 1 / 2 :=
        le_antisymm (le_of_not_gt notAbove) (le_of_not_gt notBelow)
      rw [abs_le]
      push_cast
      rcases Int.emod_two_eq_zero_or_one ⌊number⌋ with even | odd
      · rw [even]
        push_cast
        constructor <;> linarith
      · rw [odd]
        push_cast
        constructor <;> linarith

theorem roundEven_intCast (number : ℤ) : roundEven number = number := by
  unfold roundEven
  rw [Int.fract_intCast, if_pos (by norm_num), Int.floor_intCast]

theorem spacing_pos (number : ℚ) : 0 < spacing number := zpow_pos (by norm_num) _

theorem spacing_le {number : ℚ} (positive : 0 < number) : spacing number ≤ number / 2 ^ 52 := by
  have lower : (2 : ℚ) ^ Int.log 2 number ≤ number := Int.zpow_log_le_self (by norm_num) positive
  unfold spacing
  rw [zpow_sub₀ (by norm_num)]
  exact div_le_div_of_nonneg_right lower (by positivity)

/-- Rounding errs by at most half a unit in the last place. -/
theorem abs_nearest_sub_le {number : ℚ} (nonnegative : 0 ≤ number) :
    |nearest number - number| ≤ number / 2 ^ 53 := by
  rcases nonnegative.eq_or_lt with rfl | positive
  · unfold nearest
    rw [zero_div, ← Int.cast_zero, roundEven_intCast]
    simp
  have unit := spacing_pos number
  have rounded := abs_roundEven_sub_le (number / spacing number)
  have same : nearest number - number =
      (roundEven (number / spacing number) - number / spacing number) * spacing number := by
    unfold nearest
    rw [sub_mul, div_mul_cancel₀ _ unit.ne']
  rw [same, abs_mul, abs_of_pos unit]
  calc |(roundEven (number / spacing number) : ℚ) - number / spacing number| * spacing number
      ≤ 1 / 2 * spacing number := mul_le_mul_of_nonneg_right rounded unit.le
    _ ≤ 1 / 2 * (number / 2 ^ 52) := mul_le_mul_of_nonneg_left (spacing_le positive) (by norm_num)
    _ = number / 2 ^ 53 := by ring

theorem nearest_nonneg {number : ℚ} (nonnegative : 0 ≤ number) : 0 ≤ nearest number := by
  have error := (abs_le.mp (abs_nearest_sub_le nonnegative)).1
  have small : number / 2 ^ 53 ≤ number := div_le_self nonnegative (by norm_num)
  linarith

/-- Integers of 53 bits are kept. -/
theorem nearest_natCast {number : Nat} (small : number < 2 ^ 53) :
    nearest (number : ℚ) = number := by
  rcases Nat.eq_zero_or_pos number with rfl | positive
  · have error := abs_nearest_sub_le (le_refl (0 : ℚ))
    rw [zero_div, sub_zero] at error
    exact abs_nonpos_iff.mp error
  have log : Nat.log 2 number ≤ 52 :=
    Nat.lt_succ_iff.mp ((Nat.log_lt_iff_lt_pow (by norm_num) positive.ne').mpr small)
  have unit := spacing_pos (number : ℚ)
  have whole : (number : ℚ) / spacing (number : ℚ) =
      ((number * 2 ^ (52 - Nat.log 2 number) : Nat) : ℤ) := by
    unfold spacing
    rw [Int.log_natCast, show (Nat.log 2 number : ℤ) - 52 = -((52 - Nat.log 2 number : Nat) : ℤ) by
      omega, zpow_neg, div_inv_eq_mul, zpow_natCast]
    push_cast
    rfl
  unfold nearest
  rw [whole, roundEven_intCast, ← whole, div_mul_cancel₀ _ unit.ne']

/-! ### The order of doubles -/

theorem roundEven_mono {first second : ℚ} (ordered : first ≤ second) :
    roundEven first ≤ roundEven second := by
  have floors : ⌊first⌋ ≤ ⌊second⌋ := Int.floor_le_floor ordered
  have firstParts := Int.floor_add_fract first
  have secondParts := Int.floor_add_fract second
  rcases floors.eq_or_lt with same | less
  · have fracts : Int.fract first ≤ Int.fract second := by
      rw [same] at firstParts
      linarith
    have last := Int.emod_two_eq_zero_or_one ⌊second⌋
    unfold roundEven
    rw [same]
    split_ifs <;> first | omega | linarith
  · have upper : roundEven first ≤ ⌊first⌋ + 1 := by
      unfold roundEven
      split_ifs <;> omega
    have lower : ⌊second⌋ ≤ roundEven second := by
      unfold roundEven
      split_ifs <;> omega
    omega

/-- What lies below the middle of two integers is rounded to one that is no larger than the
lower. -/
theorem roundEven_le {number : ℚ} {bound : ℤ} (below : number < bound + 1 / 2) :
    roundEven number ≤ bound := by
  have error := (abs_le.mp (abs_roundEven_sub_le number)).2
  have less : (roundEven number : ℚ) < ((bound + 1 : ℤ) : ℚ) := by
    push_cast
    linarith
  exact Int.lt_add_one_iff.mp (by exact_mod_cast less)

theorem spacing_eq (number : ℚ) : (2 : ℚ) ^ Int.log 2 number = 2 ^ 52 * spacing number := by
  unfold spacing
  rw [zpow_sub₀ (by norm_num)]
  field_simp

/-- A number lies between its power of two and the next one, in units of its last place. -/
theorem spacing_bounds {number : ℚ} (positive : 0 < number) :
    2 ^ 52 * spacing number ≤ number ∧ number < 2 ^ 53 * spacing number := by
  have lower : (2 : ℚ) ^ Int.log 2 number ≤ number := Int.zpow_log_le_self (by norm_num) positive
  have upper : number < (2 : ℚ) ^ (Int.log 2 number + 1) :=
    Int.lt_zpow_succ_log_self (by norm_num) number
  rw [zpow_add_one₀ (by norm_num), spacing_eq] at upper
  rw [spacing_eq] at lower
  exact ⟨lower, by linarith⟩

/-- The number has 53 significant bits. -/
def IsDouble (number : ℚ) : Prop := ∃ units : ℤ, number = units * spacing number

theorem nearest_of_isDouble {number : ℚ} (double : IsDouble number) : nearest number = number := by
  obtain ⟨units, same⟩ := double
  have whole : number / spacing number = units := by
    rw [div_eq_iff (spacing_pos number).ne', ← same]
  unfold nearest
  rw [whole, roundEven_intCast, ← same]

theorem isDouble_zpow (exponent : ℤ) : IsDouble (2 ^ exponent) := by
  have power := spacing_eq ((2 : ℚ) ^ exponent)
  have log : Int.log 2 ((2 : ℚ) ^ exponent) = exponent := Int.log_zpow (by norm_num) exponent
  rw [log] at power
  exact ⟨2 ^ 52, by push_cast; exact power⟩

theorem nearest_two_pow (exponent : Nat) : nearest (2 ^ exponent) = 2 ^ exponent :=
  nearest_of_isDouble (isDouble_zpow exponent)

theorem spacing_eq_of_mem {number other : ℚ} (positive : 0 < other)
    (lower : 2 ^ 52 * spacing number ≤ other) (upper : other < 2 ^ 53 * spacing number) :
    spacing other = spacing number := by
  have log : Int.log 2 other = Int.log 2 number := by
    refine le_antisymm (Int.lt_add_one_iff.mp ?_) ?_
    · rw [← Int.lt_zpow_iff_log_lt (by norm_num) positive, Nat.cast_ofNat,
        zpow_add_one₀ (by norm_num), spacing_eq]
      linarith
    · rw [← Int.zpow_le_iff_le_log (by norm_num) positive, Nat.cast_ofNat, spacing_eq]
      exact lower
  unfold spacing
  rw [log]

/-- The rounded number in units of the last place. -/
theorem roundEven_bounds {number : ℚ} (positive : 0 < number) :
    2 ^ 52 ≤ roundEven (number / spacing number) ∧
      roundEven (number / spacing number) ≤ 2 ^ 53 := by
  have unit := spacing_pos number
  obtain ⟨lower, upper⟩ := spacing_bounds positive
  constructor
  · rw [← roundEven_intCast (2 ^ 52)]
    refine roundEven_mono ?_
    rw [le_div_iff₀ unit]
    push_cast
    exact lower
  · rw [← roundEven_intCast (2 ^ 53)]
    refine roundEven_mono ?_
    rw [div_le_iff₀ unit]
    push_cast
    exact upper.le

/-- The bounds of a binade are bounds of what is rounded in it. -/
theorem nearest_bounds {number : ℚ} (positive : 0 < number) :
    2 ^ 52 * spacing number ≤ nearest number ∧ nearest number ≤ 2 ^ 53 * spacing number := by
  obtain ⟨lower, upper⟩ := roundEven_bounds positive
  have unit := (spacing_pos number).le
  constructor
  · exact mul_le_mul_of_nonneg_right (by exact_mod_cast lower) unit
  · exact mul_le_mul_of_nonneg_right (by exact_mod_cast upper) unit

theorem isDouble_nearest {number : ℚ} (positive : 0 < number) : IsDouble (nearest number) := by
  have unit := spacing_pos number
  obtain ⟨lower, upper⟩ := nearest_bounds positive
  have above : 0 < nearest number := lt_of_lt_of_le (by positivity) lower
  rcases upper.lt_or_eq with less | next
  · refine ⟨roundEven (number / spacing number), ?_⟩
    rw [spacing_eq_of_mem above lower less]
    rfl
  · -- The number is rounded up to the next power of two.
    have power : nearest number = (2 : ℚ) ^ (Int.log 2 number + 1) := by
      rw [next, zpow_add_one₀ (by norm_num), spacing_eq]
      ring
    rw [power]
    exact isDouble_zpow _

theorem nearest_zero : nearest 0 = 0 := by
  unfold nearest
  rw [zero_div, ← Int.cast_zero, roundEven_intCast, Int.cast_zero, zero_mul]

/-- What is rounded already is kept. -/
theorem nearest_nearest {number : ℚ} (nonnegative : 0 ≤ number) :
    nearest (nearest number) = nearest number := by
  rcases nonnegative.eq_or_lt with rfl | positive
  · rw [nearest_zero, nearest_zero]
  · exact nearest_of_isDouble (isDouble_nearest positive)

theorem nearest_mono {first second : ℚ} (nonnegative : 0 ≤ first) (ordered : first ≤ second) :
    nearest first ≤ nearest second := by
  rcases nonnegative.eq_or_lt with rfl | positive
  · rw [nearest_zero]
    exact nearest_nonneg ordered
  have above : 0 < second := positive.trans_le ordered
  rcases (Int.log_mono_right positive ordered : Int.log 2 first ≤ Int.log 2 second).eq_or_lt with
    same | less
  · have unit : spacing first = spacing second := by
      unfold spacing
      rw [same]
    unfold nearest
    rw [unit]
    refine mul_le_mul_of_nonneg_right ?_ (spacing_pos second).le
    exact_mod_cast roundEven_mono (div_le_div_of_nonneg_right ordered (spacing_pos second).le)
  · -- A power of two lies between the numbers.
    have powers : (2 : ℚ) ^ (Int.log 2 first + 1) ≤ 2 ^ Int.log 2 second :=
      zpow_le_zpow_right₀ (by norm_num) less
    rw [zpow_add_one₀ (by norm_num), spacing_eq, spacing_eq] at powers
    linarith [(nearest_bounds positive).2, (nearest_bounds above).1]

/-- An integer is rounded to an integer. -/
theorem exists_nearest_natCast (number : Nat) : ∃ whole : Nat, nearest (number : ℚ) = whole := by
  rcases lt_or_ge number (2 ^ 53) with small | large
  · exact ⟨number, nearest_natCast small⟩
  · have positive : 0 < number := lt_of_lt_of_le (by positivity) large
    have log : 52 ≤ Nat.log 2 number := Nat.le_log_of_pow_le (by norm_num) (by omega)
    have unit : spacing (number : ℚ) = ((2 ^ (Nat.log 2 number - 52) : Nat) : ℚ) := by
      unfold spacing
      rw [Int.log_natCast, show (Nat.log 2 number : ℤ) - 52 = (Nat.log 2 number - 52 : Nat) by
        omega, zpow_natCast]
      push_cast
      rfl
    have units := (roundEven_bounds (Nat.cast_pos (α := ℚ).mpr positive)).1
    obtain ⟨magnitude, same⟩ := Int.eq_ofNat_of_zero_le (le_trans (by positivity) units)
    refine ⟨magnitude * 2 ^ (Nat.log 2 number - 52), ?_⟩
    unfold nearest
    rw [same, unit]
    push_cast
    rfl

/-- A double below the rounded number is below the number. -/
theorem lt_of_nearest_lt_nearest {number other : ℚ} (nonnegative : 0 ≤ number)
    (otherNonneg : 0 ≤ other) (less : nearest other < nearest number) : nearest other < number := by
  by_contra reaches
  have up := nearest_mono nonnegative (not_lt.mp reaches)
  rw [nearest_nearest otherNonneg] at up
  exact absurd less up.not_gt

/-! ### Square roots -/

/-- The integral part of the square root in units of a hundred and twenty-eight binary places. -/
def rootUnits (number : ℚ) : Nat := Nat.sqrt ⌊number * 4 ^ 128⌋₊

/-- The square root if it has no more places than that, and otherwise the middle between the
numbers of so many places around it. -/
def rootCut (number : ℚ) : ℚ :=
  if (rootUnits number : ℚ) ^ 2 = number * 4 ^ 128 then rootUnits number / 2 ^ 128
  else (rootUnits number + 1 / 2) / 2 ^ 128

/-- The double nearest to the square root. It is found from the cut root, on the same side of every
number that has no more places: a root of at least `2 ^ (-74)` has all the numbers in the middle of
two doubles among these. -/
def sqrt (number : ℚ) : ℚ := nearest (rootCut number)

/-- The cut root is on the same side of such numbers as the root. -/
theorem le_rootCut_iff {number : ℚ} (nonnegative : 0 ≤ number) (units : Nat) :
    (units : ℚ) / 2 ^ 128 ≤ rootCut number ↔ ((units : ℚ) / 2 ^ 128) ^ 2 ≤ number := by
  have scale : (0 : ℚ) < 2 ^ 128 := by positivity
  have square : ((units : ℚ) / 2 ^ 128) ^ 2 ≤ number ↔ units ≤ rootUnits number := by
    rw [div_pow, div_le_iff₀ (by positivity), rootUnits, Nat.le_sqrt', Nat.le_floor_iff
      (by positivity), ← pow_mul, mul_comm 128 2, pow_mul]
    push_cast
    norm_num
  rw [square]
  unfold rootCut
  split
  · rw [div_le_div_iff_of_pos_right scale, Nat.cast_le]
  · rw [div_le_div_iff_of_pos_right scale]
    constructor
    · intro below
      have less : (units : ℚ) < ((rootUnits number + 1 : Nat) : ℚ) := by
        push_cast
        linarith
      exact Nat.lt_succ_iff.mp (by exact_mod_cast less)
    · intro below
      have cast : (units : ℚ) ≤ rootUnits number := by exact_mod_cast below
      linarith

theorem rootCut_nonneg (number : ℚ) : 0 ≤ rootCut number := by
  unfold rootCut
  split <;> positivity

theorem sqrt_nonneg (number : ℚ) : 0 ≤ sqrt number := nearest_nonneg (rootCut_nonneg number)

/-- What is below the middle of one and the largest double below it is rounded to that one at
most. -/
theorem nearest_le_of_lt_one {number : ℚ} (nonnegative : 0 ≤ number)
    (below : number < 1 - 1 / 2 ^ 54) : nearest number ≤ 1 - 1 / 2 ^ 53 := by
  rcases lt_or_ge number (1 / 2) with less | half
  · have error := (abs_le.mp (abs_nearest_sub_le nonnegative)).2
    linarith
  · have log : Int.log 2 number = -1 := by
      have positive : 0 < number := by linarith
      refine le_antisymm (Int.lt_add_one_iff.mp ?_) ?_
      · rw [← Int.lt_zpow_iff_log_lt (by norm_num) positive]
        norm_num
        linarith
      · rw [← Int.zpow_le_iff_le_log (by norm_num) positive]
        norm_num
        exact half
    have unit : spacing number = 1 / 2 ^ 53 := by
      unfold spacing
      rw [log]
      norm_num
    have units : roundEven (number / spacing number) ≤ 2 ^ 53 - 1 := by
      refine roundEven_le ?_
      rw [unit]
      push_cast
      linarith
    have cast : (roundEven (number / spacing number) : ℚ) ≤ 2 ^ 53 - 1 := by exact_mod_cast units
    unfold nearest
    rw [unit] at cast ⊢
    linarith

/-- The root of a fraction of 53 places is no larger than the largest double below one. -/
theorem sqrt_le {number : ℚ} (nonnegative : 0 ≤ number) (below : number ≤ 1 - 1 / 2 ^ 53) :
    sqrt number ≤ 1 - 1 / 2 ^ 53 := by
  refine nearest_le_of_lt_one (rootCut_nonneg number) ?_
  have middle : ((2 ^ 128 - 2 ^ 74 : Nat) : ℚ) / 2 ^ 128 = 1 - 1 / 2 ^ 54 := by norm_num
  by_contra reaches
  rw [not_lt, ← middle, le_rootCut_iff nonnegative, middle] at reaches
  have square : (1 - 1 / 2 ^ 53 : ℚ) < (1 - 1 / 2 ^ 54) ^ 2 := by norm_num
  linarith

/-! ### Arithmetic on integers -/

/-- The sum of two doubles that are integers. -/
def add (first second : Nat) : Nat := ⌊nearest ((first : ℚ) + second)⌋₊

/-- The product of two doubles that are integers. -/
def mul (first second : Nat) : Nat := ⌊nearest ((first : ℚ) * second)⌋₊

/-- The quotient of two doubles. -/
def div (first second : Nat) : ℚ := nearest ((first : ℚ) / second)

/-- The integer of 32 bits that a number is cut to. -/
def toInt32 (number : ℚ) : ℤ :=
  let whole := if 0 ≤ number then ⌊number⌋ else ⌈number⌉
  (whole + 2 ^ 31) % 2 ^ 32 - 2 ^ 31

/-- The quotient of two integers, cut to 32 bits. -/
def divInt32 (first second : Nat) : Nat := (toInt32 (div first second)).toNat

/-- The quotient of two integers, rounded up. -/
def ceilDiv (first second : Nat) : Nat := ⌈div first second⌉₊

theorem add_eq {first second : Nat} (small : first + second < 2 ^ 53) :
    add first second = first + second := by
  unfold add
  rw [← Nat.cast_add, nearest_natCast small, Nat.floor_natCast]

theorem mul_eq {first second : Nat} (small : first * second < 2 ^ 53) :
    mul first second = first * second := by
  unfold mul
  rw [← Nat.cast_mul, nearest_natCast small, Nat.floor_natCast]

theorem toInt32_eq {number : ℚ} (nonnegative : 0 ≤ number) (small : ⌊number⌋ < 2 ^ 31) :
    toInt32 number = ⌊number⌋ := by
  have whole := Int.floor_nonneg.mpr nonnegative
  unfold toInt32
  dsimp only
  rw [if_pos nonnegative, Int.emod_eq_of_lt (by omega) (by omega)]
  omega

/-- The integral part of a quotient is exact. -/
theorem floor_div {first second : Nat} (positive : 0 < second) (small : first < 2 ^ 53) :
    ⌊div first second⌋ = (first / second : Nat) := by
  have divisor : (0 : ℚ) < second := Nat.cast_pos.mpr positive
  have parts : (first : ℚ) = second * (first / second : Nat) + (first % second : Nat) := by
    exact_mod_cast (Nat.div_add_mod first second).symm
  have error : |div first second - (first : ℚ) / second| ≤ (first : ℚ) / second / 2 ^ 53 :=
    abs_nearest_sub_le (div_nonneg (Nat.cast_nonneg first) (Nat.cast_nonneg second))
  rw [abs_le] at error
  have slack : (first : ℚ) / second / 2 ^ 53 < 1 / second := by
    rw [div_div, div_lt_div_iff₀ (by positivity) divisor, one_mul, mul_comm]
    exact mul_lt_mul_of_pos_left (by exact_mod_cast small) divisor
  have quotient : (first : ℚ) / second =
      (first / second : Nat) + ((first % second : Nat) : ℚ) / second := by
    rw [parts]
    field_simp
  have below : ((first % second : Nat) : ℚ) / second ≤ 1 - 1 / second := by
    rw [div_le_iff₀ divisor, sub_mul, one_mul, one_div_mul_cancel divisor.ne']
    have less : first % second + 1 ≤ second := Nat.mod_lt first positive
    have cast : ((first % second : Nat) : ℚ) + 1 ≤ second := by exact_mod_cast less
    linarith
  rw [Int.floor_eq_iff, Int.cast_natCast]
  rcases Nat.eq_zero_or_pos (first % second) with whole | rest
  · have exact : div first second = (first / second : Nat) := by
      unfold div
      rw [quotient, whole, Nat.cast_zero, zero_div, add_zero]
      exact nearest_natCast ((Nat.div_le_self _ _).trans_lt small)
    rw [exact]
    constructor <;> linarith
  · have more : 1 / (second : ℚ) ≤ ((first % second : Nat) : ℚ) / second :=
      div_le_div_of_nonneg_right (by exact_mod_cast rest) divisor.le
    constructor <;> linarith [error.1, error.2]

theorem divInt32_eq {first second : Nat} (positive : 0 < second) (small : first < 2 ^ 53)
    (fits : first / second < 2 ^ 31) : divInt32 first second = first / second := by
  have floor := floor_div positive small
  have nonnegative : 0 ≤ div first second :=
    nearest_nonneg (div_nonneg (Nat.cast_nonneg first) (Nat.cast_nonneg second))
  unfold divInt32
  rw [toInt32_eq nonnegative (by rw [floor]; exact_mod_cast fits), floor]
  exact Int.toNat_natCast _

/-- What is rounded up does not fall below an integer that the number almost reaches. -/
theorem le_ceil_nearest {number : ℚ} (nonnegative : 0 ≤ number) (small : number < 2 ^ 51)
    {bound : Nat} (reaches : (bound : ℚ) ≤ number + 1 / 2) : bound ≤ ⌈nearest number⌉₊ := by
  have error := (abs_le.mp (abs_nearest_sub_le nonnegative)).1
  have slack : number / 2 ^ 53 < 1 / 4 := by
    rw [div_lt_iff₀ (by norm_num)]
    linarith
  have above : (bound : ℚ) - 1 < ⌈nearest number⌉₊ :=
    lt_of_lt_of_le (by linarith) (Nat.le_ceil (nearest number))
  have cast : (bound : ℚ) < ((⌈nearest number⌉₊ + 1 : Nat) : ℚ) := by
    push_cast
    linarith
  exact Nat.lt_succ_iff.mp (by exact_mod_cast cast)

/-- What is rounded up exceeds the number by little more than one. -/
theorem ceil_nearest_lt {number : ℚ} (nonnegative : 0 ≤ number) (small : number < 2 ^ 51) :
    (⌈nearest number⌉₊ : ℚ) < number + 5 / 4 := by
  have error := (abs_le.mp (abs_nearest_sub_le nonnegative)).2
  have slack : number / 2 ^ 53 < 1 / 4 := by
    rw [div_lt_iff₀ (by norm_num)]
    linarith
  have above := Nat.ceil_lt_add_one (nearest_nonneg nonnegative)
  linarith

/-- A product that is rounded errs by little. -/
theorem abs_mul_sub_le (first second : Nat) :
    |(mul first second : ℚ) - first * second| ≤ (first : ℚ) * second / 2 ^ 53 + 1 := by
  have nonnegative : (0 : ℚ) ≤ first * second := by positivity
  have error := abs_le.mp (abs_nearest_sub_le nonnegative)
  have lower := Nat.lt_floor_add_one (nearest ((first : ℚ) * second))
  have upper := Nat.floor_le (nearest_nonneg nonnegative)
  unfold mul
  rw [abs_le]
  constructor <;> linarith

section CeilDiv

variable {first second bound : Nat}

/-- A quotient that is rounded up is at least any integer that exceeds it by a half at most. -/
theorem le_ceilDiv (positive : 0 < second) (small : first < 2 ^ 51 * second)
    (reaches : 2 * (bound * second) ≤ 2 * first + second) : bound ≤ ceilDiv first second := by
  have divisor : (0 : ℚ) < second := Nat.cast_pos.mpr positive
  refine le_ceil_nearest (by positivity) ?_ ?_
  · rw [div_lt_iff₀ divisor]
    exact_mod_cast small
  · have cast : 2 * ((bound : ℚ) * second) ≤ 2 * first + second := by exact_mod_cast reaches
    have whole : (first : ℚ) / second + 1 / 2 = (first + second / 2) / second := by
      field_simp
    rw [whole, le_div_iff₀ divisor]
    linarith

/-- A quotient that is rounded up is at most an integer that it exceeds by little. -/
theorem ceilDiv_le (positive : 0 < second) (small : first < 2 ^ 51 * second)
    (fits : 4 * first ≤ 4 * (bound * second) + 3 * second) : ceilDiv first second ≤ bound + 1 := by
  have divisor : (0 : ℚ) < second := Nat.cast_pos.mpr positive
  have quotientSmall : (first : ℚ) / second < 2 ^ 51 := by
    rw [div_lt_iff₀ divisor]
    exact_mod_cast small
  have above : (ceilDiv first second : ℚ) < (first : ℚ) / second + 5 / 4 :=
    ceil_nearest_lt (by positivity) quotientSmall
  have cast : 4 * (first : ℚ) ≤ 4 * ((bound : ℚ) * second) + 3 * second := by exact_mod_cast fits
  have quotient : (first : ℚ) / second ≤ bound + 3 / 4 := by
    rw [div_le_iff₀ divisor]
    linarith
  have below : (ceilDiv first second : ℚ) < ((bound + 2 : Nat) : ℚ) := by
    push_cast
    linarith
  exact Nat.lt_succ_iff.mp (by exact_mod_cast below)

end CeilDiv

/-! ### Integers of either sign -/

/-- The nearest double to a number of either sign. -/
def round (number : ℚ) : ℚ := if number < 0 then -nearest (-number) else nearest number

/-- The sum of two doubles that are integers, of either sign. -/
def addInt (first second : ℤ) : ℤ := ⌊round ((first : ℚ) + second)⌋

/-- The difference of two doubles that are integers. -/
def subInt (first second : ℤ) : ℤ := ⌊round ((first : ℚ) - second)⌋

/-- The product of two doubles that are integers, of either sign. -/
def mulInt (first second : ℤ) : ℤ := ⌊round ((first : ℚ) * second)⌋

/-- The quotient of two doubles that are integers, rounded down. -/
def floorDiv (first second : ℤ) : ℤ := ⌊round ((first : ℚ) / second)⌋

theorem round_intCast {number : ℤ} (small : |number| < 2 ^ 53) : round (number : ℚ) = number := by
  rw [abs_lt] at small
  unfold round
  by_cases negative : (number : ℚ) < 0
  · have below : number < 0 := by exact_mod_cast negative
    obtain ⟨magnitude, same⟩ := Int.eq_ofNat_of_zero_le (show 0 ≤ -number by omega)
    have cast : -(number : ℚ) = (magnitude : ℚ) := by exact_mod_cast same
    rw [if_pos negative, cast, nearest_natCast (by omega), ← cast, neg_neg]
  · have above : 0 ≤ number := by exact_mod_cast not_lt.mp negative
    obtain ⟨magnitude, rfl⟩ := Int.eq_ofNat_of_zero_le above
    rw [if_neg negative, Int.cast_natCast, nearest_natCast (by omega)]

theorem addInt_eq {first second : ℤ} (small : |first + second| < 2 ^ 53) :
    addInt first second = first + second := by
  unfold addInt
  rw [← Int.cast_add, round_intCast small, Int.floor_intCast]

theorem subInt_eq {first second : ℤ} (small : |first - second| < 2 ^ 53) :
    subInt first second = first - second := by
  unfold subInt
  rw [← Int.cast_sub, round_intCast small, Int.floor_intCast]

theorem mulInt_eq {first second : ℤ} (small : |first * second| < 2 ^ 53) :
    mulInt first second = first * second := by
  unfold mulInt
  rw [← Int.cast_mul, round_intCast small, Int.floor_intCast]

theorem log_div_two_pow {number : ℚ} (positive : 0 < number) (exponent : Nat) :
    Int.log 2 (number / 2 ^ exponent) = Int.log 2 number - exponent := by
  have quotient : 0 < number / 2 ^ exponent := by positivity
  refine eq_of_forall_le_iff fun power => ?_
  rw [← Int.zpow_le_iff_le_log (by norm_num) quotient, le_div_iff₀ (by positivity),
    le_sub_iff_add_le, ← Int.zpow_le_iff_le_log (by norm_num) positive, zpow_add₀ (by norm_num),
    zpow_natCast, Nat.cast_ofNat]

/-- Dividing by a power of two rounds nothing. -/
theorem nearest_div_two_pow {number : ℚ} (positive : 0 < number) (exponent : Nat) :
    nearest (number / 2 ^ exponent) = nearest number / 2 ^ exponent := by
  have unit : spacing (number / 2 ^ exponent) = spacing number / 2 ^ exponent := by
    unfold spacing
    rw [log_div_two_pow positive, sub_right_comm, zpow_sub₀ (by norm_num), zpow_natCast]
  unfold nearest
  rw [unit, div_div_div_cancel_right₀ (by positivity), mul_div_assoc]

theorem round_div_two_pow {number : ℤ} (small : |number| < 2 ^ 53) (exponent : Nat) :
    round ((number : ℚ) / 2 ^ exponent) = number / 2 ^ exponent := by
  have divisor : (0 : ℚ) < 2 ^ exponent := by positivity
  have whole := round_intCast small
  unfold round at *
  rcases lt_trichotomy number 0 with negative | rfl | positive
  · have below : (number : ℚ) < 0 := by exact_mod_cast negative
    rw [if_pos below, neg_eq_iff_eq_neg] at whole
    rw [if_pos (div_neg_of_neg_of_pos below divisor), ← neg_div,
      nearest_div_two_pow (neg_pos.mpr below), whole, neg_div, neg_neg]
  · rw [Int.cast_zero, zero_div]
    simpa using whole
  · have above : (0 : ℚ) < number := by exact_mod_cast positive
    rw [if_neg above.not_gt] at whole
    rw [if_neg (div_pos above divisor).not_gt, nearest_div_two_pow above, whole]

/-- The integral part of a quotient by a power of two is exact. -/
theorem floorDiv_two_pow {number : ℤ} (small : |number| < 2 ^ 53) (exponent : Nat) :
    floorDiv number (2 ^ exponent) = number / 2 ^ exponent := by
  have power : (((2 : ℤ) ^ exponent : ℤ) : ℚ) = 2 ^ exponent := by norm_cast
  unfold floorDiv
  rw [power, round_div_two_pow small exponent, ← power]
  have exact := Rat.floor_intCast_div_natCast number (2 ^ exponent)
  push_cast at exact
  rw [← exact]
  norm_cast

/-! ### Integers of 32 bits -/

/-- What the operators on bits make of a number. -/
def int32 (number : ℤ) : BitVec 32 := BitVec.ofInt 32 number

/-- `first & second`. -/
def andInt (first second : ℤ) : ℤ := (int32 first &&& int32 second).toInt

/-- `first ^ second`. -/
def xorInt (first second : ℤ) : ℤ := (int32 first ^^^ int32 second).toInt

/-- `~number`. -/
def notInt (number : ℤ) : ℤ := (~~~int32 number).toInt

/-- `number << count`. -/
def shiftLeftInt (number : ℤ) (count : Nat) : ℤ := (int32 number <<< count).toInt

/-- `number >> count`. -/
def shiftRightInt (number : ℤ) (count : Nat) : ℤ := ((int32 number).sshiftRight count).toInt

/-- The number is one of 32 bits. -/
def Fits32 (number : ℤ) : Prop := -2 ^ 31 ≤ number ∧ number < 2 ^ 31

theorem toInt_int32 {number : ℤ} (fits : Fits32 number) : (int32 number).toInt = number :=
  BitVec.toInt_ofInt_eq_self (by norm_num) fits.1 fits.2

@[simp] theorem int32_toInt (bits : BitVec 32) : int32 bits.toInt = bits := BitVec.ofInt_toInt

theorem shiftRightInt_eq {number : ℤ} (fits : Fits32 number) (count : Nat) :
    shiftRightInt number count = number / 2 ^ count := by
  unfold shiftRightInt
  rw [BitVec.toInt_sshiftRight, toInt_int32 fits, Int.shiftRight_eq_div_pow]
  norm_cast

theorem shiftLeftInt_eq {number : ℤ} {count : Nat} (nonnegative : 0 ≤ number)
    (small : number * 2 ^ count < 2 ^ 31) : shiftLeftInt number count = number * 2 ^ count := by
  have grows : number ≤ number * 2 ^ count :=
    le_mul_of_one_le_right nonnegative (one_le_pow₀ (by norm_num))
  have bits : (int32 number).toNat = number.toNat := by
    rw [int32, BitVec.toNat_ofInt]
    omega
  have product := mul_nonneg nonnegative (pow_nonneg (zero_le_two (α := ℤ)) count)
  unfold shiftLeftInt
  rw [BitVec.toInt_shiftLeft, bits, Nat.shiftLeft_eq]
  push_cast
  rw [Int.toNat_of_nonneg nonnegative]
  exact Int.bmod_eq_of_le (by omega) (by omega)

/-- The lowest bits of a number. -/
theorem andInt_mask (number : ℤ) (count : Nat) (small : count < 32) :
    andInt number (2 ^ count - 1) = number % 2 ^ count := by
  have power : (2 : Nat) ^ count < 2 ^ 32 := Nat.pow_lt_pow_right (by norm_num) small
  have half : (2 : Nat) ^ count ≤ 2 ^ 31 := Nat.pow_le_pow_right (by norm_num) (by omega)
  have mask : (int32 (2 ^ count - 1)).toNat = 2 ^ count - 1 := by
    have cast : ((2 : ℤ) ^ count - 1) = ((2 ^ count - 1 : Nat) : ℤ) := by
      rw [Nat.cast_sub Nat.one_le_two_pow]
      push_cast
      rfl
    rw [int32, cast, BitVec.toNat_ofInt, ← Int.natCast_emod, Int.toNat_natCast,
      Nat.mod_eq_of_lt (by omega)]
  have bits : (int32 number &&& int32 (2 ^ count - 1)).toNat =
      (number % 2 ^ 32).toNat % 2 ^ count := by
    rw [BitVec.toNat_and, mask, Nat.and_two_pow_sub_one_eq_mod, int32, BitVec.toNat_ofInt]
    rfl
  have below := Nat.mod_lt (number % 2 ^ 32).toNat (Nat.two_pow_pos count)
  have divides : (2 : ℤ) ^ count ∣ 2 ^ 32 := pow_dvd_pow 2 small.le
  unfold andInt
  rw [BitVec.toInt_eq_toNat_of_lt (by rw [bits]; omega), bits, Int.natCast_emod,
    Int.toNat_of_nonneg (Int.emod_nonneg _ (by norm_num)), Nat.cast_pow, Nat.cast_ofNat,
    Int.emod_emod_of_dvd _ divides]

@[simp] theorem andInt_zero_left (number : ℤ) : andInt 0 number = 0 := by
  unfold andInt
  rw [show int32 0 = 0#32 from rfl, BitVec.zero_and]
  rfl

theorem andInt_neg_one_left {number : ℤ} (fits : Fits32 number) : andInt (-1) number = number := by
  unfold andInt
  rw [show int32 (-1) = BitVec.allOnes 32 from rfl, BitVec.allOnes_and, toInt_int32 fits]

theorem xorInt_zero {number : ℤ} (fits : Fits32 number) : xorInt number 0 = number := by
  unfold xorInt
  rw [show int32 0 = 0#32 from rfl, BitVec.xor_zero, toInt_int32 fits]

theorem fits32_xorInt (first second : ℤ) : Fits32 (xorInt first second) :=
  ⟨BitVec.le_toInt _, BitVec.toInt_lt⟩

theorem xorInt_comm (first second : ℤ) : xorInt first second = xorInt second first := by
  unfold xorInt
  rw [BitVec.xor_comm]

theorem xorInt_xorInt {second : ℤ} (fits : Fits32 second) (first : ℤ) :
    xorInt first (xorInt first second) = second := by
  unfold xorInt
  rw [int32_toInt, ← BitVec.xor_assoc, BitVec.xor_self, BitVec.zero_xor, toInt_int32 fits]

end LightWallet.Doubles
