/-
This file states what the scripts calculate with: the points of the curve, and the base point, whose
multiples are the public keys. The modulus is prime and the coefficient of the curve is no square,
so that the points are a group. The multiples of the base point repeat after its order.
-/

import LightWallet.Edwards
import LightWallet.Primality
import LightWallet.Frontend.NaclPacking
import Mathlib.NumberTheory.LegendreSymbol.Basic
import Mathlib.Tactic.NormNum.Prime

namespace LightWallet.Frontend.Nacl

open Edwards Primality

/-! ### The modulus -/

/-- The small primes that the others are found from. -/
def smallPrimes : List Nat :=
  [2, 3, 5, 7, 13, 19, 31, 47, 107, 127, 223, 353, 2437, 4153, 57467, 65147, 75707, 132049,
    430751, 569003, 1923133, 8574133]

theorem prime_of_mem_smallPrimes : ∀ number ∈ smallPrimes, number.Prime := by
  norm_num [smallPrimes]

/-- How the modulus is found to be prime. -/
def certificates : List Certificate :=
  [⟨2773320623, 5, [2, 2437, 569003]⟩,
    ⟨72106336199, 7, [2, 13, 2773320623]⟩,
    ⟨1919519569386763, 2, [2, 3, 7, 19, 47, 47, 127, 8574133]⟩,
    ⟨75445702479781427272750846543864801, 7,
      [2, 2, 2, 2, 2, 3, 3, 5, 5, 75707, 72106336199, 1919519569386763]⟩,
    ⟨31757755568855353, 10, [2, 2, 2, 3, 31, 107, 223, 4153, 430751]⟩,
    ⟨74058212732561358302231226437062788676166966415465897661863160754340907, 2,
      [2, 3, 353, 57467, 132049, 1923133, 31757755568855353,
        75445702479781427272750846543864801]⟩,
    ⟨modulus, 2,
      [2, 2, 3, 65147, 74058212732561358302231226437062788676166966415465897661863160754340907]⟩]

theorem prime_modulus : Nat.Prime modulus := by
  have valid : AllValid smallPrimes certificates := by decide +kernel
  have some : certificates ≠ [] := List.cons_ne_nil _ _
  exact prime_of_allValid prime_of_mem_smallPrimes valid (certificates.getLast some)
    (List.getLast_mem some)

instance fact_prime_modulus : Fact modulus.Prime := ⟨prime_modulus⟩

instance fact_two_lt_modulus : Fact (2 < modulus) := ⟨by norm_num [modulus]⟩

/-- The exponent of the power by which square roots are found. -/
def rootExponent : Nat := 2 ^ 252 - 3

theorem pow_rootExponent {x : ZMod modulus} (some : x ≠ 0) : x ^ (8 * rootExponent + 4) = 1 := by
  rw [show 8 * rootExponent + 4 = modulus - 1 by norm_num [modulus, rootExponent]]
  exact ZMod.pow_card_sub_one_eq_one some

theorem two_ne_modulus : (2 : ZMod modulus) ≠ 0 := by
  intro zero
  have divides := (ZMod.natCast_eq_zero_iff 2 modulus).mp (by exact_mod_cast zero)
  exact absurd (Nat.le_of_dvd (by norm_num) divides) (by norm_num [modulus])

/-! ### The curve -/

/-- The coefficient of the curve, `-121665 / 121666`, as a number below the modulus. -/
def dNumber : Nat := 0x52036cee2b6ffe738cc740797779e89800700a4d4141d8ab75eb4dca135978a3

theorem dNumber_eq : (121666 : ZMod modulus) * (dNumber : ZMod modulus) = -121665 := by
  have same : ((121666 * dNumber + 121665 : Nat) : ZMod modulus) = 0 :=
    (ZMod.natCast_eq_zero_iff _ _).mpr (by norm_num [dNumber, modulus])
  push_cast at same
  exact eq_neg_of_add_eq_zero_left same

/-- A square root of minus one. -/
def rootNumber : Nat := 0x2b8324804fc1df0b2b4d00993dfbd7a72f431806ad2fe478c4ee1b274a0ea0b0

theorem rootNumber_sq : (rootNumber : ZMod modulus) ^ 2 = -1 := by
  have same : ((rootNumber ^ 2 + 1 : Nat) : ZMod modulus) = 0 :=
    (ZMod.natCast_eq_zero_iff _ _).mpr (by norm_num [rootNumber, modulus])
  push_cast at same
  exact eq_neg_of_add_eq_zero_left same

theorem dNumber_nonsquare : ¬ IsSquare (dNumber : ZMod modulus) := by
  have power : (dNumber : ZMod modulus) ^ (modulus / 2) = -1 := by
    have exponent : powMod modulus 256 dNumber (modulus / 2) = modulus - 1 := by decide +kernel
    rw [← cast_powMod modulus dNumber (by norm_num [modulus] : modulus / 2 < 2 ^ 256), exponent,
      Nat.cast_sub prime_modulus.one_le, ZMod.natCast_self, zero_sub, Nat.cast_one]
  have some : (dNumber : ZMod modulus) ≠ 0 := by
    intro zero
    rw [zero, zero_pow (by norm_num [modulus])] at power
    exact zero_ne_one (neg_eq_zero.mp power.symm).symm
  rw [ZMod.euler_criterion modulus some, power]
  exact ZMod.neg_one_ne_one

/-- The curve of the keys. -/
def curve : Curve (ZMod modulus) where
  d := dNumber
  root := rootNumber
  two_ne := two_ne_modulus
  root_sq := rootNumber_sq
  nonsquare := dNumber_nonsquare

/-- The coordinates of the base point. The second one is `4 / 5`. -/
def baseX : Nat := 0x216936d3cd6e53fec0a4e231fdd6dc5c692cc7609525a7b2c9562d608f25d51a

/-- The second coordinate of the base point. -/
def baseY : Nat := 0x6666666666666666666666666666666666666666666666666666666666666658

theorem on_base : curve.On baseX baseY := by
  have same : ((baseY ^ 2 : Nat) : ZMod modulus) =
      ((baseX ^ 2 + 1 + dNumber * baseX ^ 2 * baseY ^ 2 : Nat) : ZMod modulus) :=
    (ZMod.natCast_eq_natCast_iff' _ _ _).mpr (by norm_num [baseX, baseY, dNumber, modulus])
  push_cast at same
  unfold Curve.On curve
  linear_combination same

/-- The point whose multiples are the public keys. -/
def basePoint : Point curve where
  x := baseX
  y := baseY
  on := on_base

/-! ### The order of the base point -/

/-- The order of the base point, which scalars are counted modulo. -/
def order : Nat := 2 ^ 252 + 27742317777372353535851937790883648493

/-- The bits of the order, from the highest on. -/
def orderBits : List Bool := (List.range 253).reverse.map order.testBit

/-- The multiple of the base point by its order, in whole numbers. -/
def multipleByOrder : Extended ℤ :=
  Extended.multiple modulus dNumber ⟨baseX, baseY, 1, (baseX * baseY : Nat)⟩ orderBits ⟨0, 1, 1, 0⟩

theorem multipleByOrder_spec : multipleByOrder.x = 0 ∧ multipleByOrder.y = multipleByOrder.z ∧
    orderBits.foldl (fun count bit => 2 * count + bit.toNat) 0 = order := by
  decide +kernel

theorem order_smul_basePoint : order • basePoint = 0 := by
  have vanishes : ((modulus : ℤ) : ZMod modulus) = 0 := by
    rw [Int.cast_natCast, ZMod.natCast_self]
  have same : ((dNumber : ℤ) : ZMod modulus) = curve.d := Int.cast_natCast dNumber
  have baseOf : ((⟨baseX, baseY, 1, (baseX * baseY : Nat)⟩ : Extended ℤ).map Int.cast).Of
      basePoint := by
    constructor <;> simp [Extended.map, basePoint]
  have zeroOf : ((⟨0, 1, 1, 0⟩ : Extended ℤ).map Int.cast).Of (0 • basePoint) := by
    rw [zero_nsmul]
    constructor <;> simp [Extended.map]
  obtain ⟨x, y, bits⟩ := multipleByOrder_spec
  have known := Extended.Of.multiple vanishes same baseOf orderBits zeroOf
  rw [bits] at known
  refine known.eq_zero ?_ ?_
  · exact (congrArg Int.cast x).trans Int.cast_zero
  · exact congrArg Int.cast y

end LightWallet.Frontend.Nacl
