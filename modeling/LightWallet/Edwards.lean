/-
This file holds the group of a curve `y ^ 2 - x ^ 2 = 1 + d * x ^ 2 * y ^ 2`, where `d` is no square
and minus one is. No denominator of the addition is ever zero, so that one formula adds any two
points. That it is associative is a calculation for the first coordinate; the second one follows
from it, since adding a point of order four exchanges the two.

Points are added without divisions when each stands for its coordinates over a common denominator.
A multiple of a point is reached from the highest binary digit of the factor on, with two
neighbouring multiples at a time.
-/

import Mathlib.Algebra.Field.Basic
import Mathlib.Algebra.Group.Even
import Mathlib.Tactic.FieldSimp
import Mathlib.Tactic.LinearCombination
import Mathlib.Tactic.Ring

namespace LightWallet.Edwards

/-- The coefficient of a curve, and a square root of minus one. -/
structure Curve (F : Type*) [Field F] where
  d : F
  root : F
  two_ne : (2 : F) ≠ 0
  root_sq : root ^ 2 = -1
  nonsquare : ¬ IsSquare d

variable {F : Type*} [Field F] {curve : Curve F}

/-- The equation of the curve. -/
def Curve.On (curve : Curve F) (x y : F) : Prop :=
  y ^ 2 - x ^ 2 = 1 + curve.d * x ^ 2 * y ^ 2

/-- A point of the curve. -/
@[ext] structure Point (curve : Curve F) where
  x : F
  y : F
  on : curve.On x y

/-! ### Denominators -/

section Denominators

variable {x₁ y₁ x₂ y₂ root sign : F}

/-- The coefficient would be a square, as soon as this sum were not zero. -/
theorem Curve.On.sum_eq_zero (first : curve.On x₁ y₁) (second : curve.On x₂ y₂)
    (root_sq : root ^ 2 = -1) (unit : sign ^ 2 = 1)
    (same : curve.d * x₁ * x₂ * y₁ * y₂ = sign) : y₂ + root * x₂ = 0 := by
  by_contra nonzero
  have large : sign ≠ 0 := by
    rintro rfl
    norm_num at unit
  have factor : x₁ * y₁ * (y₂ + root * x₂) ≠ 0 := by
    refine mul_ne_zero (fun zero => large ?_) nonzero
    rw [← same]
    linear_combination curve.d * x₂ * y₂ * zero
  have squares : curve.d * (x₁ * y₁ * (y₂ + root * x₂)) ^ 2 = (y₁ + root * sign * x₁) ^ 2 := by
    unfold Curve.On at first second
    linear_combination (curve.d * x₁ ^ 2 * y₁ ^ 2) * second
      + (curve.d * x₁ ^ 2 * y₁ ^ 2 * x₂ ^ 2 - sign ^ 2 * x₁ ^ 2) * root_sq
      + (curve.d * x₁ * x₂ * y₁ * y₂ + sign + 2 * root * x₁ * y₁) * same
      + (1 + x₁ ^ 2) * unit - first
  refine curve.nonsquare ⟨(y₁ + root * sign * x₁) / (x₁ * y₁ * (y₂ + root * x₂)), ?_⟩
  rw [div_mul_div_comm, ← pow_two, ← pow_two, ← squares, mul_div_cancel_right₀ _
    (pow_ne_zero 2 factor)]

theorem Curve.On.product_ne (first : curve.On x₁ y₁) (second : curve.On x₂ y₂)
    (unit : sign ^ 2 = 1) : curve.d * x₁ * x₂ * y₁ * y₂ ≠ sign := by
  intro same
  have plus := first.sum_eq_zero second curve.root_sq unit same
  have minus := first.sum_eq_zero second ((neg_sq curve.root).trans curve.root_sq) unit same
  have zero : y₂ = 0 :=
    (mul_eq_zero.mp (by linear_combination plus + minus : 2 * y₂ = 0)).resolve_left curve.two_ne
  rw [zero, mul_zero] at same
  rw [← same] at unit
  norm_num at unit

theorem Curve.On.one_add_ne (first : curve.On x₁ y₁) (second : curve.On x₂ y₂) :
    1 + curve.d * x₁ * x₂ * y₁ * y₂ ≠ 0 := fun zero =>
  first.product_ne second (by norm_num) (eq_neg_of_add_eq_zero_right zero)

theorem Curve.On.one_sub_ne (first : curve.On x₁ y₁) (second : curve.On x₂ y₂) :
    1 - curve.d * x₁ * x₂ * y₁ * y₂ ≠ 0 := fun zero =>
  first.product_ne second (one_pow 2) (sub_eq_zero.mp zero).symm

theorem Curve.On.add (first : curve.On x₁ y₁) (second : curve.On x₂ y₂) :
    curve.On ((x₁ * y₂ + x₂ * y₁) / (1 + curve.d * x₁ * x₂ * y₁ * y₂))
      ((y₁ * y₂ + x₁ * x₂) / (1 - curve.d * x₁ * x₂ * y₁ * y₂)) := by
  have plus := first.one_add_ne second
  have minus := first.one_sub_ne second
  unfold Curve.On at *
  generalize product : curve.d * x₁ * x₂ * y₁ * y₂ = shared at plus minus ⊢
  field_simp
  rw [← product]
  linear_combination ((y₂ ^ 2 - x₂ ^ 2) * (1 + curve.d ^ 2 * x₁ ^ 2 * y₁ ^ 2 * x₂ ^ 2 * y₂ ^ 2)
      - curve.d * x₂ ^ 2 * y₂ ^ 2 * (y₁ ^ 2 - x₁ ^ 2 + 1 + curve.d * x₁ ^ 2 * y₁ ^ 2)) * first
    + ((1 + curve.d * x₁ ^ 2 * y₁ ^ 2) * (1 + curve.d ^ 2 * x₁ ^ 2 * y₁ ^ 2 * x₂ ^ 2 * y₂ ^ 2)
      - curve.d * x₁ ^ 2 * y₁ ^ 2 * (y₂ ^ 2 - x₂ ^ 2 + 1 + curve.d * x₂ ^ 2 * y₂ ^ 2)) * second

end Denominators

/-! ### The first coordinate -/

theorem Curve.one_add_ne (curve : Curve F) (y : F) : 1 + curve.d * y ^ 2 ≠ 0 := by
  intro zero
  have some : y ≠ 0 := by
    rintro rfl
    norm_num at zero
  refine curve.nonsquare ⟨curve.root / y, ?_⟩
  rw [div_mul_div_comm, ← pow_two, ← pow_two, curve.root_sq, eq_div_iff (pow_ne_zero 2 some)]
  linear_combination zero

theorem Curve.on_iff {x y : F} : curve.On x y ↔ (1 + curve.d * y ^ 2) * x ^ 2 = y ^ 2 - 1 := by
  unfold Curve.On
  constructor <;> intro on <;> linear_combination -on

/-- The second coordinate determines the square of the first one. -/
theorem Curve.On.eq_or_eq_neg {x₁ x₂ y : F} (first : curve.On x₁ y) (second : curve.On x₂ y) :
    x₁ = x₂ ∨ x₁ = -x₂ := by
  rw [Curve.on_iff] at first second
  exact sq_eq_sq_iff_eq_or_eq_neg.mp (mul_left_cancel₀ (curve.one_add_ne y)
    (first.trans second.symm))

/-- In a field of `8 * power + 5` elements a square root of a quotient is found by one power, up to
a fourth root of one. -/
theorem root_of_power {power : Nat} (fermat : ∀ x : F, x ≠ 0 → x ^ (8 * power + 4) = 1) {u v x : F}
    (nonzero : v ≠ 0) (root : v * x ^ 2 = u) :
    v * (u * v ^ 3 * (u * v ^ 7) ^ power) ^ 2 = u ∨
      v * (u * v ^ 3 * (u * v ^ 7) ^ power) ^ 2 = -u := by
  by_cases zero : x = 0
  · left
    rw [← root, zero]
    ring
  have square : u * v ^ 7 = (v ^ 4 * x) ^ 2 := by
    rw [← root]
    ring
  have unit : ((u * v ^ 7) ^ (2 * power + 1)) ^ 2 = 1 := by
    rw [square, ← pow_mul, ← pow_mul, show 2 * ((2 * power + 1) * 2) = 8 * power + 4 by ring]
    exact fermat _ (mul_ne_zero (pow_ne_zero 4 nonzero) zero)
  have candidate : v * (u * v ^ 3 * (u * v ^ 7) ^ power) ^ 2 =
      u * (u * v ^ 7) ^ (2 * power + 1) := by
    ring
  rw [candidate]
  rcases sq_eq_sq_iff_eq_or_eq_neg.mp (unit.trans (one_pow 2).symm) with one | minus
  · exact .inl (by rw [one, mul_one])
  · exact .inr (by rw [minus, mul_neg_one])

/-! ### Sums of three points -/

section Associativity

variable {x₁ y₁ x₂ y₂ x₃ y₃ : F}

/-- The two ways to add three points have the same first coordinate. -/
theorem Curve.On.assoc (first : curve.On x₁ y₁) (second : curve.On x₂ y₂) (third : curve.On x₃ y₃) :
    ((x₁ * y₂ + x₂ * y₁) * (1 - curve.d * x₁ * x₂ * y₁ * y₂) * y₃ +
        (y₁ * y₂ + x₁ * x₂) * (1 + curve.d * x₁ * x₂ * y₁ * y₂) * x₃) *
      (1 - (curve.d * x₂ * x₃ * y₂ * y₃) ^ 2 +
        curve.d * (x₂ * y₃ + x₃ * y₂) * (y₂ * y₃ + x₂ * x₃) * x₁ * y₁) =
    ((x₂ * y₃ + x₃ * y₂) * (1 - curve.d * x₂ * x₃ * y₂ * y₃) * y₁ +
        (y₂ * y₃ + x₂ * x₃) * (1 + curve.d * x₂ * x₃ * y₂ * y₃) * x₁) *
      (1 - (curve.d * x₁ * x₂ * y₁ * y₂) ^ 2 +
        curve.d * (x₁ * y₂ + x₂ * y₁) * (y₁ * y₂ + x₁ * x₂) * x₃ * y₃) := by
  unfold Curve.On at *
  linear_combination curve.d * x₂ * y₂ * (-y₁ * x₂ * y₂ ^ 2 * x₃ - y₁ * x₂ ^ 2 * y₂ * y₃
        - x₁ * x₂ * y₂ ^ 2 * y₃ - x₁ * x₂ ^ 2 * y₂ * x₃ - y₁ * y₂ ^ 3 * x₃ ^ 2 * y₃
        - y₁ * x₂ * y₂ ^ 2 * x₃ ^ 3
        + y₁ * x₂ ^ 2 * y₂ * y₃ ^ 3 + y₁ * x₂ ^ 3 * x₃ * y₃ ^ 2 + x₁ * y₂ ^ 3 * x₃ * y₃ ^ 2
        + x₁ * x₂ * y₂ ^ 2 * y₃ ^ 3 - x₁ * x₂ ^ 2 * y₂ * x₃ ^ 3 - x₁ * x₂ ^ 3 * x₃ ^ 2 * y₃
        + curve.d * y₁ * x₂ ^ 2 * y₂ ^ 3 * x₃ ^ 2 * y₃
        + curve.d * y₁ * x₂ ^ 3 * y₂ ^ 2 * x₃ * y₃ ^ 2
        - curve.d * x₁ * x₂ ^ 2 * y₂ ^ 3 * x₃ * y₃ ^ 2
        - curve.d * x₁ * x₂ ^ 3 * y₂ ^ 2 * x₃ ^ 2 * y₃) * first
    + curve.d * x₂ * y₂ * (-y₁ * y₂ * x₃ ^ 2 * y₃ - y₁ * x₂ * x₃ * y₃ ^ 2
        + x₁ * y₂ * x₃ * y₃ ^ 2 + x₁ * x₂ * x₃ ^ 2 * y₃ - x₁ * y₁ ^ 2 * y₂ * x₃
        + x₁ * y₁ ^ 2 * x₂ * y₃
        + x₁ ^ 2 * y₁ * y₂ * y₃ - x₁ ^ 2 * y₁ * x₂ * x₃ + y₁ ^ 3 * y₂ * x₃ ^ 2 * y₃
        + y₁ ^ 3 * x₂ * x₃ * y₃ ^ 2 - x₁ * y₁ ^ 2 * y₂ * x₃ ^ 3 - x₁ * y₁ ^ 2 * x₂ * y₃ ^ 3
        - x₁ ^ 2 * y₁ * y₂ * y₃ ^ 3 - x₁ ^ 2 * y₁ * x₂ * x₃ ^ 3 + x₁ ^ 3 * y₂ * x₃ * y₃ ^ 2
        + x₁ ^ 3 * x₂ * x₃ ^ 2 * y₃) * second
    + curve.d * x₂ * y₂ * (y₁ * x₂ * y₂ ^ 2 * x₃ + y₁ * x₂ ^ 2 * y₂ * y₃
        + x₁ * x₂ * y₂ ^ 2 * y₃ + x₁ * x₂ ^ 2 * y₂ * x₃ - y₁ ^ 3 * x₂ * y₂ ^ 2 * x₃
        - y₁ ^ 3 * x₂ ^ 2 * y₂ * y₃
        - x₁ * y₁ ^ 2 * y₂ ^ 3 * x₃ - x₁ * y₁ ^ 2 * x₂ ^ 3 * y₃ + x₁ ^ 2 * y₁ * y₂ ^ 3 * y₃
        + x₁ ^ 2 * y₁ * x₂ ^ 3 * x₃ + x₁ ^ 3 * x₂ * y₂ ^ 2 * y₃ + x₁ ^ 3 * x₂ ^ 2 * y₂ * x₃
        + curve.d * x₁ * y₁ ^ 2 * x₂ ^ 2 * y₂ ^ 3 * x₃
        - curve.d * x₁ * y₁ ^ 2 * x₂ ^ 3 * y₂ ^ 2 * y₃
        - curve.d * x₁ ^ 2 * y₁ * x₂ ^ 2 * y₂ ^ 3 * y₃
        + curve.d * x₁ ^ 2 * y₁ * x₂ ^ 3 * y₂ ^ 2 * x₃) * third

end Associativity

/-! ### The group -/

namespace Point

/-- What the denominators of a sum differ from one by. -/
def product (first second : Point curve) : F :=
  curve.d * first.x * second.x * first.y * second.y

theorem product_comm (first second : Point curve) :
    product first second = product second first := by
  unfold product
  ring

theorem one_add_product_ne (first second : Point curve) : 1 + product first second ≠ 0 :=
  first.on.one_add_ne second.on

theorem one_sub_product_ne (first second : Point curve) : 1 - product first second ≠ 0 :=
  first.on.one_sub_ne second.on

instance : Add (Point curve) where
  add first second :=
    { x := (first.x * second.y + second.x * first.y) / (1 + product first second)
      y := (first.y * second.y + first.x * second.x) / (1 - product first second)
      on := first.on.add second.on }

instance : Zero (Point curve) where
  zero :=
    { x := 0
      y := 1
      on := by
        unfold Curve.On
        ring }

instance : Neg (Point curve) where
  neg point :=
    { x := -point.x
      y := point.y
      on := by
        have on := point.on
        unfold Curve.On at *
        rw [neg_sq]
        exact on }

theorem add_x (first second : Point curve) : (first + second).x =
    (first.x * second.y + second.x * first.y) / (1 + product first second) := rfl

theorem add_y (first second : Point curve) : (first + second).y =
    (first.y * second.y + first.x * second.x) / (1 - product first second) := rfl

@[simp] theorem zero_x : (0 : Point curve).x = 0 := rfl

@[simp] theorem zero_y : (0 : Point curve).y = 1 := rfl

@[simp] theorem neg_x (point : Point curve) : (-point).x = -point.x := rfl

@[simp] theorem neg_y (point : Point curve) : (-point).y = point.y := rfl

protected theorem add_comm (first second : Point curve) : first + second = second + first := by
  refine Point.ext ?_ ?_
  · rw [add_x, add_x, product_comm]
    ring
  · rw [add_y, add_y, product_comm]
    ring

protected theorem zero_add (point : Point curve) : 0 + point = point := by
  refine Point.ext ?_ ?_
  · rw [add_x, product, zero_x, zero_y]
    ring
  · rw [add_y, product, zero_x, zero_y]
    ring

protected theorem neg_add_cancel (point : Point curve) : -point + point = 0 := by
  have minus := one_sub_product_ne (-point) point
  have on := point.on
  unfold Curve.On at on
  refine Point.ext ?_ ?_
  · rw [add_x, neg_x, neg_y, zero_x, div_eq_zero_iff]
    left
    ring
  · rw [add_y, zero_y, div_eq_one_iff_eq minus, product, neg_x, neg_y]
    linear_combination on

/-- The point with exchanged coordinates is the sum with a point of order four. -/
def turn (point : Point curve) : Point curve where
  x := curve.root * point.y
  y := curve.root * point.x
  on := by
    have on := point.on
    have square := curve.root_sq
    unfold Curve.On at *
    linear_combination on + (point.x ^ 2 - point.y ^ 2 -
      curve.d * point.x ^ 2 * point.y ^ 2 * (curve.root ^ 2 - 1)) * square

@[simp] theorem turn_x (point : Point curve) : (turn point).x = curve.root * point.y := rfl

@[simp] theorem turn_y (point : Point curve) : (turn point).y = curve.root * point.x := rfl

theorem turn_add (first second : Point curve) : turn first + second = turn (first + second) := by
  have product_turn : product (turn first) second = -product first second := by
    rw [product, product, turn_x, turn_y]
    linear_combination curve.d * first.x * second.x * first.y * second.y * curve.root_sq
  refine Point.ext ?_ ?_
  · rw [add_x, product_turn, turn_x, turn_x, turn_y, add_y]
    ring
  · rw [add_y, product_turn, turn_x, turn_y, turn_y, add_x]
    ring

/-- The denominator of a sum with the sum of two points, over one denominator. -/
theorem one_add_product_add (first second third : Point curve) :
    1 + product (first + second) third =
      (1 - product first second ^ 2 + curve.d * (first.x * second.y + second.x * first.y) *
        (first.y * second.y + first.x * second.x) * third.x * third.y) /
      ((1 + product first second) * (1 - product first second)) := by
  have plus := one_add_product_ne first second
  have minus := one_sub_product_ne first second
  rw [product.eq_def (first + second), add_x, add_y]
  field_simp
  ring

/-- The first coordinate of a sum of three points. -/
theorem add_add_x (first second third : Point curve) : (first + second + third).x =
    ((first.x * second.y + second.x * first.y) * (1 - product first second) * third.y +
      (first.y * second.y + first.x * second.x) * (1 + product first second) * third.x) /
    (1 - product first second ^ 2 + curve.d * (first.x * second.y + second.x * first.y) *
      (first.y * second.y + first.x * second.x) * third.x * third.y) := by
  have plus := one_add_product_ne first second
  have minus := one_sub_product_ne first second
  have numerator : (first + second).x * third.y + third.x * (first + second).y =
      ((first.x * second.y + second.x * first.y) * (1 - product first second) * third.y +
        (first.y * second.y + first.x * second.x) * (1 + product first second) * third.x) /
      ((1 + product first second) * (1 - product first second)) := by
    rw [add_x, add_y]
    field_simp
  rw [add_x, numerator, one_add_product_add, div_div_div_cancel_right₀ (mul_ne_zero plus minus)]

theorem add_assoc_x (first second third : Point curve) :
    (first + second + third).x = (first + (second + third)).x := by
  have left := one_add_product_ne (first + second) third
  have right := one_add_product_ne (second + third) first
  rw [one_add_product_add, div_ne_zero_iff] at left right
  rw [Point.add_comm first (second + third), add_add_x, add_add_x, div_eq_div_iff left.1 right.1]
  exact first.on.assoc second.on third.on

protected theorem add_assoc (first second third : Point curve) :
    first + second + third = first + (second + third) := by
  refine Point.ext (add_assoc_x first second third) ?_
  have turned := add_assoc_x (turn first) second third
  rw [turn_add, turn_add, turn_add, turn_x, turn_x] at turned
  have root_ne : curve.root ≠ 0 := by
    intro zero
    have square := curve.root_sq
    rw [zero] at square
    norm_num at square
  exact mul_left_cancel₀ root_ne turned

instance : AddCommGroup (Point curve) where
  add_assoc := Point.add_assoc
  zero_add := Point.zero_add
  add_zero point := (Point.add_comm point 0).trans (Point.zero_add point)
  add_comm := Point.add_comm
  neg_add_cancel := Point.neg_add_cancel
  nsmul := nsmulRec
  zsmul := zsmulRec

end Point

/-! ### A common denominator -/

/-- Two coordinates, their common denominator, and the product of the coordinates over it. -/
structure Extended (F : Type*) where
  x : F
  y : F
  z : F
  t : F

/-- What the coordinates stand for. -/
structure Extended.Of (coordinates : Extended F) (point : Point curve) : Prop where
  z : coordinates.z ≠ 0
  x : coordinates.x = point.x * coordinates.z
  y : coordinates.y = point.y * coordinates.z
  t : coordinates.t = point.x * point.y * coordinates.z

section Ring

variable {R S : Type*} [CommRing R] [CommRing S]

/-- The sum of two points, with nine multiplications. -/
def Extended.add (d : R) (first second : Extended R) : Extended R :=
  let a := (first.y - first.x) * (second.y - second.x)
  let b := (first.x + first.y) * (second.x + second.y)
  let c := first.t * second.t * (2 * d)
  let e := first.z * second.z + first.z * second.z
  { x := (b - a) * (e - c)
    y := (b + a) * (e + c)
    z := (e + c) * (e - c)
    t := (b - a) * (b + a) }

/-- The coordinates in another ring. -/
def Extended.map (function : R → S) (coordinates : Extended R) : Extended S where
  x := function coordinates.x
  y := function coordinates.y
  z := function coordinates.z
  t := function coordinates.t

/-- The remainders of the coordinates. -/
def Extended.mod (modulus : ℤ) (coordinates : Extended ℤ) : Extended ℤ :=
  coordinates.map (· % modulus)

/-- The multiple of a point that the bits of a number give, from the highest on. -/
def Extended.multiple (modulus d : ℤ) (base : Extended ℤ) : List Bool → Extended ℤ → Extended ℤ
  | [], coordinates => coordinates
  | bit :: bits, coordinates =>
    let twice := (coordinates.add d coordinates).mod modulus
    multiple modulus d base bits (if bit then (twice.add d base).mod modulus else twice)

theorem Extended.map_add (function : R →+* S) (d : R) (first second : Extended R) :
    (first.add d second).map function =
      (first.map function).add (function d) (second.map function) := by
  have two : function 2 = 2 := map_ofNat function 2
  simp [Extended.add, Extended.map, two]

end Ring

theorem Extended.Of.zero : Extended.Of ⟨0, 1, 1, 0⟩ (0 : Point curve) := by
  constructor <;> simp

theorem Extended.Of.add {first second : Extended F} {left right : Point curve}
    (firstOf : first.Of left) (secondOf : second.Of right) :
    (first.add curve.d second).Of (left + right) := by
  have plus := Point.one_add_product_ne left right
  have minus := Point.one_sub_product_ne left right
  have common := mul_ne_zero curve.two_ne (mul_ne_zero firstOf.z secondOf.z)
  have sum : first.z * second.z + first.z * second.z + first.t * second.t * (2 * curve.d) =
      2 * (first.z * second.z) * (1 + Point.product left right) := by
    rw [firstOf.t, secondOf.t, Point.product]
    ring
  have difference : first.z * second.z + first.z * second.z - first.t * second.t * (2 * curve.d) =
      2 * (first.z * second.z) * (1 - Point.product left right) := by
    rw [firstOf.t, secondOf.t, Point.product]
    ring
  have sumOfProducts : (first.x + first.y) * (second.x + second.y) +
      (first.y - first.x) * (second.y - second.x) =
      2 * (first.z * second.z) * (left.y * right.y + left.x * right.x) := by
    rw [firstOf.x, firstOf.y, secondOf.x, secondOf.y]
    ring
  have differenceOfProducts : (first.x + first.y) * (second.x + second.y) -
      (first.y - first.x) * (second.y - second.x) =
      2 * (first.z * second.z) * (left.x * right.y + right.x * left.y) := by
    rw [firstOf.x, firstOf.y, secondOf.x, secondOf.y]
    ring
  unfold Extended.add
  simp only [sum, difference, sumOfProducts, differenceOfProducts]
  constructor
  · exact mul_ne_zero (mul_ne_zero common plus) (mul_ne_zero common minus)
  · rw [Point.add_x]
    field_simp
  · rw [Point.add_y]
    field_simp
  · rw [Point.add_x, Point.add_y]
    field_simp

/-- A point whose first coordinate is zero and whose second one is the denominator. -/
theorem Extended.Of.eq_zero {coordinates : Extended F} {point : Point curve}
    (known : coordinates.Of point) (first : coordinates.x = 0)
    (second : coordinates.y = coordinates.z) : point = 0 := by
  refine Point.ext ?_ ?_
  · exact (mul_eq_zero.mp (known.x.symm.trans first)).resolve_right known.z
  · exact mul_right_cancel₀ known.z ((known.y.symm.trans second).trans (one_mul _).symm)

section Multiples

variable {modulus d : ℤ} (vanishes : (modulus : F) = 0) (same : (d : F) = curve.d)

include vanishes

theorem Extended.map_mod (coordinates : Extended ℤ) :
    (coordinates.mod modulus).map (Int.cast : ℤ → F) = coordinates.map Int.cast := by
  have cast (number : ℤ) : ((number % modulus : ℤ) : F) = number := by
    rw [Int.emod_def, Int.cast_sub, Int.cast_mul, vanishes, zero_mul, sub_zero]
  unfold Extended.mod Extended.map
  simp only [cast]

include same

theorem Extended.Of.add_mod {first second : Extended ℤ} {left right : Point curve}
    (firstOf : (first.map Int.cast).Of left) (secondOf : (second.map Int.cast).Of right) :
    (((first.add d second).mod modulus).map Int.cast).Of (left + right) := by
  rw [Extended.map_mod vanishes]
  have sum := Extended.map_add (Int.castRingHom F) d first second
  rw [eq_intCast, same] at sum
  exact sum ▸ firstOf.add secondOf

/-- The bits are read as a number, to which the number of the coordinates is the higher part. -/
theorem Extended.Of.multiple {base coordinates : Extended ℤ} {point : Point curve}
    (baseOf : (base.map Int.cast).Of point) (bits : List Bool) {count : Nat}
    (known : (coordinates.map Int.cast).Of (count • point)) :
    ((Extended.multiple modulus d base bits coordinates).map Int.cast).Of
      (bits.foldl (fun count bit => 2 * count + bit.toNat) count • point) := by
  induction bits generalizing coordinates count with
  | nil => exact known
  | cons bit bits inductionHypothesis =>
    have twice := known.add_mod vanishes same known
    rw [← two_nsmul, smul_smul] at twice
    refine inductionHypothesis ?_
    cases bit with
    | false => exact twice
    | true =>
      show Extended.Of _ ((2 * count + 1) • point)
      rw [succ_nsmul]
      exact twice.add_mod vanishes same baseOf

end Multiples

end LightWallet.Edwards
