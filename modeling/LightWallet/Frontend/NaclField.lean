/-
This file models the arithmetic that the scripts do in the field of the curve: sums, products and
powers of numbers modulo `2 ^ 255 - 19`, each in sixteen limbs, which are doubles.

Every operation rounds. As long as the limbs that it is given are small enough nothing is lost, and
the result is the one of the field. The limbs of a product are small again, so that three of them
may be added before the next product.
-/

import LightWallet.Doubles
import LightWallet.SignedLimbs
import Mathlib.Data.ZMod.Basic
import Mathlib.Tactic.LinearCombination

namespace LightWallet.Frontend.Nacl

open Doubles SignedLimbs

/-- A number of the field in its limbs. -/
@[ext] structure Gf where
  limbs : List ℤ
  length_eq : limbs.length = 16

/-- `gf`. -/
def gf (init : List ℤ) : Gf where
  limbs := (init ++ List.replicate 16 0).take 16
  length_eq := by simp

/-- `gf0`. -/
def gf0 : Gf := gf []

/-- `gf1`. -/
def gf1 : Gf := gf [1]

/-- `D`. -/
def D : Gf := gf [0x78a3, 0x1359, 0x4dca, 0x75eb, 0xd8ab, 0x4141, 0x0a4d, 0x0070, 0xe898, 0x7779,
  0x4079, 0x8cc7, 0xfe73, 0x2b6f, 0x6cee, 0x5203]

/-- `D2`. -/
def D2 : Gf := gf [0xf159, 0x26b2, 0x9b94, 0xebd6, 0xb156, 0x8283, 0x149a, 0x00e0, 0xd130, 0xeef3,
  0x80f2, 0x198e, 0xfce7, 0x56df, 0xd9dc, 0x2406]

/-- `X`. -/
def X : Gf := gf [0xd51a, 0x8f25, 0x2d60, 0xc956, 0xa7b2, 0x9525, 0xc760, 0x692c, 0xdc5c, 0xfdd6,
  0xe231, 0xc0a4, 0x53fe, 0xcd6e, 0x36d3, 0x2169]

/-- `Y`. -/
def Y : Gf := gf [0x6658, 0x6666, 0x6666, 0x6666, 0x6666, 0x6666, 0x6666, 0x6666, 0x6666, 0x6666,
  0x6666, 0x6666, 0x6666, 0x6666, 0x6666, 0x6666]

/-- `I`. -/
def I : Gf := gf [0xa0b0, 0x4a0e, 0x1b27, 0xc4ee, 0xe478, 0xad2f, 0x1806, 0x2f43, 0xd7a7, 0x3dfb,
  0x0099, 0x2b4d, 0xdf0b, 0x4fc1, 0x2480, 0x2b83]

/-- `set25519`. -/
def set25519 (a : Gf) : Gf where
  limbs := a.limbs.map fun limb => (int32 limb).toInt
  length_eq := by rw [List.length_map, a.length_eq]

/-- The loop of `car25519` over the limbs that are left. What is handed on is one too large. -/
def carry : ℤ → List ℤ → List ℤ × ℤ
  | c, [] => ([], c)
  | c, limb :: limbs =>
    let v := addInt (addInt limb c) 65535
    let next := floorDiv v 65536
    let rest := carry next limbs
    (subInt v (mulInt next 65536) :: rest.1, rest.2)

/-- `o[0] += number`. -/
def addToFirst (limbs : List ℤ) (number : ℤ) : List ℤ :=
  limbs.modifyHead fun first => addInt first number

theorem length_carry (c : ℤ) (limbs : List ℤ) : (carry c limbs).1.length = limbs.length := by
  induction limbs generalizing c with
  | nil => rfl
  | cons limb limbs inductionHypothesis =>
    simp only [carry, List.length_cons, inductionHypothesis]

/-- `car25519`. -/
def car25519 (o : Gf) : Gf :=
  let carried := carry 1 o.limbs
  { limbs := addToFirst carried.1
      (addInt (subInt carried.2 1) (mulInt 37 (subInt carried.2 1)))
    length_eq := by rw [addToFirst, List.length_modifyHead, length_carry, o.length_eq] }

/-- The limbs of two numbers, exchanged if `c` has all bits set. -/
def selectLimbs (c : ℤ) (first second : ℤ) : ℤ × ℤ :=
  let t := andInt c (xorInt first second)
  (xorInt first t, xorInt second t)

/-- `sel25519`. -/
def sel25519 (p q : Gf) (b : ℤ) : Gf × Gf :=
  let c := notInt (subInt b 1)
  ({ limbs := List.zipWith (fun first second => (selectLimbs c first second).1) p.limbs q.limbs
     length_eq := by rw [List.length_zipWith, p.length_eq, q.length_eq, min_self] },
    { limbs := List.zipWith (fun first second => (selectLimbs c first second).2) p.limbs q.limbs
      length_eq := by rw [List.length_zipWith, p.length_eq, q.length_eq, min_self] })

/-- `A`. -/
def A (a b : Gf) : Gf where
  limbs := List.zipWith addInt a.limbs b.limbs
  length_eq := by rw [List.length_zipWith, a.length_eq, b.length_eq, min_self]

/-- `Z`. -/
def Z (a b : Gf) : Gf where
  limbs := List.zipWith subInt a.limbs b.limbs
  length_eq := by rw [List.length_zipWith, a.length_eq, b.length_eq, min_self]

/-- One limb times a number is added to what there is. -/
def mulRow (v : ℤ) : List ℤ → List ℤ → List ℤ
  | t :: sums, limb :: limbs => addInt t (mulInt v limb) :: mulRow v sums limbs
  | sums, _ => sums

/-- The rows of all limbs, each one place higher than the last. -/
def mulRows (sums : List ℤ) (b : List ℤ) : List ℤ → List ℤ
  | [] => sums
  | v :: a =>
    match mulRow v sums b with
    | [] => []
    | t :: higher => t :: mulRows higher b a

/-- The sums of the higher places are added to the lower ones. -/
def foldHigh : List ℤ → List ℤ → List ℤ
  | t :: low, high :: higher => addInt t (mulInt 38 high) :: foldHigh low higher
  | low, _ => low

theorem length_mulRow (v : ℤ) (sums limbs : List ℤ) :
    (mulRow v sums limbs).length = sums.length := by
  induction sums generalizing limbs with
  | nil => cases limbs <;> rfl
  | cons t sums inductionHypothesis =>
    cases limbs with
    | nil => rfl
    | cons limb limbs => rw [mulRow, List.length_cons, List.length_cons, inductionHypothesis]

theorem length_mulRows (sums b a : List ℤ) : (mulRows sums b a).length = sums.length := by
  induction a generalizing sums with
  | nil => rfl
  | cons v a inductionHypothesis =>
    have same := length_mulRow v sums b
    unfold mulRows
    cases row : mulRow v sums b with
    | nil => rw [← same, row]
    | cons t higher =>
      rw [row] at same
      rw [List.length_cons, inductionHypothesis, ← same, List.length_cons]

theorem length_foldHigh (low high : List ℤ) : (foldHigh low high).length = low.length := by
  induction low generalizing high with
  | nil => cases high <;> rfl
  | cons t low inductionHypothesis =>
    cases high with
    | nil => rfl
    | cons first high => rw [foldHigh, List.length_cons, List.length_cons, inductionHypothesis]

/-- The sums that `M` carries. -/
def mulSums (a b : Gf) : Gf :=
  let sums := mulRows (List.replicate 31 0) b.limbs a.limbs
  { limbs := foldHigh (sums.take 16) (sums.drop 16)
    length_eq := by
      rw [length_foldHigh, List.length_take, length_mulRows, List.length_replicate]
      rfl }

/-- The carries of `M` are written out as those of `car25519`. -/
def M (a b : Gf) : Gf := car25519 (car25519 (mulSums a b))

/-- `S`. -/
def S (a : Gf) : Gf := M a a

/-- The loop of `inv25519` and of `pow2523`, which does not multiply at some places. -/
def powLoop (skipped : Nat → Bool) (i : Gf) (places : List Nat) (c : Gf) : Gf :=
  places.foldl (fun c a => if skipped a then S c else M (S c) i) c

/-- `inv25519`. -/
def inv25519 (i : Gf) : Gf := powLoop (fun a => a == 2 || a == 4) i (List.range 254).reverse i

/-- `pow2523`. -/
def pow2523 (i : Gf) : Gf := powLoop (fun a => a == 1) i (List.range 251).reverse i

/-! ### Numbers -/

/-- What the numbers are counted modulo. -/
def modulus : Nat := 2 ^ 255 - 19

instance : NeZero modulus := ⟨by norm_num [modulus]⟩

/-- The integer of the limbs. -/
def Gf.number (o : Gf) : ℤ := value 65536 o.limbs

/-- The number of the field. -/
def Gf.denote (o : Gf) : ZMod modulus := (o.number : ZMod modulus)

/-- No limb is larger than the bound, of either sign. -/
def Gf.Within (bound : ℤ) (o : Gf) : Prop := Bounded bound o.limbs

theorem Gf.Within.mono {bound larger : ℤ} {o : Gf} (within : o.Within bound)
    (le : bound ≤ larger) : o.Within larger := Bounded.mono within le

theorem Gf.Within.abs_number_le {bound : ℤ} {o : Gf} (within : o.Within bound)
    (nonnegative : 0 ≤ bound) : |o.number| ≤ bound * (2 ^ 256 - 1) := by
  have le := SignedLimbs.abs_value_le (by norm_num : (2 : ℤ) ≤ 65536) within nonnegative
  rw [o.length_eq] at le
  norm_num at le ⊢
  exact le

/-! ### Carries -/

/-- A pass over limbs that are not too large leaves the digits of their number, and hands on what is
left of it. -/
theorem carry_eq {limbs : List ℤ} (bounded : Bounded (2 ^ 52 - 1) limbs) {c : ℤ}
    (small : |c| ≤ 2 ^ 40) : carry (c + 1) limbs =
      (digits 65536 limbs.length (value 65536 limbs + c),
        (value 65536 limbs + c) / 65536 ^ limbs.length + 1) := by
  induction limbs generalizing c with
  | nil => simp [carry, digits]
  | cons limb limbs inductionHypothesis =>
    obtain ⟨first, rest⟩ := bounded_cons.mp bounded
    rw [abs_le] at first small
    have sum : addInt (addInt limb (c + 1)) 65535 = limb + c + 65536 := by
      rw [addInt_eq (show |limb + (c + 1)| < 2 ^ 53 from abs_lt.mpr ⟨by omega, by omega⟩),
        addInt_eq (abs_lt.mpr ⟨by omega, by omega⟩)]
      ring
    have next : floorDiv (limb + c + 65536) 65536 = (limb + c) / 65536 + 1 := by
      have exact := floorDiv_two_pow (show |limb + c + 65536| < 2 ^ 53 from
        abs_lt.mpr ⟨by omega, by omega⟩) 16
      norm_num at exact
      rw [exact]
      omega
    have kept : subInt (limb + c + 65536) (mulInt ((limb + c) / 65536 + 1) 65536) =
        (limb + c) % 65536 := by
      rw [mulInt_eq (abs_lt.mpr ⟨by omega, by omega⟩), subInt_eq (abs_lt.mpr ⟨by omega, by omega⟩)]
      omega
    have whole : value 65536 (limb :: limbs) + c = limb + c + 65536 * value 65536 limbs := by
      rw [value_cons]
      ring
    simp only [carry, sum, next, kept]
    rw [inductionHypothesis rest (abs_le.mpr ⟨by omega, by omega⟩), whole, List.length_cons, digits,
      Int.add_mul_emod_self_left, Int.add_mul_ediv_left _ _ (by norm_num), pow_succ',
      ← Int.ediv_ediv_of_nonneg (by norm_num), Int.add_mul_ediv_left _ _ (by norm_num),
      add_comm ((limb + c) / 65536)]

/-- A number with what exceeds 256 bits folded back to the lowest place. -/
def reduce (number : ℤ) : ℤ := number % 2 ^ 256 + 38 * (number / 2 ^ 256)

theorem cast_reduce (number : ℤ) : (reduce number : ZMod modulus) = number := by
  have parts := Int.emod_add_mul_ediv number (2 ^ 256)
  have difference : number - reduce number = (modulus : ℤ) * (2 * (number / 2 ^ 256)) := by
    unfold reduce modulus
    norm_num
    omega
  rw [← sub_eq_zero, ← Int.cast_sub, ← neg_sub, difference, Int.cast_neg, Int.cast_mul]
  simp

theorem Gf.Within.handed_le {o : Gf} {bound : ℤ} (within : o.Within bound)
    (nonnegative : 0 ≤ bound) : |o.number / 2 ^ 256| ≤ bound := by
  have size := abs_le.mp (within.abs_number_le nonnegative)
  exact abs_le.mpr ⟨by omega, by omega⟩

/-- The limbs are small enough to be carried. -/
structure Gf.Carries (o : Gf) : Prop where
  within : o.Within (2 ^ 52 - 1)
  handed : |o.number / 2 ^ 256| ≤ 2 ^ 46

theorem Gf.Within.carries {o : Gf} {bound : ℤ} (within : o.Within bound) (small : bound ≤ 2 ^ 46)
    (nonnegative : 0 ≤ bound) : o.Carries where
  within := within.mono (by omega)
  handed := (within.handed_le nonnegative).trans small

/-- What `car25519` makes of limbs. -/
theorem car25519_limbs {o : Gf} (carries : o.Carries) : ∃ first rest,
    digits 65536 16 o.number = first :: rest ∧
      (car25519 o).limbs = (first + 38 * (o.number / 2 ^ 256)) :: rest := by
  have carried := carry_eq (c := 0) carries.within (by norm_num)
  rw [zero_add, add_zero, o.length_eq] at carried
  refine ⟨_, _, rfl, ?_⟩
  have proper := Int.emod_nonneg o.number (by norm_num : (65536 : ℤ) ≠ 0)
  have below := Int.emod_lt_of_pos o.number (by norm_num : (0 : ℤ) < 65536)
  have power : (65536 : ℤ) ^ 16 = 2 ^ 256 := by norm_num
  have handed := abs_le.mp carries.handed
  unfold car25519
  simp only [carried, power]
  rw [show value 65536 o.limbs = o.number from rfl, digits, addToFirst, List.modifyHead_cons]
  have one : subInt (o.number / 2 ^ 256 + 1) 1 = o.number / 2 ^ 256 := by
    rw [subInt_eq (abs_lt.mpr ⟨by omega, by omega⟩), add_sub_cancel_right]
  have folded : addInt (o.number / 2 ^ 256) (mulInt 37 (o.number / 2 ^ 256)) =
      38 * (o.number / 2 ^ 256) := by
    rw [mulInt_eq (abs_lt.mpr ⟨by omega, by omega⟩), addInt_eq (abs_lt.mpr ⟨by omega, by omega⟩)]
    ring
  rw [one, folded, addInt_eq (abs_lt.mpr ⟨by omega, by omega⟩)]

theorem number_car25519 {o : Gf} (carries : o.Carries) :
    (car25519 o).number = reduce o.number := by
  obtain ⟨first, rest, same, limbs⟩ := car25519_limbs carries
  have whole := value_digits (by norm_num : (0 : ℤ) < 65536) 16 o.number
  rw [same, value_cons] at whole
  unfold Gf.number at *
  rw [limbs, value_cons, reduce]
  norm_num at whole ⊢
  omega

theorem denote_car25519 {o : Gf} (carries : o.Carries) : (car25519 o).denote = o.denote := by
  unfold Gf.denote
  rw [number_car25519 carries, cast_reduce]

/-- All limbs but the first are digits. -/
theorem within_car25519 {o : Gf} (carries : o.Carries) {left : ℤ}
    (handed : |o.number / 2 ^ 256| ≤ left) : (car25519 o).Within (65535 + 38 * left) := by
  obtain ⟨first, rest, same, limbs⟩ := car25519_limbs carries
  have proper := proper_digits (by norm_num : (0 : ℤ) < 65536) 16 o.number
  rw [same, proper_cons] at proper
  rw [abs_le] at handed
  unfold Gf.Within
  rw [limbs, bounded_cons]
  exact ⟨abs_le.mpr ⟨by omega, by omega⟩, proper.2.bounded.mono (by omega)⟩

/-- After a pass at most one is left to be folded back. -/
theorem handed_car25519 {o : Gf} (carries : o.Carries) :
    |(car25519 o).number / 2 ^ 256| ≤ 1 := by
  have handed := abs_le.mp carries.handed
  rw [number_car25519 carries, reduce, abs_le]
  constructor <;> omega

theorem carries_car25519 {o : Gf} (carries : o.Carries) : (car25519 o).Carries where
  within := (within_car25519 carries carries.handed).mono (by norm_num)
  handed := (handed_car25519 carries).trans (by norm_num)

/-! ### Products -/

theorem abs_add_mul_le {t v limb most left right : ℤ} (sum : |t| ≤ most) (first : |v| ≤ left)
    (second : |limb| ≤ right) : |t + v * limb| ≤ most + left * right := by
  have product : |v * limb| ≤ left * right := by
    rw [abs_mul]
    exact mul_le_mul first second (abs_nonneg limb) ((abs_nonneg v).trans first)
  exact (abs_add_le t (v * limb)).trans (add_le_add sum product)

theorem addInt_mulInt_eq {t v limb most left right : ℤ} (sum : |t| ≤ most) (first : |v| ≤ left)
    (second : |limb| ≤ right) (fits : most + left * right < 2 ^ 53) :
    addInt t (mulInt v limb) = t + v * limb := by
  have product := abs_add_mul_le (abs_zero.trans_le ((abs_nonneg t).trans sum)) first second
  rw [zero_add] at product
  rw [mulInt_eq (product.trans_lt fits),
    addInt_eq ((abs_add_mul_le sum first second).trans_lt fits)]

/-- A row adds the limbs of a product, as long as they do not become too large. -/
theorem mulRow_spec {v most left right : ℤ} (first : |v| ≤ left) (nonnegative : 0 ≤ right)
    (fits : most + left * right < 2 ^ 53) {sums limbs : List ℤ} (known : Bounded most sums)
    (second : Bounded right limbs) (room : limbs.length ≤ sums.length) :
    Bounded (most + left * right) (mulRow v sums limbs) ∧
      value 65536 (mulRow v sums limbs) = value 65536 sums + v * value 65536 limbs := by
  induction sums generalizing limbs with
  | nil =>
    obtain rfl : limbs = [] := List.eq_nil_of_length_eq_zero (Nat.le_zero.mp room)
    simp [mulRow, Bounded]
  | cons t sums inductionHypothesis =>
    obtain ⟨sum, known⟩ := bounded_cons.mp known
    cases limbs with
    | nil =>
      have product := mul_nonneg ((abs_nonneg v).trans first) nonnegative
      exact ⟨bounded_cons.mpr ⟨by omega, known.mono (by omega)⟩, by simp [mulRow]⟩
    | cons limb limbs =>
      obtain ⟨factor, second⟩ := bounded_cons.mp second
      obtain ⟨bounded, same⟩ := inductionHypothesis known second (Nat.le_of_succ_le_succ room)
      rw [mulRow, addInt_mulInt_eq sum first factor fits, bounded_cons, value_cons, same,
        value_cons, value_cons]
      refine ⟨⟨abs_add_mul_le sum first factor, bounded⟩, ?_⟩
      ring

/-- All rows add the limbs of the product of two numbers. -/
theorem mulRows_spec {left right : ℤ} (nonnegative : 0 ≤ right) {a b : List ℤ}
    (first : Bounded left a) (second : Bounded right b) {sums : List ℤ} {most : ℤ}
    (known : Bounded most sums) (fits : most + a.length * (left * right) < 2 ^ 53)
    (room : a.length + b.length ≤ sums.length + 1) :
    Bounded (most + a.length * (left * right)) (mulRows sums b a) ∧
      value 65536 (mulRows sums b a) = value 65536 sums + value 65536 a * value 65536 b := by
  induction a generalizing sums most with
  | nil => simpa [mulRows] using known
  | cons v a inductionHypothesis =>
    obtain ⟨factor, first⟩ := bounded_cons.mp first
    rw [List.length_cons] at fits room
    have product := mul_nonneg ((abs_nonneg v).trans factor) nonnegative
    have later : (0 : ℤ) ≤ a.length * (left * right) := mul_nonneg (Int.natCast_nonneg _) product
    have total : most + ((a.length + 1 : Nat) : ℤ) * (left * right) =
        most + left * right + a.length * (left * right) := by
      push_cast
      ring
    rw [total] at fits
    obtain ⟨bounded, same⟩ := mulRow_spec factor nonnegative (by omega) known second (by omega)
    have length := length_mulRow v sums b
    unfold mulRows
    cases row : mulRow v sums b with
    | nil =>
      rw [row, List.length_nil] at length
      obtain rfl : b = [] := List.eq_nil_of_length_eq_zero (by omega)
      obtain rfl : sums = [] := List.eq_nil_of_length_eq_zero length.symm
      simp [Bounded]
    | cons t higher =>
      rw [row] at bounded same length
      obtain ⟨sum, bounded⟩ := bounded_cons.mp bounded
      obtain ⟨rest, value⟩ := inductionHypothesis first bounded fits (by
        rw [List.length_cons] at length
        omega)
      rw [List.length_cons, total]
      refine ⟨bounded_cons.mpr ⟨by omega, rest⟩, ?_⟩
      rw [value_cons, value, value_cons]
      rw [value_cons] at same
      linear_combination same

theorem foldHigh_spec {most : ℤ} (fits : 39 * most < 2 ^ 53) {low high : List ℤ}
    (lower : Bounded most low) (higher : Bounded most high) (room : high.length ≤ low.length) :
    Bounded (39 * most) (foldHigh low high) ∧
      value 65536 (foldHigh low high) = value 65536 low + 38 * value 65536 high := by
  induction low generalizing high with
  | nil =>
    obtain rfl : high = [] := List.eq_nil_of_length_eq_zero (Nat.le_zero.mp room)
    simp [foldHigh, Bounded]
  | cons t low inductionHypothesis =>
    obtain ⟨sum, lower⟩ := bounded_cons.mp lower
    have nonnegative := (abs_nonneg t).trans sum
    cases high with
    | nil => exact ⟨bounded_cons.mpr ⟨by omega, lower.mono (by omega)⟩, by simp [foldHigh]⟩
    | cons first high =>
      obtain ⟨factor, higher⟩ := bounded_cons.mp higher
      obtain ⟨bounded, same⟩ := inductionHypothesis lower higher (Nat.le_of_succ_le_succ room)
      have large : |(38 : ℤ)| ≤ 38 := (abs_of_pos (by norm_num)).le
      have added := abs_add_mul_le sum large factor
      rw [foldHigh, addInt_mulInt_eq sum large factor (by omega), bounded_cons, value_cons, same,
        value_cons, value_cons]
      refine ⟨⟨by omega, bounded⟩, ?_⟩
      ring

/-- The limbs of a factor are small enough. -/
def Gf.Small (o : Gf) : Prop := o.Within (2 ^ 18)

/-- The limbs of a product. -/
def Gf.Tight (o : Gf) : Prop := o.Within 65573

theorem Gf.Tight.small {o : Gf} (tight : o.Tight) : o.Small := tight.mono (by norm_num)

theorem mulSums_spec {a b : Gf} (first : a.Small) (second : b.Small) :
    (mulSums a b).Within (2 ^ 46) ∧ (mulSums a b).denote = a.denote * b.denote := by
  have zeros : Bounded 0 (List.replicate 31 0) := by
    intro limb member
    rw [(List.mem_replicate.mp member).2, abs_zero]
  obtain ⟨bounded, same⟩ := mulRows_spec (by norm_num) first second zeros
    (by rw [a.length_eq]; norm_num) (by rw [a.length_eq, b.length_eq]; rfl)
  have length := length_mulRows (List.replicate 31 0) b.limbs a.limbs
  rw [List.length_replicate] at length
  rw [a.length_eq] at bounded
  rw [value_replicate_zero, zero_add] at same
  generalize rows : mulRows (List.replicate 31 0) b.limbs a.limbs = sums at *
  have lower : Bounded (16 * 2 ^ 36) (sums.take 16) := fun limb member =>
    (bounded limb (List.mem_of_mem_take member)).trans (by norm_num)
  have higher : Bounded (16 * 2 ^ 36) (sums.drop 16) := fun limb member =>
    (bounded limb (List.mem_of_mem_drop member)).trans (by norm_num)
  obtain ⟨folded, number⟩ := foldHigh_spec (by norm_num) lower higher (by
    rw [List.length_take, List.length_drop]
    omega)
  have whole : value 65536 (sums.take 16) + 2 ^ 256 * value 65536 (sums.drop 16) =
      a.number * b.number := by
    have parts : value 65536 (sums.take 16 ++ sums.drop 16) = _ := value_append _ _
    rw [List.take_append_drop, List.length_take, length,
      show (65536 : ℤ) ^ min 16 31 = 2 ^ 256 by norm_num] at parts
    exact parts.symm.trans same
  unfold mulSums Gf.Within Gf.denote Gf.number
  simp only [rows]
  refine ⟨folded.mono (by norm_num), ?_⟩
  rw [number, ← Int.cast_mul, ← sub_eq_zero, ← Int.cast_sub]
  have multiple : value 65536 (sums.take 16) + 38 * value 65536 (sums.drop 16) -
      value 65536 a.limbs * value 65536 b.limbs =
      (modulus : ℤ) * (-2 * value 65536 (sums.drop 16)) := by
    unfold Gf.number at whole
    rw [← whole]
    unfold modulus
    norm_num
    ring
  rw [multiple, Int.cast_mul]
  simp

/-- The product of two numbers, with limbs that are small again. -/
theorem M_spec {a b : Gf} (first : a.Small) (second : b.Small) :
    (M a b).Tight ∧ (M a b).denote = a.denote * b.denote := by
  obtain ⟨within, product⟩ := mulSums_spec first second
  have carries := within.carries le_rfl (by norm_num)
  have again := carries_car25519 carries
  unfold M
  rw [denote_car25519 again, denote_car25519 carries, product]
  exact ⟨(within_car25519 again (handed_car25519 carries)).mono (by norm_num), rfl⟩

/-! ### Sums and differences -/

theorem zipWith_spec {operation : ℤ → ℤ → ℤ} {sign left right : ℤ}
    (exact : ∀ first second, |first| ≤ left → |second| ≤ right →
      operation first second = first + sign * second) (unit : |sign| = 1) {a b : List ℤ}
    (first : Bounded left a) (second : Bounded right b) (same : a.length = b.length) :
    Bounded (left + right) (List.zipWith operation a b) ∧
      value 65536 (List.zipWith operation a b) = value 65536 a + sign * value 65536 b := by
  induction a generalizing b with
  | nil =>
    obtain rfl : b = [] := List.eq_nil_of_length_eq_zero same.symm
    simp [Bounded]
  | cons x a inductionHypothesis =>
    cases b with
    | nil => exact absurd same (by simp)
    | cons y b =>
      obtain ⟨small, first⟩ := bounded_cons.mp first
      obtain ⟨other, second⟩ := bounded_cons.mp second
      obtain ⟨bounded, whole⟩ := inductionHypothesis first second (Nat.succ.inj same)
      have sum := abs_add_mul_le small unit.le other
      rw [one_mul] at sum
      rw [List.zipWith_cons_cons, exact x y small other, bounded_cons, value_cons, whole,
        value_cons, value_cons]
      refine ⟨⟨sum, bounded⟩, ?_⟩
      ring

theorem A_spec {a b : Gf} {left right : ℤ} (first : a.Within left) (second : b.Within right)
    (fits : left + right < 2 ^ 53) :
    (A a b).Within (left + right) ∧ (A a b).denote = a.denote + b.denote := by
  have exact (x y : ℤ) (small : |x| ≤ left) (other : |y| ≤ right) : addInt x y = x + 1 * y := by
    rw [one_mul, addInt_eq ((abs_add_le x y).trans_lt (by omega))]
  obtain ⟨within, number⟩ := zipWith_spec exact abs_one first second
    (a.length_eq.trans b.length_eq.symm)
  refine ⟨within, ?_⟩
  unfold Gf.denote Gf.number A
  rw [number, one_mul, Int.cast_add]

theorem Z_spec {a b : Gf} {left right : ℤ} (first : a.Within left) (second : b.Within right)
    (fits : left + right < 2 ^ 53) :
    (Z a b).Within (left + right) ∧ (Z a b).denote = a.denote - b.denote := by
  have exact (x y : ℤ) (small : |x| ≤ left) (other : |y| ≤ right) : subInt x y = x + -1 * y := by
    rw [subInt_eq ((abs_sub x y).trans_lt (by omega))]
    ring
  obtain ⟨within, number⟩ := zipWith_spec exact (by norm_num) first second
    (a.length_eq.trans b.length_eq.symm)
  refine ⟨within, ?_⟩
  unfold Gf.denote Gf.number Z
  rw [number, ← Int.cast_sub]
  congr 1
  ring

/-! ### Selection -/

/-- Limbs that the operators on bits do not change. -/
theorem fits32_of_within {o : Gf} {bound : ℤ} (within : o.Within bound) (small : bound < 2 ^ 31)
    {limb : ℤ} (member : limb ∈ o.limbs) : Fits32 limb := by
  have size := abs_le.mp (within limb member)
  exact ⟨by omega, by omega⟩

theorem set25519_eq {o : Gf} {bound : ℤ} (within : o.Within bound) (small : bound < 2 ^ 31) :
    set25519 o = o := by
  have same : o.limbs.map (fun limb => (int32 limb).toInt) = o.limbs.map id :=
    List.map_congr_left fun limb member => toInt_int32 (fits32_of_within within small member)
  exact Gf.ext (same.trans (List.map_id _))

theorem selectLimbs_kept {first second : ℤ} (fits : Fits32 first) (other : Fits32 second) :
    selectLimbs (notInt (subInt 0 1)) first second = (first, second) := by
  have none : notInt (subInt 0 1) = 0 := by
    rw [subInt_eq (by norm_num)]
    rfl
  simp only [selectLimbs, none, andInt_zero_left, xorInt_zero fits, xorInt_zero other]

theorem selectLimbs_exchanged {first second : ℤ} (fits : Fits32 first) (other : Fits32 second) :
    selectLimbs (notInt (subInt 1 1)) first second = (second, first) := by
  have all : notInt (subInt 1 1) = -1 := by
    rw [subInt_eq (by norm_num)]
    rfl
  simp only [selectLimbs, all, andInt_neg_one_left (fits32_xorInt first second),
    xorInt_xorInt other]
  rw [xorInt_comm first second, xorInt_xorInt fits]

theorem zipWith_left {α : Type*} {operation : α → α → α} {a b : List α}
    (keeps : ∀ x ∈ a, ∀ y ∈ b, operation x y = x) (same : a.length = b.length) :
    List.zipWith operation a b = a := by
  induction a generalizing b with
  | nil => rfl
  | cons x a inductionHypothesis =>
    cases b with
    | nil => exact absurd same (by simp)
    | cons y b =>
      rw [List.zipWith_cons_cons, keeps x List.mem_cons_self y List.mem_cons_self,
        inductionHypothesis (fun x first y second =>
          keeps x (List.mem_cons_of_mem _ first) y (List.mem_cons_of_mem _ second))
          (Nat.succ.inj same)]

section Selection

variable {p q : Gf} {left right : ℤ} (first : p.Within left) (second : q.Within right)
  (fits : left < 2 ^ 31) (other : right < 2 ^ 31)

include first second fits other

theorem sel25519_kept : sel25519 p q 0 = (p, q) := by
  have kept {x y : ℤ} (member : x ∈ p.limbs) (other : y ∈ q.limbs) :=
    selectLimbs_kept (fits32_of_within first fits member) (fits32_of_within second ‹_› other)
  refine Prod.ext (Gf.ext ?_) (Gf.ext ?_)
  · exact zipWith_left (fun x member y other => congrArg Prod.fst (kept member other))
      (p.length_eq.trans q.length_eq.symm)
  · show List.zipWith _ p.limbs q.limbs = q.limbs
    rw [List.zipWith_comm]
    exact zipWith_left (fun y other x member => congrArg Prod.snd (kept member other))
      (q.length_eq.trans p.length_eq.symm)

theorem sel25519_exchanged : sel25519 p q 1 = (q, p) := by
  have exchanged {x y : ℤ} (member : x ∈ p.limbs) (other : y ∈ q.limbs) :=
    selectLimbs_exchanged (fits32_of_within first fits member) (fits32_of_within second ‹_› other)
  refine Prod.ext (Gf.ext ?_) (Gf.ext ?_)
  · show List.zipWith _ p.limbs q.limbs = q.limbs
    rw [List.zipWith_comm]
    exact zipWith_left (fun y other x member => congrArg Prod.fst (exchanged member other))
      (q.length_eq.trans p.length_eq.symm)
  · exact zipWith_left (fun x member y other => congrArg Prod.snd (exchanged member other))
      (p.length_eq.trans q.length_eq.symm)

end Selection

/-! ### Powers -/

/-- The exponent that the loop of a power reaches. -/
def powExponent (skipped : Nat → Bool) (places : List Nat) (exponent : Nat) : Nat :=
  places.foldl (fun exponent a => if skipped a then 2 * exponent else 2 * exponent + 1) exponent

theorem powLoop_spec {skipped : Nat → Bool} {i : Gf} (tight : i.Small) (places : List Nat)
    {c : Gf} {exponent : Nat} (small : c.Small) (power : c.denote = i.denote ^ exponent) :
    (powLoop skipped i places c).Small ∧
      (powLoop skipped i places c).denote = i.denote ^ powExponent skipped places exponent := by
  unfold powLoop powExponent
  induction places generalizing c exponent with
  | nil => exact ⟨small, power⟩
  | cons a places inductionHypothesis =>
    obtain ⟨squareTight, square⟩ := M_spec small small
    rw [List.foldl_cons, List.foldl_cons]
    by_cases skip : skipped a
    · rw [if_pos skip, if_pos skip]
      refine inductionHypothesis squareTight.small ?_
      rw [S, square, power, ← pow_add, two_mul]
    · rw [if_neg skip, if_neg skip]
      obtain ⟨productTight, product⟩ := M_spec squareTight.small tight
      refine inductionHypothesis productTight.small ?_
      rw [S, product, square, power, ← pow_add, ← pow_succ, two_mul]

/-- The inverse is a power, since the modulus is prime. -/
theorem inv25519_spec {i : Gf} (small : i.Small) :
    (inv25519 i).Small ∧ (inv25519 i).denote = i.denote ^ (modulus - 2) := by
  have exponent : powExponent (fun a => a == 2 || a == 4) (List.range 254).reverse 1 =
      modulus - 2 := by decide +kernel
  rw [← exponent]
  exact powLoop_spec small _ small (pow_one i.denote).symm

theorem pow2523_spec {i : Gf} (small : i.Small) :
    (pow2523 i).Small ∧ (pow2523 i).denote = i.denote ^ (2 ^ 252 - 3) := by
  have exponent : powExponent (fun a => a == 1) (List.range 251).reverse 1 = 2 ^ 252 - 3 := by
    decide +kernel
  rw [← exponent]
  exact powLoop_spec small _ small (pow_one i.denote).symm

/-- On limbs that are small enough the operations are those of the field, and their results may be
multiplied again. -/
theorem operations_exact {a b : Gf} (first : a.Within (2 ^ 18)) (second : b.Within (2 ^ 18)) :
    ((A a b).Within (2 ^ 19) ∧ (A a b).denote = a.denote + b.denote) ∧
    ((Z a b).Within (2 ^ 19) ∧ (Z a b).denote = a.denote - b.denote) ∧
    ((M a b).Within 65573 ∧ (M a b).denote = a.denote * b.denote) ∧
    ((inv25519 a).Within (2 ^ 18) ∧ (inv25519 a).denote = a.denote ^ (modulus - 2)) ∧
    (pow2523 a).Within (2 ^ 18) ∧ (pow2523 a).denote = a.denote ^ (2 ^ 252 - 3) := by
  have sum := A_spec first second (by norm_num)
  have difference := Z_spec first second (by norm_num)
  norm_num only at sum difference
  exact ⟨sum, difference, M_spec first second, inv25519_spec first, pow2523_spec first⟩

theorem operations_exact_X_Y : (M X Y).Within 65573 ∧ (M X Y).denote = X.denote * Y.denote :=
  have small : X.Within (2 ^ 18) ∧ Y.Within (2 ^ 18) := by
    constructor <;> norm_num [Gf.Within, Bounded, X, Y, gf]
  (operations_exact small.1 small.2).2.2.1

end LightWallet.Frontend.Nacl
