/-
This file models how the scripts write numbers of the field in bytes, and read them. A number is
written in its only form below the modulus, whatever limbs it has, so that numbers are compared, and
their parity is found, by writing them. What is read need not be below the modulus.
-/

import LightWallet.Frontend.NaclField
import Mathlib.Data.Nat.Digits.Lemmas

namespace LightWallet.Frontend.Nacl

open Doubles SignedLimbs

/-- An array of 32 bytes. -/
abbrev Bytes32 := Vector UInt8 32

/-- The bytes of a list as an array, filled up with zeros. The scripts have lists of 32 bytes. -/
def Bytes32.ofList (bytes : List UInt8) : Bytes32 :=
  ⟨((bytes ++ List.replicate 32 0).take 32).toArray, by simp⟩

/-- `(m >> 16) & 1`. -/
def borrow (m : ℤ) : ℤ := andInt (shiftRightInt m 16) 1

/-- The loop of `pack25519` that subtracts the modulus, from the limb that was subtracted last. -/
def subtractLimbs : ℤ → List ℤ → List ℤ
  | last, [] => [last]
  | previous, limb :: limbs =>
    let m := subInt (subInt limb (if limbs = [] then 0x7fff else 0xffff)) (borrow previous)
    andInt previous 0xffff :: subtractLimbs m limbs

theorem length_subtractLimbs (previous : ℤ) (limbs : List ℤ) :
    (subtractLimbs previous limbs).length = limbs.length + 1 := by
  induction limbs generalizing previous with
  | nil => rfl
  | cons limb limbs inductionHypothesis =>
    simp only [subtractLimbs, List.length_cons, inductionHypothesis]

/-- The limbs `m` that the modulus was subtracted from. -/
def subtractModulus (t : Gf) : Gf where
  limbs := subtractLimbs (subInt (t.limbs.headD 0) 0xffed) t.limbs.tail
  length_eq := by rw [length_subtractLimbs, List.length_tail, t.length_eq]

/-- A round of the loop of `pack25519`. -/
def subtractOnce (t : Gf) : Gf :=
  let m := subtractModulus t
  let b := borrow (m.limbs.getLastD 0)
  (sel25519 t m (subInt 1 b)).1

/-- The two bytes of a limb. -/
def limbBytes (limb : ℤ) : List UInt8 :=
  [UInt8.ofInt (andInt limb 0xff), UInt8.ofInt (shiftRightInt limb 8)]

theorem length_flatMap_limbBytes (limbs : List ℤ) :
    (limbs.flatMap limbBytes).length = 2 * limbs.length := by
  rw [List.length_flatMap]
  simp [limbBytes, mul_comm]

/-- `pack25519`. -/
def pack25519 (n : Gf) : Bytes32 :=
  let t := car25519 (car25519 (car25519 n))
  let packed := subtractOnce (subtractOnce t)
  ⟨(packed.limbs.flatMap limbBytes).toArray, by
    rw [List.size_toArray, length_flatMap_limbBytes, packed.length_eq]⟩

/-- `vn`, on arrays of the length that is compared. -/
def vn (x y : List UInt8) : ℤ :=
  let d : BitVec 32 := (List.zip x y).foldl
    (fun d pair => d ||| (pair.1 ^^^ pair.2).toBitVec.setWidth 32) 0#32
  subInt (1#32 &&& ((d - 1#32) >>> 8)).toInt 1

/-- `neq25519`. -/
def neq25519 (a b : Gf) : ℤ := vn (pack25519 a).toList (pack25519 b).toList

/-- `par25519`. -/
def par25519 (a : Gf) : UInt8 := (pack25519 a)[0] &&& 1

/-- Two bytes are a limb. -/
def joinBytes : List UInt8 → List ℤ
  | low :: high :: bytes => addInt low.toNat (shiftLeftInt high.toNat 8) :: joinBytes bytes
  | _ => []

/-- `o[15] &= 0x7fff`, where there is no limb behind this one. -/
def maskLast : List ℤ → List ℤ
  | [] => []
  | limb :: limbs => if limbs = [] then [andInt limb 0x7fff] else limb :: maskLast limbs

theorem length_joinBytes (bytes : List UInt8) : (joinBytes bytes).length = bytes.length / 2 := by
  induction bytes using joinBytes.induct with
  | case1 low high bytes inductionHypothesis =>
    rw [joinBytes, List.length_cons, inductionHypothesis, List.length_cons, List.length_cons]
    omega
  | case2 bytes short =>
    match bytes, short with
    | [], _ => rfl
    | [_], _ => simp [joinBytes]
    | low :: high :: rest, short => exact absurd rfl (short low high rest)

theorem length_maskLast (limbs : List ℤ) : (maskLast limbs).length = limbs.length := by
  induction limbs with
  | nil => rfl
  | cons limb limbs inductionHypothesis =>
    unfold maskLast
    split
    · next empty => rw [empty]; rfl
    · rw [List.length_cons, inductionHypothesis, List.length_cons]

/-- `unpack25519`. -/
def unpack25519 (n : Bytes32) : Gf where
  limbs := maskLast (joinBytes n.toList)
  length_eq := by rw [length_maskLast, length_joinBytes, Vector.length_toList]

/-! ### Subtracting the modulus -/

theorem borrow_eq {m : ℤ} (lower : -65536 ≤ m) (upper : m < 65536) :
    borrow m = if m < 0 then 1 else 0 := by
  have shifted : shiftRightInt m 16 = m / 65536 :=
    shiftRightInt_eq ⟨by omega, by omega⟩ 16
  have lowest := andInt_mask (m / 65536) 1 (by norm_num)
  norm_num at lowest
  rw [borrow, shifted, lowest]
  split <;> omega

theorem andInt_limb (m : ℤ) : andInt m 0xffff = m % 65536 :=
  andInt_mask m 16 (by norm_num)

/-- The limbs of the modulus that are subtracted from limbs behind the first one. -/
def subtrahends : List ℤ → List ℤ
  | [] => []
  | _ :: limbs => (if limbs = [] then 0x7fff else 0xffff) :: subtrahends limbs

theorem value_subtrahends (limb : ℤ) (limbs : List ℤ) :
    2 * (value 65536 (subtrahends (limb :: limbs)) + 1) = 65536 ^ (limbs.length + 1) := by
  induction limbs generalizing limb with
  | nil => simp [subtrahends]
  | cons next limbs inductionHypothesis =>
    rw [subtrahends, if_neg (List.cons_ne_nil _ _), value_cons, List.length_cons, pow_succ',
      ← inductionHypothesis next]
    ring

/-- The limbs are those of the difference. All but the last are digits, and the last one tells the
sign. -/
theorem subtractLimbs_spec {limbs : List ℤ} (proper : Proper 65536 limbs) {previous : ℤ}
    (lower : -65536 ≤ previous) (upper : previous < 65536) :
    ∃ low last, subtractLimbs previous limbs = low ++ [last] ∧ low.length = limbs.length ∧
      Proper 65536 low ∧ (-65536 ≤ last ∧ last < 65536) ∧
      value 65536 (low ++ [last]) =
        previous + 65536 * (value 65536 limbs - value 65536 (subtrahends limbs)) := by
  induction limbs generalizing previous with
  | nil =>
    exact ⟨[], previous, rfl, rfl, fun _ absent => absurd absent List.not_mem_nil, ⟨lower, upper⟩,
      by simp [subtrahends]⟩
  | cons limb limbs inductionHypothesis =>
    obtain ⟨⟨nonnegative, below⟩, rest⟩ := proper_cons.mp proper
    have borrowed := borrow_eq lower upper
    have bit : 0 ≤ borrow previous ∧ borrow previous ≤ 1 := by
      rw [borrowed]
      split <;> omega
    have split : previous = previous % 65536 - 65536 * borrow previous := by
      rw [borrowed]
      split <;> omega
    set part : ℤ := if limbs = [] then 0x7fff else 0xffff with partEq
    have size : 0 ≤ part ∧ part ≤ 65535 := by
      rw [partEq]
      split <;> omega
    have difference : subInt (subInt limb part) (borrow previous) =
        limb - part - borrow previous := by
      rw [subInt_eq (show |limb - part| < 2 ^ 53 from abs_lt.mpr ⟨by omega, by omega⟩),
        subInt_eq (abs_lt.mpr ⟨by omega, by omega⟩)]
    obtain ⟨low, last, same, length, digits, bounds, number⟩ :=
      inductionHypothesis rest (show -65536 ≤ limb - part - borrow previous by omega) (by omega)
    refine ⟨previous % 65536 :: low, last, ?_, congrArg Nat.succ length,
      proper_cons.mpr ⟨by omega, digits⟩, bounds, ?_⟩
    · rw [subtractLimbs, ← partEq, difference, same, andInt_limb, List.cons_append]
    · rw [List.cons_append, value_cons, number, value_cons, subtrahends, ← partEq, value_cons]
      linear_combination -split

/-- The limbs are digits. -/
def Gf.Proper (o : Gf) : Prop := SignedLimbs.Proper 65536 o.limbs

theorem Gf.Proper.number_nonneg {o : Gf} (proper : o.Proper) : 0 ≤ o.number :=
  value_nonneg (by norm_num) proper

theorem subtractModulus_spec {t : Gf} (proper : t.Proper) :
    ∃ low last, (subtractModulus t).limbs = low ++ [last] ∧ SignedLimbs.Proper 65536 low ∧
      (-65536 ≤ last ∧ last < 65536) ∧ (last < 0 ↔ t.number < modulus) ∧
      (subtractModulus t).number = t.number - modulus := by
  obtain ⟨limbs, length⟩ := t
  obtain ⟨limb, limbs, rfl⟩ := List.exists_cons_of_ne_nil (List.ne_nil_of_length_eq_add_one length)
  unfold Gf.Proper at proper
  obtain ⟨⟨nonnegative, below⟩, rest⟩ := proper_cons.mp proper
  have first : subInt limb 0xffed = limb - 0xffed :=
    subInt_eq (abs_lt.mpr ⟨by omega, by omega⟩)
  obtain ⟨low, last, same, lowLength, digits, bounds, number⟩ := subtractLimbs_spec rest
    (show -65536 ≤ limb - 0xffed by omega) (by omega)
  have count : limbs.length = 15 := Nat.succ.inj length
  have whole : limb - 0xffed + 65536 * (value 65536 limbs - value 65536 (subtrahends limbs)) =
      value 65536 (limb :: limbs) - modulus := by
    obtain ⟨next, limbs, rfl⟩ := List.exists_cons_of_ne_nil
      (List.ne_nil_of_length_eq_add_one count)
    have doubled := value_subtrahends next limbs
    rw [Nat.succ.inj count] at doubled
    norm_num at doubled
    unfold modulus
    rw [value_cons limb]
    norm_num
    omega
  have parts : value 65536 (low ++ [last]) = _ := value_append _ _
  have least := value_nonneg (by norm_num) digits
  have most := value_lt (by norm_num) digits
  rw [lowLength, count, show (65536 : ℤ) ^ 15 = 2 ^ 240 by norm_num] at parts most
  unfold Gf.number subtractModulus
  simp only [List.headD_cons, List.tail_cons]
  rw [first, same, number, whole]
  refine ⟨low, last, rfl, digits, bounds, ?_, rfl⟩
  rw [number, whole, value_cons last, value_nil, mul_zero, add_zero] at parts
  constructor <;> intro sign <;> omega

/-- A round subtracts the modulus once, if the number is not below it. -/
theorem subtractOnce_spec {t : Gf} (proper : t.Proper) : (subtractOnce t).Proper ∧
    (subtractOnce t).number = if t.number < modulus then t.number else t.number - modulus := by
  obtain ⟨low, last, same, digits, bounds, sign, number⟩ := subtractModulus_spec proper
  have tight : t.Within 65535 := proper.bounded
  have difference : (subtractModulus t).Within 65536 := by
    unfold Gf.Within
    rw [same]
    intro limb member
    rcases List.mem_append.mp member with low | last
    · exact (digits.bounded limb low).trans (by norm_num)
    · rw [List.mem_singleton.mp last]
      exact abs_le.mpr ⟨by omega, by omega⟩
  unfold subtractOnce
  simp only [same, List.getLastD_concat, borrow_eq bounds.1 bounds.2, sign]
  by_cases small : t.number < modulus
  · rw [if_pos small, if_pos small, show subInt 1 1 = 0 from subInt_eq (by norm_num),
      sel25519_kept tight difference (by norm_num) (by norm_num)]
    exact ⟨proper, rfl⟩
  · rw [if_neg small, if_neg small, show subInt 1 0 = 1 from subInt_eq (by norm_num),
      sel25519_exchanged tight difference (by norm_num) (by norm_num)]
    refine ⟨?_, number⟩
    unfold Gf.Proper
    rw [same]
    intro limb member
    rcases List.mem_append.mp member with low | high
    · exact digits limb low
    · rw [List.mem_singleton.mp high]
      exact ⟨by omega, bounds.2⟩

/-- Three passes leave digits of a number of 256 bits. -/
theorem carried_thrice {n : Gf} (carries : n.Carries) :
    (car25519 (car25519 (car25519 n))).Proper ∧
      (car25519 (car25519 (car25519 n))).number < 2 ^ 256 ∧
      (car25519 (car25519 (car25519 n))).denote = n.denote := by
  have once := carries_car25519 carries
  have twice := carries_car25519 once
  have handed := abs_le.mp carries.handed
  have range : 0 ≤ (car25519 (car25519 n)).number ∧ (car25519 (car25519 n)).number < 2 ^ 256 := by
    rw [number_car25519 once, number_car25519 carries]
    unfold reduce
    constructor <;> omega
  have zero : (car25519 (car25519 n)).number / 2 ^ 256 = 0 :=
    Int.ediv_eq_zero_of_lt range.1 range.2
  obtain ⟨first, rest, same, limbs⟩ := car25519_limbs twice
  rw [zero, mul_zero, add_zero, ← same] at limbs
  have number : (car25519 (car25519 (car25519 n))).number = (car25519 (car25519 n)).number := by
    rw [number_car25519 twice, reduce, zero, mul_zero, add_zero, Int.emod_eq_of_lt range.1 range.2]
  refine ⟨?_, number.trans_lt range.2, ?_⟩
  · unfold Gf.Proper
    rw [limbs]
    exact proper_digits (by norm_num) 16 _
  · rw [denote_car25519 twice, denote_car25519 once, denote_car25519 carries]

/-! ### Bytes -/

/-- The number of bytes, the lowest first. -/
def Bytes32.number (bytes : Bytes32) : Nat := Nat.ofDigits 256 (bytes.toList.map UInt8.toNat)

theorem toNat_ofInt {number : ℤ} (nonnegative : 0 ≤ number) (small : number < 256) :
    ((UInt8.ofInt number).toNat : ℤ) = number := by
  unfold UInt8.ofInt
  rw [UInt8.toNat_ofNat', Int.emod_eq_of_lt nonnegative (by simpa using small),
    Nat.mod_eq_of_lt (by omega), Int.toNat_of_nonneg nonnegative]

theorem ofDigits_limbBytes {limbs : List ℤ} (proper : Proper 65536 limbs) :
    ((Nat.ofDigits 256 ((limbs.flatMap limbBytes).map UInt8.toNat) : Nat) : ℤ) =
      value 65536 limbs := by
  induction limbs with
  | nil => rfl
  | cons limb limbs inductionHypothesis =>
    obtain ⟨⟨nonnegative, below⟩, rest⟩ := proper_cons.mp proper
    have low : andInt limb 0xff = limb % 256 := andInt_mask limb 8 (by norm_num)
    have high : shiftRightInt limb 8 = limb / 256 := shiftRightInt_eq ⟨by omega, by omega⟩ 8
    rw [List.flatMap_cons, limbBytes, low, high, List.cons_append, List.cons_append,
      List.nil_append,
      List.map_cons, List.map_cons, Nat.ofDigits_cons, Nat.ofDigits_cons, value_cons,
      ← inductionHypothesis rest]
    push_cast
    rw [toNat_ofInt (by omega) (by omega), toNat_ofInt (by omega) (by omega)]
    omega

/-- The bytes of a number are those of its only form below the modulus. -/
theorem number_pack25519 {n : Gf} (carries : n.Carries) :
    (pack25519 n).number = n.denote.val := by
  obtain ⟨proper, small, same⟩ := carried_thrice carries
  obtain ⟨onceProper, once⟩ := subtractOnce_spec proper
  obtain ⟨twiceProper, twice⟩ := subtractOnce_spec onceProper
  have nonnegative := proper.number_nonneg
  have positive := twiceProper.number_nonneg
  unfold Bytes32.number pack25519
  simp only [Vector.toList_mk]
  have cast := ofDigits_limbBytes twiceProper
  have representative : (subtractOnce (subtractOnce (car25519 (car25519 (car25519 n))))).number =
      (car25519 (car25519 (car25519 n))).number % modulus := by
    generalize (car25519 (car25519 (car25519 n))).number = number at *
    have least : (modulus : ℤ) = 2 ^ 255 - 19 := by
      unfold modulus
      norm_num
    rw [least] at once twice ⊢
    by_cases first : number < 2 ^ 255 - 19
    · rw [twice, once, if_pos first, if_pos first]
      omega
    · rw [twice, once, if_neg first]
      split <;> omega
  rw [← same, Gf.denote, ← Int.natCast_inj, ZMod.val_intCast, ← representative]
  exact cast

theorem ofDigits_lt (bytes : Bytes32) : bytes.number < 2 ^ 256 := by
  have below := Nat.ofDigits_lt_base_pow_length (b := 256) (by norm_num)
    (l := bytes.toList.map UInt8.toNat) fun digit member => by
      obtain ⟨byte, _, rfl⟩ := List.mem_map.mp member
      exact byte.toNat_lt
  rw [List.length_map, Vector.length_toList] at below
  norm_num at below ⊢
  exact below

/-- Bytes are determined by their number. -/
theorem Bytes32.number_injective : Function.Injective Bytes32.number := by
  intro first second same
  have small (bytes : Bytes32) : ∀ digit ∈ bytes.toList.map UInt8.toNat, digit < 256 := by
    intro digit member
    obtain ⟨byte, _, rfl⟩ := List.mem_map.mp member
    exact byte.toNat_lt
  have digits := Nat.ofDigits_inj_of_len_eq (by norm_num : 1 < 256) (by simp) (small first)
    (small second) same
  have lists := List.map_injective_iff.mpr (fun _ _ => UInt8.toNat_inj.mp) digits
  exact Vector.toList_inj.mp lists

/-- Numbers have the same bytes if and only if they are the same. -/
theorem pack25519_inj {a b : Gf} (first : a.Carries) (second : b.Carries) :
    pack25519 a = pack25519 b ↔ a.denote = b.denote := by
  rw [← Bytes32.number_injective.eq_iff, number_pack25519 first, number_pack25519 second]
  exact (ZMod.val_injective modulus).eq_iff

/-! ### Comparisons and parities -/

theorem widened_xor_eq_zero (x y : UInt8) :
    (x ^^^ y).toBitVec.setWidth 32 = 0#32 ↔ x = y := by
  have below := (x ^^^ y).toBitVec.isLt
  rw [← BitVec.toNat_inj, BitVec.toNat_setWidth, BitVec.toNat_ofNat, Nat.mod_eq_of_lt (by omega),
    ← UInt8.xor_eq_zero_iff, ← UInt8.toBitVec_inj, ← BitVec.toNat_inj]
  rfl

/-- The differences of all bytes together are zero only if each of them is. -/
theorem foldl_differences (pairs : List (UInt8 × UInt8)) {d : BitVec 32} (small : d.toNat < 256) :
    (pairs.foldl (fun d pair => d ||| (pair.1 ^^^ pair.2).toBitVec.setWidth 32) d).toNat < 256 ∧
      (pairs.foldl (fun d pair => d ||| (pair.1 ^^^ pair.2).toBitVec.setWidth 32) d = 0#32 ↔
        d = 0#32 ∧ ∀ pair ∈ pairs, pair.1 = pair.2) := by
  induction pairs generalizing d with
  | nil => simpa using small
  | cons pair pairs inductionHypothesis =>
    have below : (d ||| (pair.1 ^^^ pair.2).toBitVec.setWidth 32).toNat < 256 := by
      have byte := (pair.1 ^^^ pair.2).toBitVec.isLt
      rw [BitVec.toNat_or, BitVec.toNat_setWidth]
      exact Nat.or_lt_two_pow (n := 8) small (by omega)
    obtain ⟨bound, zero⟩ := inductionHypothesis below
    rw [List.foldl_cons, zero, List.forall_mem_cons, BitVec.or_eq_zero_iff, widened_xor_eq_zero,
      and_assoc]
    exact ⟨bound, Iff.rfl⟩

theorem lowest_of_borrow {d : BitVec 32} (small : d.toNat < 256) :
    (1#32 &&& ((d - 1#32) >>> 8)).toInt = if d = 0#32 then 1 else 0 := by
  by_cases zero : d = 0#32
  · rw [zero]
    rfl
  · have positive : 0 < d.toNat := by
      rcases Nat.eq_zero_or_pos d.toNat with none | some
      · exact absurd (BitVec.eq_of_toNat_eq none) zero
      · exact some
    have shifted : (d - 1#32) >>> 8 = 0#32 := by
      rw [← BitVec.toNat_inj, BitVec.toNat_ushiftRight, BitVec.toNat_sub]
      simp [Nat.shiftRight_eq_div_pow]
      omega
    rw [if_neg zero, shifted]
    rfl

theorem forall_zip_eq_iff {x y : List UInt8} (same : x.length = y.length) :
    (∀ pair ∈ List.zip x y, pair.1 = pair.2) ↔ x = y := by
  induction x generalizing y with
  | nil =>
    obtain rfl : y = [] := List.eq_nil_of_length_eq_zero same.symm
    simp
  | cons byte x inductionHypothesis =>
    cases y with
    | nil => exact absurd same (by simp)
    | cons other y =>
      rw [List.zip_cons_cons, List.forall_mem_cons, inductionHypothesis (Nat.succ.inj same),
        List.cons.injEq]

theorem vn_eq {x y : List UInt8} (same : x.length = y.length) :
    vn x y = if x = y then 0 else -1 := by
  obtain ⟨small, zero⟩ := foldl_differences (List.zip x y) (d := 0#32) (by decide)
  rw [forall_zip_eq_iff same] at zero
  simp only [vn, lowest_of_borrow small, zero, true_and]
  split <;> rw [subInt_eq (by norm_num)] <;> rfl

/-- Numbers are compared by their bytes. -/
theorem neq25519_eq_zero_iff {a b : Gf} (first : a.Carries) (second : b.Carries) :
    neq25519 a b = 0 ↔ a.denote = b.denote := by
  rw [neq25519, vn_eq (by rw [Vector.length_toList, Vector.length_toList]),
    ← pack25519_inj first second, ← Vector.toList_inj]
  split
  · next same => exact iff_of_true rfl same
  · next differs => exact iff_of_false (by norm_num) differs

/-! ### Single bytes -/

theorem toNat_first (bytes : Bytes32) : bytes[0].toNat = bytes.number % 256 := by
  obtain ⟨first, rest, same⟩ := List.exists_cons_of_ne_nil
    (List.ne_nil_of_length_eq_add_one bytes.length_toList)
  have byte : bytes[0] = first := by
    have read : bytes.toList[0]? = some bytes[0] := by simp
    rw [same, List.getElem?_cons_zero] at read
    exact (Option.some.inj read).symm
  rw [byte, Bytes32.number, same, List.map_cons, Nat.ofDigits_cons, Nat.add_mul_mod_self_left,
    Nat.mod_eq_of_lt first.toNat_lt]

/-- The parity of a number. -/
theorem toNat_par25519 {a : Gf} (carries : a.Carries) :
    (par25519 a).toNat = a.denote.val % 2 := by
  unfold par25519
  rw [UInt8.toNat_and, toNat_first, number_pack25519 carries, UInt8.toNat_one, Nat.and_one_is_mod]
  omega

/-! ### Reading -/

theorem joinBytes_spec (bytes : List UInt8) : Proper 65536 (joinBytes bytes) ∧
    (bytes.length % 2 = 0 → value 65536 (joinBytes bytes) =
      ((Nat.ofDigits 256 (bytes.map UInt8.toNat) : Nat) : ℤ)) := by
  induction bytes using joinBytes.induct with
  | case1 low high bytes inductionHypothesis =>
    have lowByte := low.toNat_lt
    have highByte := high.toNat_lt
    have shifted : shiftLeftInt high.toNat 8 = high.toNat * 2 ^ 8 :=
      shiftLeftInt_eq (by omega) (by omega)
    have limb : addInt low.toNat (shiftLeftInt high.toNat 8) = low.toNat + 256 * high.toNat := by
      rw [shifted, addInt_eq (abs_lt.mpr ⟨by omega, by omega⟩)]
      ring
    rw [joinBytes, limb, proper_cons]
    refine ⟨⟨⟨by omega, by omega⟩, inductionHypothesis.1⟩, fun even => ?_⟩
    rw [List.length_cons, List.length_cons] at even
    rw [value_cons, inductionHypothesis.2 (by omega), List.map_cons, List.map_cons,
      Nat.ofDigits_cons, Nat.ofDigits_cons]
    push_cast
    ring
  | case2 bytes short =>
    match bytes, short with
    | [], _ => exact ⟨fun _ absent => absurd absent List.not_mem_nil, fun _ => rfl⟩
    | [_], _ =>
      exact ⟨fun _ absent => absurd absent List.not_mem_nil, fun odd => absurd odd (by simp)⟩
    | low :: high :: rest, short => exact absurd rfl (short low high rest)

theorem emod_mul_base {limb whole factor : ℤ} (nonnegative : 0 ≤ limb) (below : limb < 65536) :
    (limb + 65536 * whole) % (65536 * factor) = limb + 65536 * (whole % factor) := by
  rw [Int.emod_def, Int.emod_def, ← Int.ediv_ediv_of_nonneg (by norm_num),
    Int.add_mul_ediv_left _ _ (by norm_num), Int.ediv_eq_zero_of_lt nonnegative below, zero_add]
  ring

theorem maskLast_spec {limbs : List ℤ} (proper : Proper 65536 limbs) (some : limbs ≠ []) :
    Proper 65536 (maskLast limbs) ∧ value 65536 (maskLast limbs) =
      value 65536 limbs % (65536 ^ (limbs.length - 1) * 2 ^ 15) := by
  induction limbs with
  | nil => exact absurd rfl some
  | cons limb limbs inductionHypothesis =>
    obtain ⟨⟨nonnegative, below⟩, rest⟩ := proper_cons.mp proper
    have masked : andInt limb 0x7fff = limb % 2 ^ 15 := andInt_mask limb 15 (by norm_num)
    by_cases last : limbs = []
    · rw [last, maskLast, if_pos rfl, masked]
      refine ⟨proper_cons.mpr ⟨⟨by omega, by omega⟩, fun _ absent =>
        absurd absent List.not_mem_nil⟩, by simp⟩
    · obtain ⟨digits, same⟩ := inductionHypothesis rest last
      have length := List.length_pos_of_ne_nil last
      rw [maskLast, if_neg last, value_cons, same, value_cons, List.length_cons,
        Nat.add_sub_cancel, ← emod_mul_base nonnegative below, ← mul_assoc, ← pow_succ',
        Nat.sub_add_cancel length]
      exact ⟨proper_cons.mpr ⟨⟨nonnegative, below⟩, digits⟩, rfl⟩

/-- The highest bit is not read. -/
theorem unpack25519_spec (n : Bytes32) : (unpack25519 n).Proper ∧
    (unpack25519 n).number = ((n.number % 2 ^ 255 : Nat) : ℤ) := by
  obtain ⟨digits, same⟩ := joinBytes_spec n.toList
  have length := length_joinBytes n.toList
  rw [n.length_toList] at same length
  obtain ⟨proper, number⟩ := maskLast_spec digits (List.ne_nil_of_length_eq_add_one length)
  refine ⟨proper, ?_⟩
  unfold Gf.number unpack25519
  rw [number, same rfl, length, Int.natCast_emod]
  rfl

/-- Whatever limbs two numbers have, the bytes of each are those of the only number below the
modulus, and comparisons, parities and what is read from the bytes depend on nothing else. -/
theorem packing_canonical {a b : Gf} (first : a.Within (2 ^ 46)) (second : b.Within (2 ^ 46)) :
    (pack25519 a).number = a.denote.val ∧
    (pack25519 a = pack25519 b ↔ a.denote = b.denote) ∧
    (neq25519 a b = 0 ↔ a.denote = b.denote) ∧
    (par25519 a).toNat = a.denote.val % 2 ∧
    (unpack25519 (pack25519 a)).denote = a.denote := by
  have left := first.carries le_rfl (by norm_num)
  have right := second.carries le_rfl (by norm_num)
  refine ⟨number_pack25519 left, pack25519_inj left right, neq25519_eq_zero_iff left right,
    toNat_par25519 left, ?_⟩
  have small : a.denote.val < 2 ^ 255 := (ZMod.val_lt a.denote).trans (by norm_num [modulus])
  rw [Gf.denote, (unpack25519_spec _).2, number_pack25519 left, Nat.mod_eq_of_lt small,
    Int.cast_natCast, ZMod.natCast_zmod_val]

theorem packing_canonical_X_Y : pack25519 X = pack25519 Y ↔ X.denote = Y.denote :=
  have small : X.Within (2 ^ 46) ∧ Y.Within (2 ^ 46) := by
    constructor <;> norm_num [Gf.Within, Bounded, X, Y, gf]
  (packing_canonical small.1 small.2).2.1

end LightWallet.Frontend.Nacl
