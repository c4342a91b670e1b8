/-
This file models how the scripts calculate with the points of the curve: their sums, their
multiples, and how they are written in bytes and read. A point has four coordinates while it is
calculated with.

What is calculated is what the group of the curve has, for every scalar and for every point that can
be read.
-/

import LightWallet.Frontend.Ed25519

namespace LightWallet.Frontend.Nacl

open Doubles SignedLimbs Edwards

/-- A point in four numbers of the field. -/
abbrev Gf4 := Extended Gf

/-- `add`, which may be given the same point twice. -/
def add (p q : Gf4) : Gf4 :=
  let a := M (Z p.y p.x) (Z q.y q.x)
  let b := M (A p.x p.y) (A q.x q.y)
  let c := M (M p.t q.t) D2
  let d := M p.z q.z
  let d := A d d
  let e := Z b a
  let f := Z d c
  let g := A d c
  let h := A b a
  { x := M e f
    y := M h g
    z := M g f
    t := M e h }

/-- `cswap`. -/
def cswap (p q : Gf4) (b : ℤ) : Gf4 × Gf4 :=
  let x := sel25519 p.x q.x b
  let y := sel25519 p.y q.y b
  let z := sel25519 p.z q.z b
  let t := sel25519 p.t q.t b
  (⟨x.1, y.1, z.1, t.1⟩, ⟨x.2, y.2, z.2, t.2⟩)

/-- `r[31] = byte`. -/
def setLast (r : Bytes32) (byte : UInt8) : Bytes32 := r.set 31 byte

/-- `pack`. -/
def pack (p : Gf4) : Bytes32 :=
  let zi := inv25519 p.z
  let tx := M p.x zi
  let ty := M p.y zi
  let r := pack25519 ty
  setLast r (r[31] ^^^ (par25519 tx <<< 7))

/-- `(s[(i/8)|0] >> (i&7)) & 1`. -/
def bit (s : Bytes32) (i : Nat) : Nat := ((s.toList.getD (i / 8) 0).toNat >>> (i &&& 7)) &&& 1

/-- A round of the loop of `scalarmult`. -/
def scalarRound (s : Bytes32) (points : Gf4 × Gf4) (i : Nat) : Gf4 × Gf4 :=
  let b : ℤ := bit s i
  let swapped := cswap points.1 points.2 b
  let q := add swapped.2 swapped.1
  let p := add swapped.1 swapped.1
  cswap p q b

/-- `scalarmult`. -/
def scalarmult (q : Gf4) (s : Bytes32) : Gf4 :=
  let p : Gf4 := ⟨set25519 gf0, set25519 gf1, set25519 gf1, set25519 gf0⟩
  ((List.range 256).reverse.foldl (scalarRound s) (p, q)).1

/-- `scalarbase`. -/
def scalarbase (s : Bytes32) : Gf4 :=
  scalarmult ⟨set25519 X, set25519 Y, set25519 gf1, M X Y⟩ s

/-- The power by which `unpackneg` finds the first coordinate. -/
def candidate (num den : Gf) : Gf :=
  let den2 := S den
  let den4 := S den2
  let den6 := M den4 den2
  let t := M (M den6 num) den
  let t := pow2523 t
  let t := M (M (M t num) den) den
  M t den

/-- The part of `unpackneg` that looks for the first coordinate, up to its sign. -/
def findRoot (num den : Gf) : Option Gf :=
  let x := candidate num den
  let x := if neq25519 (M (S x) den) num ≠ 0 then M x I else x
  if neq25519 (M (S x) den) num ≠ 0 then none else some x

/-- `unpackneg`, which has no result where it returns `-1`. -/
def unpackneg (p : Bytes32) : Option Gf4 :=
  let z := set25519 gf1
  let y := unpack25519 p
  let num := S y
  let den := M num D
  let num := Z num z
  let den := A z den
  (findRoot num den).map fun x =>
    let x := if par25519 x = p[31] >>> 7 then Z gf0 x else x
    ⟨x, y, z, M x y⟩

/-- `ge_neg`. -/
def geNeg (pub : Bytes32) : Bytes32 := setLast pub (pub[31] ^^^ 0x80)

/-- `ge_neg` and `unpackneg`, and what is thrown where there is no point. -/
def geUnpack (pub : Bytes32) : Except String Gf4 :=
  match unpackneg (geNeg pub) with
  | none => .error "non-0 error on point decode"
  | some point => .ok point

/-- `ge_scalarmult_base`. -/
def geScalarmultBase (s : Bytes32) : Bytes32 := pack (scalarbase s)

/-- `ge_scalarmult`. -/
def geScalarmult (P s : Bytes32) : Except String Bytes32 := do
  let upk ← geUnpack P
  return pack (scalarmult upk s)

/-- `ge_double_scalarmult_base_vartime`. -/
def geDoubleScalarmultBaseVartime (c P r : Bytes32) : Except String Bytes32 := do
  let uP ← geUnpack P
  let cP := scalarmult uP c
  let rG := scalarbase r
  return pack (add rG cP)

/-- `ge_double_scalarmult_postcomp_vartime`. -/
def geDoubleScalarmultPostcompVartime (r Pb c I : Bytes32) : Except String Bytes32 := do
  let uPb ← geUnpack Pb
  let rPb := scalarmult uPb r
  let uI ← geUnpack I
  let cI := scalarmult uI c
  return pack (add rPb cI)

/-- `ge_add`. -/
def geAdd (P Q : Bytes32) : Except String Bytes32 := do
  let uP ← geUnpack P
  let uQ ← geUnpack Q
  return pack (add uP uQ)

/-! ### Numbers in limbs -/

/-- The limbs are within the bound, and are those of the number. -/
structure Gf.Holds (o : Gf) (bound : ℤ) (number : ZMod modulus) : Prop where
  within : o.Within bound
  denote : o.denote = number

section Holds

variable {a b : Gf} {left right : ℤ} {u v : ZMod modulus}

theorem Gf.Holds.mono (known : a.Holds left u) (le : left ≤ right) : a.Holds right u :=
  ⟨known.within.mono le, known.denote⟩

theorem M_holds (first : a.Holds left u) (second : b.Holds right v) (small : left ≤ 2 ^ 18)
    (other : right ≤ 2 ^ 18) : (M a b).Holds 65573 (u * v) := by
  obtain ⟨tight, product⟩ := M_spec (first.within.mono small) (second.within.mono other)
  rw [first.denote, second.denote] at product
  exact ⟨tight, product⟩

theorem A_holds (first : a.Holds left u) (second : b.Holds right v)
    (fits : left + right < 2 ^ 53) : (A a b).Holds (left + right) (u + v) := by
  obtain ⟨within, sum⟩ := A_spec first.within second.within fits
  rw [first.denote, second.denote] at sum
  exact ⟨within, sum⟩

theorem Z_holds (first : a.Holds left u) (second : b.Holds right v)
    (fits : left + right < 2 ^ 53) : (Z a b).Holds (left + right) (u - v) := by
  obtain ⟨within, difference⟩ := Z_spec first.within second.within fits
  rw [first.denote, second.denote] at difference
  exact ⟨within, difference⟩

theorem inv25519_holds (known : a.Holds left u) (small : left ≤ 2 ^ 18) (some : u ≠ 0) :
    (inv25519 a).Holds (2 ^ 18) u⁻¹ := by
  obtain ⟨within, power⟩ := inv25519_spec (known.within.mono small)
  refine ⟨within, ?_⟩
  rw [known.denote] at power
  rw [power]
  refine eq_inv_of_mul_eq_one_left ?_
  rw [← pow_succ, show modulus - 2 + 1 = modulus - 1 by norm_num [modulus]]
  exact ZMod.pow_card_sub_one_eq_one some

theorem pow2523_holds (known : a.Holds left u) (small : left ≤ 2 ^ 18) :
    (pow2523 a).Holds (2 ^ 18) (u ^ rootExponent) := by
  obtain ⟨within, power⟩ := pow2523_spec (known.within.mono small)
  rw [known.denote] at power
  exact ⟨within, power⟩

theorem set25519_holds (known : a.Holds left u) (small : left < 2 ^ 31) :
    (set25519 a).Holds left u := by
  rw [set25519_eq known.within small]
  exact known

end Holds

/-- The constants of the file with their numbers. -/
def constants : List (Gf × Nat) :=
  [(D, dNumber), (D2, 2 * dNumber % modulus), (X, baseX), (Y, baseY), (I, rootNumber), (gf0, 0),
    (gf1, 1)]

theorem constants_hold : ∀ constant ∈ constants,
    constant.1.Holds 65535 (constant.2 : ZMod modulus) := by
  have known : ∀ constant ∈ constants,
      constant.1.Within 65535 ∧ constant.1.number = (constant.2 : ℤ) := by
    unfold Gf.Within Bounded
    decide +kernel
  intro constant member
  obtain ⟨within, number⟩ := known constant member
  refine ⟨within, ?_⟩
  rw [Gf.denote, number, Int.cast_natCast]

theorem gf0_holds : gf0.Holds 0 0 where
  within := by simp [Gf.Within, Bounded, gf0, gf]
  denote := by simpa using (constants_hold (gf0, 0) (by simp [constants])).denote

theorem gf1_holds : gf1.Holds 65535 1 := by
  simpa using constants_hold (gf1, 1) (by simp [constants])

theorem D_holds : D.Holds 65535 curve.d := constants_hold (D, dNumber) (by simp [constants])

theorem D2_holds : D2.Holds 65535 (2 * curve.d) := by
  have known := constants_hold (D2, 2 * dNumber % modulus) (by simp [constants])
  rw [ZMod.natCast_mod, Nat.cast_mul, Nat.cast_two] at known
  exact known

theorem I_holds : I.Holds 65535 curve.root := constants_hold (I, rootNumber) (by simp [constants])

theorem X_holds : X.Holds 65535 basePoint.x := constants_hold (X, baseX) (by simp [constants])

theorem Y_holds : Y.Holds 65535 basePoint.y := constants_hold (Y, baseY) (by simp [constants])

/-! ### Points -/

/-- The numbers that the limbs are those of. -/
def denotes (p : Gf4) : Extended (ZMod modulus) :=
  ⟨p.x.denote, p.y.denote, p.z.denote, p.t.denote⟩

/-- The four numbers are those of the point, in limbs that can be multiplied. -/
structure Represents (p : Gf4) (point : Point curve) : Prop where
  x : p.x.Tight
  y : p.y.Tight
  z : p.z.Tight
  t : p.t.Tight
  of : (denotes p).Of point

theorem add_spec {p q : Gf4} {left right : Point curve} (first : Represents p left)
    (second : Represents q right) : Represents (add p q) (left + right) := by
  have a := M_holds (Z_holds ⟨first.y, rfl⟩ ⟨first.x, rfl⟩ (by norm_num))
    (Z_holds ⟨second.y, rfl⟩ ⟨second.x, rfl⟩ (by norm_num)) (by norm_num) (by norm_num)
  have b := M_holds (A_holds ⟨first.x, rfl⟩ ⟨first.y, rfl⟩ (by norm_num))
    (A_holds ⟨second.x, rfl⟩ ⟨second.y, rfl⟩ (by norm_num)) (by norm_num) (by norm_num)
  have c := M_holds (M_holds ⟨first.t, rfl⟩ ⟨second.t, rfl⟩ (by norm_num) (by norm_num)) D2_holds
    (by norm_num) (by norm_num)
  have d := M_holds ⟨first.z, rfl⟩ ⟨second.z, rfl⟩ (by norm_num) (by norm_num)
  have d := A_holds d d (by norm_num)
  have e := Z_holds b a (by norm_num)
  have f := Z_holds d c (by norm_num)
  have g := A_holds d c (by norm_num)
  have h := A_holds b a (by norm_num)
  have x := M_holds e f (by norm_num) (by norm_num)
  have y := M_holds h g (by norm_num) (by norm_num)
  have z := M_holds g f (by norm_num) (by norm_num)
  have t := M_holds e h (by norm_num) (by norm_num)
  have same : denotes (add p q) = (denotes p).add curve.d (denotes q) := by
    unfold denotes add
    rw [x.denote, y.denote, z.denote, t.denote]
    rfl
  exact ⟨x.within, y.within, z.within, t.within, same ▸ first.of.add second.of⟩

theorem cswap_kept {p q : Gf4} {left right : Point curve} (first : Represents p left)
    (second : Represents q right) : cswap p q 0 = (p, q) := by
  have kept {a b : Gf} (tight : a.Tight) (other : b.Tight) : sel25519 a b 0 = (a, b) :=
    sel25519_kept tight other (by norm_num) (by norm_num)
  unfold cswap
  rw [kept first.x second.x, kept first.y second.y, kept first.z second.z, kept first.t second.t]

theorem cswap_exchanged {p q : Gf4} {left right : Point curve} (first : Represents p left)
    (second : Represents q right) : cswap p q 1 = (q, p) := by
  have exchanged {a b : Gf} (tight : a.Tight) (other : b.Tight) : sel25519 a b 1 = (b, a) :=
    sel25519_exchanged tight other (by norm_num) (by norm_num)
  unfold cswap
  rw [exchanged first.x second.x, exchanged first.y second.y, exchanged first.z second.z,
    exchanged first.t second.t]

/-! ### Bits -/

theorem getD_ofDigits (bytes : List UInt8) (place : Nat) : (bytes.getD place 0).toNat =
    Nat.ofDigits 256 (bytes.map UInt8.toNat) / 256 ^ place % 256 := by
  induction bytes generalizing place with
  | nil => simp
  | cons byte bytes inductionHypothesis =>
    have small := byte.toNat_lt
    rw [List.map_cons, Nat.ofDigits_cons]
    cases place with
    | zero =>
      rw [List.getD_cons_zero, pow_zero, Nat.div_one]
      omega
    | succ place =>
      rw [List.getD_cons_succ, inductionHypothesis, pow_succ', ← Nat.div_div_eq_div_mul,
        Nat.add_mul_div_left _ _ (by norm_num), Nat.div_eq_of_lt small, zero_add]

/-- The bits of a scalar are those of its number. -/
theorem bit_eq (s : Bytes32) (i : Nat) : bit s i = s.number / 2 ^ i % 2 := by
  have below := Nat.mod_lt i (by norm_num : 0 < 8)
  have places : 2 ^ i = 256 ^ (i / 8) * 2 ^ (i % 8) := by
    rw [show 256 = 2 ^ 8 from rfl, ← pow_mul, ← pow_add, Nat.div_add_mod]
  have low (number : Nat) : number % 256 / 2 ^ (i % 8) % 2 = number / 2 ^ (i % 8) % 2 := by
    interval_cases i % 8 <;> omega
  unfold bit Bytes32.number
  rw [show i &&& 7 = i % 8 from Nat.and_two_pow_sub_one_eq_mod i 3, getD_ofDigits,
    Nat.and_one_is_mod, Nat.shiftRight_eq_div_pow, low, places, Nat.div_div_eq_div_mul]

/-! ### Multiples -/

/-- The two points of the loop are a multiple and the next one. -/
structure Multiples (points : Gf4 × Gf4) (count : Nat) (point : Point curve) : Prop where
  first : Represents points.1 (count • point)
  second : Represents points.2 (count • point + point)

/-- A round doubles, and adds one for a bit. -/
theorem scalarRound_spec {s : Bytes32} {points : Gf4 × Gf4} {count : Nat} {point : Point curve}
    (multiples : Multiples points count point) (i : Nat) :
    Multiples (scalarRound s points i) (2 * count + bit s i) point := by
  obtain ⟨first, second⟩ := multiples
  have between : count • point + (count • point + point) = (2 * count + 1) • point := by
    rw [← add_assoc, ← two_nsmul, smul_smul, succ_nsmul]
  have bits : bit s i = 0 ∨ bit s i = 1 := by
    rw [bit_eq]
    omega
  rcases bits with zero | one
  -- The points stay where they are: the first one is doubled, the second one is the odd multiple.
  · have even := add_spec first first
    have odd := add_spec second first
    rw [← two_nsmul, smul_smul] at even
    rw [add_comm, between] at odd
    unfold scalarRound
    simp only [zero, Nat.cast_zero, cswap_kept first second, cswap_kept even odd, add_zero]
    exact ⟨even, by rw [← succ_nsmul]; exact odd⟩
  -- The points are exchanged, so that the second one is doubled, and exchanged again.
  · have odd := add_spec first second
    have even := add_spec second second
    rw [between] at odd
    rw [add_right_comm, between] at even
    unfold scalarRound
    simp only [one, Nat.cast_one, cswap_exchanged first second, cswap_exchanged even odd]
    exact ⟨odd, even⟩

/-- The rounds for the bits from a place down. -/
theorem rounds_spec {s : Bytes32} {point : Point curve} (places : Nat) {points : Gf4 × Gf4}
    (multiples : Multiples points (s.number / 2 ^ places) point) :
    Multiples ((List.range places).reverse.foldl (scalarRound s) points) s.number point := by
  induction places generalizing points with
  | zero => simpa using multiples
  | succ places inductionHypothesis =>
    rw [List.range_succ, List.reverse_append, List.reverse_singleton, List.singleton_append,
      List.foldl_cons]
    refine inductionHypothesis ?_
    have round := scalarRound_spec multiples places (s := s)
    rw [bit_eq, pow_succ, ← Nat.div_div_eq_div_mul, Nat.div_add_mod] at round
    exact round

theorem represents_zero :
    Represents ⟨set25519 gf0, set25519 gf1, set25519 gf1, set25519 gf0⟩ 0 := by
  have zero := set25519_holds gf0_holds (by norm_num)
  have one := set25519_holds gf1_holds (by norm_num)
  have zeroTight := zero.within.mono (by norm_num : (0 : ℤ) ≤ 65573)
  have oneTight := one.within.mono (by norm_num : (65535 : ℤ) ≤ 65573)
  refine ⟨zeroTight, oneTight, oneTight, zeroTight, ?_⟩
  unfold denotes
  rw [zero.denote, one.denote]
  exact Extended.Of.zero

theorem scalarmult_spec {q : Gf4} {point : Point curve} (represents : Represents q point)
    (s : Bytes32) : Represents (scalarmult q s) (s.number • point) := by
  have none : s.number / 2 ^ 256 = 0 := Nat.div_eq_of_lt (ofDigits_lt s)
  refine (rounds_spec 256 ?_).first
  rw [none]
  exact ⟨by rw [zero_nsmul]; exact represents_zero, by rw [zero_nsmul, zero_add]; exact represents⟩

/-- Where the denominator is one. -/
theorem represents_of_coordinates {x y z t : Gf} {point : Point curve}
    (first : x.Holds 65573 point.x) (second : y.Holds 65573 point.y) (one : z.Holds 65573 1)
    (product : t.Holds 65573 (point.x * point.y)) : Represents ⟨x, y, z, t⟩ point where
  x := first.within
  y := second.within
  z := one.within
  t := product.within
  of := by
    unfold denotes
    rw [first.denote, second.denote, one.denote, product.denote]
    constructor <;> simp

theorem scalarbase_spec (s : Bytes32) : Represents (scalarbase s) (s.number • basePoint) := by
  refine scalarmult_spec (represents_of_coordinates ?_ ?_ ?_ ?_) s
  · exact (set25519_holds X_holds (by norm_num)).mono (by norm_num)
  · exact (set25519_holds Y_holds (by norm_num)).mono (by norm_num)
  · exact (set25519_holds gf1_holds (by norm_num)).mono (by norm_num)
  · exact M_holds X_holds Y_holds (by norm_num) (by norm_num)

/-! ### The last byte -/

theorem exists_low (bytes : Bytes32) : ∃ low < 2 ^ 248,
    bytes.number = low + 2 ^ 248 * bytes[31].toNat ∧
      ∀ byte, (setLast bytes byte).number = low + 2 ^ 248 * byte.toNat := by
  have length : bytes.toList.length = 31 + 1 := bytes.length_toList
  have whole (byte : UInt8) : (setLast bytes byte).number =
      Nat.ofDigits 256 ((bytes.toList.take 31).map UInt8.toNat) + 2 ^ 248 * byte.toNat := by
    have split : (setLast bytes byte).toList = bytes.toList.take 31 ++ [byte] := by
      rw [setLast, Vector.toList_set, List.set_eq_take_append_cons_drop, if_pos (by omega),
        List.drop_eq_nil_of_le length.le]
    rw [Bytes32.number, split, List.map_append, Nat.ofDigits_append]
    simp
  refine ⟨_, ?_, ?_, whole⟩
  · have small := Nat.ofDigits_lt_base_pow_length (b := 256) (by norm_num)
      (l := (bytes.toList.take 31).map UInt8.toNat) ?_
    · simpa using small
    · intro digit member
      obtain ⟨byte, _, rfl⟩ := List.mem_map.mp member
      exact byte.toNat_lt
  · rw [← whole, setLast, Vector.set_getElem_self]

theorem toNat_xor_0x80 (byte : UInt8) : (byte ^^^ 0x80).toNat = (byte.toNat + 128) % 256 := by
  have flips : ∀ number < 256, number ^^^ 128 = (number + 128) % 256 := by decide +kernel
  exact flips byte.toNat byte.toNat_lt

/-- The sign is turned. -/
theorem number_geNeg (pub : Bytes32) : (geNeg pub).number = (pub.number + 2 ^ 255) % 2 ^ 256 := by
  obtain ⟨low, small, whole, set⟩ := exists_low pub
  have byte := pub[31].toNat_lt
  rw [geNeg, set, whole, toNat_xor_0x80]
  omega

theorem toNat_last (bytes : Bytes32) : (bytes[31] >>> 7).toNat = bytes.number / 2 ^ 255 := by
  obtain ⟨low, small, whole, _⟩ := exists_low bytes
  have byte := bytes[31].toNat_lt
  have shifted : (bytes[31] >>> 7).toNat = bytes[31].toNat / 128 := by
    rw [UInt8.toNat_shiftRight, Nat.shiftRight_eq_div_pow]
    rfl
  rw [shifted, whole]
  omega

/-! ### Points in bytes -/

/-- What is written for a point. -/
def encode (point : Point curve) : Nat := point.y.val + 2 ^ 255 * (point.x.val % 2)

/-- The second coordinate that the bytes have. -/
def second (bytes : Bytes32) : ZMod modulus := (bytes.number % 2 ^ 255 : Nat)

/-- The bytes are read as the point. -/
structure Decodes (bytes : Bytes32) (point : Point curve) : Prop where
  y : point.y = second bytes
  x : point.x ≠ 0 → point.x.val % 2 = bytes.number / 2 ^ 255

theorem lt_two_pow (number : ZMod modulus) : number.val < 2 ^ 255 :=
  (ZMod.val_lt number).trans (by norm_num [modulus])

/-- The highest bit of a number below the modulus is free for a parity. -/
theorem number_setLast {bytes : Bytes32} (small : bytes.number < 2 ^ 255) {parity : UInt8}
    (bit : parity.toNat < 2) : (setLast bytes (bytes[31] ^^^ (parity <<< 7))).number =
      bytes.number + 2 ^ 255 * parity.toNat := by
  obtain ⟨low, below, whole, set⟩ := exists_low bytes
  rw [set]
  rcases (by omega : parity.toNat = 0 ∨ parity.toNat = 1) with zero | one
  · obtain rfl : parity = 0 := UInt8.toNat_inj.mp zero
    rw [show (0 : UInt8) <<< 7 = 0 from rfl, UInt8.xor_zero, zero, whole]
    omega
  · obtain rfl : parity = 1 := UInt8.toNat_inj.mp one
    rw [show (1 : UInt8) <<< 7 = 0x80 from rfl, toNat_xor_0x80, one, whole]
    omega

theorem pack_spec {p : Gf4} {point : Point curve} (represents : Represents p point) :
    (pack p).number = encode point := by
  have carries {a : Gf} {number : ZMod modulus} (known : a.Holds 65573 number) : a.Carries :=
    known.within.carries (by norm_num) (by norm_num)
  have some : p.z.denote ≠ 0 := represents.of.z
  have zi := inv25519_holds ⟨represents.z, rfl⟩ (by norm_num) some
  have tx : (M p.x (inv25519 p.z)).Holds 65573 (point.x * p.z.denote * p.z.denote⁻¹) :=
    M_holds ⟨represents.x, represents.of.x⟩ zi (by norm_num) (by norm_num)
  have ty : (M p.y (inv25519 p.z)).Holds 65573 (point.y * p.z.denote * p.z.denote⁻¹) :=
    M_holds ⟨represents.y, represents.of.y⟩ zi (by norm_num) (by norm_num)
  rw [mul_assoc, mul_inv_cancel₀ some, mul_one] at tx ty
  have parity := toNat_par25519 (carries tx)
  have number := number_pack25519 (carries ty)
  rw [tx.denote] at parity
  rw [ty.denote] at number
  unfold pack encode
  simp only
  rw [number_setLast (number ▸ lt_two_pow point.y) (by omega), number, parity]

theorem encode_decodes {bytes : Bytes32} {point : Point curve}
    (same : bytes.number = encode point) : Decodes bytes point := by
  have small := lt_two_pow point.y
  have high : encode point / 2 ^ 255 = point.x.val % 2 := by
    rw [encode, Nat.add_mul_div_left _ _ (by norm_num), Nat.div_eq_of_lt small, zero_add]
  refine ⟨?_, fun _ => by rw [same, high]⟩
  rw [second, same, encode, Nat.add_mul_mod_self_left, Nat.mod_eq_of_lt small,
    ZMod.natCast_zmod_val]

/-- A number and its negative have different parities. -/
theorem val_neg_mod {number : ZMod modulus} (some : number ≠ 0) :
    (-number).val % 2 = 1 - number.val % 2 := by
  have below := ZMod.val_lt number
  have odd : modulus % 2 = 1 := by norm_num [modulus]
  rw [ZMod.neg_val, if_neg some]
  omega

theorem Decodes.unique {bytes : Bytes32} {first second : Point curve}
    (left : Decodes bytes first) (right : Decodes bytes second) : first = second := by
  have same : first.y = second.y := left.y.trans right.y.symm
  have on := second.on
  rw [← same] at on
  refine Point.ext ?_ same
  rcases first.on.eq_or_eq_neg on with equal | opposite
  · exact equal
  · by_cases zero : second.x = 0
    · rw [opposite, zero, neg_zero]
    · have other : first.x ≠ 0 := opposite ▸ neg_ne_zero.mpr zero
      have parity := left.x other
      rw [opposite, val_neg_mod zero, right.x zero] at parity
      omega

/-- The bytes with the other sign are those of the negative. -/
theorem decodes_geNeg {pub : Bytes32} {point : Point curve} :
    Decodes (geNeg pub) (-point) ↔ Decodes pub point := by
  have small := ofDigits_lt pub
  have low : (pub.number + 2 ^ 255) % 2 ^ 256 % 2 ^ 255 = pub.number % 2 ^ 255 := by omega
  have high : (pub.number + 2 ^ 255) % 2 ^ 256 / 2 ^ 255 = 1 - pub.number / 2 ^ 255 := by omega
  constructor
  · rintro ⟨y, x⟩
    rw [second, number_geNeg, low] at y
    refine ⟨y, fun some => ?_⟩
    have parity := x (neg_ne_zero.mpr some)
    rw [Point.neg_x, number_geNeg, high, val_neg_mod some] at parity
    omega
  · rintro ⟨y, x⟩
    refine ⟨by rw [second, number_geNeg, low]; exact y, fun some => ?_⟩
    have other := neg_ne_zero.mp some
    rw [number_geNeg, high, Point.neg_x, val_neg_mod other, x other]

/-! ### Reading points -/

theorem candidate_holds {num den : Gf} {left right : ℤ} {u v : ZMod modulus}
    (first : num.Holds left u) (second : den.Holds right v) (small : left ≤ 2 ^ 18)
    (other : right ≤ 2 ^ 18) :
    (candidate num den).Holds 65573 (u * v ^ 3 * (u * v ^ 7) ^ rootExponent) := by
  have den2 := M_holds second second other other
  have den4 := M_holds den2 den2 (by norm_num) (by norm_num)
  have den6 := M_holds den4 den2 (by norm_num) (by norm_num)
  have t := M_holds (M_holds den6 first (by norm_num) small) second (by norm_num) other
  have power := pow2523_holds t (by norm_num)
  have t := M_holds (M_holds (M_holds power first le_rfl small) second (by norm_num) other) second
    (by norm_num) other
  have root := M_holds t second (by norm_num) other
  have seventh : v * v * (v * v) * (v * v) * u * v = u * v ^ 7 := by ring
  rw [seventh] at root
  refine ⟨root.within, root.denote.trans ?_⟩
  ring

theorem neq25519_holds {a b : Gf} {left right : ℤ} {u v : ZMod modulus} (first : a.Holds left u)
    (second : b.Holds right v) (nonnegative : 0 ≤ left) (small : left ≤ 2 ^ 46)
    (other : 0 ≤ right) (fits : right ≤ 2 ^ 46) : neq25519 a b ≠ 0 ↔ u ≠ v := by
  rw [Ne, neq25519_eq_zero_iff (first.within.carries small nonnegative)
    (second.within.carries fits other), first.denote, second.denote]

/-- One of the two candidates is a root, if there is one. -/
theorem exists_root {y x found : ZMod modulus} (on : curve.On x y)
    (tried : (y ^ 2 - 1) * (1 + curve.d * y ^ 2) ^ 3 *
      ((y ^ 2 - 1) * (1 + curve.d * y ^ 2) ^ 7) ^ rootExponent = found)
    (wrong : found ^ 2 * (1 + curve.d * y ^ 2) ≠ y ^ 2 - 1) :
    (found * curve.root) ^ 2 * (1 + curve.d * y ^ 2) = y ^ 2 - 1 := by
  have root := root_of_power (fun x some => pow_rootExponent some) (curve.one_add_ne y)
    (Curve.on_iff.mp on)
  rw [tried, mul_comm _ (found ^ 2)] at root
  rcases root with right | turned
  · exact absurd right wrong
  -- The square is that of the negative, which a root of minus one turns.
  · rw [mul_pow, curve.root_sq, mul_right_comm, turned]
    ring

section FindRoot

variable {num den : Gf} {u v : ZMod modulus} (first : num.Holds 131108 u)
  (second : den.Holds 131108 v)

include first second

theorem accepts_iff {x : Gf} {number : ZMod modulus} (known : x.Holds 65573 number) :
    neq25519 (M (S x) den) num ≠ 0 ↔ number ^ 2 * v ≠ u := by
  have square := M_holds known known (by norm_num) (by norm_num)
  have check := M_holds square second (by norm_num) (by norm_num)
  rw [← pow_two] at check
  exact neq25519_holds check first (by norm_num) (by norm_num) (by norm_num) (by norm_num)

theorem findRoot_of_some {x : Gf} (found : findRoot num den = some x) :
    ∃ number, x.Holds 65573 number ∧ number ^ 2 * v = u := by
  have tried := candidate_holds first second (by norm_num) (by norm_num)
  have turned := M_holds tried I_holds (by norm_num) (by norm_num)
  generalize u * v ^ 3 * (u * v ^ 7) ^ rootExponent = number at tried turned
  unfold findRoot at found
  generalize candidate num den = x₀ at tried turned found
  simp only [accepts_iff first second tried] at found
  split at found <;> split at found <;> cases found
  · next right => exact ⟨_, turned, not_not.mp ((accepts_iff first second turned).not.mp right)⟩
  · next right => exact ⟨_, tried, not_not.mp ((accepts_iff first second tried).not.mp right)⟩

theorem findRoot_of_none {y : ZMod modulus} (above : u = y ^ 2 - 1)
    (below : v = 1 + curve.d * y ^ 2) (none : findRoot num den = none) (x : ZMod modulus) :
    ¬ curve.On x y := by
  have tried := candidate_holds first second (by norm_num) (by norm_num)
  have turned := M_holds tried I_holds (by norm_num) (by norm_num)
  generalize same : u * v ^ 3 * (u * v ^ 7) ^ rootExponent = found at tried turned
  subst above below
  intro on
  have root := exists_root on same
  simp only [findRoot, accepts_iff first second tried] at none
  split at none <;> split at none <;> cases none
  · next wrong still => exact (accepts_iff first second turned).mp still (root wrong)
  · next right wrong => exact right ((accepts_iff first second tried).mp wrong)

end FindRoot

theorem unpack25519_holds (n : Bytes32) : (unpack25519 n).Holds 65535 (second n) := by
  obtain ⟨proper, number⟩ := unpack25519_spec n
  refine ⟨proper.bounded.mono (by norm_num), ?_⟩
  rw [Gf.denote, number, Int.cast_natCast, second]

/-- The sign of what is found is turned, if it is the one that the bytes have. -/
theorem turned_spec {x : Gf} {number : ZMod modulus} (known : x.Holds 65573 number)
    (sign : UInt8) (bit : sign.toNat < 2) :
    ∃ turned, (if par25519 x = sign then Z gf0 x else x).Holds 65573 (-turned) ∧
      (turned = number ∨ turned = -number) ∧ (turned ≠ 0 → turned.val % 2 = sign.toNat) := by
  have parity := toNat_par25519 (known.within.carries (by norm_num) (by norm_num))
  rw [known.denote] at parity
  split
  · next same =>
    have opposite := Z_holds gf0_holds known (by norm_num)
    rw [zero_sub, zero_add] at opposite
    exact ⟨number, opposite, .inl rfl, fun _ => by rw [← parity, same]⟩
  · next other =>
    refine ⟨-number, ?_, .inr rfl, fun some => ?_⟩
    · rw [neg_neg]
      exact known
    · have differ : number.val % 2 ≠ sign.toNat := fun same =>
        other (UInt8.toNat_inj.mp (parity.trans same))
      rw [val_neg_mod (neg_ne_zero.mp some)]
      omega

section Unpack

variable (p : Bytes32)

theorem numerator_holds :
    (Z (S (unpack25519 p)) (set25519 gf1)).Holds 131108 (second p ^ 2 - 1) := by
  have square := M_holds (unpack25519_holds p) (unpack25519_holds p) (by norm_num) (by norm_num)
  have difference := Z_holds square (set25519_holds gf1_holds (by norm_num)) (by norm_num)
  rw [← pow_two] at difference
  exact difference.mono (by norm_num)

theorem denominator_holds : (A (set25519 gf1) (M (S (unpack25519 p)) D)).Holds 131108
    (1 + curve.d * second p ^ 2) := by
  have square := M_holds (unpack25519_holds p) (unpack25519_holds p) (by norm_num) (by norm_num)
  have product := M_holds square D_holds (by norm_num) (by norm_num)
  have sum := A_holds (set25519_holds gf1_holds (by norm_num)) product (by norm_num)
  rw [← pow_two, mul_comm] at sum
  exact sum.mono (by norm_num)

end Unpack

theorem exists_point {x y : ZMod modulus} (on : curve.On x y) :
    ∃ point : Point curve, point.x = x ∧ point.y = y := ⟨⟨x, y, on⟩, rfl, rfl⟩

/-- What is read is the negative of the point. -/
theorem unpackneg_of_some {p : Bytes32} {r : Gf4} (read : unpackneg p = some r) :
    ∃ point : Point curve, Represents r (-point) ∧ Decodes p point := by
  obtain ⟨x, found, rfl⟩ := Option.map_eq_some_iff.mp read
  obtain ⟨number, known, root⟩ := findRoot_of_some (numerator_holds p) (denominator_holds p) found
  have small := ofDigits_lt p
  have sign := toNat_last p
  obtain ⟨turned, holds, same, parity⟩ := turned_spec known (p[31] >>> 7) (by omega)
  have on : curve.On turned (second p) := by
    rw [Curve.on_iff, ← root]
    rcases same with rfl | rfl <;> ring
  obtain ⟨point, rfl, y⟩ := exists_point on
  have coordinate := unpack25519_holds p
  rw [← y] at coordinate
  rw [sign] at parity
  refine ⟨point, represents_of_coordinates holds ?_ ?_ ?_, y, parity⟩
  · exact coordinate.mono (by norm_num)
  · exact (set25519_holds gf1_holds (by norm_num)).mono (by norm_num)
  · exact M_holds holds coordinate (by norm_num) (by norm_num)

theorem unpackneg_of_none {p : Bytes32} (none : unpackneg p = none) (point : Point curve) :
    ¬ Decodes p point := by
  intro decodes
  have missing := Option.map_eq_none_iff.mp none
  have on := point.on
  rw [decodes.y] at on
  exact findRoot_of_none (numerator_holds p) (denominator_holds p) rfl rfl missing point.x on

/-! ### The operations on bytes -/

/-- The bytes of a number. -/
def Bytes32.ofNumber (number : Nat) : Bytes32 :=
  .ofList ((Nat.digits 256 number).map UInt8.ofNat)

theorem number_ofList {bytes : List UInt8} (short : bytes.length ≤ 32) :
    (Bytes32.ofList bytes).number = Nat.ofDigits 256 (bytes.map UInt8.toNat) := by
  have filled : (Bytes32.ofList bytes).toList =
      bytes ++ List.replicate (32 - bytes.length) 0 := by
    show ((bytes ++ List.replicate 32 0).take 32) = _
    rw [List.take_append, List.take_of_length_le short, List.take_replicate,
      Nat.min_eq_left (Nat.sub_le 32 bytes.length)]
  rw [Bytes32.number, filled, List.map_append, List.map_replicate, UInt8.toNat_zero,
    Nat.ofDigits_append_replicate_zero]

theorem number_ofNumber {number : Nat} (small : number < 2 ^ 256) :
    (Bytes32.ofNumber number).number = number := by
  have short : (Nat.digits 256 number).length ≤ 32 :=
    (Nat.digits_length_le_iff (by norm_num) number).mpr (by norm_num at small ⊢; exact small)
  have read : ((Nat.digits 256 number).map UInt8.ofNat).map UInt8.toNat =
      Nat.digits 256 number := by
    rw [List.map_map]
    refine (List.map_congr_left fun digit member => ?_).trans (List.map_id _)
    exact UInt8.toNat_ofNat_of_lt' (Nat.digits_lt_base (by norm_num) member)
  rw [Bytes32.ofNumber, number_ofList (by simpa using short), read, Nat.ofDigits_digits]

/-- The bytes of a point. -/
def write (point : Point curve) : Bytes32 := .ofNumber (encode point)

theorem encode_lt (point : Point curve) : encode point < 2 ^ 256 := by
  have small := lt_two_pow point.y
  unfold encode
  omega

theorem pack_eq {p : Gf4} {point : Point curve} (represents : Represents p point) :
    pack p = write point :=
  Bytes32.number_injective
    ((pack_spec represents).trans (number_ofNumber (encode_lt point)).symm)

open Classical in
/-- The point that bytes are read as. -/
noncomputable def read (bytes : Bytes32) : Except String (Point curve) :=
  if some : ∃ point, Decodes bytes point then .ok some.choose
  else .error "non-0 error on point decode"

theorem read_of_decodes {bytes : Bytes32} {point : Point curve} (decodes : Decodes bytes point) :
    read bytes = .ok point := by
  have some : ∃ point, Decodes bytes point := ⟨point, decodes⟩
  rw [read, dif_pos some, some.choose_spec.unique decodes]

theorem read_write (point : Point curve) : read (write point) = .ok point :=
  read_of_decodes (encode_decodes (number_ofNumber (encode_lt point)))

/-- `geUnpack` throws where no point can be read, and else has a representation of the point. -/
theorem geUnpack_cases (pub : Bytes32) :
    (∃ r point, geUnpack pub = .ok r ∧ read pub = .ok point ∧ Represents r point) ∨
      ∃ thrown, geUnpack pub = .error thrown ∧ read pub = .error thrown := by
  cases found : unpackneg (geNeg pub) with
  | none =>
    right
    have missing : ¬ ∃ point, Decodes pub point := by
      rintro ⟨point, decodes⟩
      exact unpackneg_of_none found _ (decodes_geNeg.mpr decodes)
    exact ⟨_, by rw [geUnpack, found], by rw [read, dif_neg missing]⟩
  | some r =>
    left
    obtain ⟨point, represents, decodes⟩ := unpackneg_of_some found
    rw [← neg_neg point, decodes_geNeg] at decodes
    exact ⟨r, -point, by rw [geUnpack, found], read_of_decodes decodes, represents⟩

section GeUnpack

variable (pub : Bytes32) {next : Gf4 → Except String Bytes32}

/-- An operation that reads a point first is known from what it does with a representation. -/
theorem geUnpack_bind {answer : Point curve → Except String Bytes32}
    (same : ∀ r point, Represents r point → next r = answer point) :
    (geUnpack pub >>= next) = (read pub).bind answer := by
  rcases geUnpack_cases pub with ⟨r, point, ok, known, represents⟩ | ⟨thrown, error, known⟩
  · rw [ok, known]
    exact same r point represents
  · rw [error, known]
    rfl

theorem geUnpack_map {answer : Point curve → Bytes32}
    (same : ∀ r point, Represents r point → next r = .ok (answer point)) :
    (geUnpack pub >>= next) = (read pub).map answer := by
  rw [geUnpack_bind pub same]
  cases read pub <;> rfl

end GeUnpack

theorem geScalarmultBase_eq (s : Bytes32) :
    geScalarmultBase s = write (s.number • basePoint) := pack_eq (scalarbase_spec s)

theorem geScalarmult_eq (P s : Bytes32) :
    geScalarmult P s = (read P).map fun point => write (s.number • point) := by
  refine geUnpack_map P fun upk point represents => ?_
  exact congrArg Except.ok (pack_eq (scalarmult_spec represents s))

theorem geAdd_eq (P Q : Bytes32) :
    geAdd P Q = (read P).bind fun left => (read Q).map fun right => write (left + right) := by
  refine geUnpack_bind P fun uP left first => geUnpack_map Q fun uQ right second => ?_
  exact congrArg Except.ok (pack_eq (add_spec first second))

theorem geDoubleScalarmultBaseVartime_eq (c P r : Bytes32) :
    geDoubleScalarmultBaseVartime c P r =
      (read P).map fun point => write (r.number • basePoint + c.number • point) := by
  refine geUnpack_map P fun uP point represents => ?_
  have sum := add_spec (scalarbase_spec r) (scalarmult_spec represents c)
  exact congrArg Except.ok (pack_eq sum)

theorem geDoubleScalarmultPostcompVartime_eq (r Pb c I : Bytes32) :
    geDoubleScalarmultPostcompVartime r Pb c I = (read Pb).bind fun left =>
      (read I).map fun right => write (r.number • left + c.number • right) := by
  refine geUnpack_bind Pb fun uPb left first => geUnpack_map I fun uI right second => ?_
  have sum := add_spec (scalarmult_spec first r) (scalarmult_spec second c)
  exact congrArg Except.ok (pack_eq sum)

/-- On bytes the operations are those of the group, and what is written is read again. -/
theorem operations_refine :
    (∀ s, geScalarmultBase s = write (s.number • basePoint)) ∧
    (∀ P s, geScalarmult P s = (read P).map fun point => write (s.number • point)) ∧
    (∀ P Q, geAdd P Q =
      (read P).bind fun left => (read Q).map fun right => write (left + right)) ∧
    (∀ c P r, geDoubleScalarmultBaseVartime c P r =
      (read P).map fun point => write (r.number • basePoint + c.number • point)) ∧
    (∀ r Pb c I, geDoubleScalarmultPostcompVartime r Pb c I = (read Pb).bind fun left =>
      (read I).map fun right => write (r.number • left + c.number • right)) ∧
    ∀ point, read (write point) = .ok point :=
  ⟨geScalarmultBase_eq, geScalarmult_eq, geAdd_eq, geDoubleScalarmultBaseVartime_eq,
    geDoubleScalarmultPostcompVartime_eq, read_write⟩

theorem decodes_of_read {bytes : Bytes32} {point : Point curve} (known : read bytes = .ok point) :
    Decodes bytes point := by
  unfold read at known
  split at known
  · next some =>
    obtain rfl := Except.ok.inj known
    exact some.choose_spec
  · cases known

/-- Bytes that are read as a point are those that are written for it exactly if they have the second
coordinate below the modulus, and no sign where the first coordinate is zero. -/
theorem written_iff {bytes : Bytes32} {point : Point curve} (known : read bytes = .ok point) :
    bytes = write point ↔
      bytes.number % 2 ^ 255 < modulus ∧ (point.x = 0 → bytes.number < 2 ^ 255) := by
  obtain ⟨y, x⟩ := decodes_of_read known
  have low : point.y.val = bytes.number % 2 ^ 255 % modulus := by
    rw [y, second, ZMod.val_natCast]
  have written : bytes = write point ↔ bytes.number = encode point := by
    rw [← Bytes32.number_injective.eq_iff, write, number_ofNumber (encode_lt point)]
  rw [written]
  constructor
  · intro same
    have small := lt_two_pow point.y
    refine ⟨?_, fun zero => ?_⟩
    · rw [same, encode, Nat.add_mul_mod_self_left, Nat.mod_eq_of_lt small]
      exact ZMod.val_lt point.y
    · rw [same, encode, zero, ZMod.val_zero, Nat.zero_mod, mul_zero, add_zero]
      exact small
  · rintro ⟨below, unsigned⟩
    rw [Nat.mod_eq_of_lt below] at low
    rw [encode, low]
    by_cases zero : point.x = 0
    · have small := unsigned zero
      rw [zero, ZMod.val_zero, Nat.zero_mod, mul_zero, add_zero, Nat.mod_eq_of_lt small]
    · rw [x zero, Nat.mod_add_div]

/-- The number after the modulus is read as the neutral point, which is written otherwise. -/
theorem read_modulus_succ : read (.ofNumber (modulus + 1)) = .ok 0 := by
  have number := number_ofNumber (by norm_num [modulus] : modulus + 1 < 2 ^ 256)
  have low : (modulus + 1) % 2 ^ 255 = modulus + 1 := Nat.mod_eq_of_lt (by norm_num [modulus])
  refine read_of_decodes ⟨?_, fun some => absurd Point.zero_x some⟩
  rw [Point.zero_y, second, number, low, Nat.cast_add, ZMod.natCast_self, zero_add, Nat.cast_one]

theorem written_iff_modulus_succ : Bytes32.ofNumber (modulus + 1) = write 0 ↔
    (Bytes32.ofNumber (modulus + 1)).number % 2 ^ 255 < modulus ∧
      ((0 : Point curve).x = 0 → (Bytes32.ofNumber (modulus + 1)).number < 2 ^ 255) :=
  written_iff read_modulus_succ

end LightWallet.Frontend.Nacl
