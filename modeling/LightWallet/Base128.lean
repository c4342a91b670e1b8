/-
This file is about numbers written in groups of seven bits, the lowest group first,
one byte each. The high bit of a byte tells that more bytes follow.

Encodings are free of prefixes. Each number has one encoding that does not end in a
group of zeros behind others, and no encoding of the number is shorter.
-/

import Mathlib.Data.Nat.Digits.Defs

namespace LightWallet.Base128

/-- The number that the groups make. -/
def value (bytes : List UInt8) : Nat := Nat.ofDigits 128 (bytes.map fun byte => byte.toNat % 128)

/-- The bytes of one number: the last one says that it is the last, and no other does. -/
structure IsEncoding (bytes : List UInt8) : Prop where
  nonempty : bytes ≠ []
  continues : ∀ byte ∈ bytes.dropLast, 128 ≤ byte.toNat
  ends : (bytes.getLast nonempty).toNat < 128

/-- An encoding whose highest group is needed. -/
structure IsMinimal (bytes : List UInt8) : Prop extends IsEncoding bytes where
  needed : 1 < bytes.length → bytes.getLast nonempty ≠ 0

/-- The encoding of a number. -/
def encode (number : Nat) : List UInt8 :=
  if 128 ≤ number then UInt8.ofNat (number % 128 + 128) :: encode (number / 128)
  else [UInt8.ofNat number]
termination_by number
decreasing_by exact Nat.div_lt_self (by omega) (by decide)

/-! ### The value -/

@[simp] theorem value_nil : value [] = 0 := rfl

theorem value_cons (byte : UInt8) (rest : List UInt8) :
    value (byte :: rest) = byte.toNat % 128 + 128 * value rest := by
  unfold value
  rw [List.map_cons, Nat.ofDigits_cons]

theorem value_lt (bytes : List UInt8) : value bytes < 128 ^ bytes.length := by
  have bound := Nat.ofDigits_lt_base_pow_length (b := 128)
    (l := bytes.map fun byte => byte.toNat % 128) (by decide)
    (by
      intro digit member
      obtain ⟨byte, _, rfl⟩ := List.mem_map.mp member
      exact Nat.mod_lt _ (by decide))
  rwa [List.length_map] at bound

/-! ### One byte and the others -/

theorem isEncoding_singleton {byte : UInt8} : IsEncoding [byte] ↔ byte.toNat < 128 := by
  constructor
  · exact fun encoding => encoding.ends
  · intro small
    refine ⟨List.cons_ne_nil _ _, fun other member => ?_, small⟩
    rw [List.dropLast_singleton] at member
    exact absurd member List.not_mem_nil

theorem isEncoding_cons {byte : UInt8} {rest : List UInt8} (more : rest ≠ []) :
    IsEncoding (byte :: rest) ↔ 128 ≤ byte.toNat ∧ IsEncoding rest := by
  have front : (byte :: rest).dropLast = byte :: rest.dropLast := List.dropLast_cons_of_ne_nil more
  have last : (byte :: rest).getLast (List.cons_ne_nil _ _) = rest.getLast more :=
    List.getLast_cons more
  constructor
  · intro encoding
    have continues := encoding.continues
    rw [front] at continues
    refine ⟨continues byte List.mem_cons_self, more,
      fun other member => continues other (List.mem_cons_of_mem _ member), ?_⟩
    rw [← last]
    exact encoding.ends
  · rintro ⟨high, encoding⟩
    refine ⟨List.cons_ne_nil _ _, ?_, ?_⟩
    · rw [front]
      intro other member
      rcases List.mem_cons.mp member with rfl | member
      · exact high
      · exact encoding.continues other member
    · rw [last]
      exact encoding.ends

/-- Minimality is about the last byte, so that it passes to what stands behind the first. -/
theorem isMinimal_cons {byte : UInt8} {rest : List UInt8} (more : rest ≠ []) :
    IsMinimal (byte :: rest) ↔ 128 ≤ byte.toNat ∧ IsMinimal rest ∧ rest ≠ [0] := by
  have last : (byte :: rest).getLast (List.cons_ne_nil _ _) = rest.getLast more :=
    List.getLast_cons more
  have length : 0 < rest.length := List.length_pos_iff.mpr more
  constructor
  · intro minimal
    obtain ⟨high, encoding⟩ := (isEncoding_cons more).mp minimal.toIsEncoding
    have needed : rest.getLast more ≠ 0 := by
      rw [← last]
      exact minimal.needed (by rw [List.length_cons]; omega)
    refine ⟨high, ⟨encoding, fun _ => needed⟩, ?_⟩
    rintro rfl
    exact needed rfl
  · rintro ⟨high, minimal, nonzero⟩
    refine ⟨(isEncoding_cons more).mpr ⟨high, minimal.toIsEncoding⟩, fun _ => ?_⟩
    rw [last]
    by_cases single : 1 < rest.length
    · exact minimal.needed single
    · obtain ⟨only, rfl⟩ := List.length_eq_one_iff.mp (show rest.length = 1 by omega)
      intro zero
      exact nonzero (congrArg (fun byte => [byte]) zero)

/-- What comes behind the end of an encoding is not part of it. -/
theorem IsEncoding.prefix_unique {first second : List UInt8} (encoding : IsEncoding first)
    (other : IsEncoding second) (isPrefix : first <+: second) : first = second := by
  obtain ⟨rest, rfl⟩ := isPrefix
  by_cases empty : rest = []
  · rw [empty, List.append_nil]
  · have inside : first.getLast encoding.nonempty ∈ (first ++ rest).dropLast := by
      rw [List.dropLast_append_of_ne_nil empty]
      exact List.mem_append_left _ (List.getLast_mem encoding.nonempty)
    have high := other.continues _ inside
    have low := encoding.ends
    omega

/-! ### The encoding of a number -/

theorem encode_of_le {number : Nat} (large : 128 ≤ number) :
    encode number = UInt8.ofNat (number % 128 + 128) :: encode (number / 128) := by
  rw [encode, if_pos large]

theorem encode_of_lt {number : Nat} (small : number < 128) :
    encode number = [UInt8.ofNat number] := by
  rw [encode, if_neg (by omega)]

theorem encode_ne_nil (number : Nat) : encode number ≠ [] := by
  by_cases large : 128 ≤ number
  · rw [encode_of_le large]
    exact List.cons_ne_nil _ _
  · rw [encode_of_lt (by omega)]
    exact List.cons_ne_nil _ _

theorem value_encode (number : Nat) : value (encode number) = number := by
  induction number using encode.induct with
  | case1 number large inductionHypothesis =>
    rw [encode_of_le large, value_cons, inductionHypothesis, UInt8.toNat_ofNat']
    omega
  | case2 number small =>
    rw [encode_of_lt (by omega), value_cons, value_nil, UInt8.toNat_ofNat']
    omega

theorem isMinimal_encode (number : Nat) : IsMinimal (encode number) := by
  induction number using encode.induct with
  | case1 number large inductionHypothesis =>
    have high : 128 ≤ (UInt8.ofNat (number % 128 + 128)).toNat := by
      rw [UInt8.toNat_ofNat']
      omega
    rw [encode_of_le large]
    refine (isMinimal_cons (encode_ne_nil _)).mpr ⟨high, inductionHypothesis, fun zero => ?_⟩
    have quotient : number / 128 = 0 := by
      rw [← value_encode (number / 128), zero]
      rfl
    omega
  | case2 number small =>
    have low : (UInt8.ofNat number).toNat < 128 := by
      rw [UInt8.toNat_ofNat']
      omega
    rw [encode_of_lt (by omega)]
    exact ⟨isEncoding_singleton.mpr low, fun several => absurd several (by simp)⟩

/-- A minimal encoding of zero is a byte of zeros. -/
theorem IsMinimal.eq_zero {bytes : List UInt8} (minimal : IsMinimal bytes)
    (zero : value bytes = 0) : bytes = [0] := by
  induction bytes with
  | nil => exact absurd rfl minimal.nonempty
  | cons byte rest inductionHypothesis =>
    rw [value_cons] at zero
    by_cases empty : rest = []
    · subst empty
      have low := isEncoding_singleton.mp minimal.toIsEncoding
      have null : byte = 0 := UInt8.toNat_inj.mp (show byte.toNat = 0 by omega)
      rw [null]
    · obtain ⟨_, restMinimal, nonzero⟩ := (isMinimal_cons empty).mp minimal
      exact absurd (inductionHypothesis restMinimal (by omega)) nonzero

/-- A number has one minimal encoding. -/
theorem IsMinimal.eq_encode {bytes : List UInt8} (minimal : IsMinimal bytes) :
    bytes = encode (value bytes) := by
  induction bytes with
  | nil => exact absurd rfl minimal.nonempty
  | cons byte rest inductionHypothesis =>
    have bound : byte.toNat < 256 := byte.toNat_lt
    by_cases empty : rest = []
    · subst empty
      have low := isEncoding_singleton.mp minimal.toIsEncoding
      have small : value [byte] = byte.toNat := by
        rw [value_cons, value_nil]
        omega
      rw [small, encode_of_lt low, UInt8.ofNat_toNat]
    · obtain ⟨high, restMinimal, nonzero⟩ := (isMinimal_cons empty).mp minimal
      have positive : value rest ≠ 0 := fun zero => nonzero (restMinimal.eq_zero zero)
      have quotient : value (byte :: rest) / 128 = value rest := by
        rw [value_cons]
        omega
      have group : value (byte :: rest) % 128 + 128 = byte.toNat := by
        rw [value_cons]
        omega
      have large : 128 ≤ value (byte :: rest) := by
        rw [value_cons]
        omega
      rw [encode_of_le large, group, quotient, UInt8.ofNat_toNat,
        ← inductionHypothesis restMinimal]

theorem length_encode_le_iff {number count : Nat} (positive : 0 < count) :
    (encode number).length ≤ count ↔ number < 128 ^ count := by
  induction number using encode.induct generalizing count with
  | case1 number large inductionHypothesis =>
    obtain ⟨others, rfl⟩ := Nat.exists_eq_succ_of_ne_zero (Nat.ne_of_gt positive)
    rw [encode_of_le large, List.length_cons, Nat.succ_le_succ_iff, Nat.pow_succ]
    by_cases none : others = 0
    · have nonempty := List.length_pos_iff.mpr (encode_ne_nil (number / 128))
      subst none
      omega
    · rw [inductionHypothesis (Nat.pos_of_ne_zero none), Nat.div_lt_iff_lt_mul (by decide)]
  | case2 number small =>
    have one : 128 ^ 1 ≤ 128 ^ count := Nat.pow_le_pow_right (by decide) positive
    rw [encode_of_lt (by omega), List.length_singleton]
    omega

/-- No encoding of the number is shorter. -/
theorem length_encode_le {bytes : List UInt8} (encoding : IsEncoding bytes) :
    (encode (value bytes)).length ≤ bytes.length :=
  (length_encode_le_iff (List.length_pos_iff.mpr encoding.nonempty)).mpr (value_lt bytes)

end LightWallet.Base128
