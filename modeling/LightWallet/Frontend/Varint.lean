/-
This file proves that the wallet's scripts write every number in its minimal encoding
of groups of seven bits, whatever the size of the number.

The seven bits are taken from the lowest limb of a big integer, a remainder by ten
millions. That is a multiple of 128, so that the limb has the bits of the number.
-/

import LightWallet.Base128
import LightWallet.Frontend.Keys

namespace LightWallet.Frontend

namespace CnUtil

/-! ### One byte -/

/-- The lowest limb has the bits of the number, and the mark of a byte that others follow. -/
theorem continued_group (number : Nat) :
    (number % 10000000 &&& 0x7f) ||| 0x80 = number % 128 + 128 := by
  have bits : number % 10000000 &&& 0x7f = number % 128 := by
    rw [show (0x7f : Nat) = 2 ^ 7 - 1 from rfl, Nat.and_two_pow_sub_one_eq_mod]
    exact Nat.mod_mod_of_dvd number (show 2 ^ 7 ∣ 10000000 by decide)
  have disjoint : 2 ^ 7 * 1 + number % 2 ^ 7 = 2 ^ 7 * 1 ||| number % 2 ^ 7 :=
    Nat.two_pow_add_eq_or_of_lt (Nat.mod_lt number (by decide)) 1
  rw [bits, Nat.or_comm]
  exact disjoint.symm.trans (Nat.add_comm _ _)

theorem bintohex_cons (byte : UInt8) (rest : List UInt8) :
    bintohex (byte :: rest) = JsString.sliceLast (48 :: toString16 byte.toNat) 2 ++ bintohex rest :=
  List.flatMap_cons

theorem byte_eq_bintohex {number : Nat} (small : number < 256) :
    JsString.sliceLast (48 :: toString16 number) 2 = bintohex [UInt8.ofNat number] := by
  rw [bintohex_cons, UInt8.toNat_ofNat', Nat.mod_eq_of_lt small]
  exact (List.append_nil _).symm

/-! ### The whole number -/

theorem encodeVarint_eq (number : Nat) :
    encodeVarint number = bintohex (Base128.encode number) := by
  induction number using encodeVarint.induct with
  | case1 number large inductionHypothesis =>
    rw [encodeVarint, if_pos large, Base128.encode_of_le large, inductionHypothesis,
      continued_group, byte_eq_bintohex (by omega)]
    exact List.flatMap_append.symm
  | case2 number small =>
    rw [encodeVarint, if_neg small, Base128.encode_of_lt (by omega), byte_eq_bintohex (by omega)]

theorem bintohex_inj {first second : List UInt8} (same : bintohex first = bintohex second) :
    first = second := by
  have read := hextobin_bintohex first
  rw [same, hextobin_bintohex second] at read
  exact (Except.ok.inj read).symm

/-- A byte takes two digits, so that a prefix of digits is one of bytes. -/
theorem prefix_of_bintohex {first second : List UInt8}
    (isPrefix : bintohex first <+: bintohex second) : first <+: second := by
  induction first generalizing second with
  | nil => exact List.nil_prefix
  | cons byte rest inductionHypothesis =>
    cases second with
    | nil =>
      have short := isPrefix.length_le
      rw [length_bintohex, length_bintohex, List.length_cons, List.length_nil] at short
      omega
    | cons other others =>
      have pairLength (byte : UInt8) :
          (JsString.sliceLast (48 :: toString16 byte.toNat) 2).length = 2 := by
        have length := length_bintohex [byte]
        rwa [bintohex_cons, List.length_append, length_bintohex, List.length_nil] at length
      rw [bintohex_cons, bintohex_cons] at isPrefix
      obtain ⟨behind, same⟩ := isPrefix
      rw [List.append_assoc] at same
      obtain ⟨samePair, sameRest⟩ :=
        List.append_inj same ((pairLength byte).trans (pairLength other).symm)
      have sameByte : byte = other := by
        have pairs : bintohex [byte] = bintohex [other] := by
          rw [bintohex_cons, bintohex_cons, samePair]
        exact (List.cons.inj (bintohex_inj pairs)).1
      rw [sameByte]
      exact (List.prefix_cons_inj other).mpr (inductionHypothesis ⟨behind, sameRest⟩)

/-- A number is written as the digits of its minimal encoding, and there is one such encoding and
none that is shorter. No number is written as another one, or as what another one starts with. -/
theorem encodeVarint_minimal :
    (∀ number : Nat, ∃ bytes : List UInt8,
      (encodeVarint number = bintohex bytes ∧ Base128.IsMinimal bytes ∧
        Base128.value bytes = number) ∧
      (∀ other, Base128.IsMinimal other → Base128.value other = number → other = bytes) ∧
      (∀ other, Base128.IsEncoding other → Base128.value other = number →
        bytes.length ≤ other.length)) ∧
    (∀ first second : Nat, encodeVarint first = encodeVarint second → first = second) ∧
    (∀ first second : Nat, encodeVarint first <+: encodeVarint second → first = second) := by
  have prefixFree : ∀ first second : Nat,
      encodeVarint first <+: encodeVarint second → first = second := by
    intro first second isPrefix
    rw [encodeVarint_eq, encodeVarint_eq] at isPrefix
    have same := (Base128.isMinimal_encode first).prefix_unique
      (Base128.isMinimal_encode second).toIsEncoding (prefix_of_bintohex isPrefix)
    rw [← Base128.value_encode first, same, Base128.value_encode]
  refine ⟨fun number => ⟨Base128.encode number, ⟨encodeVarint_eq number,
    Base128.isMinimal_encode number, Base128.value_encode number⟩, ?_, ?_⟩, ?_, prefixFree⟩
  · rintro other minimal rfl
    exact minimal.eq_encode
  · rintro other encoding rfl
    exact Base128.length_encode_le encoding
  · intro first second same
    exact prefixFree first second (same ▸ List.prefix_rfl)

/-! ### The index of an output -/

theorem length_encodeVarint_le_iff {number count : Nat} (positive : 0 < count) :
    (encodeVarint number).length ≤ count * 2 ↔ number < 128 ^ count := by
  rw [encodeVarint_eq, length_bintohex, ← Base128.length_encode_le_iff positive]
  omega

/-- The index of an output is refused from ten groups of seven bits on, so that the numbers that
are said not to fit are too large for 64 bits. -/
theorem derivationToScalar_eq (primitives : Primitives) {derivation : JsString}
    (length : derivation.length = 64) (outputIndex : Nat) :
    derivationToScalar primitives derivation outputIndex =
      if outputIndex < 2 ^ 70 then
        hashToScalar primitives (derivation ++ encodeVarint outputIndex)
      else throw "output_index didn't fit in 64-bit varint" := by
  have fits := @length_encodeVarint_le_iff outputIndex 10 (by decide)
  have bound : (128 : Nat) ^ 10 = 2 ^ 70 := by decide
  rw [bound] at fits
  unfold derivationToScalar
  rw [if_neg (not_not_intro length)]
  by_cases small : outputIndex < 2 ^ 70
  · rw [if_pos small, if_neg (Nat.not_lt.mpr (fits.mpr small))]
  · rw [if_neg small, if_pos (Nat.lt_of_not_le fun short => small (fits.mp short))]

end CnUtil

end LightWallet.Frontend
