/-
This file connects the keys of the wallet with the curve. The functions of the keys are given the
operations of the curve, and any libraries for what else they call.

The public key of a secret key is its multiple of the base point, and the two sides of a payment,
each with its own secret key and the public key of the other, derive the same point. From that point
the key of an output is derived, and the secret key that spends it.
-/

import LightWallet.Frontend.AccountService
import LightWallet.Frontend.NaclCurve

namespace LightWallet.Frontend.CnUtil

open Nacl (Bytes32 curve basePoint write)
open Edwards AccountService

/-- The operations of `nacl.ll`, with other libraries for the rest. -/
def onCurve (others : Primitives) : Primitives :=
  { others with
    geScalarmultBase := fun s => Nacl.geScalarmultBase (.ofList s)
    geScalarmult := fun P s => Nacl.geScalarmult (.ofList P) (.ofList s)
    geAdd := fun P Q => Nacl.geAdd (.ofList P) (.ofList Q) }

/-- The number of a scalar in its digits. -/
def scalar (sec : JsString) : Nat :=
  match hextobin sec with
  | .ok bytes => (Bytes32.ofList bytes).number
  | .error _ => 0

/-- The digits of a point. -/
def digits (point : Point curve) : JsString := bintohex (write point).toList

theorem length_digits (point : Point curve) : (digits point).length = 64 := by
  rw [digits, length_bintohex, Vector.length_toList]

theorem ofList_toList (bytes : Bytes32) : Bytes32.ofList bytes.toList = bytes := by
  refine Vector.toList_inj.mp ?_
  show (bytes.toList ++ List.replicate 32 0).take 32 = bytes.toList
  exact List.take_left' bytes.length_toList

theorem hextobin_scalar {sec : JsString} (length : sec.length = 64) :
    ∃ bytes, hextobin sec = .ok bytes ∧ (Bytes32.ofList bytes).number = scalar sec := by
  have some := hextobin_eq (show sec.length % 2 = 0 by rw [length])
  exact ⟨_, some, by rw [scalar, some]⟩

theorem geScalarmult_of_product {primitives : Primitives} {pub sec : JsString}
    (first : pub.length = 64) (second : sec.length = 64) {point bytes : List UInt8}
    (read : hextobin pub = .ok point) (other : hextobin sec = .ok bytes)
    {product : Vector UInt8 32} (same : primitives.geScalarmult point bytes = .ok product) :
    geScalarmult primitives pub sec = .ok (bintohex product.toList) := by
  rw [geScalarmult, if_neg (not_or.mpr ⟨not_not_intro first, not_not_intro second⟩), read, other]
  show (primitives.geScalarmult point bytes >>= fun product => pure (bintohex product.toList)) = _
  rw [same]
  rfl

section

variable (others : Primitives)

theorem secKeyToPub_eq {sec : JsString} (length : sec.length = 64) :
    secKeyToPub (onCurve others) sec = .ok (digits (scalar sec • basePoint)) := by
  obtain ⟨bytes, some, number⟩ := hextobin_scalar length
  have product := Nacl.geScalarmultBase_eq (.ofList bytes)
  rw [number] at product
  rw [secKeyToPub, if_neg (not_not_intro length), some, digits, ← product]
  rfl

theorem geScalarmult_digits (point : Point curve) {sec : JsString} (length : sec.length = 64) :
    geScalarmult (onCurve others) (digits point) sec = .ok (digits (scalar sec • point)) := by
  obtain ⟨bytes, some, number⟩ := hextobin_scalar length
  refine geScalarmult_of_product (length_digits point) length (hextobin_bintohex _) some ?_
  show Nacl.geScalarmult (.ofList (write point).toList) (.ofList bytes) = _
  rw [ofList_toList, Nacl.geScalarmult_eq, Nacl.read_write, number]
  rfl

theorem scalar_eight : scalar eight = 8 := by
  decide +kernel

theorem generateKeyDerivation_digits (point : Point curve) {sec : JsString}
    (length : sec.length = 64) : generateKeyDerivation (onCurve others) (digits point) sec =
      .ok (digits ((8 * scalar sec) • point)) := by
  have lengths : ¬ ((digits point).length ≠ 64 ∨ sec.length ≠ 64) :=
    not_or.mpr ⟨not_not_intro (length_digits point), not_not_intro length⟩
  rw [generateKeyDerivation, if_neg lengths, geScalarmult_digits others point length, d2s_eight]
  refine (geScalarmult_digits others _ (by decide)).trans ?_
  rw [scalar_eight, smul_smul]

end

/-- The two sides of a payment derive the same point. -/
theorem derivations_agree (others : Primitives) {first second : JsString}
    (left : first.length = 64) (right : second.length = 64) :
    ∃ firstPub secondPub derivation,
      secKeyToPub (onCurve others) first = .ok firstPub ∧
      secKeyToPub (onCurve others) second = .ok secondPub ∧
      generateKeyDerivation (onCurve others) firstPub second = .ok derivation ∧
      generateKeyDerivation (onCurve others) secondPub first = .ok derivation := by
  refine ⟨_, _, _, secKeyToPub_eq others left, secKeyToPub_eq others right,
    generateKeyDerivation_digits others _ right, ?_⟩
  rw [generateKeyDerivation_digits others _ left, smul_smul, smul_smul, mul_right_comm]

theorem derivations_agree_eight : ∃ firstPub secondPub derivation,
    secKeyToPub (onCurve zeros) eight = .ok firstPub ∧
    secKeyToPub (onCurve zeros) (List.replicate 64 49) = .ok secondPub ∧
    generateKeyDerivation (onCurve zeros) firstPub (List.replicate 64 49) = .ok derivation ∧
    generateKeyDerivation (onCurve zeros) secondPub eight = .ok derivation :=
  derivations_agree zeros (by decide) (by decide)

/-! ### The keys of a payment -/

theorem nsmul_mod_order (count : Nat) : (count % Nacl.order) • basePoint = count • basePoint := by
  have parts := congrArg (· • basePoint) (Nat.mod_add_div count Nacl.order)
  rw [add_nsmul, mul_nsmul, Nacl.order_smul_basePoint, nsmul_zero, add_zero] at parts
  exact parts

/-- The library adds scalars modulo the order of the base point. -/
def AddsScalars (primitives : Primitives) : Prop :=
  ∀ first second, Bytes32.number (primitives.scAdd first second) % Nacl.order =
    ((Bytes32.ofList first).number + (Bytes32.ofList second).number) % Nacl.order

theorem scalar_bintohex (bytes : Bytes32) : scalar (bintohex bytes.toList) = bytes.number := by
  rw [scalar, hextobin_bintohex]
  exact congrArg Bytes32.number (ofList_toList bytes)

theorem length_derivationToScalar {primitives : Primitives} {derivation hash : JsString}
    {outputIndex : Nat} (found : derivationToScalar primitives derivation outputIndex = .ok hash) :
    hash.length = 64 := by
  unfold derivationToScalar at found
  split at found
  · cases found
  · simp only at found
    split at found
    · cases found
    · obtain ⟨digest, _, found⟩ := Blocks.bind_eq_ok_iff.mp found
      unfold scReduce32 at found
      obtain ⟨input, _, found⟩ := Blocks.bind_eq_ok_iff.mp found
      split at found
      · cases found
      · cases found
        rw [length_bintohex, Vector.length_toList]

section Derived

variable {primitives : Primitives} {derivation pub sec hash point : JsString} {outIndex : Nat}
  {first second : List UInt8}

theorem derivePublicKey_of_sum (left : derivation.length = 64) (right : pub.length = 64)
    (found : derivationToScalar primitives derivation outIndex = .ok hash)
    (multiple : secKeyToPub primitives hash = .ok point) (read : hextobin pub = .ok first)
    (other : hextobin point = .ok second) {sum : Vector UInt8 32}
    (added : primitives.geAdd first second = .ok sum) :
    derivePublicKey primitives derivation outIndex pub = .ok (bintohex sum.toList) := by
  rw [derivePublicKey, if_neg (not_or.mpr ⟨not_not_intro left, not_not_intro right⟩), found]
  refine Blocks.bind_eq_ok_iff.mpr ⟨hash, rfl, ?_⟩
  refine Blocks.bind_eq_ok_iff.mpr ⟨point, multiple, ?_⟩
  refine Blocks.bind_eq_ok_iff.mpr ⟨first, read, ?_⟩
  refine Blocks.bind_eq_ok_iff.mpr ⟨second, other, ?_⟩
  exact Blocks.bind_eq_ok_iff.mpr ⟨sum, added, rfl⟩

theorem deriveSecretKey_of_sum (left : derivation.length = 64) (right : sec.length = 64)
    (found : derivationToScalar primitives derivation outIndex = .ok hash)
    (read : hextobin hash = .ok first) (other : hextobin sec = .ok second) :
    deriveSecretKey primitives derivation outIndex sec =
      .ok (bintohex (primitives.scAdd second first).toList) := by
  rw [deriveSecretKey, if_neg (not_or.mpr ⟨not_not_intro left, not_not_intro right⟩), found]
  refine Blocks.bind_eq_ok_iff.mpr ⟨hash, rfl, ?_⟩
  refine Blocks.bind_eq_ok_iff.mpr ⟨first, read, ?_⟩
  exact Blocks.bind_eq_ok_iff.mpr ⟨second, other, rfl⟩

end Derived

theorem derivePublicKey_digits (others : Primitives) {derivation hash : JsString} {outIndex : Nat}
    (left : derivation.length = 64) (point : Point curve)
    (found : derivationToScalar (onCurve others) derivation outIndex = .ok hash) :
    derivePublicKey (onCurve others) derivation outIndex (digits point) =
      .ok (digits (point + scalar hash • basePoint)) := by
  refine derivePublicKey_of_sum left (length_digits point) found
    (secKeyToPub_eq others (length_derivationToScalar found)) (hextobin_bintohex _)
    (hextobin_bintohex _) ?_
  show Nacl.geAdd (.ofList (write point).toList)
    (.ofList (write (scalar hash • basePoint)).toList) = _
  rw [ofList_toList, ofList_toList, Nacl.geAdd_eq, Nacl.read_write, Nacl.read_write]
  rfl

theorem deriveSecretKey_secKeyToPub {others : Primitives} (adds : AddsScalars others)
    {derivation sec hash : JsString} {outIndex : Nat} (left : derivation.length = 64)
    (right : sec.length = 64)
    (found : derivationToScalar (onCurve others) derivation outIndex = .ok hash) :
    ∃ derived, deriveSecretKey (onCurve others) derivation outIndex sec = .ok derived ∧
      secKeyToPub (onCurve others) derived =
        .ok (digits (scalar sec • basePoint + scalar hash • basePoint)) := by
  obtain ⟨first, read, number⟩ := hextobin_scalar (length_derivationToScalar found)
  obtain ⟨second, other, base⟩ := hextobin_scalar right
  refine ⟨_, deriveSecretKey_of_sum left right found read other, ?_⟩
  refine (secKeyToPub_eq others (by rw [length_bintohex, Vector.length_toList])).trans ?_
  refine congrArg (fun point => Except.ok (digits point)) ?_
  have sum := adds second first
  rw [number, base] at sum
  rw [scalar_bintohex, ← nsmul_mod_order, ← add_nsmul, ← nsmul_mod_order (scalar sec + scalar hash)]
  exact congrArg (· • basePoint) sum

/-- The key of an output is the public key of the secret key that is derived to spend it, whatever
the derivation, and where the one is not derived the other is not either. -/
theorem derived_keys_match {others : Primitives} (adds : AddsScalars others)
    {derivation spendSec : JsString} (left : derivation.length = 64)
    (right : spendSec.length = 64) (outIndex : Nat) :
    ∃ spendPub, secKeyToPub (onCurve others) spendSec = .ok spendPub ∧
      derivePublicKey (onCurve others) derivation outIndex spendPub =
        (deriveSecretKey (onCurve others) derivation outIndex spendSec).bind
          (secKeyToPub (onCurve others)) := by
  refine ⟨_, secKeyToPub_eq others right, ?_⟩
  cases found : derivationToScalar (onCurve others) derivation outIndex with
  | error thrown =>
    have lengths := not_or.mpr ⟨not_not_intro left, not_not_intro right⟩
    have same := not_or.mpr ⟨not_not_intro left, not_not_intro
      (length_digits (scalar spendSec • basePoint))⟩
    rw [derivePublicKey, deriveSecretKey, if_neg same, if_neg lengths, found]
    rfl
  | ok hash =>
    obtain ⟨derived, some, pub⟩ := deriveSecretKey_secKeyToPub adds left right found
    rw [derivePublicKey_digits others left _ found, some]
    exact pub.symm

/-- Libraries that give zeros, but add scalars. -/
def zerosOfScalars : Primitives :=
  { zeros with
    scAdd := fun first second => Bytes32.ofNumber
      (((Bytes32.ofList first).number + (Bytes32.ofList second).number) % Nacl.order) }

theorem addsScalars_zerosOfScalars : AddsScalars zerosOfScalars := by
  intro first second
  have below : Nacl.order < 2 ^ 256 := by norm_num [Nacl.order]
  have small := (Nat.mod_lt ((Bytes32.ofList first).number + (Bytes32.ofList second).number)
    (by norm_num [Nacl.order] : 0 < Nacl.order)).trans below
  exact (congrArg (· % Nacl.order) (Nacl.number_ofNumber small)).trans (Nat.mod_mod _ _)

theorem derived_keys_match_eight : ∃ spendPub,
    secKeyToPub (onCurve zerosOfScalars) eight = .ok spendPub ∧
    derivePublicKey (onCurve zerosOfScalars) eight 1 spendPub =
      (deriveSecretKey (onCurve zerosOfScalars) eight 1 eight).bind
        (secKeyToPub (onCurve zerosOfScalars)) :=
  derived_keys_match addsScalars_zerosOfScalars (by decide) (by decide) 1

end LightWallet.Frontend.CnUtil
