/-
This file models the keys that the wallet's scripts derive: those of an account from
its seed, and the image of the key of an output.

The arithmetic on the curve comes from libraries. It is a parameter here, as far as it
is called, with what the libraries take and return in bytes; a library function that
may throw is one that may fail.
-/

import LightWallet.Frontend.Address

namespace LightWallet.Frontend.CnUtil

/-- What the scripts call of the libraries for hashing and for the curve. -/
structure Primitives where
  keccak256 : List UInt8 → Vector UInt8 32
  scReduce32 : List UInt8 → Vector UInt8 32
  scAdd : List UInt8 → List UInt8 → Vector UInt8 32
  scCheck : List UInt8 → Nat
  /-- `nacl.ll.ge_scalarmult_base`. -/
  geScalarmultBase : List UInt8 → Vector UInt8 32
  /-- `nacl.ll.ge_scalarmult`, which throws where no point can be decoded. -/
  geScalarmult : List UInt8 → List UInt8 → Except String (Vector UInt8 32)
  /-- `nacl.ll.ge_add`, which throws where no point can be decoded. -/
  geAdd : List UInt8 → List UInt8 → Except String (Vector UInt8 32)
  geFromfeFrombytesVartime : List UInt8 → List UInt8
  geMul8 : List UInt8 → List UInt8
  geP1p1ToP3 : List UInt8 → List UInt8
  /-- `ge_scalarmult` of the compiled module, of a scalar and a point. -/
  geScalarmultPoint : List UInt8 → List UInt8 → List UInt8
  geTobytes : List UInt8 → Vector UInt8 32

/-- A secret key, and the public key to it. -/
structure KeyPair where
  sec : JsString
  pub : JsString
deriving DecidableEq

/-- What `create_address` returns. -/
structure AccountKeys where
  spend : KeyPair
  view : KeyPair
  publicAddr : JsString
deriving DecidableEq

section

variable (nettype : Nat) (primitives : Primitives)

/-! ### Accounts -/

/-- `sc_reduce32`. -/
def scReduce32 (hex : JsString) : Except String JsString := do
  let input ← hextobin hex
  if input.length ≠ 32 then throw "Invalid input length"
  else pure (bintohex (primitives.scReduce32 input).toList)

/-- `sec_key_to_pub`. -/
def secKeyToPub (sec : JsString) : Except String JsString :=
  if sec.length ≠ 64 then throw "Invalid sec length"
  else do
    let bytes ← hextobin sec
    pure (bintohex (primitives.geScalarmultBase bytes).toList)

/-- `generate_keys`. -/
def generateKeys (seed : JsString) : Except String KeyPair :=
  if seed.length ≠ 64 then throw "Invalid input length!"
  else do
    let sec ← scReduce32 primitives seed
    let pub ← secKeyToPub primitives sec
    pure ⟨sec, pub⟩

/-- `create_address`. -/
def createAddress (seed : JsString) : Except String AccountKeys := do
  let first ← if seed.length ≠ 64 then cnFastHash primitives.keccak256 seed else pure seed
  let spend ← generateKeys primitives first
  let second ← cnFastHash primitives.keccak256 (if seed.length ≠ 64 then first else spend.sec)
  let view ← generateKeys primitives second
  let publicAddr ← pubkeysToString nettype primitives.keccak256 spend.pub view.pub
  pure ⟨spend, view, publicAddr⟩

/-- `is_subaddress`. -/
def isSubaddress (address : JsString) : Except String Bool := do
  let dec ← CnBase58.decode address
  let expectedPrefixSub := encodeVarint (publicSubaddressPrefix nettype)
  pure (decide (slice dec 0 expectedPrefixSub.length = expectedPrefixSub))

/-! ### Images of keys -/

/-- `hash_to_scalar`. -/
def hashToScalar (buf : JsString) : Except String JsString := do
  let hash ← cnFastHash primitives.keccak256 buf
  scReduce32 primitives hash

/-- `ge_scalarmult`. -/
def geScalarmult (pub sec : JsString) : Except String JsString :=
  if pub.length ≠ 64 ∨ sec.length ≠ 64 then throw "Invalid input length"
  else do
    let point ← hextobin pub
    let scalar ← hextobin sec
    let product ← primitives.geScalarmult point scalar
    pure (bintohex product.toList)

/-- `swapEndian`. -/
def swapEndian (hex : JsString) : JsString :=
  if hex.length % 2 ≠ 0 then JsString.ofString "length must be a multiple of 2!"
  else (List.range (hex.length / 2)).flatMap fun index =>
    slice hex (hex.length - 2 * (index + 1)) (hex.length - 2 * index)

/-- `d2h` of a number. -/
def d2h (integer : Nat) : Except String JsString :=
  if (toString10 integer).length > 15 then
    throw "integer should be entered as a string for precision"
  else pure (JsString.sliceLast (List.replicate 63 48 ++ toString16 integer) 64)

/-- `d2s` of a number. -/
def d2s (integer : Nat) : Except String JsString := do
  let hex ← d2h integer
  pure (swapEndian hex)

/-- The scalar with eight in its low byte. -/
def eight : JsString := JsString.ofString "08" ++ List.replicate 62 48

theorem d2s_eight : d2s 8 = .ok eight := by decide +kernel

/-- `generate_key_derivation`. -/
def generateKeyDerivation (pub sec : JsString) : Except String JsString :=
  if pub.length ≠ 64 ∨ sec.length ≠ 64 then throw "Invalid input length"
  else do
    let product ← geScalarmult primitives pub sec
    let cofactor ← d2s 8
    geScalarmult primitives product cofactor

/-- `derivation_to_scalar`. -/
def derivationToScalar (derivation : JsString) (outputIndex : Nat) : Except String JsString :=
  if derivation.length ≠ 64 then throw "Invalid derivation length!"
  else
    let enc := encodeVarint outputIndex
    if enc.length > 10 * 2 then throw "output_index didn't fit in 64-bit varint"
    else hashToScalar primitives (derivation ++ enc)

/-- `derive_secret_key`. -/
def deriveSecretKey (derivation : JsString) (outIndex : Nat) (sec : JsString) :
    Except String JsString :=
  if derivation.length ≠ 64 ∨ sec.length ≠ 64 then throw "Invalid input length!"
  else do
    let scalar ← derivationToScalar primitives derivation outIndex
    let scalarBytes ← hextobin scalar
    let base ← hextobin sec
    pure (bintohex (primitives.scAdd base scalarBytes).toList)

/-- `derive_public_key`. -/
def derivePublicKey (derivation : JsString) (outIndex : Nat) (pub : JsString) :
    Except String JsString :=
  if derivation.length ≠ 64 ∨ pub.length ≠ 64 then throw "Invalid input length!"
  else do
    let scalar ← derivationToScalar primitives derivation outIndex
    let point ← secKeyToPub primitives scalar
    let first ← hextobin pub
    let second ← hextobin point
    let sum ← primitives.geAdd first second
    pure (bintohex sum.toList)

/-- `hash_to_ec`. -/
def hashToEc (key : JsString) : Except String JsString :=
  if key.length ≠ 64 then throw "Invalid input length"
  else do
    let digits ← cnFastHash primitives.keccak256 key
    let hash ← hextobin digits
    pure (bintohex (primitives.geP1p1ToP3 (primitives.geMul8
      (primitives.geFromfeFrombytesVartime hash))))

/-- `generate_key_image_2`. -/
def generateKeyImage2 (pub sec : JsString) : Except String JsString :=
  if pub.length ≠ 64 ∨ sec.length ≠ 64 then throw "Invalid input length"
  else do
    let scalar ← hextobin sec
    if primitives.scCheck scalar ≠ 0 then throw "sc_check(sec) != 0"
    else
      let point ← hashToEc primitives pub
      let bytes ← hextobin point
      pure (bintohex (primitives.geTobytes (primitives.geScalarmultPoint scalar bytes)).toList)

/-- The image that `generate_key_image` returns. -/
def generateKeyImage (txPub viewSec spendPub spendSec : JsString) (outputIndex : Nat) :
    Except String JsString :=
  if txPub.length ≠ 64 then throw "Invalid tx_pub length"
  else if viewSec.length ≠ 64 then throw "Invalid view_sec length"
  else if spendPub.length ≠ 64 then throw "Invalid spend_pub length"
  else if spendSec.length ≠ 64 then throw "Invalid spend_sec length"
  else do
    let recvDerivation ← generateKeyDerivation primitives txPub viewSec
    let ephemeralPub ← derivePublicKey primitives recvDerivation outputIndex spendPub
    let ephemeralSec ← deriveSecretKey primitives recvDerivation outputIndex spendSec
    generateKeyImage2 primitives ephemeralPub ephemeralSec

end

/-! ### What does not fail -/

section

variable {nettype : Nat} {primitives : Primitives}

/-- The digits of a key are never too few or too many for the curve. -/
theorem secKeyToPub_isOk {sec : JsString} (length : sec.length = 64) :
    ∃ pub, secKeyToPub primitives sec = .ok pub := by
  unfold secKeyToPub
  rw [if_neg (not_not_intro length), hextobin_eq (by rw [length])]
  exact ⟨_, rfl⟩

/-- What is an address is a subaddress or not. -/
theorem isSubaddress_isOk {keccak256 : List UInt8 → Vector UInt8 32} {address : JsString}
    {decoded : DecodedAddress} (read : decodeAddress nettype keccak256 address = .ok decoded) :
    ∃ sub, isSubaddress nettype address = .ok sub := by
  obtain ⟨dec, read, _⟩ := decodeAddress_eq_ok_iff.mp read
  exact ⟨_, by rw [isSubaddress, read]; rfl⟩

end

end LightWallet.Frontend.CnUtil
