/-
This file models how the wallet's scripts write and read addresses. An address is
the codec's string of a byte that tells the kind of address, two keys, a payment
identifier in an integrated address, and four bytes of a checksum.

Regular and integrated addresses are read as they were written. A string that is
read need not be what writing gives, since the reader ignores what stands behind the
checksum.
-/

import LightWallet.Frontend.Base58

namespace LightWallet.Frontend

/-- `string.slice(start, stop)`. -/
def slice (string : JsString) (start stop : Nat) : JsString :=
  (string.drop start).take (stop - start)

/-! ### The configuration -/

namespace Config

/-- `config.addressPrefix`. -/
def addressPrefix : Nat := 18

/-- `config.integratedAddressPrefix`. -/
def integratedAddressPrefix : Nat := 19

/-- `config.subAddressPrefix`. -/
def subAddressPrefix : Nat := 42

/-- `config.addressPrefixTestnet`. -/
def addressPrefixTestnet : Nat := 53

/-- `config.integratedAddressPrefixTestnet`. -/
def integratedAddressPrefixTestnet : Nat := 54

/-- `config.subAddressPrefixTestnet`. -/
def subAddressPrefixTestnet : Nat := 63

/-- `config.addressPrefixStagenet`. -/
def addressPrefixStagenet : Nat := 24

/-- `config.integratedAddressPrefixStagenet`. -/
def integratedAddressPrefixStagenet : Nat := 25

/-- `config.subAddressPrefixStagenet`. -/
def subAddressPrefixStagenet : Nat := 36

end Config

namespace CnUtil

/-- `ADDRESS_CHECKSUM_SIZE`. -/
def addressChecksumSize : Nat := 4

/-- `INTEGRATED_ID_SIZE`. -/
def integratedIdSize : Nat := 8

/-- `CRYPTONOTE_PUBLIC_ADDRESS_BASE58_PREFIX`. -/
def publicAddressPrefix (nettype : Nat) : Nat :=
  if nettype = 1 then Config.addressPrefixTestnet
  else if nettype = 2 then Config.addressPrefixStagenet
  else Config.addressPrefix

/-- `CRYPTONOTE_PUBLIC_INTEGRATED_ADDRESS_BASE58_PREFIX`. -/
def publicIntegratedAddressPrefix (nettype : Nat) : Nat :=
  if nettype = 1 then Config.integratedAddressPrefixTestnet
  else if nettype = 2 then Config.integratedAddressPrefixStagenet
  else Config.integratedAddressPrefix

/-- `CRYPTONOTE_PUBLIC_SUBADDRESS_BASE58_PREFIX`. -/
def publicSubaddressPrefix (nettype : Nat) : Nat :=
  if nettype = 1 then Config.subAddressPrefixTestnet
  else if nettype = 2 then Config.subAddressPrefixStagenet
  else Config.subAddressPrefix

/-! ### The script -/

/-- `encode_varint`. The lowest limb of a big integer is its remainder by ten millions. -/
def encodeVarint (i : Nat) : JsString :=
  if 0x80 ≤ i then
    JsString.sliceLast (48 :: toString16 ((i % 10000000 &&& 0x7f) ||| 0x80)) 2 ++
      encodeVarint (i / 2 ^ 7)
  else JsString.sliceLast (48 :: toString16 i) 2
termination_by i
decreasing_by exact Nat.div_lt_self (by omega) (by decide)

/-- `valid_hex`. The expression asks for as many digits as the string is long. -/
def validHex (hex : JsString) : Bool := decide (IsHex hex)

/-- What `decode_address` returns. A payment identifier that is missing or empty is left out. -/
structure DecodedAddress where
  spend : JsString
  view : JsString
  intPaymentId : Option JsString
deriving DecidableEq

section

variable (nettype : Nat) (keccak256 : List UInt8 → Vector UInt8 32)

/-- `cn_fast_hash`. -/
def cnFastHash (input : JsString) : Except String JsString :=
  if input.length % 2 ≠ 0 ∨ !validHex input then throw "Input invalid"
  else do
    let bytes ← hextobin input
    pure (bintohex (keccak256 bytes).toList)

/-- `pubkeys_to_string`. -/
def pubkeysToString (spend view : JsString) : Except String JsString := do
  let data := encodeVarint (publicAddressPrefix nettype) ++ spend ++ view
  let checksum ← cnFastHash keccak256 data
  CnBase58.encode (data ++ slice checksum 0 (addressChecksumSize * 2))

/-- The cases of `decode_address`: the payment identifier, the checksum that the address has and
the one that is expected. -/
def checksumCases (decPrefix dec spend view : JsString) :
    Except String (JsString × JsString × JsString) :=
  if decPrefix = encodeVarint (publicIntegratedAddressPrefix nettype) then do
    let intPaymentId := slice dec 128 (128 + integratedIdSize * 2)
    let checksum := slice dec (128 + integratedIdSize * 2)
      (128 + integratedIdSize * 2 + addressChecksumSize * 2)
    let hash ← cnFastHash keccak256 (decPrefix ++ spend ++ view ++ intPaymentId)
    pure (intPaymentId, checksum, slice hash 0 (addressChecksumSize * 2))
  else if decPrefix = encodeVarint (publicAddressPrefix nettype) then do
    let checksum := slice dec 128 (128 + addressChecksumSize * 2)
    let hash ← cnFastHash keccak256 (decPrefix ++ spend ++ view)
    pure ([], checksum, slice hash 0 (addressChecksumSize * 2))
  else do
    -- what is neither regular nor integrated must be a subaddress
    let checksum := slice dec 128 (128 + addressChecksumSize * 2)
    let hash ← cnFastHash keccak256 (decPrefix ++ spend ++ view)
    pure ([], checksum, slice hash 0 (addressChecksumSize * 2))

/-- `decode_address`. -/
def decodeAddress (address : JsString) : Except String DecodedAddress := do
  let dec ← CnBase58.decode address
  let expectedPrefix := encodeVarint (publicAddressPrefix nettype)
  let expectedPrefixInt := encodeVarint (publicIntegratedAddressPrefix nettype)
  let expectedPrefixSub := encodeVarint (publicSubaddressPrefix nettype)
  let decPrefix := slice dec 0 expectedPrefix.length
  if decPrefix ≠ expectedPrefix ∧ decPrefix ≠ expectedPrefixInt ∧ decPrefix ≠ expectedPrefixSub
  then throw "Invalid address prefix"
  else
    let dec := dec.drop expectedPrefix.length
    let spend := slice dec 0 64
    let view := slice dec 64 128
    let (intPaymentId, checksum, expectedChecksum) ←
      checksumCases nettype keccak256 decPrefix dec spend view
    if checksum ≠ expectedChecksum then throw "Invalid checksum"
    else pure ⟨spend, view, if intPaymentId = [] then none else some intPaymentId⟩

/-- `get_account_integrated_address`. The object that the script makes is the global one, so that
the reader is found without naming the object. -/
def getAccountIntegratedAddress (address paymentId8 : JsString) : Except String JsString := do
  let decodedAddress ← decodeAddress nettype keccak256 address
  let data := encodeVarint (publicIntegratedAddressPrefix nettype) ++ decodedAddress.spend ++
    decodedAddress.view ++ paymentId8
  let checksum ← cnFastHash keccak256 data
  CnBase58.encode (data ++ slice checksum 0 (addressChecksumSize * 2))

end

end CnUtil

/-! ### Slices -/

theorem slice_append_slice (string : JsString) {start middle stop : Nat} (first : start ≤ middle)
    (second : middle ≤ stop) :
    slice string start middle ++ slice string middle stop = slice string start stop := by
  unfold slice
  have parts : stop - start = (middle - start) + (stop - middle) := by omega
  rw [parts, List.take_add, List.drop_drop, Nat.add_sub_cancel' first]

theorem slice_zero (string : JsString) (stop : Nat) : slice string 0 stop = string.take stop := by
  rw [slice, List.drop_zero, Nat.sub_zero]

theorem slice_drop (string : JsString) (skipped start stop : Nat) :
    slice (string.drop skipped) start stop = slice string (skipped + start) (skipped + stop) := by
  rw [slice, slice, List.drop_drop, Nat.add_sub_add_left]

theorem length_slice (string : JsString) (start stop : Nat) :
    (slice string start stop).length = min (stop - start) (string.length - start) := by
  rw [slice, List.length_take, List.length_drop]

theorem slice_append_left {front : JsString} {stop : Nat} (length : front.length = stop)
    (rest : JsString) : slice (front ++ rest) 0 stop = front := by
  rw [slice_zero, List.take_left' length]

theorem slice_append_right {front : JsString} {skipped : Nat} (length : front.length = skipped)
    (rest : JsString) (start stop : Nat) :
    slice (front ++ rest) (skipped + start) (skipped + stop) = slice rest start stop := by
  rw [← slice_drop, List.drop_left' length]

theorem mem_of_mem_slice {string : JsString} {start stop : Nat} {unit : UInt16}
    (member : unit ∈ slice string start stop) : unit ∈ string :=
  List.mem_of_mem_drop (List.mem_of_mem_take member)

/-- Hexadecimal digits in lower case only. -/
structure LowerHex (string : JsString) : Prop where
  digits : IsHex string
  lower : lowerCase string = string

theorem lowerHex_bintohex (bin : List UInt8) : LowerHex (bintohex bin) :=
  ⟨isHex_bintohex bin, lowerCase_bintohex bin⟩

theorem LowerHex.append {first second : JsString} (firstHex : LowerHex first)
    (secondHex : LowerHex second) : LowerHex (first ++ second) where
  digits := fun unit member => (List.mem_append.mp member).elim (firstHex.digits unit)
    (secondHex.digits unit)
  lower := by
    have firstLower := firstHex.lower
    have secondLower := secondHex.lower
    unfold lowerCase at *
    rw [List.map_append, firstLower, secondLower]

theorem LowerHex.slice {string : JsString} (hex : LowerHex string) (start stop : Nat) :
    LowerHex (Frontend.slice string start stop) where
  digits := fun unit member => hex.digits unit (mem_of_mem_slice member)
  lower := by
    have lower := hex.lower
    unfold lowerCase Frontend.slice at *
    rw [List.map_take, List.map_drop, lower]

namespace CnUtil

/-! ### Kinds of addresses -/

/-- What an address of a kind begins with. -/
def Kind (nettype : Nat) (kind : JsString) : Prop :=
  kind = encodeVarint (publicAddressPrefix nettype) ∨
    kind = encodeVarint (publicIntegratedAddressPrefix nettype) ∨
    kind = encodeVarint (publicSubaddressPrefix nettype)

/-- How many digits the payment identifier of an address has. -/
def idLength (nettype : Nat) (kind : JsString) : Nat :=
  if kind = encodeVarint (publicIntegratedAddressPrefix nettype) then 16 else 0

/-- Every kind is one byte, and integrated addresses have one of their own. -/
theorem kinds (nettype : Nat) :
    ((encodeVarint (publicAddressPrefix nettype)).length = 2 ∧
      (encodeVarint (publicIntegratedAddressPrefix nettype)).length = 2 ∧
      (encodeVarint (publicSubaddressPrefix nettype)).length = 2) ∧
    encodeVarint (publicAddressPrefix nettype) ≠
      encodeVarint (publicIntegratedAddressPrefix nettype) ∧
    encodeVarint (publicSubaddressPrefix nettype) ≠
      encodeVarint (publicIntegratedAddressPrefix nettype) := by
  unfold publicAddressPrefix publicIntegratedAddressPrefix publicSubaddressPrefix
  by_cases test : nettype = 1
  · simp only [if_pos test]
    decide +kernel
  · by_cases stage : nettype = 2
    · simp only [if_neg test, if_pos stage]
      decide +kernel
    · simp only [if_neg test, if_neg stage]
      decide +kernel

theorem Kind.length {nettype : Nat} {kind : JsString} (known : Kind nettype kind) :
    kind.length = 2 := by
  rcases known with rfl | rfl | rfl
  · exact (kinds nettype).1.1
  · exact (kinds nettype).1.2.1
  · exact (kinds nettype).1.2.2

theorem lowerHex_encodeVarint (i : Nat) : LowerHex (encodeVarint i) := by
  have byte (number : Nat) : LowerHex (JsString.sliceLast (48 :: toString16 number) 2) := by
    have written := toString16_eq (show 0 < 2 by decide) number
    have small : ∀ digit ∈ Positional.digits 16 2 number, digit < 16 :=
      fun _ => Positional.digit_lt (by decide)
    show LowerHex (JsString.sliceLast (List.replicate (2 - 1) 48 ++ toString16 number) 2)
    rw [written]
    refine ⟨isHex_map_hexUnit small, ?_⟩
    rw [lowerCase, List.map_map]
    exact List.map_congr_left fun digit member => lowerCaseUnit_hexUnit (small digit member)
  induction i using encodeVarint.induct with
  | case1 i large inductionHypothesis =>
    rw [encodeVarint, if_pos large]
    exact (byte _).append inductionHypothesis
  | case2 i small =>
    rw [encodeVarint, if_neg small]
    exact byte i

theorem Kind.lowerHex {nettype : Nat} {kind : JsString} (known : Kind nettype kind) :
    LowerHex kind := by
  rcases known with rfl | rfl | rfl <;> exact lowerHex_encodeVarint _

/-! ### What the reader accepts -/

section

variable {nettype : Nat} {keccak256 : List UInt8 → Vector UInt8 32}

/-- The hash of digits is 64 digits in lower case. -/
theorem cnFastHash_ok {input hash : JsString} (hashed : cnFastHash keccak256 input = .ok hash) :
    hash.length = 64 ∧ LowerHex hash := by
  unfold cnFastHash at hashed
  split at hashed
  · cases hashed
  · obtain ⟨bytes, _, done⟩ := Blocks.bind_eq_ok_iff.mp hashed
    cases done
    exact ⟨by rw [length_bintohex, Vector.length_toList], lowerHex_bintohex _⟩

theorem cnFastHash_isSome {input : JsString} (even : input.length % 2 = 0) (hex : IsHex input) :
    ∃ hash, cnFastHash keccak256 input = .ok hash := by
  unfold cnFastHash
  rw [if_neg (by simp [even, validHex, hex]), hextobin_eq even]
  exact ⟨_, rfl⟩

/-- What the digits of an address must be like to be accepted, and what is read from them. -/
structure Accepts (nettype : Nat) (keccak256 : List UInt8 → Vector UInt8 32) (dec : JsString)
    (decoded : DecodedAddress) : Prop where
  kind : Kind nettype (slice dec 0 2)
  spend : decoded.spend = slice dec 2 66
  view : decoded.view = slice dec 66 130
  id : decoded.intPaymentId =
    if slice dec 130 (130 + idLength nettype (slice dec 0 2)) = [] then none
    else some (slice dec 130 (130 + idLength nettype (slice dec 0 2)))
  checksum : ∃ hash,
    cnFastHash keccak256 (slice dec 0 (130 + idLength nettype (slice dec 0 2))) = .ok hash ∧
    slice dec (130 + idLength nettype (slice dec 0 2))
      (138 + idLength nettype (slice dec 0 2)) = slice hash 0 8

/-- The three cases are one, with more digits of an identifier or none. -/
theorem checksumCases_eq {dec kind : JsString} (start : slice dec 0 2 = kind) :
    checksumCases nettype keccak256 kind (dec.drop 2) (slice (dec.drop 2) 0 64)
        (slice (dec.drop 2) 64 128) =
      (cnFastHash keccak256 (slice dec 0 (130 + idLength nettype kind))).map fun hash =>
        (slice dec 130 (130 + idLength nettype kind),
          slice dec (130 + idLength nettype kind) (138 + idLength nettype kind),
          slice hash 0 8) := by
  have keys : kind ++ slice (dec.drop 2) 0 64 ++ slice (dec.drop 2) 64 128 = slice dec 0 130 := by
    rw [slice_drop, slice_drop, ← start, slice_append_slice dec (by decide) (by decide),
      slice_append_slice dec (by decide) (by decide)]
  unfold checksumCases idLength addressChecksumSize integratedIdSize
  by_cases integrated : kind = encodeVarint (publicIntegratedAddressPrefix nettype)
  · simp only [if_pos integrated]
    rw [keys, slice_drop, slice_drop, slice_append_slice dec (by decide) (by decide)]
    cases cnFastHash keccak256 (slice dec 0 146) <;> rfl
  · have none : slice dec 130 130 = [] := by
      rw [slice, Nat.sub_self, List.take_zero]
    simp only [if_neg integrated, Nat.add_zero, none]
    rw [keys, slice_drop]
    by_cases regular : kind = encodeVarint (publicAddressPrefix nettype)
    · rw [if_pos regular]
      cases cnFastHash keccak256 (slice dec 0 130) <;> rfl
    · rw [if_neg regular]
      cases cnFastHash keccak256 (slice dec 0 130) <;> rfl

theorem decodeAddress_eq_ok_iff {address : JsString} {decoded : DecodedAddress} :
    decodeAddress nettype keccak256 address = .ok decoded ↔
      ∃ dec, CnBase58.decode address = .ok dec ∧ Accepts nettype keccak256 dec decoded := by
  unfold decodeAddress
  rw [Blocks.bind_eq_ok_iff]
  refine exists_congr fun dec => and_congr_right fun _ => ?_
  simp only [(kinds nettype).1.1]
  by_cases known : Kind nettype (slice dec 0 2)
  · have passes : ¬ (slice dec 0 2 ≠ encodeVarint (publicAddressPrefix nettype) ∧
        slice dec 0 2 ≠ encodeVarint (publicIntegratedAddressPrefix nettype) ∧
        slice dec 0 2 ≠ encodeVarint (publicSubaddressPrefix nettype)) := by
      rintro ⟨regular, integrated, sub⟩
      rcases known with same | same | same
      · exact regular same
      · exact integrated same
      · exact sub same
    rw [if_neg passes, checksumCases_eq rfl, Blocks.bind_eq_ok_iff]
    constructor
    · rintro ⟨read, hashed, done⟩
      cases outcome : cnFastHash keccak256
          (slice dec 0 (130 + idLength nettype (slice dec 0 2))) with
      | error failure =>
        rw [outcome] at hashed
        cases hashed
      | ok hash =>
        rw [outcome] at hashed
        rw [← Except.ok.inj hashed] at done
        by_cases same : slice dec (130 + idLength nettype (slice dec 0 2))
            (138 + idLength nettype (slice dec 0 2)) = slice hash 0 8
        · replace done := Except.ok.inj ((if_neg (not_not_intro same)).symm.trans done)
          dsimp only at done
          rw [← done]
          refine ⟨known, slice_drop dec 2 0 64, slice_drop dec 2 64 128, ?_, hash, outcome, same⟩
          simp only
        · cases (if_pos same).symm.trans done
    · intro accepts
      obtain ⟨hash, hashed, same⟩ := accepts.checksum
      rw [hashed]
      refine ⟨_, rfl, ?_⟩
      simp only [same, ne_eq, not_true_eq_false, if_false, slice_drop, ← accepts.spend,
        ← accepts.view, ← accepts.id]
      rfl
  · have refused : slice dec 0 2 ≠ encodeVarint (publicAddressPrefix nettype) ∧
        slice dec 0 2 ≠ encodeVarint (publicIntegratedAddressPrefix nettype) ∧
        slice dec 0 2 ≠ encodeVarint (publicSubaddressPrefix nettype) :=
      ⟨fun same => known (.inl same), fun same => known (.inr (.inl same)),
        fun same => known (.inr (.inr same))⟩
    rw [if_pos refused]
    constructor
    · intro done
      cases done
    · exact fun accepts => absurd accepts.kind known

/-! ### Written addresses are read -/

/-- The parts of what an address is the encoding of. -/
structure Parts (nettype : Nat) (keccak256 : List UInt8 → Vector UInt8 32)
    (kind spend view id hash : JsString) : Prop where
  known : Kind nettype kind
  spendSize : spend.length = 64
  viewSize : view.length = 64
  idSize : id.length = idLength nettype kind
  hashed : cnFastHash keccak256 (kind ++ spend ++ view ++ id) = .ok hash

theorem Parts.length {kind spend view id hash : JsString}
    (parts : Parts nettype keccak256 kind spend view id hash) :
    (kind ++ spend ++ view ++ id ++ slice hash 0 8).length = 138 + idLength nettype kind := by
  have hashLength := (cnFastHash_ok parts.hashed).1
  rw [List.length_append, List.length_append, List.length_append, List.length_append,
    parts.known.length, parts.spendSize, parts.viewSize, parts.idSize, length_slice, hashLength]
  omega

/-- The parts are read where the reader looks for them. -/
theorem Parts.accepts {kind spend view id hash : JsString}
    (parts : Parts nettype keccak256 kind spend view id hash) :
    Accepts nettype keccak256 (kind ++ spend ++ view ++ id ++ slice hash 0 8)
      ⟨spend, view, if id = [] then none else some id⟩ := by
  have kindLength := parts.known.length
  have hashLength := (cnFastHash_ok parts.hashed).1
  have kindRead : slice (kind ++ spend ++ view ++ id ++ slice hash 0 8) 0 2 = kind := by
    rw [List.append_assoc, List.append_assoc, List.append_assoc, slice_append_left kindLength]
  have front : (kind ++ spend).length = 66 := by
    rw [List.length_append, kindLength, parts.spendSize]
  have keys : (kind ++ spend ++ view).length = 130 := by
    rw [List.length_append, front, parts.viewSize]
  have body : (kind ++ spend ++ view ++ id).length = 130 + idLength nettype kind := by
    rw [List.length_append, keys, parts.idSize]
  have idRead : slice (kind ++ spend ++ view ++ id ++ slice hash 0 8) 130
      (130 + idLength nettype kind) = id := by
    rw [List.append_assoc _ id]
    exact (slice_append_right keys _ 0 (idLength nettype kind)).trans
      (slice_append_left parts.idSize _)
  have checksumLength : (slice hash 0 8).length = 8 := by
    rw [length_slice, hashLength]
    rfl
  refine ⟨by rw [kindRead]; exact parts.known, ?_, ?_, ?_, hash, ?_, ?_⟩
  · rw [List.append_assoc, List.append_assoc, List.append_assoc]
    exact ((slice_append_right kindLength _ 0 64).trans (slice_append_left parts.spendSize _)).symm
  · rw [List.append_assoc, List.append_assoc]
    exact ((slice_append_right front _ 0 64).trans (slice_append_left parts.viewSize _)).symm
  · simp only [kindRead, idRead]
  · rw [kindRead, slice_append_left body, parts.hashed]
  · have read := slice_append_right body (slice hash 0 8) 0 8
    rw [kindRead]
    have stop : 138 + idLength nettype kind = 130 + idLength nettype kind + 8 := by omega
    rw [stop]
    refine read.trans ?_
    rw [slice_zero, List.take_of_length_le (Nat.le_of_eq checksumLength)]

/-- An address that was made from parts in lower case is read as these parts. -/
theorem Parts.read {kind spend view id hash address : JsString}
    (parts : Parts nettype keccak256 kind spend view id hash) (spendHex : LowerHex spend)
    (viewHex : LowerHex view) (idHex : LowerHex id)
    (encoded : CnBase58.encode (kind ++ spend ++ view ++ id ++ slice hash 0 8) = .ok address) :
    decodeAddress nettype keccak256 address =
      .ok ⟨spend, view, if id = [] then none else some id⟩ := by
  have hex : LowerHex (kind ++ spend ++ view ++ id ++ slice hash 0 8) :=
    ((((parts.known.lowerHex).append spendHex).append viewHex).append idHex).append
      ((cnFastHash_ok parts.hashed).2.slice 0 8)
  have even : (kind ++ spend ++ view ++ id ++ slice hash 0 8).length % 2 = 0 := by
    rw [parts.length]
    unfold idLength
    split <;> rfl
  have back := CnBase58.decode_of_encode hex.digits even encoded
  rw [hex.lower] at back
  exact decodeAddress_eq_ok_iff.mpr ⟨_, back, parts.accepts⟩

/-! ### Which accepted strings are written addresses -/

/-- A string is the encoding of what is read from it, with keys of 32 bytes, an identifier of
eight bytes in an integrated address only, and nothing behind the checksum. -/
def IsEncodingOf (nettype : Nat) (keccak256 : List UInt8 → Vector UInt8 32) (address : JsString)
    (decoded : DecodedAddress) : Prop :=
  ∃ kind id hash, Parts nettype keccak256 kind decoded.spend decoded.view id hash ∧
    decoded.intPaymentId = (if id = [] then none else some id) ∧
    CnBase58.encode (kind ++ decoded.spend ++ decoded.view ++ id ++ slice hash 0 8) = .ok address

/-- The codec gives the string back, and it is as long as addresses of its kind are. -/
structure Exact (nettype : Nat) (address : JsString) : Prop where
  proper : CnBase58.Proper address
  length : ∀ dec, CnBase58.decode address = .ok dec → address.length =
    if slice dec 0 2 = encodeVarint (publicIntegratedAddressPrefix nettype) then 106 else 95

/-- The sizes of the last block determine the number of its bytes. -/
theorem encodedBlockSizes_inj : ∀ first < 8, ∀ second < 8,
    CnBase58.encodedBlockSizes.getD first 0 = CnBase58.encodedBlockSizes.getD second 0 →
      first = second := by
  decide

theorem encodedLength_inj {first second : Nat}
    (same : CnBase58.encodedLength first = CnBase58.encodedLength second) : first = second := by
  unfold CnBase58.encodedLength CnBase58.fullBlockSize CnBase58.fullEncodedBlockSize at same
  have firstShort := CnBase58.encodedBlockSizes_lt (first % 8) (Nat.mod_lt _ (by decide))
  have secondShort := CnBase58.encodedBlockSizes_lt (second % 8) (Nat.mod_lt _ (by decide))
  have blocks : first / 8 = second / 8 := by omega
  have rest := encodedBlockSizes_inj _ (Nat.mod_lt first (by decide)) _
    (Nat.mod_lt second (by decide)) (by omega)
  omega

/-- An accepted address is as long as its kind asks for if there is nothing behind the
checksum. -/
theorem length_iff {address dec : JsString} (read : CnBase58.decode address = .ok dec) :
    (address.length =
        if slice dec 0 2 = encodeVarint (publicIntegratedAddressPrefix nettype) then 106 else 95) ↔
      dec.length = 138 + idLength nettype (slice dec 0 2) := by
  obtain ⟨even, length⟩ := CnBase58.length_of_decode read
  have regular : 95 = CnBase58.encodedLength 69 := by decide
  have integrated : 106 = CnBase58.encodedLength 77 := by decide
  unfold idLength
  by_cases kind : slice dec 0 2 = encodeVarint (publicIntegratedAddressPrefix nettype)
  · rw [if_pos kind, if_pos kind, length, integrated]
    constructor
    · intro same
      have half := encodedLength_inj same
      omega
    · intro same
      rw [same]
  · rw [if_neg kind, if_neg kind, length, regular]
    constructor
    · intro same
      have half := encodedLength_inj same
      omega
    · intro same
      rw [same]

/-- The reader takes an address apart without leaving anything out up to its checksum. -/
theorem Accepts.take {dec : JsString} {decoded : DecodedAddress} {hash : JsString}
    (accepts : Accepts nettype keccak256 dec decoded)
    (checksum : slice dec (130 + idLength nettype (slice dec 0 2))
      (138 + idLength nettype (slice dec 0 2)) = slice hash 0 8) :
    slice dec 0 2 ++ decoded.spend ++ decoded.view ++
        slice dec 130 (130 + idLength nettype (slice dec 0 2)) =
      slice dec 0 (130 + idLength nettype (slice dec 0 2)) ∧
    slice dec 0 2 ++ decoded.spend ++ decoded.view ++
        slice dec 130 (130 + idLength nettype (slice dec 0 2)) ++ slice hash 0 8 =
      dec.take (138 + idLength nettype (slice dec 0 2)) := by
  have body : slice dec 0 2 ++ decoded.spend ++ decoded.view ++
        slice dec 130 (130 + idLength nettype (slice dec 0 2)) =
      slice dec 0 (130 + idLength nettype (slice dec 0 2)) := by
    rw [accepts.spend, accepts.view, slice_append_slice dec (by decide) (by decide),
      slice_append_slice dec (by decide) (by decide),
      slice_append_slice dec (by decide) (Nat.le_add_right _ _)]
  refine ⟨body, ?_⟩
  rw [body, ← checksum, slice_append_slice dec (Nat.zero_le _) (by omega), slice_zero]

theorem isEncodingOf_iff {address : JsString} {decoded : DecodedAddress}
    (accepted : decodeAddress nettype keccak256 address = .ok decoded) :
    IsEncodingOf nettype keccak256 address decoded ↔ Exact nettype address := by
  obtain ⟨dec, read, accepts⟩ := decodeAddress_eq_ok_iff.mp accepted
  obtain ⟨full, last, _, written⟩ := CnBase58.decode_eq_ok_iff.mp read
  have decHex : LowerHex dec := written ▸ lowerHex_bintohex _
  constructor
  · rintro ⟨kind, id, hash, parts, idRead, encoded⟩
    have idHex : LowerHex id := by
      by_cases empty : id = []
      · rw [empty]
        exact ⟨List.forall_mem_nil _, rfl⟩
      · rw [if_neg empty, accepts.id] at idRead
        split at idRead
        · cases idRead
        · rw [← Option.some.inj idRead]
          exact decHex.slice _ _
    have hex : LowerHex (kind ++ decoded.spend ++ decoded.view ++ id ++ slice hash 0 8) :=
      ((((parts.known.lowerHex).append (accepts.spend ▸ decHex.slice _ _)).append
        (accepts.view ▸ decHex.slice _ _)).append idHex).append
          ((cnFastHash_ok parts.hashed).2.slice 0 8)
    have even : (kind ++ decoded.spend ++ decoded.view ++ id ++ slice hash 0 8).length % 2 = 0 := by
      rw [parts.length]
      unfold idLength
      split <;> rfl
    have back := CnBase58.decode_of_encode hex.digits even encoded
    rw [hex.lower, read] at back
    have same := Except.ok.inj back
    have kindRead : slice dec 0 2 = kind := by
      rw [same, List.append_assoc, List.append_assoc, List.append_assoc,
        slice_append_left parts.known.length]
    rw [← same] at encoded
    refine ⟨(CnBase58.encode_iff_proper read).mp encoded, fun other otherRead => ?_⟩
    rw [read] at otherRead
    cases otherRead
    refine (length_iff read).mpr ?_
    rw [kindRead, same, parts.length]
  · intro exact
    have encoded := (CnBase58.encode_iff_proper read).mpr exact.proper
    have length := (length_iff read).mp (exact.length dec read)
    obtain ⟨hash, hashed, checksum⟩ := accepts.checksum
    obtain ⟨body, whole⟩ := accepts.take checksum
    rw [List.take_of_length_le (Nat.le_of_eq length)] at whole
    refine ⟨slice dec 0 2, slice dec 130 (130 + idLength nettype (slice dec 0 2)), hash,
      ⟨accepts.kind, ?_, ?_, ?_, by rw [body]; exact hashed⟩, accepts.id,
      by rw [whole]; exact encoded⟩
    · rw [accepts.spend, length_slice, length]
      omega
    · rw [accepts.view, length_slice, length]
      omega
    · rw [length_slice, length]
      omega

end

/-! ### Round trips -/

/-- So many bytes as hexadecimal digits in lower case. -/
structure HexBytes (count : Nat) where
  text : JsString
  length : text.length = count * 2
  hex : LowerHex text

section

variable (nettype : Nat) (keccak256 : List UInt8 → Vector UInt8 32)

/-- Whatever the keys and the identifier are, there is an address of them, and it is read as
them. -/
theorem exists_address {kind id : JsString} (known : Kind nettype kind) (spend view : HexBytes 32)
    (idHex : LowerHex id) (idSize : id.length = idLength nettype kind) :
    ∃ hash address,
      cnFastHash keccak256 (kind ++ spend.text ++ view.text ++ id) = .ok hash ∧
      CnBase58.encode (kind ++ spend.text ++ view.text ++ id ++ slice hash 0 8) = .ok address ∧
      decodeAddress nettype keccak256 address =
        .ok ⟨spend.text, view.text, if id = [] then none else some id⟩ := by
  have hex : LowerHex (kind ++ spend.text ++ view.text ++ id) :=
    ((known.lowerHex.append spend.hex).append view.hex).append idHex
  have even : (kind ++ spend.text ++ view.text ++ id).length % 2 = 0 := by
    rw [List.length_append, List.length_append, List.length_append, known.length, spend.length,
      view.length, idSize]
    unfold idLength
    split <;> rfl
  obtain ⟨hash, hashed⟩ := cnFastHash_isSome even hex.digits
  have parts : Parts nettype keccak256 kind spend.text view.text id hash :=
    ⟨known, spend.length, view.length, idSize, hashed⟩
  have wholeEven : (kind ++ spend.text ++ view.text ++ id ++ slice hash 0 8).length % 2 = 0 := by
    rw [parts.length]
    unfold idLength
    split <;> rfl
  have encoded := CnBase58.encode_eq (hextobin_eq wholeEven)
  exact ⟨hash, _, hashed, encoded, parts.read spend.hex view.hex idHex encoded⟩

theorem decodeAddress_pubkeysToString (spend view : HexBytes 32) :
    ∃ address, pubkeysToString nettype keccak256 spend.text view.text = .ok address ∧
      decodeAddress nettype keccak256 address = .ok ⟨spend.text, view.text, none⟩ := by
  have known : Kind nettype (encodeVarint (publicAddressPrefix nettype)) := .inl rfl
  obtain ⟨hash, address, hashed, encoded, read⟩ := exists_address nettype keccak256 known spend view
    ⟨List.forall_mem_nil _, rfl⟩ (by rw [idLength, if_neg (kinds nettype).2.1]; rfl)
  rw [List.append_nil] at hashed encoded
  refine ⟨address, ?_, read⟩
  unfold pubkeysToString
  show (cnFastHash keccak256 _ >>= _) = _
  rw [hashed]
  exact encoded

theorem decodeAddress_integrated (spend view : HexBytes 32) (paymentId8 : HexBytes 8)
    {address : JsString}
    (regular : decodeAddress nettype keccak256 address = .ok ⟨spend.text, view.text, none⟩) :
    (getAccountIntegratedAddress nettype keccak256 address paymentId8.text >>=
        decodeAddress nettype keccak256) =
      .ok ⟨spend.text, view.text, some paymentId8.text⟩ := by
  have known : Kind nettype (encodeVarint (publicIntegratedAddressPrefix nettype)) :=
    .inr (.inl rfl)
  obtain ⟨hash, integrated, hashed, encoded, read⟩ := exists_address nettype keccak256 known spend
    view paymentId8.hex (by rw [idLength, if_pos rfl, paymentId8.length])
  have some : ¬ paymentId8.text = [] := by
    intro none
    have length := paymentId8.length
    rw [none] at length
    cases length
  rw [if_neg some] at read
  unfold getAccountIntegratedAddress
  refine Blocks.bind_eq_ok_iff.mpr ⟨integrated, ?_, read⟩
  show (decodeAddress nettype keccak256 address >>= _) = _
  rw [regular]
  show (cnFastHash keccak256 _ >>= _) = _
  rw [hashed]
  exact encoded

/-- Regular and integrated addresses are read as what they were made from, always. A string that is
accepted is an encoding with nothing behind the checksum just when the codec gives it back and its
length is that of its kind. -/
theorem decodeAddress_exact :
    (∀ spend view : HexBytes 32,
      (pubkeysToString nettype keccak256 spend.text view.text >>=
        decodeAddress nettype keccak256) = .ok ⟨spend.text, view.text, none⟩) ∧
    (∀ (spend view : HexBytes 32) (paymentId8 : HexBytes 8),
      (do
        let address ← pubkeysToString nettype keccak256 spend.text view.text
        let integrated ← getAccountIntegratedAddress nettype keccak256 address paymentId8.text
        decodeAddress nettype keccak256 integrated) =
      .ok ⟨spend.text, view.text, some paymentId8.text⟩) ∧
    ∀ address decoded, decodeAddress nettype keccak256 address = .ok decoded →
      (IsEncodingOf nettype keccak256 address decoded ↔ Exact nettype address) := by
  refine ⟨fun spend view => ?_, fun spend view paymentId8 => ?_,
    fun address decoded accepted => isEncodingOf_iff accepted⟩
  · obtain ⟨address, written, read⟩ := decodeAddress_pubkeysToString nettype keccak256 spend view
    rw [written]
    exact read
  · obtain ⟨address, written, read⟩ := decodeAddress_pubkeysToString nettype keccak256 spend view
    rw [written]
    exact decodeAddress_integrated nettype keccak256 spend view paymentId8 read

end

/-- Seventy bytes, the last of which stands behind a checksum of zeros. -/
def trailingAddress : JsString :=
  JsString.ofString "41d7FXjswpK" ++ List.replicate 86 49

theorem trailingAddress_read :
    decodeAddress 0 (fun _ => Vector.replicate 32 0) trailingAddress =
      .ok ⟨List.replicate 64 48, List.replicate 64 48, none⟩ ∧
    CnBase58.decode trailingAddress = .ok (JsString.ofString "12" ++ List.replicate 138 48) := by
  decide +kernel

theorem not_decodeAddress_exact :
    ¬ ∀ keccak256 address decoded, decodeAddress 0 keccak256 address = .ok decoded →
      IsEncodingOf 0 keccak256 address decoded := by
  intro encoding
  have exact := (isEncodingOf_iff trailingAddress_read.1).mp
    (encoding _ _ _ trailingAddress_read.1)
  exact absurd (exact.length _ trailingAddress_read.2) (by decide +kernel)

end CnUtil

end LightWallet.Frontend
