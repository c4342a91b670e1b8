/-
This file models, digit by digit, what the scripts calculate on big integers: amounts,
variable-length numbers and the blocks of addresses. It proves that each of these
functions is the one that the other modules have on integers, with the same errors.
-/

import LightWallet.Frontend.Base58
import LightWallet.Frontend.BigStrings
import LightWallet.Frontend.Keys

namespace LightWallet.Frontend.OnLimbs

open BigInteger (ofInt)

/-! ### Conversions -/

/-- `BigInteger(number)`. -/
def ofNumber (number : Nat) : Except String BigInteger :=
  BigInteger.parse (toString10 number) none

/-- The result of a loop that has ended. -/
def finished {Result : Type} (result : Except String (Option Result)) : Except String Result :=
  result >>= fun ended => ended.elim (.error "out of fuel") .ok

/-- `new JSBigInt(base).pow(exponent)`. -/
def power (base exponent : Nat) : Except String BigInteger := do
  finished ((← ofNumber base).pow (← ofNumber exponent))

theorem ofNumber_eq (number : Nat) : ofNumber number = .ok (ofInt number) := by
  have isWritten : toString10 number = BigInteger.written 10 number := by
    rw [BigInteger.written_ten, JSBigInt.toString, if_neg (by omega), Int.natAbs_natCast]
  unfold ofNumber
  rw [isWritten]
  exact BigInteger.parse_written (by decide) (by decide) number (.inr ⟨rfl, rfl⟩)

theorem power_eq {base exponent : Nat} (large : 2 ≤ base) (small : exponent ≤ JSBigInt.maxExp) :
    power base exponent = .ok (ofInt ((base ^ exponent : Nat) : Int)) := by
  have raised : JSBigInt.pow base exponent = .ok ((base ^ exponent : Nat) : Int) := by
    unfold JSBigInt.pow
    rw [Int.natAbs_natCast, if_neg (by omega), if_neg (by omega : ¬(base : Int) = 0)]
    by_cases none : exponent = 0
    · rw [if_pos none, none]
      rfl
    · by_cases one : exponent = 1
      · rw [if_neg none, if_pos one, one, pow_one]
        rfl
      · rw [if_neg none, if_neg one, if_neg (Nat.not_lt.mpr small), Nat.cast_pow]
        rfl
  unfold power
  rw [ofNumber_eq, ofNumber_eq]
  show finished ((ofInt base).pow (ofInt exponent)) = _
  rw [BigInteger.pow_ofInt, raised]
  rfl

theorem lowVal_ofInt (number : Nat) :
    (ofInt number).lowVal = number % bigIntegerBase := by
  rcases Nat.eq_zero_or_pos number with rfl | positive
  · rfl
  · have digits : (ofInt (number : Int)).d = number % bigIntegerBase ::
        Nat.digits bigIntegerBase (number / bigIntegerBase) :=
      Nat.digits_def' BigInteger.large positive
    unfold BigInteger.lowVal
    rw [digits, List.headD_cons]

/-! ### Variable-length numbers -/

/-- The loop of `encode_varint`. -/
def encodeVarintLoop : Nat → BigInteger → Except String JsString
  | 0, _ => .error "out of fuel"
  | fuel + 1, i => do
    if 0 ≤ i.compare (← ofNumber 0x80) then
      let byte := JsString.sliceLast (48 :: toString16 ((i.lowVal &&& 0x7f) ||| 0x80)) 2
      let rest ← encodeVarintLoop fuel (← i.quotient (← power 2 7))
      pure (byte ++ rest)
    else pure (JsString.sliceLast (48 :: toString16 i.valueOf.toNat) 2)

/-- `encode_varint`. -/
def encodeVarint (i : Nat) : Except String JsString := do
  let i ← ofNumber i
  encodeVarintLoop (24 * i.d.length + 1) i

/-! ### Blocks -/

/-- `uint8_be_to_64`. The first of eight bytes is added to nothing, and every other one to what
there is, times 256. That may be the object of 256 itself. -/
def uint8BeTo64 (data : List UInt8) : Except String BigInteger :=
  if data.length < 1 ∨ data.length > 8 then throw "Invalid input length"
  else do
    let twopow8 ← power 2 8
    let append (res : BigInteger) (byte : UInt8) : Except String BigInteger := do
      pure ((BigInteger.multiply (res = twopow8) res twopow8).add (← ofNumber byte.toNat))
    if data.length = 8 then
      data.tail.foldlM append (BigInteger.zero.add (← ofNumber (data.headD 0).toNat))
    else data.foldlM append BigInteger.zero

/-- The loop of `uint64_to_8be`. -/
def uint64Bytes (twopow8 : BigInteger) : Nat → BigInteger → Except String (List UInt8)
  | 0, _ => pure []
  | size + 1, num => do
    let byte ← num.remainder twopow8
    let front ← uint64Bytes twopow8 size (← num.quotient twopow8)
    pure (front ++ [toUint8 (some byte.valueOf)])

/-- `uint64_to_8be`. -/
def uint64To8be (num : BigInteger) (size : Nat) : Except String (List UInt8) :=
  if size < 1 ∨ size > 8 then throw "Invalid input length"
  else do
    uint64Bytes (← power 2 8) size num

/-- The loop of `encode_block`. -/
def writeRemainders : Nat → BigInteger → List UInt8 → Int → Except String (List UInt8)
  | 0, _, _, _ => .error "out of fuel"
  | fuel + 1, num, buf, position => do
    if num.compare (← ofNumber 0) = 1 then
      let (quotient, remainder) ← num.divRem (← ofNumber CnBase58.alphabet.length)
      let symbol := CnBase58.alphabet.getD remainder.valueOf.toNat 0
      writeRemainders fuel quotient (CnBase58.put buf position symbol) (position - 1)
    else pure buf

/-- `encode_block`. -/
def encodeBlock (data buf : List UInt8) (index : Nat) : Except String (List UInt8) := do
  if data.length < 1 ∨ data.length > CnBase58.fullEncodedBlockSize then
    throw ("Invalid block length: " ++ toString data.length)
  let num ← uint8BeTo64 data
  writeRemainders (24 * num.d.length + 1) num buf
    (index + ((CnBase58.encodedBlockSizes.getD data.length 0 : Int) - 1))

/-- One round of the loop of `decode_block`, on `res_num` and `order`. -/
def decodeSymbol (uint64Max : BigInteger) (state : BigInteger × BigInteger) (symbol : UInt8) :
    Except String (BigInteger × BigInteger) :=
  match CnBase58.alphabet.idxOf? symbol with
  | none => throw "Invalid symbol"
  | some digit => do
    let product := (BigInteger.multiply false state.2 (← ofNumber digit)).add state.1
    if product.compare uint64Max = 1 then throw "Overflow"
    else pure (product, BigInteger.multiply false state.2 (← ofNumber CnBase58.alphabet.length))

/-- `decode_block`. -/
def decodeBlock (data buf : List UInt8) (index : Nat) : Except String (List UInt8) := do
  let uint64Max ← power 2 64
  if data.length < 1 ∨ data.length > CnBase58.fullEncodedBlockSize then
    throw ("Invalid block length: " ++ toString data.length)
  let resSize := (CnBase58.encodedBlockSizes.idxOf? data.length).getD 0
  if resSize ≤ 0 then throw "Invalid block size"
  let (resNum, _) ← data.reverse.foldlM (decodeSymbol uint64Max) (← ofNumber 0, ← ofNumber 1)
  if resSize < CnBase58.fullBlockSize then
    if (← power 2 (8 * resSize)).compare resNum ≤ 0 then throw "Overflow 2"
  let bytes ← uint64To8be resNum resSize
  pure (CnBase58.setAt buf bytes index)

/-! ### Amounts -/

/-- What the constructor of the utilities has of the configuration, and computes from it. -/
structure Coin where
  coinUnitPlaces : Nat
  coinUnits : BigInteger
  powered : power 10 coinUnitPlaces = .ok coinUnits

/-- `formatMoneyFull`. -/
def formatMoneyFull (config : Coin) (amount : BigInteger) : Except String JsString := do
  let written ← finished (amount.toString 10)
  let symbol : JsString := if written.head? = some 45 then [45] else []
  let units := if symbol = [45] then written.drop 1 else written
  let decimal :=
    if config.coinUnitPlaces ≤ units.length then
      (units.drop (units.length - config.coinUnitPlaces)).take config.coinUnitPlaces
    else CnUtil.padLeft units config.coinUnitPlaces 48
  let whole := units.take (units.length - config.coinUnitPlaces)
  pure (symbol ++ (if whole = [] then [48] else whole) ++ [46] ++ decimal)

/-- `formatMoney`. -/
def formatMoney (config : Coin) (amount : BigInteger) : Except String JsString := do
  let full := CnUtil.trimRight (← formatMoneyFull config amount) 48
  pure (if full.getLast? = some 46 then full.take (full.length - 1) else full)

/-- What reading an amount returns: a big integer, or the method that negates one. -/
inductive Parsed
  | bigInteger (value : BigInteger)
  | negate
  deriving DecidableEq

/-- `parseMoney`. -/
def parseMoney (config : Coin) (string : JsString) : Except String Parsed :=
  if string = [] then pure (.bigInteger BigInteger.zero)
  else
    let negative := string.head? = some 45
    let unsigned := if negative then string.drop 1 else string
    let decimalIndex := unsigned.idxOf 46
    if 46 ∉ unsigned then do
      let product := BigInteger.multiply false (← BigInteger.parse unsigned none) config.coinUnits
      pure (.bigInteger (if negative then product.negate else product))
    else
      let kept :=
        if decimalIndex + config.coinUnitPlaces + 1 < unsigned.length then
          unsigned.take (decimalIndex + config.coinUnitPlaces + 1)
        else unsigned
      do
        let whole ← BigInteger.parse (kept.take decimalIndex) none
        let wholeUnits ← whole.exp10 config.coinUnitPlaces
        let fraction ← BigInteger.parse (kept.drop (decimalIndex + 1)) none
        let units ← fraction.exp10 (decimalIndex + config.coinUnitPlaces - kept.length + 1)
        pure (if negative then .negate else .bigInteger (wholeUnits.add units))

/-! ### The same as on integers -/

theorem ok_bind {First Second : Type} (value : First) (rest : First → Except String Second) :
    (Except.ok value >>= rest) = rest value := rfl

theorem compare_natCast (first second : Nat) :
    (ofInt first).compare (ofInt second) = ((first : Int) - second).sign :=
  BigInteger.compare_ofInt first second

theorem valueOf_natCast {number : Nat} (small : number < 2 ^ 53) :
    (ofInt number).valueOf = number :=
  BigInteger.valueOf_ofInt (by rwa [Int.natAbs_natCast])

/-- The number of bits bounds the number of digits to any base. -/
theorem lt_two_pow (number : Nat) : number < 2 ^ (24 * (ofInt number).d.length) :=
  calc number < bigIntegerBase ^ (ofInt number).d.length :=
        Nat.lt_base_pow_length_digits BigInteger.large
    _ ≤ (2 ^ 24) ^ (ofInt number).d.length := Nat.pow_le_pow_left (by decide) _
    _ = _ := (Nat.pow_mul 2 24 _).symm

theorem encodeVarintLoop_eq {fuel number : Nat} (enough : number < 2 ^ fuel) :
    encodeVarintLoop (fuel + 1) (ofInt number) = .ok (CnUtil.encodeVarint number) := by
  have base : bigIntegerBase = 10000000 := rfl
  induction fuel generalizing number with
  | zero =>
    have none : number = 0 := by
      rw [pow_zero] at enough
      omega
    rw [none, encodeVarintLoop, ofNumber_eq, ok_bind, compare_natCast, if_neg (by decide),
      valueOf_natCast (by decide), CnUtil.encodeVarint, if_neg (by decide)]
    rfl
  | succ fuel inductionHypothesis =>
    rw [encodeVarintLoop, ofNumber_eq, ok_bind, compare_natCast, CnUtil.encodeVarint]
    by_cases large : 0x80 ≤ number
    · have quotient : (ofInt (number : Int)).quotient (ofInt ((2 ^ 7 : Nat) : Int)) =
          .ok (ofInt ((number / 2 ^ 7 : Nat) : Int)) := by
        rw [BigInteger.quotient_ofInt, if_neg (by decide), Int.natCast_ediv,
          Int.tdiv_eq_ediv_of_nonneg (by omega)]
      have next := @inductionHypothesis (number / 2 ^ 7) (by omega)
      rw [if_pos (Int.sign_nonneg_iff.mpr (by omega)), if_pos large,
        power_eq (by decide) (by decide), ok_bind, quotient, ok_bind, next, ok_bind,
        lowVal_ofInt, base]
      rfl
    · rw [if_neg (by rw [Int.sign_nonneg_iff]; omega), if_neg large,
        valueOf_natCast (by omega)]
      rfl

/-- Numbers are written alike. -/
theorem encodeVarint_eq (number : Nat) :
    encodeVarint number = .ok (CnUtil.encodeVarint number) := by
  unfold encodeVarint
  rw [ofNumber_eq]
  exact encodeVarintLoop_eq (lt_two_pow number)

/-! ### Blocks of addresses -/

theorem append_byte (res : Nat) (byte : UInt8) :
    (do pure ((BigInteger.multiply (ofInt res = ofInt ((2 ^ 8 : Nat) : Int)) (ofInt res)
      (ofInt ((2 ^ 8 : Nat) : Int))).add (← ofNumber byte.toNat)) : Except String BigInteger) =
      .ok (ofInt ((res * 2 ^ 8 + byte.toNat : Nat) : Int)) := by
  have identical : decide (ofInt (res : Int) = ofInt ((2 ^ 8 : Nat) : Int)) = true →
      (res : Int) = ((2 ^ 8 : Nat) : Int) := fun same =>
    BigInteger.ofInt_injective (of_decide_eq_true same)
  rw [ofNumber_eq, ok_bind, BigInteger.multiply_ofInt _ _ _ identical, BigInteger.add_ofInt]
  push_cast
  rfl

theorem foldlM_bytes (data : List UInt8) (start : Nat) :
    data.foldlM (fun (res : BigInteger) byte => do
        pure ((BigInteger.multiply (res = ofInt ((2 ^ 8 : Nat) : Int)) res
          (ofInt ((2 ^ 8 : Nat) : Int))).add (← ofNumber byte.toNat))) (ofInt start) =
      (.ok (ofInt ((data.foldl (fun res byte => res * 2 ^ 8 + byte.toNat) start : Nat) : Int)) :
        Except String BigInteger) := by
  induction data generalizing start with
  | nil => rfl
  | cons byte rest inductionHypothesis =>
    rw [List.foldlM_cons, append_byte, ok_bind, inductionHypothesis, List.foldl_cons]

theorem uint8BeTo64_eq (data : List UInt8) :
    uint8BeTo64 data = (CnBase58.uint8BeTo64 data).map fun num : Nat => ofInt num := by
  unfold uint8BeTo64 CnBase58.uint8BeTo64
  by_cases refused : data.length < 1 ∨ data.length > 8
  · rw [if_pos refused, if_pos refused]
    rfl
  rw [if_neg refused, if_neg refused, power_eq (by decide) (by decide), ok_bind]
  dsimp only
  by_cases eight : data.length = 8
  · obtain ⟨first, rest, rfl⟩ := List.exists_cons_of_length_eq_add_one eight
    rw [if_pos eight, ofNumber_eq, ok_bind, ← BigInteger.ofInt_zero, BigInteger.add_ofInt,
      Int.zero_add, List.headD_cons, List.tail_cons]
    refine (foldlM_bytes rest first.toNat).trans ?_
    rw [List.foldl_cons, Nat.zero_mul, Nat.zero_add]
    rfl
  · rw [if_neg eight, ← BigInteger.ofInt_zero]
    exact foldlM_bytes data 0

theorem remainder_natCast {number divisor : Nat} (positive : 0 < divisor) :
    (ofInt number).remainder (ofInt divisor) = .ok (ofInt ((number % divisor : Nat) : Int)) := by
  rw [BigInteger.remainder_ofInt, if_neg (by omega), Int.natCast_emod,
    Int.tmod_eq_emod_of_nonneg (by omega)]

theorem quotient_natCast {number divisor : Nat} (positive : 0 < divisor) :
    (ofInt number).quotient (ofInt divisor) = .ok (ofInt ((number / divisor : Nat) : Int)) := by
  rw [BigInteger.quotient_ofInt, if_neg (by omega), Int.natCast_ediv,
    Int.tdiv_eq_ediv_of_nonneg (by omega)]

theorem uint64Bytes_eq (size num : Nat) :
    uint64Bytes (ofInt ((2 ^ 8 : Nat) : Int)) size (ofInt num) =
      .ok ((Positional.digits (2 ^ 8) size num).map UInt8.ofNat) := by
  induction size generalizing num with
  | zero => rfl
  | succ size inductionHypothesis =>
    have small : num % 2 ^ 8 < 256 := Nat.mod_lt num (by decide)
    have byte : toUint8 (some ((num % 2 ^ 8 : Nat) : Int)) = UInt8.ofNat (num % 2 ^ 8) :=
      UInt8.toNat_inj.mp ((toUint8_ofNat small).trans (UInt8.toNat_ofNat_of_lt' small).symm)
    rw [uint64Bytes, remainder_natCast (by decide), ok_bind, quotient_natCast (by decide), ok_bind,
      inductionHypothesis, ok_bind, valueOf_natCast (by omega), byte, Positional.digits,
      List.map_append]
    rfl

theorem uint64To8be_eq (num size : Nat) :
    uint64To8be (ofInt num) size = CnBase58.uint64To8be num size := by
  unfold uint64To8be CnBase58.uint64To8be
  split
  · rfl
  · rw [power_eq (by decide) (by decide), ok_bind, uint64Bytes_eq]
    rfl

theorem writeRemainders_eq {fuel num : Nat} (enough : num < 2 ^ fuel) (buf : List UInt8)
    (position : Int) :
    writeRemainders (fuel + 1) (ofInt num) buf position =
      .ok (CnBase58.writeRemainders num buf position) := by
  have zero : (ofInt num).compare (ofInt ((0 : Nat) : Int)) = 1 ↔ num ≠ 0 := by
    rw [compare_natCast, Int.sign_eq_one_iff_pos]
    omega
  induction fuel generalizing num buf position with
  | zero =>
    have none : num = 0 := by
      rw [pow_zero] at enough
      omega
    rw [writeRemainders, ofNumber_eq, ok_bind, if_neg (fun some => zero.mp some none),
      CnBase58.writeRemainders, if_pos none]
    rfl
  | succ fuel inductionHypothesis =>
    rw [writeRemainders, ofNumber_eq, ok_bind, CnBase58.writeRemainders]
    by_cases none : num = 0
    · rw [if_neg (fun some => zero.mp some none), if_pos none]
      rfl
    · have length := CnBase58.length_alphabet
      have parts : (ofInt (num : Int)).divRem (ofInt ((58 : Nat) : Int)) =
          .ok (ofInt ((num / 58 : Nat) : Int), ofInt ((num % 58 : Nat) : Int)) := by
        rw [BigInteger.divRem_ofInt, if_neg (by decide), Int.natCast_ediv, Int.natCast_emod,
          Int.tdiv_eq_ediv_of_nonneg (by omega), Int.tmod_eq_emod_of_nonneg (by omega)]
      have next := @inductionHypothesis (num / 58) (by omega)
      rw [if_pos (zero.mpr none), if_neg none, length, ofNumber_eq, ok_bind, parts, ok_bind]
      dsimp only
      rw [valueOf_natCast (by omega), Int.toNat_natCast, next]
      rw [compare_natCast, Int.sign_eq_one_iff_pos]
      omega

/-- Blocks are encoded alike, and refused alike. -/
theorem encodeBlock_eq (data buf : List UInt8) (index : Nat) :
    encodeBlock data buf index = CnBase58.encodeBlock data buf index := by
  unfold encodeBlock CnBase58.encodeBlock
  rw [uint8BeTo64_eq]
  split
  · rfl
  · cases CnBase58.uint8BeTo64 data with
    | error failure => rfl
    | ok num => exact writeRemainders_eq (lt_two_pow num) buf _

/-- `res_num` and `order`. -/
def onLimbs (state : Nat × Nat) : BigInteger × BigInteger := (ofInt state.1, ofInt state.2)

theorem decodeSymbol_eq (state : Nat × Nat) (symbol : UInt8) :
    decodeSymbol (ofInt ((2 ^ 64 : Nat) : Int)) (onLimbs state) symbol =
      (CnBase58.decodeSymbol state symbol).map onLimbs := by
  unfold decodeSymbol CnBase58.decodeSymbol
  cases CnBase58.alphabet.idxOf? symbol with
  | none => rfl
  | some digit =>
    have different : false = true → (state.2 : Int) = digit := fun same => by cases same
    have another : false = true → (state.2 : Int) = (58 : Nat) := fun same => by cases same
    have product : (BigInteger.multiply false (onLimbs state).2 (ofInt digit)).add
        (onLimbs state).1 = ofInt ((state.2 * digit + state.1 : Nat) : Int) := by
      unfold onLimbs
      rw [BigInteger.multiply_ofInt _ _ _ different, BigInteger.add_ofInt]
      push_cast
      rfl
    have overflow : (ofInt ((state.2 * digit + state.1 : Nat) : Int)).compare
        (ofInt ((2 ^ 64 : Nat) : Int)) = 1 ↔ state.2 * digit + state.1 > CnBase58.uint64Max := by
      unfold CnBase58.uint64Max
      rw [compare_natCast, Int.sign_eq_one_iff_pos]
      omega
    dsimp only
    rw [ofNumber_eq, ok_bind, product]
    by_cases large : state.2 * digit + state.1 > CnBase58.uint64Max
    · rw [if_pos (overflow.mpr large), if_pos large]
      rfl
    · rw [if_neg (mt overflow.mp large), if_neg large, CnBase58.length_alphabet, ofNumber_eq,
        ok_bind]
      unfold onLimbs
      rw [BigInteger.multiply_ofInt _ _ _ another, ← Nat.cast_mul]
      rfl

theorem decodeSymbols_eq (data : List UInt8) (state : Nat × Nat) :
    data.foldlM (decodeSymbol (ofInt ((2 ^ 64 : Nat) : Int))) (onLimbs state) =
      (data.foldlM CnBase58.decodeSymbol state).map onLimbs := by
  induction data generalizing state with
  | nil => rfl
  | cons symbol rest inductionHypothesis =>
    rw [List.foldlM_cons, List.foldlM_cons, decodeSymbol_eq]
    cases CnBase58.decodeSymbol state symbol with
    | error failure => rfl
    | ok after => exact inductionHypothesis after

/-- Blocks are decoded alike, and refused alike. -/
theorem decodeBlock_eq (data buf : List UInt8) (index : Nat) :
    decodeBlock data buf index = CnBase58.decodeBlock data buf index := by
  have start : (ofInt ((0 : Nat) : Int), ofInt ((1 : Nat) : Int)) = onLimbs (0, 1) := rfl
  unfold decodeBlock CnBase58.decodeBlock
  rw [power_eq (by decide) (by decide), ok_bind]
  split
  · rfl
  · show (if _ then _ else _) = (if _ then _ else _)
    split
    · rfl
    · show (ofNumber 0 >>= fun zero => ofNumber 1 >>= fun one =>
          data.reverse.foldlM (decodeSymbol _) (zero, one) >>= _) =
        (data.reverse.foldlM CnBase58.decodeSymbol (0, 1) >>= _)
      rw [ofNumber_eq, ok_bind, ofNumber_eq, ok_bind, start, decodeSymbols_eq]
      cases data.reverse.foldlM CnBase58.decodeSymbol (0, 1) with
      | error failure => rfl
      | ok state =>
        generalize (CnBase58.encodedBlockSizes.idxOf? data.length).getD 0 = size
        show (if size < CnBase58.fullBlockSize then
            power 2 (8 * size) >>= fun limit => if limit.compare (ofInt state.1) ≤ 0 then _ else _
          else (uint64To8be (ofInt state.1) size >>= _)) = if _ then _ else _
        have limit : (ofInt ((2 ^ (8 * size) : Nat) : Int)).compare (ofInt state.1) ≤ 0 ↔
            2 ^ (8 * size) ≤ state.1 := by
          rw [compare_natCast, Int.sign_nonpos_iff]
          omega
        by_cases shorter : size < CnBase58.fullBlockSize
        · have small : 8 * size ≤ JSBigInt.maxExp := by
            unfold CnBase58.fullBlockSize at shorter
            unfold JSBigInt.maxExp
            omega
          rw [if_pos shorter, power_eq (by decide) small, ok_bind]
          by_cases overflow : 2 ^ (8 * size) ≤ state.1
          · rw [if_pos (limit.mpr overflow), if_pos ⟨shorter, overflow⟩]
            rfl
          · rw [if_neg (mt limit.mp overflow), if_neg fun both => overflow both.2]
            dsimp only
            rw [uint64To8be_eq]
        · rw [if_neg shorter, if_neg fun both => shorter both.1, uint64To8be_eq]

/-! ### Amounts on integers -/

/-- The strings that the model of amounts leaves open, as they are read. -/
def readOther (other : JsString) : Except String Int :=
  (BigInteger.parse other none).map BigInteger.toInt

theorem coinUnits_eq (config : Coin) : ∃ units,
    JSBigInt.pow 10 config.coinUnitPlaces = .ok units ∧ config.coinUnits = ofInt units := by
  have powered := config.powered
  unfold power at powered
  rw [ofNumber_eq, ofNumber_eq] at powered
  have raised : finished ((ofInt 10).pow (ofInt config.coinUnitPlaces)) = .ok config.coinUnits :=
    powered
  rw [BigInteger.pow_ofInt] at raised
  cases same : JSBigInt.pow 10 config.coinUnitPlaces with
  | error failure =>
    rw [same] at raised
    cases raised
  | ok units =>
    rw [same] at raised
    exact ⟨units, rfl, (Except.ok.inj raised).symm⟩

/-- The configuration, with its units as an integer. -/
def Coin.onIntegers (config : Coin) : CnUtil.Coin where
  coinUnitPlaces := config.coinUnitPlaces
  coinUnits := config.coinUnits.toInt
  powered := by
    obtain ⟨units, powered, same⟩ := coinUnits_eq config
    rw [powered, same, BigInteger.toInt_ofInt]

/-- What has been read, on digits. -/
def Parsed.ofIntegers : CnUtil.Parsed → Parsed
  | .bigInteger value => .bigInteger (ofInt value)
  | .negate => .negate

/-- Amounts are written alike. -/
theorem formatMoneyFull_eq (config : Coin) (amount : Int) :
    formatMoneyFull config (ofInt amount) =
      .ok (CnUtil.formatMoneyFull config.onIntegers amount) := by
  unfold formatMoneyFull
  rw [BigInteger.toString_ofInt amount (by decide) (by decide), BigInteger.written_ten]
  rfl

theorem formatMoney_eq (config : Coin) (amount : Int) :
    formatMoney config (ofInt amount) = .ok (CnUtil.formatMoney config.onIntegers amount) := by
  unfold formatMoney
  rw [formatMoneyFull_eq]
  rfl

/-- Amounts are read alike, and strings refused alike. -/
theorem parseMoney_eq (config : Coin) (string : JsString) :
    parseMoney config string =
      (CnUtil.parseMoney readOther config.onIntegers string).map Parsed.ofIntegers := by
  have places : config.onIntegers.coinUnitPlaces = config.coinUnitPlaces := rfl
  have unitsEq : config.coinUnits = ofInt config.onIntegers.coinUnits := by
    obtain ⟨units, _, same⟩ := coinUnits_eq config
    show config.coinUnits = ofInt config.coinUnits.toInt
    rw [same, BigInteger.toInt_ofInt]
  have parsed (string : JsString) : BigInteger.parse string none =
      (JSBigInt.parse readOther string).map ofInt := BigInteger.parse_refines string
  unfold parseMoney CnUtil.parseMoney
  rw [places, unitsEq]
  by_cases empty : string = []
  · rw [if_pos empty, if_pos empty, ← BigInteger.ofInt_zero]
    rfl
  rw [if_neg empty, if_neg empty]
  dsimp only
  generalize (if string.head? = some 45 then string.drop 1 else string) = unsigned
  by_cases noPoint : 46 ∉ unsigned
  · rw [if_pos noPoint, if_pos noPoint, parsed]
    cases JSBigInt.parse readOther unsigned with
    | error failure => rfl
    | ok magnitude =>
      have different : false = true → magnitude = config.onIntegers.coinUnits :=
        fun same => by cases same
      show Except.ok (Parsed.bigInteger _) = Except.ok (Parsed.bigInteger _)
      rw [BigInteger.multiply_ofInt _ _ _ different, BigInteger.negate_ofInt]
      split <;> rfl
  · rw [if_neg noPoint, if_neg noPoint, parsed]
    generalize (if unsigned.idxOf 46 + config.coinUnitPlaces + 1 < unsigned.length then
      unsigned.take (unsigned.idxOf 46 + config.coinUnitPlaces + 1) else unsigned) = kept
    cases JSBigInt.parse readOther (kept.take (unsigned.idxOf 46)) with
    | error failure => rfl
    | ok whole =>
      show ((ofInt whole).exp10 _ >>= _) = Except.map _ (JSBigInt.exp10 whole _ >>= _)
      rw [BigInteger.exp10_ofInt]
      cases JSBigInt.exp10 whole config.coinUnitPlaces with
      | error failure => rfl
      | ok wholeUnits =>
        show (BigInteger.parse _ none >>= _) = Except.map _ (JSBigInt.parse readOther _ >>= _)
        rw [parsed]
        cases JSBigInt.parse readOther (kept.drop (unsigned.idxOf 46 + 1)) with
        | error failure => rfl
        | ok fraction =>
          show ((ofInt fraction).exp10 _ >>= _) = Except.map _ (JSBigInt.exp10 fraction _ >>= _)
          rw [BigInteger.exp10_ofInt]
          cases JSBigInt.exp10 fraction
              (unsigned.idxOf 46 + config.coinUnitPlaces - kept.length + 1) with
          | error failure => rfl
          | ok units =>
            show Except.ok (if _ then Parsed.negate else .bigInteger _) = Except.ok _
            rw [BigInteger.add_ofInt]
            split <;> rfl

/-- The codec of addresses and the variable-length numbers, calculated digit by digit, are those of
the integers for every block and every number, with the same errors. -/
theorem codecs_refine :
    (∀ data buf index, encodeBlock data buf index = CnBase58.encodeBlock data buf index) ∧
    (∀ data buf index, decodeBlock data buf index = CnBase58.decodeBlock data buf index) ∧
    (∀ number, encodeVarint number = .ok (CnUtil.encodeVarint number)) :=
  ⟨encodeBlock_eq, decodeBlock_eq, encodeVarint_eq⟩

/-- Amounts, calculated digit by digit, are read from every string and written as on integers. -/
theorem amounts_refine (config : Coin) :
    (∀ amount, formatMoneyFull config (ofInt amount) =
      .ok (CnUtil.formatMoneyFull config.onIntegers amount)) ∧
    (∀ amount, formatMoney config (ofInt amount) =
      .ok (CnUtil.formatMoney config.onIntegers amount)) ∧
    (∀ string, parseMoney config string =
      (CnUtil.parseMoney readOther config.onIntegers string).map Parsed.ofIntegers) :=
  ⟨formatMoneyFull_eq config, formatMoney_eq config, parseMoney_eq config⟩

end LightWallet.Frontend.OnLimbs
