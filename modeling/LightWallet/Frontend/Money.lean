/-
This file models how the wallet's scripts write an amount of atomic units as a decimal
string and read such a string back, and proves which amounts and which strings keep their
value.

A string with a minus and a decimal point is not read: the last call of that branch has no
parentheses, so that a method is returned in place of the number.
-/

import Mathlib.Data.List.DropRight
import LightWallet.Frontend.Strings

namespace LightWallet.Frontend

/-! ### Big integers -/

namespace JSBigInt

/-- `MAX_EXP`. -/
def maxExp : Nat := 0x7FFFFFFF

/-- `value.toString()`. -/
def toString (value : Int) : JsString :=
  if value < 0 then 45 :: toString10 value.natAbs else toString10 value.natAbs

/-- A decimal digit. -/
def isDigit (unit : UInt16) : Bool := 48 ≤ unit.toNat && unit.toNat ≤ 57

/-- `BigInteger.parse(string)` of a sign, decimal digits and a point with digits that are
dropped, any of them missing. The parameter reads the other strings: exponents, prefixes of
other bases and what is refused. -/
def parse (other : JsString → Except String Int) (string : JsString) : Except String Int :=
  let unsigned :=
    if string.head? = some 45 ∨ string.head? = some 43 then string.tail else string
  let digits := unsigned.takeWhile isDigit
  let point := unsigned.dropWhile isDigit
  if point = [] ∨ (point.head? = some 46 ∧ point.tail.all isDigit) then
    let magnitude : Int := Positional.value 10 (digits.map fun unit => unit.toNat - 48)
    pure (if string.head? = some 45 then -magnitude else magnitude)
  else other string

/-- `value.exp10(exponent)`. -/
def exp10 (value exponent : Int) : Except String Int :=
  if exponent = 0 then pure value
  else if maxExp < exponent.natAbs then throw "exponent too large in BigInteger.exp10"
  else if 0 < exponent then pure (value * 10 ^ exponent.toNat)
  else pure (value.tdiv (10 ^ (-exponent).toNat))

/-- `value.pow(exponent)`. -/
def pow (value : Int) (exponent : Nat) : Except String Int :=
  if value.natAbs = 1 then pure (if 0 < value ∨ exponent % 2 = 1 then value else -value)
  else if exponent = 0 then pure 1
  else if value = 0 then pure 0
  else if exponent = 1 then pure value
  else if maxExp < exponent then throw "exponent too large in BigInteger.pow"
  else pure (value ^ exponent)

end JSBigInt

/-! ### Amounts -/

namespace CnUtil

/-- What the constructor of the utilities has of the configuration: the number of decimal
places and the units that it computes from it. -/
structure Coin where
  coinUnitPlaces : Nat
  coinUnits : Int
  powered : JSBigInt.pow 10 coinUnitPlaces = .ok coinUnits

/-- `trimRight`. -/
def trimRight (string : JsString) (char : UInt16) : JsString := string.rdropWhile (· == char)

/-- `padLeft`. -/
def padLeft (string : JsString) (length : Nat) (char : UInt16) : JsString :=
  if string.length < length then padLeft (char :: string) length char else string
termination_by length - string.length

/-- `formatMoneyFull`. -/
def formatMoneyFull (config : Coin) (amount : Int) : JsString :=
  let written := JSBigInt.toString amount
  let symbol : JsString := if written.head? = some 45 then [45] else []
  let units := if symbol = [45] then written.drop 1 else written
  let decimal :=
    if config.coinUnitPlaces ≤ units.length then
      (units.drop (units.length - config.coinUnitPlaces)).take config.coinUnitPlaces
    else padLeft units config.coinUnitPlaces 48
  let whole := units.take (units.length - config.coinUnitPlaces)
  symbol ++ (if whole = [] then [48] else whole) ++ [46] ++ decimal

/-- `formatMoney`. -/
def formatMoney (config : Coin) (amount : Int) : JsString :=
  let full := trimRight (formatMoneyFull config amount) 48
  if full.getLast? = some 46 then full.take (full.length - 1) else full

/-- What reading an amount returns: a big integer, or the method that negates one. -/
inductive Parsed
  | bigInteger (value : Int)
  | negate
  deriving DecidableEq

/-- `parseMoney`. -/
def parseMoney (other : JsString → Except String Int) (config : Coin) (string : JsString) :
    Except String Parsed :=
  if string = [] then pure (.bigInteger 0)
  else
    let negative := string.head? = some 45
    let unsigned := if negative then string.drop 1 else string
    let decimalIndex := unsigned.idxOf 46
    if 46 ∉ unsigned then do
      let product := (← JSBigInt.parse other unsigned) * config.coinUnits
      pure (.bigInteger (if negative then -product else product))
    else
      let kept :=
        if decimalIndex + config.coinUnitPlaces + 1 < unsigned.length then
          unsigned.take (decimalIndex + config.coinUnitPlaces + 1)
        else unsigned
      do
        let whole ← JSBigInt.parse other (kept.take decimalIndex)
        let wholeUnits ← JSBigInt.exp10 whole config.coinUnitPlaces
        let fraction ← JSBigInt.parse other (kept.drop (decimalIndex + 1))
        let units ← JSBigInt.exp10 fraction
          (decimalIndex + config.coinUnitPlaces - kept.length + 1)
        -- The negated sum is not asked for: `.negate` without the parentheses.
        pure (if negative then .negate else .bigInteger (wholeUnits + units))

end CnUtil

/-! ### Decimal strings -/

/-- The sign of a decimal string. -/
inductive Sign
  | absent
  | plus
  | minus
  deriving DecidableEq

/-- The sign as it is written. -/
def Sign.text : Sign → JsString
  | .absent => []
  | .plus => [43]
  | .minus => [45]

/-- A decimal string: a sign, the digits of the whole part and, after a point, those of the
fraction. -/
structure Decimal where
  sign : Sign
  whole : List Nat
  fraction : Option (List Nat)
  wholeSmall : ∀ digit ∈ whole, digit < 10
  fractionSmall : ∀ digit ∈ fraction.getD [], digit < 10

namespace Decimal

/-- The string itself. -/
def text (decimal : Decimal) : JsString :=
  decimal.sign.text ++ decimal.whole.map hexUnit ++
    match decimal.fraction with
    | none => []
    | some digits => 46 :: digits.map hexUnit

/-- The atomic units without the sign, where the fraction has no more digits than places. -/
def magnitude (decimal : Decimal) (places : Nat) : Nat :=
  Positional.value 10 decimal.whole * 10 ^ places +
    Positional.value 10 (decimal.fraction.getD []) *
      10 ^ (places - (decimal.fraction.getD []).length)

/-- The atomic units, with the sign. -/
def units (decimal : Decimal) (places : Nat) : Int :=
  if decimal.sign = .minus then -decimal.magnitude places else decimal.magnitude places

/-- The fraction has no more digits than places. -/
def Fits (decimal : Decimal) (places : Nat) : Prop := (decimal.fraction.getD []).length ≤ places

/-- A minus and a decimal point, the one kind of string that is not read. -/
def MinusAndPoint (decimal : Decimal) : Prop :=
  decimal.sign = .minus ∧ decimal.fraction.isSome

instance (decimal : Decimal) : Decidable decimal.MinusAndPoint :=
  inferInstanceAs (Decidable (_ ∧ _))

end Decimal

/-! ### Reading digits -/

theorem isDigit_hexUnit {digit : Nat} (small : digit < 10) :
    JSBigInt.isDigit (hexUnit digit) = true ∧ (hexUnit digit).toNat - 48 = digit := by
  revert digit
  decide

theorem isDigit_of_mem {digits : List Nat} (small : ∀ digit ∈ digits, digit < 10) :
    ∀ unit ∈ digits.map hexUnit, JSBigInt.isDigit unit = true := by
  intro unit member
  obtain ⟨digit, present, rfl⟩ := List.mem_map.mp member
  exact (isDigit_hexUnit (small digit present)).1

theorem notMem_digits {digits : List Nat} (small : ∀ digit ∈ digits, digit < 10) {unit : UInt16}
    (other : JSBigInt.isDigit unit = false) : unit ∉ digits.map hexUnit := by
  intro member
  rw [isDigit_of_mem small unit member] at other
  cases other

theorem head?_digits_ne {digits : List Nat} (small : ∀ digit ∈ digits, digit < 10) {unit : UInt16}
    (other : JSBigInt.isDigit unit = false) : (digits.map hexUnit).head? ≠ some unit :=
  fun first => notMem_digits small other (List.mem_of_head? first)

theorem map_worth_hexUnit {digits : List Nat} (small : ∀ digit ∈ digits, digit < 10) :
    (digits.map hexUnit).map (fun unit => unit.toNat - 48) = digits := by
  rw [List.map_map]
  exact (List.map_congr_left fun digit member => (isDigit_hexUnit (small digit member)).2).trans
    (List.map_id digits)

section

variable (other : JsString → Except String Int)

/-- Digits are read as the number they write, also after a plus. -/
theorem parse_digits {digits : List Nat} (small : ∀ digit ∈ digits, digit < 10) {sign : Sign}
    (unsigned : sign ≠ .minus) :
    JSBigInt.parse other (sign.text ++ digits.map hexUnit) =
      .ok (Positional.value 10 digits : Int) := by
  have noMinus : (digits.map hexUnit).head? ≠ some 45 := head?_digits_ne small (by decide)
  have noPlus : (digits.map hexUnit).head? ≠ some 43 := head?_digits_ne small (by decide)
  have positive : (sign.text ++ digits.map hexUnit).head? ≠ some 45 := by
    cases sign with
    | absent => exact noMinus
    | plus => exact fun first => absurd (Option.some.inj first) (by decide)
    | minus => exact absurd rfl unsigned
  have rest : (if (sign.text ++ digits.map hexUnit).head? = some 45 ∨
      (sign.text ++ digits.map hexUnit).head? = some 43 then
        (sign.text ++ digits.map hexUnit).tail else sign.text ++ digits.map hexUnit) =
      digits.map hexUnit := by
    cases sign with
    | absent => exact if_neg (not_or.mpr ⟨noMinus, noPlus⟩)
    | plus => exact if_pos (.inr rfl)
    | minus => exact absurd rfl unsigned
  have taken := List.takeWhile_eq_self_iff.mpr (isDigit_of_mem small)
  have dropped := List.dropWhile_eq_nil_iff.mpr (isDigit_of_mem small)
  unfold JSBigInt.parse
  simp only [rest, taken, dropped, map_worth_hexUnit small, true_or, if_true]
  rw [if_neg positive]
  rfl

theorem exp10_of_le {value : Int} {exponent : Nat} (small : exponent ≤ JSBigInt.maxExp) :
    JSBigInt.exp10 value exponent = .ok (value * 10 ^ exponent) := by
  unfold JSBigInt.exp10
  by_cases zero : exponent = 0
  · rw [if_pos (by omega), zero, pow_zero, mul_one]
    rfl
  · rw [if_neg (by omega), if_neg (by omega), if_pos (by omega), Int.toNat_natCast]
    rfl

theorem CnUtil.Coin.coinUnits_eq (config : CnUtil.Coin) :
    config.coinUnits = 10 ^ config.coinUnitPlaces ∧ config.coinUnitPlaces ≤ JSBigInt.maxExp := by
  have powered := config.powered
  unfold JSBigInt.pow at powered
  rw [if_neg (by decide)] at powered
  by_cases zero : config.coinUnitPlaces = 0
  · rw [if_pos zero] at powered
    rw [zero, ← Except.ok.inj powered]
    decide
  rw [if_neg zero, if_neg (by decide)] at powered
  by_cases one : config.coinUnitPlaces = 1
  · rw [if_pos one] at powered
    rw [one, ← Except.ok.inj powered]
    decide
  rw [if_neg one] at powered
  by_cases large : JSBigInt.maxExp < config.coinUnitPlaces
  · rw [if_pos large] at powered
    cases powered
  rw [if_neg large] at powered
  exact ⟨(Except.ok.inj powered).symm, Nat.le_of_not_lt large⟩

/-! ### Reading an amount -/

theorem notMem_sign_digits {digits : List Nat} (small : ∀ digit ∈ digits, digit < 10)
    (sign : Sign) : (46 : UInt16) ∉ sign.text ++ digits.map hexUnit := by
  intro member
  rcases List.mem_append.mp member with inSign | inDigits
  · cases sign with
    | absent => cases inSign
    | plus => exact absurd (List.mem_singleton.mp inSign) (by decide)
    | minus => exact absurd (List.mem_singleton.mp inSign) (by decide)
  · exact notMem_digits small (by decide) inDigits

/-- Without a point, the number is one of whole coins. -/
theorem parseMoney_of_noPoint (config : CnUtil.Coin) {string : JsString} {digits : List Nat}
    {sign : Sign} (small : ∀ digit ∈ digits, digit < 10) (unsigned : sign ≠ .minus)
    (rest : (if string.head? = some 45 then string.drop 1 else string) =
      sign.text ++ digits.map hexUnit) :
    CnUtil.parseMoney other config string =
      .ok (.bigInteger (if string.head? = some 45 then
        -((Positional.value 10 digits : Int) * 10 ^ config.coinUnitPlaces)
        else (Positional.value 10 digits : Int) * 10 ^ config.coinUnitPlaces)) := by
  unfold CnUtil.parseMoney
  by_cases empty : string = []
  · have noDigits : digits = [] := by
      rw [empty] at rest
      exact List.map_eq_nil_iff.mp (List.append_eq_nil_iff.mp rest.symm).2
    rw [if_pos empty, empty, noDigits, Positional.value_nil]
    simp
    rfl
  · simp only [rest]
    rw [if_neg empty, if_pos (notMem_sign_digits small sign), parse_digits other small unsigned,
      config.coinUnits_eq.1]
    rfl

/-- With a point, the digits on both sides of it are read. -/
theorem parseMoney_of_point (config : CnUtil.Coin) {string : JsString} {digits fraction : List Nat}
    {sign : Sign} (small : ∀ digit ∈ digits, digit < 10)
    (fractionSmall : ∀ digit ∈ fraction, digit < 10)
    (fits : fraction.length ≤ config.coinUnitPlaces) (unsigned : sign ≠ .minus)
    (rest : (if string.head? = some 45 then string.drop 1 else string) =
      sign.text ++ digits.map hexUnit ++ 46 :: fraction.map hexUnit) :
    CnUtil.parseMoney other config string =
      .ok (if string.head? = some 45 then .negate
        else .bigInteger ((Positional.value 10 digits : Int) * 10 ^ config.coinUnitPlaces +
          (Positional.value 10 fraction : Int) *
            10 ^ (config.coinUnitPlaces - fraction.length))) := by
  have bound := config.coinUnits_eq.2
  have before := notMem_sign_digits small sign
  set front := sign.text ++ digits.map hexUnit with frontEq
  have nonempty : string ≠ [] := by
    intro empty
    rw [empty] at rest
    exact absurd (List.append_eq_nil_iff.mp rest.symm).2 (List.cons_ne_nil _ _)
  have position : (front ++ 46 :: fraction.map hexUnit).idxOf 46 = front.length := by
    rw [List.idxOf_append_of_notMem before, List.idxOf_cons_self, Nat.add_zero]
  have point : (46 : UInt16) ∈ front ++ 46 :: fraction.map hexUnit := by simp
  have length : (front ++ 46 :: fraction.map hexUnit).length =
      front.length + fraction.length + 1 := by
    rw [List.length_append, List.length_cons, List.length_map, Nat.add_assoc]
  have short : ¬ front.length + config.coinUnitPlaces + 1 < front.length + fraction.length + 1 := by
    omega
  have whole : (front ++ 46 :: fraction.map hexUnit).take front.length = front :=
    List.take_left
  have behind : (front ++ 46 :: fraction.map hexUnit).drop (front.length + 1) =
      fraction.map hexUnit := by
    rw [List.drop_append, List.drop_of_length_le (by omega), List.nil_append]
    simp
  have exponent : ((front.length : Int) + config.coinUnitPlaces -
      ((front.length + fraction.length + 1 : Nat) : Int) + 1) =
        ((config.coinUnitPlaces - fraction.length : Nat) : Int) := by
    omega
  have readFraction : JSBigInt.parse other (fraction.map hexUnit) =
      .ok (Positional.value 10 fraction : Int) :=
    parse_digits other fractionSmall (show Sign.absent ≠ .minus by decide)
  unfold CnUtil.parseMoney
  simp only [rest, position, length, short, whole, behind, exponent, if_false]
  rw [if_neg nonempty, if_neg (not_not.mpr point), frontEq, parse_digits other small unsigned,
    readFraction]
  show (JSBigInt.exp10 _ _ >>= fun wholeUnits => JSBigInt.exp10 _ _ >>= fun units => _) = _
  rw [exp10_of_le bound, exp10_of_le (Nat.le_trans (Nat.sub_le _ _) bound)]
  rfl

/-- Taking a minus away leaves a string without one. -/
theorem withoutMinus {back : JsString} (noMinus : back.head? ≠ some 45) (sign : Sign) :
    ((sign.text ++ back).head? = some 45 ↔ sign = .minus) ∧
      ∃ unsigned : Sign, unsigned ≠ .minus ∧
        (if (sign.text ++ back).head? = some 45 then (sign.text ++ back).drop 1
          else sign.text ++ back) = unsigned.text ++ back := by
  cases sign with
  | absent =>
    exact ⟨iff_of_false noMinus (by decide), .absent, by decide, if_neg noMinus⟩
  | plus =>
    have other : (Sign.plus.text ++ back).head? ≠ some 45 :=
      fun first => absurd (Option.some.inj first) (by decide)
    exact ⟨iff_of_false other (by decide), .plus, by decide, if_neg other⟩
  | minus => exact ⟨iff_of_true rfl rfl, .absent, by decide, if_pos rfl⟩

theorem parseMoney_text (config : CnUtil.Coin) {decimal : Decimal}
    (fits : decimal.Fits config.coinUnitPlaces) :
    CnUtil.parseMoney other config decimal.text =
      .ok (if decimal.MinusAndPoint then .negate
        else .bigInteger (decimal.units config.coinUnitPlaces)) := by
  obtain ⟨sign, whole, fraction, wholeSmall, fractionSmall⟩ := decimal
  have noMinus : ∀ point : JsString, point.head? ≠ some 45 →
      (whole.map hexUnit ++ point).head? ≠ some 45 := by
    intro point pointOther
    cases whole with
    | nil => exact pointOther
    | cons digit rest => exact head?_digits_ne wholeSmall (by decide)
  cases fraction with
  | none =>
    obtain ⟨negative, unsigned, notMinus, rest⟩ := withoutMinus (noMinus [] (by simp)) sign
    rw [List.append_nil] at negative rest
    have written : Decimal.text ⟨sign, whole, none, wholeSmall, fractionSmall⟩ =
        sign.text ++ whole.map hexUnit := List.append_nil _
    have noPoint : ¬ Decimal.MinusAndPoint ⟨sign, whole, none, wholeSmall, fractionSmall⟩ :=
      fun both => Bool.false_ne_true both.2
    rw [written, parseMoney_of_noPoint other config wholeSmall notMinus rest, if_neg noPoint]
    unfold Decimal.units Decimal.magnitude
    simp only [negative]
    simp
  | some digits =>
    obtain ⟨negative, unsigned, notMinus, rest⟩ :=
      withoutMinus (noMinus (46 :: digits.map hexUnit) (by simp)) sign
    have written : Decimal.text ⟨sign, whole, some digits, wholeSmall, fractionSmall⟩ =
        sign.text ++ (whole.map hexUnit ++ 46 :: digits.map hexUnit) := List.append_assoc _ _ _
    rw [written, parseMoney_of_point other config wholeSmall fractionSmall fits notMinus
      (rest.trans (List.append_assoc _ _ _).symm)]
    have minusAndPoint : Decimal.MinusAndPoint ⟨sign, whole, some digits, wholeSmall,
        fractionSmall⟩ ↔ sign = .minus := and_iff_left rfl
    unfold Decimal.units Decimal.magnitude
    by_cases minus : sign = .minus
    · rw [if_pos (negative.mpr minus), if_pos (minusAndPoint.mpr minus)]
    · rw [if_neg (negative.not.mpr minus), if_neg (minusAndPoint.not.mpr minus), if_neg minus]
      simp

end

/-! ### Writing an amount -/

theorem padLeft_eq (string : JsString) (length : Nat) (char : UInt16) :
    CnUtil.padLeft string length char =
      List.replicate (length - string.length) char ++ string := by
  induction string using CnUtil.padLeft.induct length char with
  | case1 string short inductionHypothesis =>
    rw [CnUtil.padLeft, if_pos short, inductionHypothesis, List.length_cons,
      show length - string.length = length - (string.length + 1) + 1 by omega,
      List.replicate_succ', List.append_assoc, List.singleton_append]
  | case2 string long =>
    rw [CnUtil.padLeft, if_neg long, Nat.sub_eq_zero_of_le (Nat.le_of_not_lt long),
      List.replicate_zero, List.nil_append]

/-- The digits that are left when the zeros at the end are taken away. -/
theorem exists_trimmed (digits : List Nat) :
    ∃ kept : List Nat, ∃ zeros : Nat, digits = kept ++ List.replicate zeros 0 ∧
      ∀ last ∈ kept.getLast?, last ≠ 0 := by
  induction digits using List.reverseRecOn with
  | nil => exact ⟨[], 0, rfl, by simp⟩
  | append_singleton front digit inductionHypothesis =>
    by_cases zero : digit = 0
    · obtain ⟨kept, zeros, split, last⟩ := inductionHypothesis
      refine ⟨kept, zeros + 1, ?_, last⟩
      rw [zero, split, List.replicate_succ', List.append_assoc]
    · refine ⟨front ++ [digit], 0, (List.append_nil _).symm, fun last member => ?_⟩
      rw [List.getLast?_concat] at member
      rwa [← Option.some.inj member]

/-- Where there are no digits before the point, a zero is written. -/
theorem exists_whole {digits : List Nat} (small : ∀ digit ∈ digits, digit < 10) :
    ∃ whole : List Nat, (∀ digit ∈ whole, digit < 10) ∧
      Positional.value 10 whole = Positional.value 10 digits ∧
      (if digits.map hexUnit = [] then [48] else digits.map hexUnit) = whole.map hexUnit := by
  cases digits with
  | nil => exact ⟨[0], by decide, rfl, rfl⟩
  | cons digit rest => exact ⟨digit :: rest, small, rfl, if_neg (List.cons_ne_nil _ _)⟩

/-- The text of an amount in full: a sign, at least one digit, a point and as many digits as
places. -/
theorem formatMoneyFull_eq (config : CnUtil.Coin) (amount : Int) :
    ∃ whole fraction : List Nat, (∀ digit ∈ whole, digit < 10) ∧ (∀ digit ∈ fraction, digit < 10) ∧
      fraction.length = config.coinUnitPlaces ∧
      CnUtil.formatMoneyFull config amount =
        (if amount < 0 then [45] else []) ++ whole.map hexUnit ++ 46 :: fraction.map hexUnit ∧
      Positional.value 10 whole * 10 ^ config.coinUnitPlaces + Positional.value 10 fraction =
        amount.natAbs := by
  obtain ⟨digits, small, written, worth⟩ := toString10_spec amount.natAbs
  have noMinus : (digits.map hexUnit).head? ≠ some 45 := head?_digits_ne small (by decide)
  set symbol : JsString := if amount < 0 then [45] else [] with symbolEq
  have symbolHead : (if (JSBigInt.toString amount).head? = some 45 then ([45] : JsString) else []) =
      symbol := by
    unfold JSBigInt.toString
    rw [written, symbolEq]
    by_cases negative : amount < 0
    · rw [if_pos negative, if_pos negative]
      exact if_pos rfl
    · rw [if_neg negative, if_neg negative, if_neg noMinus]
  have units : (if symbol = [45] then (JSBigInt.toString amount).drop 1
      else JSBigInt.toString amount) = digits.map hexUnit := by
    unfold JSBigInt.toString
    rw [written, symbolEq]
    by_cases negative : amount < 0
    · rw [if_pos negative, if_pos rfl, if_pos negative]
      rfl
    · rw [if_neg negative, if_neg (List.cons_ne_nil _ _).symm, if_neg negative]
  set places := config.coinUnitPlaces with placesEq
  have shape : CnUtil.formatMoneyFull config amount =
      symbol ++ (if (digits.map hexUnit).take (digits.length - places) = [] then [48]
        else (digits.map hexUnit).take (digits.length - places)) ++ [46] ++
        (if places ≤ digits.length then
            ((digits.map hexUnit).drop (digits.length - places)).take places
          else List.replicate (places - digits.length) 48 ++ digits.map hexUnit) := by
    unfold CnUtil.formatMoneyFull
    simp only [symbolHead, units, padLeft_eq, List.length_map, placesEq]
  have zeroUnit : hexUnit 0 = 48 := by decide
  by_cases long : places ≤ digits.length
  · obtain ⟨whole, wholeSmall, wholeWorth, wholeText⟩ := exists_whole
      (fun digit member => small digit (List.mem_of_mem_take member) :
        ∀ digit ∈ digits.take (digits.length - places), digit < 10)
    have fractionLength : (digits.drop (digits.length - places)).length = places := by
      rw [List.length_drop]
      omega
    refine ⟨whole, digits.drop (digits.length - places), wholeSmall,
      fun digit member => small digit (List.mem_of_mem_drop member), fractionLength, ?_, ?_⟩
    · rw [shape, if_pos long, ← List.map_take, ← List.map_drop, wholeText, List.take_of_length_le
        (by rw [List.length_map, fractionLength]), List.append_assoc, List.singleton_append]
    · have joined := Positional.value_append 10 (digits.take (digits.length - places))
        (digits.drop (digits.length - places))
      rw [List.take_append_drop, fractionLength] at joined
      rw [wholeWorth, ← joined]
      exact worth
  · refine ⟨[0], List.replicate (places - digits.length) 0 ++ digits, by decide, ?_, ?_, ?_, ?_⟩
    · intro digit member
      rcases List.mem_append.mp member with padding | member
      · rw [(List.mem_replicate.mp padding).2]
        decide
      · exact small digit member
    · rw [List.length_append, List.length_replicate]
      omega
    · rw [shape, if_neg long, show digits.length - places = 0 by omega, List.take_zero,
        if_pos rfl, List.map_append, List.map_replicate, zeroUnit, List.append_assoc,
        List.singleton_append]
      rfl
    · rw [Positional.value_append, Positional.value_zeros]
      simpa [Positional.value] using worth

theorem trimRight_append_zeros {front : JsString} (last : front.getLast? ≠ some 48) (zeros : Nat) :
    CnUtil.trimRight (front ++ List.replicate zeros 48) 48 = front := by
  induction zeros with
  | zero =>
    rw [List.replicate_zero, List.append_nil]
    refine List.rdropWhile_eq_self_iff.mpr fun nonempty zero => last ?_
    rw [List.getLast?_eq_some_getLast nonempty, eq_of_beq zero]
  | succ zeros inductionHypothesis =>
    rw [List.replicate_succ', ← List.append_assoc]
    exact (List.rdropWhile_concat_pos _ _ 48 (by decide)).trans inductionHypothesis

theorem value_pos_of_getLast? {digits : List Nat} (nonempty : digits ≠ [])
    (last : ∀ last ∈ digits.getLast?, last ≠ 0) : 0 < Positional.value 10 digits := by
  obtain ⟨front, digit, rfl⟩ := (List.eq_nil_or_concat' digits).resolve_left nonempty
  have notZero : digit ≠ 0 := last digit List.getLast?_concat
  rw [Positional.value_concat]
  omega

theorem hexUnit_ne {digit : Nat} (small : digit < 10) :
    (digit ≠ 0 → hexUnit digit ≠ 48) ∧ hexUnit digit ≠ 46 := by
  revert digit
  decide

/-- The sign that an amount is written with. -/
def Sign.ofAmount (amount : Int) : Sign := if amount < 0 then .minus else .absent

theorem Sign.ofAmount_eq_minus_iff {amount : Int} :
    Sign.ofAmount amount = .minus ↔ amount < 0 := by
  unfold Sign.ofAmount
  by_cases negative : amount < 0
  · exact iff_of_true (if_pos negative) negative
  · exact iff_of_false (by rw [if_neg negative]; decide) negative

theorem Sign.text_ofAmount (amount : Int) :
    (Sign.ofAmount amount).text = if amount < 0 then [45] else [] := by
  unfold Sign.ofAmount
  exact apply_ite Sign.text _ _ _

theorem units_ofAmount {amount : Int} {decimal : Decimal} {places : Nat}
    (sign : decimal.sign = Sign.ofAmount amount)
    (magnitude : decimal.magnitude places = amount.natAbs) : decimal.units places = amount := by
  unfold Decimal.units
  rw [sign, magnitude]
  by_cases negative : amount < 0
  · rw [if_pos (Sign.ofAmount_eq_minus_iff.mpr negative)]
    omega
  · rw [if_neg (Sign.ofAmount_eq_minus_iff.not.mpr negative)]
    omega

/-- An amount is written as a decimal string of its value, with a point where it is not a
number of whole coins. -/
theorem formatMoney_eq (config : CnUtil.Coin) (amount : Int) :
    ∃ decimal : Decimal, CnUtil.formatMoney config amount = decimal.text ∧
      decimal.Fits config.coinUnitPlaces ∧ decimal.units config.coinUnitPlaces = amount ∧
      (decimal.MinusAndPoint ↔ amount < 0 ∧ ¬ (10 : Int) ^ config.coinUnitPlaces ∣ amount) := by
  obtain ⟨whole, fraction, wholeSmall, fractionSmall, length, full, worth⟩ :=
    formatMoneyFull_eq config amount
  obtain ⟨kept, zeros, rfl, last⟩ := exists_trimmed fraction
  have keptSmall : ∀ digit ∈ kept, digit < 10 :=
    fun digit member => fractionSmall digit (List.mem_append_left _ member)
  have lengths : kept.length + zeros = config.coinUnitPlaces := by
    rw [← length, List.length_append, List.length_replicate]
  rw [Positional.value_append_zeros, ← lengths] at worth
  rw [List.map_append, List.map_replicate, show hexUnit 0 = 48 by decide,
    ← Sign.text_ofAmount] at full
  unfold CnUtil.formatMoney
  rw [full, ← lengths]
  by_cases nothing : kept = []
  · subst nothing
    have trimmed : CnUtil.trimRight ((Sign.ofAmount amount).text ++ whole.map hexUnit ++
        46 :: ([].map hexUnit ++ List.replicate zeros 48)) 48 =
          (Sign.ofAmount amount).text ++ whole.map hexUnit ++ [46] := by
      rw [List.append_cons]
      exact trimRight_append_zeros (by rw [List.getLast?_concat]; decide) zeros
    have magnitude : Positional.value 10 whole * 10 ^ zeros = amount.natAbs := by
      simpa using worth
    refine ⟨⟨Sign.ofAmount amount, whole, none, wholeSmall, by simp⟩, ?_, Nat.zero_le _, ?_, ?_⟩
    · simp only [trimmed]
      rw [if_pos List.getLast?_concat, List.length_append, List.length_singleton,
        Nat.add_sub_cancel, List.take_left]
      exact (List.append_nil _).symm
    · refine units_ofAmount rfl ?_
      unfold Decimal.magnitude
      simpa using worth
    · refine iff_of_false (fun both => Bool.false_ne_true both.2) fun both => both.2 ?_
      rw [← Int.natAbs_dvd_natAbs, ← magnitude, Int.natAbs_pow, List.length_nil, Nat.zero_add]
      exact Dvd.intro_left _ rfl
  · obtain ⟨init, digit, keptEq⟩ := (List.eq_nil_or_concat' kept).resolve_left nothing
    have digitSmall : digit < 10 := keptSmall digit (by rw [keptEq]; simp)
    have notZero : digit ≠ 0 := last digit (by rw [keptEq]; exact List.getLast?_concat)
    have lastUnit : ((Sign.ofAmount amount).text ++ whole.map hexUnit ++
        46 :: kept.map hexUnit).getLast? = some (hexUnit digit) := by
      rw [keptEq, List.map_append, List.map_singleton, ← List.cons_append, ← List.append_assoc,
        List.getLast?_concat]
    have trimmed : CnUtil.trimRight ((Sign.ofAmount amount).text ++ whole.map hexUnit ++
        46 :: (kept.map hexUnit ++ List.replicate zeros 48)) 48 =
          (Sign.ofAmount amount).text ++ whole.map hexUnit ++ 46 :: kept.map hexUnit := by
      rw [← List.cons_append, ← List.append_assoc]
      refine trimRight_append_zeros (fun zero => ?_) zeros
      exact (hexUnit_ne digitSmall).1 notZero (Option.some.inj (lastUnit.symm.trans zero))
    refine ⟨⟨Sign.ofAmount amount, whole, some kept, wholeSmall, keptSmall⟩, ?_,
      Nat.le_add_right _ _, ?_, ?_⟩
    · simp only [trimmed, lastUnit]
      rw [if_neg fun point => (hexUnit_ne digitSmall).2 (Option.some.inj point)]
      rfl
    · refine units_ofAmount rfl ?_
      unfold Decimal.magnitude
      rw [Option.getD_some, Nat.add_sub_cancel_left]
      exact worth
    · have positive := value_pos_of_getLast? nothing last
      have small := Positional.value_lt (by decide) keptSmall
      have below : Positional.value 10 kept * 10 ^ zeros < 10 ^ (kept.length + zeros) := by
        rw [pow_add]
        exact Nat.mul_lt_mul_of_pos_right small (Nat.pow_pos (by decide))
      have above : 0 < Positional.value 10 kept * 10 ^ zeros :=
        Nat.mul_pos positive (Nat.pow_pos (by decide))
      have broken : ¬ (10 : Int) ^ (kept.length + zeros) ∣ amount := by
        rw [← Int.natAbs_dvd_natAbs, ← worth, Int.natAbs_pow]
        intro divides
        have rest := (Nat.dvd_add_right (Dvd.intro_left _ rfl)).mp divides
        exact absurd (Nat.le_of_dvd above rest) (Nat.not_le_of_lt below)
      exact (and_iff_left rfl).trans (Sign.ofAmount_eq_minus_iff.trans (and_iff_left broken).symm)

/-! ### Writing and reading -/

/-- What is written is read back as the same amount, and every decimal string with no more
digits behind the point than places as its value in atomic units. -/
def MoneyExact (other : JsString → Except String Int) (config : CnUtil.Coin) : Prop :=
  (∀ amount : Int, CnUtil.parseMoney other config (CnUtil.formatMoney config amount) =
    .ok (.bigInteger amount)) ∧
  ∀ decimal : Decimal, decimal.Fits config.coinUnitPlaces →
    CnUtil.parseMoney other config decimal.text =
      .ok (.bigInteger (decimal.units config.coinUnitPlaces))

theorem parseMoney_formatMoney (other : JsString → Except String Int) (config : CnUtil.Coin)
    (amount : Int) :
    CnUtil.parseMoney other config (CnUtil.formatMoney config amount) =
      .ok (if amount < 0 ∧ ¬ (10 : Int) ^ config.coinUnitPlaces ∣ amount then .negate
        else .bigInteger amount) := by
  obtain ⟨decimal, written, fits, units, minusAndPoint⟩ := formatMoney_eq config amount
  rw [written, parseMoney_text other config fits, units]
  exact congrArg Except.ok (if_congr minusAndPoint rfl rfl)

/-- A number is what is read exactly where the method is not. -/
theorem read_eq_bigInteger_iff (unread : Prop) [Decidable unread] (value : Int) :
    (.ok (if unread then .negate else .bigInteger value) : Except String CnUtil.Parsed) =
      .ok (.bigInteger value) ↔ ¬ unread := by
  by_cases method : unread
  · rw [if_pos method]
    exact iff_of_false (fun same => CnUtil.Parsed.noConfusion (Except.ok.inj same))
      (not_not.mpr method)
  · rw [if_neg method]
    exact iff_of_true rfl method

/-- The amounts that are read back are those that are not negative and those of whole coins,
and the decimal strings that are read those without a minus or without a point. -/
theorem parseMoney_exact_iff (other : JsString → Except String Int) (config : CnUtil.Coin) :
    (∀ amount : Int, CnUtil.parseMoney other config (CnUtil.formatMoney config amount) =
      .ok (.bigInteger amount) ↔ 0 ≤ amount ∨ (10 : Int) ^ config.coinUnitPlaces ∣ amount) ∧
    ∀ decimal : Decimal, decimal.Fits config.coinUnitPlaces →
      (CnUtil.parseMoney other config decimal.text =
        .ok (.bigInteger (decimal.units config.coinUnitPlaces)) ↔ ¬ decimal.MinusAndPoint) := by
  refine ⟨fun amount => ?_, fun decimal fits => ?_⟩
  · rw [parseMoney_formatMoney, read_eq_bigInteger_iff, not_and_or, not_lt, not_not]
  · rw [parseMoney_text other config fits, read_eq_bigInteger_iff]

/-- The coin of the scripts' configuration. -/
def configCoin : CnUtil.Coin := ⟨12, 10 ^ 12, rfl⟩

/-- Half a coin. -/
def halfCoin : Decimal := ⟨.absent, [0], some [5], by decide, by decide⟩

theorem parseMoney_exact_halfCoin :
    CnUtil.parseMoney (fun _ => throw "Invalid BigInteger format") configCoin
        (CnUtil.formatMoney configCoin 500000000000) = .ok (.bigInteger 500000000000) ∧
      CnUtil.parseMoney (fun _ => throw "Invalid BigInteger format") configCoin halfCoin.text =
        .ok (.bigInteger 500000000000) :=
  ⟨((parseMoney_exact_iff _ configCoin).1 500000000000).mpr (.inl (by decide)),
    ((parseMoney_exact_iff _ configCoin).2 halfCoin (show 1 ≤ 12 by decide)).mpr (by decide)⟩

/-- The smallest amount below zero is written as `-0.000000000001`, which is not read. -/
theorem not_moneyExact :
    ¬ MoneyExact (fun _ => throw "Invalid BigInteger format") configCoin := by
  intro exactly
  have read := exactly.1 (-1)
  rw [parseMoney_formatMoney, read_eq_bigInteger_iff] at read
  exact read ⟨by decide, by decide⟩

end LightWallet.Frontend
