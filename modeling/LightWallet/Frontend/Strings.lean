/-
This file models what the wallet's scripts do with strings: numbers read from and
written in hexadecimal digits, and the bytes that a string of such digits stands
for.

A string of the scripts is a list of code units of 16 bits, any such list.
-/

import Mathlib.Data.List.TakeWhile
import LightWallet.Positional
import LightWallet.Blocks

namespace LightWallet.Frontend

/-- A string of the script, in its code units. -/
abbrev JsString := List UInt16

/-- A literal of the scripts. They have ASCII characters only. -/
def JsString.ofString (literal : String) : JsString :=
  literal.toList.map fun character => UInt16.ofNat character.toNat

/-- `string.slice(-count)`. -/
def JsString.sliceLast (string : JsString) (count : Nat) : JsString :=
  string.drop (string.length - count)

/-- The white space that `parseInt` skips. -/
def isWhiteSpace (unit : UInt16) : Bool :=
  (9 ≤ unit && unit ≤ 13) || unit == 32 || unit == 160 || unit == 0x1680 ||
    (0x2000 ≤ unit && unit ≤ 0x200A) || unit == 0x2028 || unit == 0x2029 || unit == 0x202F ||
    unit == 0x205F || unit == 0x3000 || unit == 0xFEFF

/-- What a code unit is worth as a hexadecimal digit. -/
def hexDigit? (unit : UInt16) : Option Nat :=
  if 48 ≤ unit.toNat ∧ unit.toNat ≤ 57 then some (unit.toNat - 48)
  else if 65 ≤ unit.toNat ∧ unit.toNat ≤ 70 then some (unit.toNat - 55)
  else if 97 ≤ unit.toNat ∧ unit.toNat ≤ 102 then some (unit.toNat - 87)
  else none

/-- The lower-case hexadecimal digit of a number below 16. -/
def hexUnit (digit : Nat) : UInt16 :=
  UInt16.ofNat (if digit < 10 then 48 + digit else 87 + digit)

/-- `parseInt(string, 16)`, where nothing stands for `NaN`. -/
def parseInt16 (string : JsString) : Option Int :=
  let trimmed := string.dropWhile isWhiteSpace
  let negative := trimmed.head? = some 45
  let unsigned :=
    if trimmed.head? = some 45 ∨ trimmed.head? = some 43 then trimmed.tail else trimmed
  let digits :=
    if unsigned.head? = some 48 ∧
        (unsigned.tail.head? = some 120 ∨ unsigned.tail.head? = some 88) then unsigned.drop 2
    else unsigned
  let numeral := (digits.takeWhile fun unit => (hexDigit? unit).isSome).filterMap hexDigit?
  if numeral = [] then none
  else if negative then some (-(Positional.value 16 numeral : Int))
  else some (Positional.value 16 numeral : Int)

/-- `number.toString(16)`. -/
def toString16 (number : Nat) : JsString :=
  if number = 0 then [48] else (Nat.digits 16 number).reverse.map hexUnit

/-- A number as a string of decimal digits. -/
def toString10 (number : Nat) : JsString :=
  if number = 0 then [48] else (Nat.digits 10 number).reverse.map hexUnit

/-- What assigning a number to an element of a `Uint8Array` stores, and zero for `NaN`. -/
def toUint8 (number : Option Int) : UInt8 := UInt8.ofNat (number.getD 0 % 256).toNat

/-- `hextobin`. -/
def hextobin (hex : JsString) : Except String (List UInt8) :=
  if hex.length % 2 ≠ 0 then throw "Hex string has invalid length!"
  else pure ((List.range (hex.length / 2)).map fun index =>
    toUint8 (parseInt16 (Blocks.chunk 2 hex index)))

/-- `bintohex`. -/
def bintohex (bin : List UInt8) : JsString :=
  bin.flatMap fun byte => JsString.sliceLast (48 :: toString16 byte.toNat) 2

/-! ### Digits -/

/-- A string of hexadecimal digits. -/
def IsHex (string : JsString) : Prop := ∀ unit ∈ string, (hexDigit? unit).isSome

instance (string : JsString) : Decidable (IsHex string) :=
  List.decidableBAll (fun unit => (hexDigit? unit).isSome = true) string

/-- The lower case of a hexadecimal digit; other characters are not asked for. -/
def lowerCaseUnit (unit : UInt16) : UInt16 :=
  if 65 ≤ unit.toNat ∧ unit.toNat ≤ 90 then UInt16.ofNat (unit.toNat + 32) else unit

/-- A string of hexadecimal digits in lower case. -/
def lowerCase (string : JsString) : JsString := string.map lowerCaseUnit

theorem hexDigit?_lt {unit : UInt16} {digit : Nat} (worth : hexDigit? unit = some digit) :
    digit < 16 := by
  unfold hexDigit? at worth
  split at worth
  · cases worth
    omega
  · split at worth
    · cases worth
      omega
    · split at worth
      · cases worth
        omega
      · cases worth

theorem hexDigit?_hexUnit {digit : Nat} (small : digit < 16) :
    hexDigit? (hexUnit digit) = some digit := by
  revert digit
  decide

theorem hexUnit_hexDigit? {unit : UInt16} {digit : Nat} (worth : hexDigit? unit = some digit) :
    hexUnit digit = lowerCaseUnit unit := by
  have back : UInt16.ofNat unit.toNat = unit := UInt16.ofNat_toNat
  unfold hexDigit? at worth
  unfold hexUnit lowerCaseUnit
  split at worth
  · cases worth
    rw [if_pos (by omega), if_neg (by omega)]
    nth_rewrite 2 [← back]
    congr 1
    omega
  · split at worth
    · cases worth
      rw [if_neg (by omega), if_pos (by omega)]
      congr 1
      omega
    · split at worth
      · cases worth
        rw [if_neg (by omega), if_neg (by omega)]
        nth_rewrite 2 [← back]
        congr 1
        omega
      · cases worth

theorem lowerCaseUnit_hexUnit {digit : Nat} (small : digit < 16) :
    lowerCaseUnit (hexUnit digit) = hexUnit digit :=
  (hexUnit_hexDigit? (hexDigit?_hexUnit small)).symm

/-! ### Reading and writing numbers -/

theorem hexDigit?_isSome_bounds {unit : UInt16} (digit : (hexDigit? unit).isSome) :
    (48 ≤ unit.toNat ∧ unit.toNat ≤ 57) ∨ (65 ≤ unit.toNat ∧ unit.toNat ≤ 70) ∨
      (97 ≤ unit.toNat ∧ unit.toNat ≤ 102) := by
  unfold hexDigit? at digit
  split at digit
  · exact .inl ‹_›
  · split at digit
    · exact .inr (.inl ‹_›)
    · split at digit
      · exact .inr (.inr ‹_›)
      · cases digit

theorem isWhiteSpace_of_hex {unit : UInt16} (digit : (hexDigit? unit).isSome) :
    isWhiteSpace unit = false := by
  have bounds := hexDigit?_isSome_bounds digit
  simp only [isWhiteSpace, Bool.or_eq_false_iff, Bool.and_eq_false_iff, decide_eq_false_iff_not,
    beq_eq_false_iff_ne, ne_eq, UInt16.le_iff_toNat_le, ← UInt16.toNat_inj]
  simp only [UInt16.reduceToNat]
  omega

/-- Digits are all read, and nothing before or behind them is skipped. -/
theorem parseInt16_of_isHex {string : JsString} (hex : IsHex string) (nonempty : string ≠ []) :
    parseInt16 string = some (Positional.value 16 (string.filterMap hexDigit?) : Int) := by
  obtain ⟨first, rest, rfl⟩ := List.exists_cons_of_ne_nil nonempty
  have bounds := hexDigit?_isSome_bounds (hex first List.mem_cons_self)
  have trimmed : (first :: rest).dropWhile isWhiteSpace = first :: rest := by
    rw [List.dropWhile_cons_of_neg]
    rw [isWhiteSpace_of_hex (hex first List.mem_cons_self)]
    exact Bool.false_ne_true
  have noSign : ¬ first = 45 ∧ ¬ first = 43 := by
    constructor <;>
    · rintro rfl
      revert bounds
      decide
  have noMark : ¬ (rest.head? = some 120 ∨ rest.head? = some 88) := by
    cases rest with
    | nil => simp
    | cons second others =>
      have secondBounds := hexDigit?_isSome_bounds (hex second (by simp))
      simp only [List.head?_cons, Option.some.injEq]
      rintro (rfl | rfl) <;>
      · revert secondBounds
        decide
  have all : (first :: rest).takeWhile (fun unit => (hexDigit? unit).isSome) = first :: rest :=
    List.takeWhile_eq_self_iff.mpr hex
  have digits : (first :: rest).filterMap hexDigit? ≠ [] := by
    obtain ⟨digit, worth⟩ := Option.isSome_iff_exists.mp (hex first List.mem_cons_self)
    rw [List.filterMap_cons_some worth]
    exact List.cons_ne_nil _ _
  unfold parseInt16
  simp only [trimmed, List.head?_cons, Option.some.injEq, noSign.1, noSign.2, or_self, if_false,
    List.tail_cons, noMark, and_false, all, if_neg digits]

theorem toString16_eq {width : Nat} (positive : 0 < width) (number : Nat) :
    JsString.sliceLast (List.replicate (width - 1) 48 ++ toString16 number) width =
      (Positional.digits 16 width number).map hexUnit := by
  obtain ⟨zeros, rfl⟩ := Nat.exists_eq_succ_of_ne_zero (Nat.ne_of_gt positive)
  -- The zeros are digits of their own, so that all of it is the number with more digits.
  have padded : List.replicate zeros 48 ++ toString16 number =
      (Positional.digits 16 (zeros + max 1 (Nat.digits 16 number).length) number).map hexUnit := by
    have fits : number < 16 ^ (zeros + max 1 (Nat.digits 16 number).length) :=
      (Nat.digits_length_le_iff (by decide) number).mp (by omega)
    have unit : hexUnit 0 = 48 := by decide
    rw [Positional.digits_eq_append (by decide) fits, List.map_append, List.map_replicate, unit]
    unfold toString16
    by_cases zero : number = 0
    · subst zero
      rw [if_pos rfl, Nat.digits_zero, List.length_nil, List.reverse_nil, List.map_nil,
        List.append_nil, ← List.replicate_succ']
      rfl
    · have digits : 1 ≤ (Nat.digits 16 number).length :=
        List.length_pos_of_ne_nil (Nat.digits_ne_nil_iff_ne_zero.mpr zero)
      rw [if_neg zero, max_eq_right digits, Nat.add_sub_cancel]
  rw [Nat.succ_sub_one, padded, JsString.sliceLast, List.length_map, Positional.length_digits,
    ← List.map_drop]
  have more : zeros + max 1 (Nat.digits 16 number).length =
      (max 1 (Nat.digits 16 number).length - 1) + (zeros + 1) := by omega
  rw [more, Nat.add_sub_cancel, ← Positional.digits_eq_drop]

/-- What is written is read back. -/
theorem isHex_map_hexUnit {digits : List Nat} (small : ∀ digit ∈ digits, digit < 16) :
    IsHex (digits.map hexUnit) := by
  intro unit member
  obtain ⟨digit, present, rfl⟩ := List.mem_map.mp member
  rw [hexDigit?_hexUnit (small digit present)]
  rfl

theorem filterMap_map_hexUnit {digits : List Nat} (small : ∀ digit ∈ digits, digit < 16) :
    (digits.map hexUnit).filterMap hexDigit? = digits := by
  induction digits with
  | nil => rfl
  | cons digit rest inductionHypothesis =>
    rw [List.map_cons, List.filterMap_cons_some (hexDigit?_hexUnit (small digit (by simp))),
      inductionHypothesis fun other member => small other (List.mem_cons_of_mem _ member)]

theorem map_hexUnit_filterMap {string : JsString} (hex : IsHex string) :
    (string.filterMap hexDigit?).map hexUnit = lowerCase string := by
  induction string with
  | nil => rfl
  | cons unit rest inductionHypothesis =>
    obtain ⟨digit, worth⟩ := Option.isSome_iff_exists.mp (hex unit List.mem_cons_self)
    rw [List.filterMap_cons_some worth, List.map_cons, hexUnit_hexDigit? worth,
      inductionHypothesis fun other member => hex other (List.mem_cons_of_mem _ member)]
    rfl

theorem length_filterMap_hexDigit? {string : JsString} (hex : IsHex string) :
    (string.filterMap hexDigit?).length = string.length := by
  rw [← List.length_map hexUnit, map_hexUnit_filterMap hex, lowerCase, List.length_map]

theorem filterMap_hexDigit?_lt (string : JsString) :
    ∀ digit ∈ string.filterMap hexDigit?, digit < 16 := by
  intro digit member
  obtain ⟨unit, _, worth⟩ := List.mem_filterMap.mp member
  exact hexDigit?_lt worth

/-- A number that was read from digits is written with them again, in lower case. -/
theorem digits_value_hex {string : JsString} (hex : IsHex string) :
    (Positional.digits 16 string.length
      (Positional.value 16 (string.filterMap hexDigit?))).map hexUnit = lowerCase string := by
  rw [← length_filterMap_hexDigit? hex, Positional.digits_value (filterMap_hexDigit?_lt string),
    map_hexUnit_filterMap hex]

/-! ### Decimal numbers -/

/-- Numbers are written with the digits that they are read from. -/
theorem toString10_spec (number : Nat) : ∃ digits : List Nat, (∀ digit ∈ digits, digit < 10) ∧
    toString10 number = digits.map hexUnit ∧ Nat.ofDigits 10 digits.reverse = number := by
  unfold toString10
  by_cases zero : number = 0
  · exact ⟨[0], by simp, by rw [if_pos zero]; rfl, zero ▸ rfl⟩
  · refine ⟨(Nat.digits 10 number).reverse, fun digit member => ?_, if_neg zero, ?_⟩
    · exact Nat.digits_lt_base (by decide) (List.mem_reverse.mp member)
    · rw [List.reverse_reverse, Nat.ofDigits_digits]

theorem toString10_inj {first second : Nat} (same : toString10 first = toString10 second) :
    first = second := by
  obtain ⟨digits, small, written, read⟩ := toString10_spec first
  obtain ⟨others, otherSmall, otherWritten, otherRead⟩ := toString10_spec second
  have back := filterMap_map_hexUnit fun digit member => Nat.lt_trans (small digit member)
    (show 10 < 16 by decide)
  have otherBack := filterMap_map_hexUnit fun digit member => Nat.lt_trans
    (otherSmall digit member) (show 10 < 16 by decide)
  rw [← read, ← otherRead, ← back, ← otherBack, ← written, ← otherWritten, same]

/-- There is no colon in a number. -/
theorem colon_notMem_toString10 (number : Nat) : 58 ∉ toString10 number := by
  have other : ∀ digit < 10, hexUnit digit ≠ 58 := by decide
  obtain ⟨digits, small, written, _⟩ := toString10_spec number
  rw [written]
  intro member
  obtain ⟨digit, present, colon⟩ := List.mem_map.mp member
  exact other digit (small digit present) colon

/-! ### Bytes -/

theorem length_of_mem_pairs (bin : List UInt8) :
    ∀ pair ∈ bin.map (fun byte => (Positional.digits 16 2 byte.toNat).map hexUnit),
      pair.length = 2 := by
  intro pair member
  obtain ⟨byte, _, rfl⟩ := List.mem_map.mp member
  rw [List.length_map, Positional.length_digits]

theorem bintohex_eq (bin : List UInt8) :
    bintohex bin =
      (bin.map fun byte => (Positional.digits 16 2 byte.toNat).map hexUnit).flatten := by
  unfold bintohex
  rw [List.flatMap_def]
  congr 1
  exact List.map_congr_left fun byte _ => toString16_eq (show 0 < 2 by decide) byte.toNat

theorem length_bintohex (bin : List UInt8) : (bintohex bin).length = bin.length * 2 := by
  rw [bintohex_eq, Blocks.length_flatten_of_sized (length_of_mem_pairs bin), List.length_map]

theorem hextobin_eq {hex : JsString} (even : hex.length % 2 = 0) :
    hextobin hex = .ok ((Blocks.chunks 2 (hex.length / 2) hex).map
      fun pair => toUint8 (parseInt16 pair)) := by
  unfold hextobin
  rw [if_neg (not_not_intro even), Blocks.chunks, List.map_map]
  rfl

theorem toUint8_ofNat {number : Nat} (small : number < 256) :
    (toUint8 (some (number : Int))).toNat = number := by
  unfold toUint8
  rw [Option.getD_some, UInt8.toNat_ofNat']
  omega

/-- The byte that two digits are read as. -/
theorem toNat_byte {pair : JsString} (hex : IsHex pair) (two : pair.length = 2) :
    (toUint8 (parseInt16 pair)).toNat = Positional.value 16 (pair.filterMap hexDigit?) := by
  have nonempty : pair ≠ [] := fun none => by simp [none] at two
  have bound := Positional.value_lt (by decide) (filterMap_hexDigit?_lt pair)
  rw [length_filterMap_hexDigit? hex, two] at bound
  rw [parseInt16_of_isHex hex nonempty, toUint8_ofNat bound]

/-- Reading the bytes of a string of digits and writing them gives it in lower case. -/
theorem bintohex_of_hextobin {hex : JsString} (digits : IsHex hex) {bin : List UInt8}
    (read : hextobin hex = .ok bin) : bintohex bin = lowerCase hex := by
  have even : hex.length % 2 = 0 := by
    by_contra odd
    unfold hextobin at read
    rw [if_pos odd] at read
    cases read
  have inside : hex.length / 2 * 2 ≤ hex.length := Nat.div_mul_le_self _ _
  have whole : (Blocks.chunks 2 (hex.length / 2) hex).flatten = hex := by
    rw [Blocks.flatten_chunks, List.take_of_length_le (by omega)]
  rw [hextobin_eq even] at read
  cases read
  rw [bintohex_eq, List.map_map]
  have lower : lowerCase hex =
      ((Blocks.chunks 2 (hex.length / 2) hex).map lowerCase).flatten := by
    conv_lhs => rw [← whole]
    exact List.map_flatten
  rw [lower]
  congr 1
  refine List.map_congr_left fun pair member => ?_
  have two := Blocks.length_of_mem_chunks inside member
  have pairHex : IsHex pair := fun unit present =>
    digits unit (whole ▸ List.mem_flatten_of_mem member present)
  rw [Function.comp_apply, toNat_byte pairHex two, ← two]
  exact digits_value_hex pairHex

/-- Bytes that were written are read back. -/
theorem hextobin_bintohex (bin : List UInt8) : hextobin (bintohex bin) = .ok bin := by
  have length := length_bintohex bin
  have count : (bintohex bin).length / 2 = bin.length := by omega
  rw [hextobin_eq (by omega), count]
  have pairs := Blocks.chunks_flatten_append (length_of_mem_pairs bin) []
  rw [List.append_nil, List.length_map, ← bintohex_eq] at pairs
  rw [pairs, List.map_map]
  congr 1
  refine (List.map_congr_left fun byte _ => ?_).trans (List.map_id bin)
  have small : ∀ digit ∈ Positional.digits 16 2 byte.toNat, digit < 16 :=
    fun _ => Positional.digit_lt (by decide)
  have read := toNat_byte (isHex_map_hexUnit small)
    (by rw [List.length_map, Positional.length_digits])
  rw [filterMap_map_hexUnit small,
    Positional.value_digits_of_lt (show byte.toNat < 16 ^ 2 from byte.toNat_lt)] at read
  exact UInt8.toNat_inj.mp read

/-- The digits that bytes are written with are in lower case. -/
theorem isHex_bintohex (bin : List UInt8) : IsHex (bintohex bin) := by
  rw [bintohex_eq]
  intro unit member
  obtain ⟨block, present, inside⟩ := List.mem_flatten.mp member
  obtain ⟨byte, _, rfl⟩ := List.mem_map.mp present
  exact isHex_map_hexUnit (fun _ => Positional.digit_lt (by decide)) unit inside

theorem lowerCase_bintohex (bin : List UInt8) : lowerCase (bintohex bin) = bintohex bin :=
  (bintohex_of_hextobin (isHex_bintohex bin) (hextobin_bintohex bin)).symm

end LightWallet.Frontend
