/-
This file models how the scripts read big integers from strings and write them, and proves
that what is written to any base is read back, and that decimal strings are read as the
integers that they stand for.

To the base of ten, seven digits at a time become a digit of the number. To other bases,
the number is built up by multiplying, and taken apart by dividing.
-/

import LightWallet.Frontend.BigPowers

namespace LightWallet.Frontend.BigInteger

open Limbs (Below)

/-! ### Characters -/

/-- What a character of `[0-9a-z]`, in either case, is worth: `parseInt(character, 36)`. -/
def digit36? (unit : UInt16) : Option Nat :=
  if 48 ≤ unit.toNat ∧ unit.toNat ≤ 57 then some (unit.toNat - 48)
  else if 65 ≤ unit.toNat ∧ unit.toNat ≤ 90 then some (unit.toNat - 55)
  else if 97 ≤ unit.toNat ∧ unit.toNat ≤ 122 then some (unit.toNat - 87)
  else none

/-- `BigInteger.digits[digit]`. -/
def numeral (digit : Nat) : UInt16 := UInt16.ofNat (if digit < 10 then 48 + digit else 55 + digit)

/-- A string of the scripts as the text of an error. -/
def text (string : JsString) : String :=
  String.ofList (string.map fun unit => Char.ofNat unit.toNat)

/-! ### Exponents -/

/-- What follows the pattern `\s*[*xX]\s*10\s*(\^|\*\*)\s*`, where the string begins with it. -/
def afterTimesTen? (string : JsString) : Option JsString :=
  match string.dropWhile isWhiteSpace with
  | [] => none
  | times :: rest =>
    let ten := rest.dropWhile isWhiteSpace
    let power := (ten.drop 2).dropWhile isWhiteSpace
    if (times = 42 ∨ times = 120 ∨ times = 88) ∧ ten.take 2 = [49, 48] then
      if power.head? = some 94 then some ((power.drop 1).dropWhile isWhiteSpace)
      else if power.take 2 = [42, 42] then some ((power.drop 2).dropWhile isWhiteSpace)
      else none
    else none

/-- The first match of the pattern is replaced by an `e`. -/
def replaceTimesTen : JsString → JsString
  | [] => []
  | unit :: rest =>
    (afterTimesTen? (unit :: rest)).elim (unit :: replaceTimesTen rest) (101 :: ·)

/-- A sign, if there is one, and the rest. -/
def splitSign (string : JsString) : JsString × JsString :=
  if string.head? = some 45 ∨ string.head? = some 43 then (string.take 1, string.tail)
  else ([], string)

/-- The groups of `/^([+\-])?(\d+)\.?(\d*)[eE]([+\-]?\d+)$/`. -/
structure Exponential where
  s : JsString
  n : JsString
  f : JsString
  c : Int

/-- The number of a string of decimal digits. -/
def decimalValue (digits : JsString) : Nat :=
  Positional.value 10 (digits.map fun unit => unit.toNat - 48)

/-- The match of the expression for numbers with an exponent. -/
def Exponential.ofString? (string : JsString) : Option Exponential :=
  let (s, unsigned) := splitSign string
  let n := unsigned.takeWhile JSBigInt.isDigit
  let afterN := unsigned.dropWhile JSBigInt.isDigit
  let fraction := if afterN.head? = some 46 then afterN.tail else afterN
  let f := fraction.takeWhile JSBigInt.isDigit
  let afterF := fraction.dropWhile JSBigInt.isDigit
  let (sign, c) := splitSign afterF.tail
  if n ≠ [] ∧ (afterF.head? = some 101 ∨ afterF.head? = some 69) ∧ c ≠ [] ∧
      c.all JSBigInt.isDigit then
    some ⟨s, n, f, if sign = [45] then -(decimalValue c : Int) else decimalValue c⟩
  else none

/-- The digits of an exponential, with a point where some of them are behind it. -/
def Exponential.expand (e : Exponential) : JsString :=
  let l := e.c < 0
  let x := (if l then e.n else e.f).length
  let c := if x ≤ e.c.natAbs then e.c.natAbs - x + (if l then 1 else 0) else 0
  let z := List.replicate c 48
  let r := if l then z ++ (e.n ++ e.f) else e.n ++ e.f ++ z
  let i := (e.n.length + e.c + (if l then z.length else 0 : Nat)).toNat
  e.s ++ r.take i ++ (if i < r.length then 46 :: r.drop i else [])

/-- `expandExponential`. -/
def expandExponential (str : JsString) : JsString :=
  let str := replaceTimesTen str
  match Exponential.ofString? str with
  | some e => e.expand
  | none => str

/-! ### Reading -/

/-- The prefix that is allowed with a base, `0[xcb]` where none is given. -/
def prefixes : Option Nat → List UInt16
  | none => [120, 88, 99, 67, 98, 66]
  | some 16 => [120, 88]
  | some 8 => [99, 67]
  | some 2 => [98, 66]
  | some _ => []

/-- The base that a prefix stands for. -/
def prefixBase (baseSection : JsString) : Nat :=
  match baseSection.getLast? with
  | none => 10
  | some letter =>
    if letter = 120 ∨ letter = 88 then 16 else if letter = 99 ∨ letter = 67 then 8 else 2

/-- The digits of the number for decimal digits, seven at a time from the end. What is pushed last
for no digits at all is not a number. -/
def decimalGroups (digits : List Nat) : List Nat :=
  if bigIntegerBaseLog10 ≤ digits.length then
    Positional.value 10 (digits.drop (digits.length - bigIntegerBaseLog10)) ::
      decimalGroups (digits.take (digits.length - bigIntegerBaseLog10))
  else [Positional.value 10 digits]
termination_by digits.length
decreasing_by
  rw [List.length_take]
  unfold bigIntegerBaseLog10 at *
  omega

/-- The number that digits build up. The number that equals the base is the object of the base. -/
def accumulate (base : Nat) (digits : List Nat) : BigInteger :=
  digits.foldl
    (fun d digit => (multiply (d = small base) d (small base)).add (small digit)) zero

/-- What `parse` does with the digits, leading zeros removed. -/
def ofNumerals (base : Nat) (digits : List Nat) (sign : Int) : BigInteger :=
  if digits = [] then zero
  else if base = 10 then construct (decimalGroups digits) sign
  else construct (accumulate base digits).d sign

/-- `BigInteger.parse(s, base)`. -/
def parse (s : JsString) (base : Option Nat) : Except String BigInteger :=
  let s := if base = none ∨ base = some 10 then expandExponential s else s
  let (signPart, unsigned) := splitSign s
  let baseSection :=
    if unsigned.head? = some 48 ∧ unsigned.tail.head?.any (prefixes base).contains then
      unsigned.take 2
    else []
  let rest := unsigned.drop baseSection.length
  let digits := rest.takeWhile fun unit => (digit36? unit).isSome
  let point := rest.dropWhile fun unit => (digit36? unit).isSome
  if point = [] ∨ (point.head? = some 46 ∧ point.tail.all JSBigInt.isDigit) then
    if base.any fun base => base < 2 || 36 < base then
      throw ("Illegal radix " ++ Nat.repr (base.getD 0) ++ ".")
    else
      let base := base.getD (prefixBase baseSection)
      if digits.all fun unit => (digit36? unit).any (· < base) then
        let digits := digits.dropWhile (· == 48)
        pure (ofNumerals base (digits.filterMap digit36?) (if signPart = [45] then -1 else 1))
      else throw ("Bad digit for radix " ++ Nat.repr base)
  else throw ("Invalid BigInteger format: " ++ text s)

/-! ### Writing -/

/-- What `toString` returns to the base of ten for a number that is not zero. -/
def toDecimal (x : BigInteger) : JsString :=
  (if x.s < 0 then [45] else []) ++
    match x.d.reverse with
    | [] => []
    | highest :: lower =>
      toString10 highest ++
        lower.flatMap fun group => CnUtil.padLeft (toString10 group) bigIntegerBaseLog10 48

/-- `parseInt(this.toString(), 10)`. -/
def valueOf (x : BigInteger) : Int :=
  let (sign, digits) := splitSign (if x.s = 0 then [48] else x.toDecimal)
  let magnitude := ⌊Doubles.nearest (decimalValue digits)⌋
  if sign = [45] then -magnitude else magnitude

/-- The digits of a number to a base, the lowest first, with `none` where the fuel is used up. -/
def numerals (base : BigInteger) : Nat → BigInteger → Except String (Option JsString)
  | 0, _ => .ok none
  | fuel + 1, n =>
    if n.s ≠ 0 then do
      let (n, digit) ← n.divRem base
      let rest ← numerals base fuel n
      .ok (rest.map (numeral digit.valueOf.toNat :: ·))
    else .ok (some [])

/-- `this.toString(base)`. The fuel is more than there are digits to any base. -/
def toString (x : BigInteger) (base : Nat) : Except String (Option JsString) :=
  let base := if base = 0 then 10 else base
  if base < 2 ∨ 36 < base then throw ("illegal radix " ++ Nat.repr base ++ ".")
  else if x.s = 0 then .ok (some [48])
  else if base = 10 then .ok (some x.toDecimal)
  else do
    let digits ← numerals (small base) (24 * x.d.length + 1) x.abs
    .ok (digits.map fun digits => (if x.s < 0 then [45] else []) ++ digits.reverse)

/-! ### Digits -/

theorem digit36?_numeral {digit : Nat} (small : digit < 36) :
    digit36? (numeral digit) = some digit := by
  revert digit
  decide

theorem numeral_eq_hexUnit {digit : Nat} (small : digit < 10) : numeral digit = hexUnit digit := by
  revert digit
  decide

/-- Seven decimal digits at a time make up the digits of the number. -/
theorem decimalGroups_spec {digits : List Nat} (small : ∀ digit ∈ digits, digit < 10) :
    Below bigIntegerBase (decimalGroups digits) ∧
      Nat.ofDigits bigIntegerBase (decimalGroups digits) = Positional.value 10 digits := by
  fun_induction decimalGroups with
  | case1 digits long inductionHypothesis =>
    obtain ⟨below, value⟩ := inductionHypothesis fun digit member =>
      small digit (List.mem_of_mem_take member)
    have length : (digits.drop (digits.length - bigIntegerBaseLog10)).length =
        bigIntegerBaseLog10 := by
      rw [List.length_drop]
      omega
    have group := Positional.value_lt (by decide : 1 < 10) fun digit member =>
      small digit (List.mem_of_mem_drop (i := digits.length - bigIntegerBaseLog10) member)
    rw [length] at group
    refine ⟨Limbs.below_cons.mpr ⟨group, below⟩, ?_⟩
    have whole := Positional.value_append 10 (digits.take (digits.length - bigIntegerBaseLog10))
      (digits.drop (digits.length - bigIntegerBaseLog10))
    rw [List.take_append_drop, length] at whole
    rw [Nat.ofDigits_cons, value, whole, Nat.add_comm, Nat.mul_comm]
    rfl
  | case2 digits short =>
    have group := Positional.value_lt (by decide : 1 < 10) small
    have room : 10 ^ digits.length ≤ 10 ^ bigIntegerBaseLog10 :=
      Nat.pow_le_pow_right (by decide) (Nat.le_of_not_le short)
    refine ⟨Limbs.below_cons.mpr ⟨group.trans_le room, Limbs.below_nil⟩, ?_⟩
    rw [Nat.ofDigits_singleton]

/-- Multiplying and adding builds up the number of the digits. -/
theorem foldl_accumulate {base : Nat} (small : base ≤ 36) {digits : List Nat}
    (below : ∀ digit ∈ digits, digit < base) (front : Nat) :
    digits.foldl (fun d digit =>
        (multiply (d = BigInteger.small base) d (BigInteger.small base)).add
          (BigInteger.small digit)) (ofInt front) =
      ofInt ((front * base ^ digits.length + Positional.value base digits : Nat) : Int) := by
  have baseIs : BigInteger.small base = ofInt base := small_eq (small.trans_lt (by decide))
  induction digits generalizing front with
  | nil => rw [List.foldl_nil, List.length_nil, pow_zero, Nat.mul_one, Positional.value_nil,
      Nat.add_zero]
  | cons digit rest inductionHypothesis =>
    have digitBelow := below digit List.mem_cons_self
    have digitIs : BigInteger.small digit = ofInt digit :=
      small_eq ((digitBelow.trans_le small).trans (by decide))
    have identical : decide (ofInt (front : Int) = ofInt (base : Int)) = true →
        (front : Int) = base := fun same => ofInt_injective (of_decide_eq_true same)
    rw [List.foldl_cons, baseIs, digitIs, multiply_ofInt _ _ _ identical, add_ofInt,
      ← Nat.cast_mul, ← Nat.cast_add, ← baseIs,
      inductionHypothesis (fun other member => below other (List.mem_cons_of_mem _ member)),
      Positional.value_cons, List.length_cons]
    congr 2
    ring

/-- The digits are read as the number that they stand for. -/
theorem ofNumerals_eq {base : Nat} (small : base ≤ 36) {digits : List Nat}
    (below : ∀ digit ∈ digits, digit < base) {sign : Int} (isSign : IsSign sign) :
    ofNumerals base digits sign = ofInt (sign * (Positional.value base digits : Nat)) := by
  unfold ofNumerals
  split
  · next none => rw [none, Positional.value_nil, Nat.cast_zero, Int.mul_zero, ofInt_zero]
  · split
    · next ten =>
      rw [ten] at below ⊢
      obtain ⟨groupsBelow, value⟩ := decimalGroups_spec below
      rw [construct_eq groupsBelow isSign, value]
    · have whole := foldl_accumulate small below 0
      rw [Nat.zero_mul, Nat.zero_add, Nat.cast_zero, ofInt_zero] at whole
      unfold accumulate
      rw [whole, construct_ofInt _ isSign, Int.natAbs_natCast]

/-! ### No exponent -/

theorem afterTimesTen?_eq_none {string : JsString}
    (without : ∀ unit ∈ string, unit ≠ 42 ∧ unit ≠ 120 ∧ unit ≠ 88) :
    afterTimesTen? string = none := by
  unfold afterTimesTen?
  split
  · rfl
  · next times rest split =>
    have member : times ∈ string :=
      (List.dropWhile_suffix isWhiteSpace).subset (split ▸ List.mem_cons_self)
    obtain ⟨star, x, upperX⟩ := without times member
    dsimp only
    rw [if_neg fun pattern => ?_]
    rcases pattern.1 with isStar | isX | isUpperX
    · exact star isStar
    · exact x isX
    · exact upperX isUpperX

theorem replaceTimesTen_eq {string : JsString}
    (without : ∀ unit ∈ string, unit ≠ 42 ∧ unit ≠ 120 ∧ unit ≠ 88) :
    replaceTimesTen string = string := by
  induction string with
  | nil => rfl
  | cons unit rest inductionHypothesis =>
    have nowhere := afterTimesTen?_eq_none without
    have kept := inductionHypothesis fun other member =>
      without other (List.mem_cons_of_mem _ member)
    rw [replaceTimesTen, nowhere, Option.elim_none, kept]

theorem splitSign_subset (string : JsString) : (splitSign string).2 ⊆ string := by
  unfold splitSign
  split
  · exact List.tail_subset string
  · exact List.Subset.refl _

theorem ofString?_eq_none {string : JsString} (lower : (101 : UInt16) ∉ string)
    (upper : (69 : UInt16) ∉ string) : Exponential.ofString? string = none := by
  have dropped (list : JsString) : list.dropWhile JSBigInt.isDigit ⊆ list :=
    (List.dropWhile_suffix JSBigInt.isDigit).subset
  have fraction : (if ((splitSign string).2.dropWhile JSBigInt.isDigit).head? = some 46 then
      ((splitSign string).2.dropWhile JSBigInt.isDigit).tail
      else (splitSign string).2.dropWhile JSBigInt.isDigit) ⊆ string := by
    have afterN := List.Subset.trans (dropped _) (splitSign_subset string)
    split
    · exact List.Subset.trans (List.tail_subset _) afterN
    · exact afterN
  have afterF := List.Subset.trans (dropped _) fraction
  unfold Exponential.ofString?
  dsimp only
  rw [if_neg]
  rintro ⟨_, isLower | isUpper, _⟩
  · exact lower (afterF (List.mem_of_head? isLower))
  · exact upper (afterF (List.mem_of_head? isUpper))

/-- A string without letters and stars is left as it is. -/
theorem expandExponential_eq {string : JsString} (without : ∀ unit ∈ string,
    unit ≠ 42 ∧ unit ≠ 120 ∧ unit ≠ 88 ∧ unit ≠ 101 ∧ unit ≠ 69) :
    expandExponential string = string := by
  have same := replaceTimesTen_eq fun unit member =>
    ⟨(without unit member).1, (without unit member).2.1, (without unit member).2.2.1⟩
  have none := ofString?_eq_none (fun member => (without _ member).2.2.2.1 rfl)
    (fun member => (without _ member).2.2.2.2 rfl)
  unfold expandExponential
  rw [same]
  dsimp only
  rw [none]

/-! ### Reading -/

/-- The sign of a number that is read. -/
def signOf (sign : Sign) : Int := if sign = .minus then -1 else 1

theorem isSign_signOf (sign : Sign) : IsSign (signOf sign) := by
  cases sign with
  | absent => exact .inl rfl
  | plus => exact .inl rfl
  | minus => exact .inr rfl

theorem splitSign_text (sign : Sign) {rest : JsString} (noMinus : rest.head? ≠ some 45)
    (noPlus : rest.head? ≠ some 43) : splitSign (sign.text ++ rest) = (sign.text, rest) := by
  unfold splitSign
  cases sign with
  | absent => exact if_neg (not_or.mpr ⟨noMinus, noPlus⟩)
  | plus => exact if_pos (.inr rfl)
  | minus => exact if_pos (.inl rfl)

theorem prefixes_subset (base : Option Nat) : prefixes base ⊆ prefixes none := by
  unfold prefixes
  split <;> decide

/-- The letters of a prefix are no digits to the base that goes with it. -/
theorem digit_of_prefix {base : Option Nat} {radix : Nat}
    (radixIs : base = some radix ∨ base = none ∧ radix = 10) {unit : UInt16}
    (member : unit ∈ prefixes base) {digit : Nat} (worth : digit36? unit = some digit) :
    radix ≤ digit := by
  have letters : [(none, 10), (some 16, 16), (some 8, 8), (some 2, 2)].all (fun pair =>
      (prefixes pair.1).all fun letter => (digit36? letter).all (pair.2 ≤ ·)) = true := by
    decide
  have atLeast {pair : Option Nat × Nat}
      (known : pair ∈ [(none, 10), (some 16, 16), (some 8, 8), (some 2, 2)])
      (isPrefix : unit ∈ prefixes pair.1) : pair.2 ≤ digit := by
    have large := List.all_eq_true.mp (List.all_eq_true.mp letters pair known) unit isPrefix
    rw [worth] at large
    exact of_decide_eq_true large
  rcases radixIs with rfl | ⟨rfl, rfl⟩
  · by_cases special : radix = 16 ∨ radix = 8 ∨ radix = 2
    · refine @atLeast (some radix, radix) ?_ member
      rcases special with rfl | rfl | rfl <;> decide
    · have nothing : prefixes (some radix) = [] := by
        unfold prefixes
        split <;> simp_all
      rw [nothing] at member
      cases member
  · exact @atLeast (none, 10) (by decide) member

/-- A point and digits behind it, or nothing. -/
def IsPoint (point : JsString) : Prop :=
  point = [] ∨ (point.head? = some 46 ∧ point.tail.all JSBigInt.isDigit = true)

theorem mem_point {point : JsString} (isPoint : IsPoint point) {unit : UInt16}
    (member : unit ∈ point) : unit = 46 ∨ JSBigInt.isDigit unit = true := by
  rcases isPoint with rfl | ⟨head, tail⟩
  · cases member
  · obtain ⟨rest, rfl⟩ := List.head?_eq_some_iff.mp head
    rcases List.mem_cons.mp member with isFirst | behind
    · exact .inl isFirst
    · exact .inr (List.all_eq_true.mp tail unit behind)

theorem digit36?_of_isDigit {unit : UInt16} (digit : JSBigInt.isDigit unit = true) :
    digit36? unit = some (unit.toNat - 48) := by
  unfold JSBigInt.isDigit at digit
  rw [Bool.and_eq_true, decide_eq_true_iff, decide_eq_true_iff] at digit
  exact if_pos digit

theorem notMem_prefixes_of_point {point : JsString} (isPoint : IsPoint point) {unit : UInt16}
    (member : unit ∈ point) (base : Option Nat) : unit ∉ prefixes base := by
  intro isPrefix
  have letter := prefixes_subset base isPrefix
  rcases mem_point isPoint member with rfl | digit
  · exact absurd letter (by decide)
  · have worth := digit36?_of_isDigit digit
    have large := digit_of_prefix (.inr ⟨rfl, rfl⟩) letter worth
    unfold JSBigInt.isDigit at digit
    rw [Bool.and_eq_true, decide_eq_true_iff, decide_eq_true_iff] at digit
    omega

section Parts

variable {base : Option Nat} {radix : Nat} {sign : Sign} {units point : JsString}

/-- No prefix is found where the digits are those of the base. -/
theorem unprefixed (radixIs : base = some radix ∨ base = none ∧ radix = 10)
    (digits : ∀ unit ∈ units, (digit36? unit).any (· < radix) = true) (isPoint : IsPoint point) :
    ¬((units ++ point).head? = some 48 ∧
      (units ++ point).tail.head?.any (prefixes base).contains = true) := by
  rintro ⟨_, isPrefix⟩
  obtain ⟨unit, second, contained⟩ := (Option.any_eq_true _ _).mp isPrefix
  have letter : unit ∈ prefixes base := List.contains_iff_mem.mp contained
  rcases List.mem_append.mp (List.mem_of_mem_tail (List.mem_of_head? second)) with inUnits | inPoint
  · obtain ⟨digit, worth, small⟩ := (Option.any_eq_true _ _).mp (digits unit inUnits)
    have large := digit_of_prefix radixIs letter worth
    exact absurd (of_decide_eq_true small) (Nat.not_lt.mpr large)
  · exact notMem_prefixes_of_point isPoint inPoint base letter

theorem head?_parts (digits : ∀ unit ∈ units, (digit36? unit).any (· < radix) = true)
    (isPoint : IsPoint point) {other : UInt16} (noDigit : digit36? other = none)
    (noPoint : other ≠ 46) : (units ++ point).head? ≠ some other := by
  intro first
  rcases List.mem_append.mp (List.mem_of_head? first) with inUnits | inPoint
  · have digit := digits other inUnits
    rw [noDigit] at digit
    cases digit
  · rcases mem_point isPoint inPoint with isPoint | digit
    · exact noPoint isPoint
    · rw [digit36?_of_isDigit digit] at noDigit
      cases noDigit

/-- Leading zeros are worth nothing. -/
theorem value_filterMap_dropWhile
    (digits : ∀ unit ∈ units, (digit36? unit).any (· < radix) = true) :
    Positional.value radix ((units.dropWhile (· == 48)).filterMap digit36?) =
      Positional.value radix (units.filterMap digit36?) := by
  induction units with
  | nil => rfl
  | cons unit rest inductionHypothesis =>
    rw [List.dropWhile_cons]
    split
    · next isZero =>
      have worth : digit36? 48 = some 0 := by decide
      rw [inductionHypothesis fun other member => digits other (List.mem_cons_of_mem _ member),
        beq_iff_eq.mp isZero, List.filterMap_cons_some worth, Positional.value_cons, Nat.zero_mul,
        Nat.zero_add]
    · rfl

/-- Digits after a sign, and a point with digits that are dropped. -/
theorem parse_parts (kept : (if base = none ∨ base = some 10 then
      expandExponential (sign.text ++ (units ++ point)) else sign.text ++ (units ++ point)) =
        sign.text ++ (units ++ point))
    (radixIs : base = some radix ∨ base = none ∧ radix = 10) (large : 2 ≤ radix)
    (small : radix ≤ 36) (digits : ∀ unit ∈ units, (digit36? unit).any (· < radix) = true)
    (isPoint : IsPoint point) :
    parse (sign.text ++ (units ++ point)) base =
      .ok (ofInt (signOf sign * (Positional.value radix (units.filterMap digit36?) : Nat))) := by
  have signed : splitSign (sign.text ++ (units ++ point)) = (sign.text, units ++ point) :=
    splitSign_text sign (head?_parts digits isPoint (by decide) (by decide))
      (head?_parts digits isPoint (by decide) (by decide))
  have alphanumeric : ∀ unit ∈ units, (digit36? unit).isSome = true := fun unit member => by
    obtain ⟨digit, worth, _⟩ := (Option.any_eq_true _ _).mp (digits unit member)
    rw [worth]
    rfl
  have nothing : point.takeWhile (fun unit => (digit36? unit).isSome) = [] ∧
      point.dropWhile (fun unit => (digit36? unit).isSome) = point := by
    rcases isPoint with rfl | ⟨head, _⟩
    · exact ⟨rfl, rfl⟩
    · obtain ⟨rest, rfl⟩ := List.head?_eq_some_iff.mp head
      exact ⟨List.takeWhile_cons_of_neg (by decide), List.dropWhile_cons_of_neg (by decide)⟩
  have taken := @List.takeWhile_append_of_pos _ _ units point alphanumeric
  have dropped := @List.dropWhile_append_of_pos _ _ units point alphanumeric
  rw [nothing.1, List.append_nil] at taken
  rw [nothing.2] at dropped
  have legal : ¬(base.any fun base => base < 2 || 36 < base) = true := by
    rcases radixIs with rfl | ⟨rfl, _⟩
    · simp only [Option.any_some, Bool.or_eq_true, decide_eq_true_eq]
      omega
    · decide
  have chosen : base.getD (prefixBase []) = radix := by
    rcases radixIs with rfl | ⟨rfl, rfl⟩ <;> rfl
  have signIs : (if sign.text = [45] then -1 else 1 : Int) = signOf sign := by
    cases sign <;> rfl
  have below : ∀ digit ∈ (units.dropWhile (· == 48)).filterMap digit36?, digit < radix := by
    intro digit member
    obtain ⟨unit, inUnits, worth⟩ := List.mem_filterMap.mp member
    have small := digits unit ((List.dropWhile_suffix _).subset inUnits)
    rw [worth] at small
    exact of_decide_eq_true small
  have pointIs : point = [] ∨ (point.head? = some 46 ∧ point.tail.all JSBigInt.isDigit = true) :=
    isPoint
  unfold parse
  rw [kept]
  dsimp only
  rw [signed]
  dsimp only
  rw [if_neg (unprefixed radixIs digits isPoint), List.length_nil, List.drop_zero, taken, dropped,
    if_pos pointIs, if_neg legal, chosen, if_pos (List.all_eq_true.mpr digits), signIs,
    ofNumerals_eq small below (isSign_signOf sign), value_filterMap_dropWhile digits]
  rfl

end Parts

/-- Decimal digits with a sign and a point contain no exponent. -/
theorem expandExponential_decimal {sign : Sign} {units point : JsString}
    (digits : ∀ unit ∈ units, JSBigInt.isDigit unit = true) (isPoint : IsPoint point) :
    expandExponential (sign.text ++ (units ++ point)) = sign.text ++ (units ++ point) := by
  have harmless (unit : UInt16) (digit : JSBigInt.isDigit unit = true) :
      unit ≠ 42 ∧ unit ≠ 120 ∧ unit ≠ 88 ∧ unit ≠ 101 ∧ unit ≠ 69 := by
    refine ⟨?_, ?_, ?_, ?_, ?_⟩ <;>
      exact fun same => absurd (same ▸ digit) (by decide)
  have signs : ∀ unit ∈ sign.text,
      unit ≠ 42 ∧ unit ≠ 120 ∧ unit ≠ 88 ∧ unit ≠ 101 ∧ unit ≠ 69 := by
    intro unit member
    cases sign with
    | absent => cases member
    | plus =>
      rw [List.mem_singleton.mp member]
      decide
    | minus =>
      rw [List.mem_singleton.mp member]
      decide
  refine expandExponential_eq fun unit member => ?_
  rcases List.mem_append.mp member with inSign | member
  · exact signs unit inSign
  rcases List.mem_append.mp member with inUnits | inPoint
  · exact harmless unit (digits unit inUnits)
  · rcases mem_point isPoint inPoint with rfl | digit
    · decide
    · exact harmless unit digit

theorem isDigit_of_digit36? {unit : UInt16} {digit : Nat} (worth : digit36? unit = some digit)
    (small : digit < 10) : JSBigInt.isDigit unit = true := by
  unfold digit36? at worth
  unfold JSBigInt.isDigit
  rw [Bool.and_eq_true, decide_eq_true_iff, decide_eq_true_iff]
  split at worth
  · assumption
  · split at worth
    · cases worth
      omega
    · split at worth
      · cases worth
        omega
      · cases worth

/-! ### Writing -/

/-- The digits of a number to a base, the highest first. -/
def written (base : Nat) (x : Int) : JsString :=
  if x = 0 then [48]
  else (if x < 0 then [45] else []) ++ (Nat.digits base x.natAbs).reverse.map numeral

theorem map_numeral_spec {base : Nat} (small : base ≤ 36) {digits : List Nat}
    (below : ∀ digit ∈ digits, digit < base) :
    (∀ unit ∈ digits.map numeral, (digit36? unit).any (· < base) = true) ∧
      (digits.map numeral).filterMap digit36? = digits := by
  constructor
  · intro unit member
    obtain ⟨digit, present, rfl⟩ := List.mem_map.mp member
    rw [digit36?_numeral ((below digit present).trans_le small)]
    exact decide_eq_true (below digit present)
  · rw [List.filterMap_map]
    refine (List.filterMap_congr fun digit member => ?_).trans List.filterMap_some
    exact digit36?_numeral ((below digit member).trans_le small)

/-- What is written is a sign and digits of the number. -/
theorem written_eq {base : Nat} (large : 2 ≤ base) (x : Int) :
    ∃ sign : Sign, ∃ digits : List Nat, written base x = sign.text ++ digits.map numeral ∧
      (∀ digit ∈ digits, digit < base) ∧
      signOf sign * (Positional.value base digits : Nat) = x ∧ (sign = .minus ↔ x < 0) := by
  unfold written
  by_cases isZero : x = 0
  · refine ⟨.absent, [0], if_pos isZero, ?_, ?_, ?_⟩
    · intro digit member
      rw [List.mem_singleton.mp member]
      omega
    · rw [isZero]
      rfl
    · exact iff_of_false (by decide) (by omega)
  rw [if_neg isZero]
  have below : ∀ digit ∈ (Nat.digits base x.natAbs).reverse, digit < base := fun digit member =>
    Nat.digits_lt_base large (List.mem_reverse.mp member)
  have value : Positional.value base (Nat.digits base x.natAbs).reverse = x.natAbs := by
    unfold Positional.value
    rw [List.reverse_reverse, Nat.ofDigits_digits]
  by_cases negative : x < 0
  · refine ⟨.minus, _, by rw [if_pos negative]; rfl, below, ?_, iff_of_true rfl negative⟩
    rw [value, Int.ofNat_natAbs_of_nonpos negative.le]
    exact (neg_one_mul (-x)).trans (neg_neg x)
  · refine ⟨.absent, _, by rw [if_neg negative]; rfl, below, ?_,
      iff_of_false (by decide) negative⟩
    rw [value, Int.natAbs_of_nonneg (not_lt.mp negative)]
    exact one_mul x

/-- What is written to a base is read back, without the base if it is ten. -/
theorem parse_written {base : Nat} (large : 2 ≤ base) (small : base ≤ 36) (x : Int)
    {given : Option Nat} (allowed : given = some base ∨ given = none ∧ base = 10) :
    parse (written base x) given = .ok (ofInt x) := by
  obtain ⟨sign, digits, isWritten, below, value, _⟩ := written_eq large x
  obtain ⟨isDigits, worth⟩ := map_numeral_spec small below
  have isPoint : IsPoint [] := .inl rfl
  rw [isWritten, ← List.append_nil (digits.map numeral)]
  rw [parse_parts ?_ allowed large small isDigits isPoint, worth, value]
  split
  · next decimal =>
    refine expandExponential_decimal (fun unit member => ?_) isPoint
    have ten : base = 10 := by
      rcases allowed with rfl | ⟨_, same⟩
      · simpa using decimal
      · exact same
    obtain ⟨digit, isDigit, less⟩ := (Option.any_eq_true _ _).mp (isDigits unit member)
    exact isDigit_of_digit36? isDigit (ten ▸ of_decide_eq_true less)
  · rfl

/-- A group is written with seven digits. -/
theorem padLeft_toString10 {group : Nat} (small : group < bigIntegerBase) :
    CnUtil.padLeft (toString10 group) bigIntegerBaseLog10 48 =
      (Positional.digits 10 bigIntegerBaseLog10 group).map hexUnit := by
  have base : bigIntegerBase = 10 ^ bigIntegerBaseLog10 := by decide
  rw [padLeft_eq, Positional.digits_eq_append (by decide) (base ▸ small), toString10]
  split
  · next isZero =>
    rw [isZero]
    decide
  · rw [List.length_map, List.length_reverse, List.map_append, List.map_replicate]
    rfl

/-- Groups of seven digits behind others make up the number to the larger base. -/
theorem value_groups {groups : List Nat} (below : Below bigIntegerBase groups)
    (front : List Nat) :
    Positional.value 10 (front ++ groups.flatMap (Positional.digits 10 bigIntegerBaseLog10)) =
      Positional.value 10 front * bigIntegerBase ^ groups.length +
        Nat.ofDigits bigIntegerBase groups.reverse := by
  have base : bigIntegerBase = 10 ^ bigIntegerBaseLog10 := by decide
  induction groups generalizing front with
  | nil => rw [List.flatMap_nil, List.append_nil, List.length_nil, pow_zero, Nat.mul_one,
      List.reverse_nil, Nat.ofDigits_nil, Nat.add_zero]
  | cons group rest inductionHypothesis =>
    obtain ⟨groupBelow, restBelow⟩ := Limbs.below_cons.mp below
    rw [List.flatMap_cons, ← List.append_assoc, inductionHypothesis restBelow,
      Positional.value_append, Positional.value_digits_of_lt (base ▸ groupBelow),
      Positional.length_digits, ← base, Limbs.ofDigits_reverse_cons, List.length_cons]
    ring

/-- The digits of the number, seven at a time, are the decimal ones. -/
theorem toDecimal_ofInt {x : Int} (some : x ≠ 0) : (ofInt x).toDecimal = written 10 x := by
  have below := below_ofInt x
  have value : Nat.ofDigits bigIntegerBase (ofInt x).d = x.natAbs := ofDigits_ofInt x
  have trimmed := trimmed_ofInt x
  unfold toDecimal written
  rw [if_neg some, ofInt_s]
  have sign : (if x.sign < 0 then [45] else [] : JsString) = if x < 0 then [45] else [] := by
    by_cases negative : x < 0
    · rw [if_pos negative, if_pos (Int.sign_neg_iff.mpr negative)]
    · rw [if_neg negative, if_neg (mt Int.sign_neg_iff.mp negative)]
  rw [sign]
  congr 1
  have reversed : Below bigIntegerBase (ofInt x).d.reverse := fun limb member =>
    below limb (List.mem_reverse.mp member)
  have last := @List.getLast?_eq_head?_reverse _ (ofInt x).d
  rw [← List.reverse_reverse (ofInt x).d] at value
  match groups : (ofInt x).d.reverse with
  | [] => exact absurd (List.reverse_eq_nil_iff.mp groups) (mt (ofInt_d_eq_nil x).mp some)
  | highest :: lower =>
    rw [groups] at reversed value last
    obtain ⟨highestBelow, lowerBelow⟩ := Limbs.below_cons.mp reversed
    have nonzero : highest ≠ 0 := by
      have nonempty := mt (ofInt_d_eq_nil x).mp some
      rw [List.getLast?_eq_some_getLast nonempty] at last
      exact Option.some.inj last ▸ trimmed nonempty
    have small : ∀ digit ∈ (Nat.digits 10 highest).reverse ++
        lower.flatMap (Positional.digits 10 bigIntegerBaseLog10), digit < 10 := by
      intro digit member
      rcases List.mem_append.mp member with first | later
      · exact Nat.digits_lt_base (by decide) (List.mem_reverse.mp first)
      · obtain ⟨group, _, inGroup⟩ := List.mem_flatMap.mp later
        exact Positional.digit_lt (by decide) inGroup
    have whole : Positional.value 10 ((Nat.digits 10 highest).reverse ++
        lower.flatMap (Positional.digits 10 bigIntegerBaseLog10)) = x.natAbs := by
      rw [value_groups lowerBelow, ← value, Limbs.ofDigits_reverse_cons, Positional.value,
        List.reverse_reverse, Nat.ofDigits_digits, Nat.mul_comm]
    have digits : (Nat.digits 10 x.natAbs).reverse = (Nat.digits 10 highest).reverse ++
        lower.flatMap (Positional.digits 10 bigIntegerBaseLog10) := by
      rw [← whole, Positional.value, Nat.digits_ofDigits 10 (by decide), List.reverse_reverse]
      · exact fun digit member => small digit (List.mem_reverse.mp member)
      · intro nonempty
        have first : (Nat.digits 10 highest).reverse ≠ [] :=
          List.reverse_ne_nil_iff.mpr (Nat.digits_ne_nil_iff_ne_zero.mpr nonzero)
        rw [List.getLast_reverse, List.head_append_of_ne_nil first, List.head_reverse]
        exact Nat.getLast_digit_ne_zero 10 nonzero
    have grouped : lower.flatMap (fun group =>
        CnUtil.padLeft (toString10 group) bigIntegerBaseLog10 48) =
          (lower.flatMap (Positional.digits 10 bigIntegerBaseLog10)).map hexUnit := by
      rw [List.map_flatMap]
      exact List.flatMap_congr fun group member => padLeft_toString10 (lowerBelow group member)
    have units : (Nat.digits 10 x.natAbs).reverse.map numeral =
        (Nat.digits 10 x.natAbs).reverse.map hexUnit :=
      List.map_congr_left fun digit member =>
        numeral_eq_hexUnit (Nat.digits_lt_base (by decide) (List.mem_reverse.mp member))
    have highestText : toString10 highest = (Nat.digits 10 highest).reverse.map hexUnit := by
      unfold toString10
      rw [if_neg nonzero]
    rw [units, digits, List.map_append, ← grouped, ← highestText]

/-- A number of 53 bits is converted to the double that it is. -/
theorem valueOf_ofInt {x : Int} (small : x.natAbs < 2 ^ 53) : (ofInt x).valueOf = x := by
  obtain ⟨sign, digits, isWritten, below, value, isMinus⟩ := written_eq (by decide : 2 ≤ 10) x
  have units : digits.map numeral = digits.map hexUnit :=
    List.map_congr_left fun digit member => numeral_eq_hexUnit (below digit member)
  have decimal : (if (ofInt x).s = 0 then [48] else (ofInt x).toDecimal) = written 10 x := by
    by_cases isZero : x = 0
    · rw [if_pos ((ofInt_s_eq_zero x).mpr isZero), written, if_pos isZero]
    · rw [if_neg (mt (ofInt_s_eq_zero x).mp isZero), toDecimal_ofInt isZero]
  have signed : splitSign (sign.text ++ digits.map hexUnit) = (sign.text, digits.map hexUnit) :=
    splitSign_text sign (head?_digits_ne below (by decide)) (head?_digits_ne below (by decide))
  have magnitude : decimalValue (digits.map hexUnit) = Positional.value 10 digits := by
    unfold decimalValue
    rw [map_worth_hexUnit below]
  unfold valueOf
  rw [decimal, isWritten, units, signed]
  dsimp only
  have exact : Positional.value 10 digits = x.natAbs := by
    rw [← value, Int.natAbs_mul, Int.natAbs_natCast]
    cases sign <;> simp [signOf]
  rw [magnitude, exact, Doubles.nearest_natCast small, Int.floor_natCast]
  by_cases negative : x < 0
  · rw [isMinus.mpr negative, if_pos (by rfl), Int.ofNat_natAbs_of_nonpos negative.le, neg_neg]
  · have noMinus : sign.text ≠ [45] := fun same => negative (isMinus.mp (by
      cases sign with
      | minus => rfl
      | absent => cases same
      | plus => exact absurd same (by decide)))
    rw [if_neg noMinus, Int.natAbs_of_nonneg (not_lt.mp negative)]

theorem numerals_ofInt {base : Nat} (large : 2 ≤ base) (small : base ≤ 36) {fuel number : Nat}
    (enough : number < base ^ fuel) :
    numerals (ofInt base) (fuel + 1) (ofInt number) =
      .ok (some ((Nat.digits base number).map numeral)) := by
  induction fuel generalizing number with
  | zero =>
    have none : number = 0 := by
      rw [pow_zero] at enough
      omega
    rw [none, Nat.digits_zero, numerals, if_neg (by decide)]
    rfl
  | succ fuel inductionHypothesis =>
    by_cases isZero : number = 0
    · rw [isZero, Nat.digits_zero, numerals, if_neg (by decide)]
      rfl
    · have positive : 0 < base := by omega
      have quotientLess : number / base < base ^ fuel := by
        rw [Nat.div_lt_iff_lt_mul positive, ← Nat.pow_succ]
        exact enough
      have remainderLess : number % base < base := Nat.mod_lt _ positive
      have parts : (ofInt (number : Int)).divRem (ofInt (base : Int)) =
          .ok (ofInt ((number / base : Nat) : Int), ofInt ((number % base : Nat) : Int)) := by
        rw [divRem_ofInt, if_neg (by omega), Int.natCast_ediv, Int.natCast_emod,
          Int.tdiv_eq_ediv_of_nonneg (by omega), Int.tmod_eq_emod_of_nonneg (by omega)]
      have digit : (ofInt ((number % base : Nat) : Int)).valueOf = ((number % base : Nat) : Int) :=
        valueOf_ofInt (by rw [Int.natAbs_natCast]; omega)
      have next := inductionHypothesis quotientLess
      have some : (ofInt (number : Int)).s ≠ 0 :=
        mt (ofInt_s_eq_zero number).mp (by omega)
      rw [numerals, if_pos some, parts]
      show (numerals (ofInt base) (fuel + 1) (ofInt ((number / base : Nat) : Int)) >>= _) = _
      rw [next]
      show Except.ok (Option.some (numeral _ :: _)) = _
      rw [digit, Int.toNat_natCast, Nat.digits_def' large (Nat.pos_of_ne_zero isZero),
        List.map_cons]

/-- To any base, the digits of the integer are written. -/
theorem toString_ofInt (x : Int) {base : Nat} (large : 2 ≤ base) (small : base ≤ 36) :
    (ofInt x).toString base = .ok (some (written base x)) := by
  have legal : ¬(base < 2 ∨ 36 < base) := by omega
  have given : ¬base = 0 := by omega
  unfold toString
  rw [if_neg given, if_neg legal]
  by_cases isZero : x = 0
  · rw [if_pos ((ofInt_s_eq_zero x).mpr isZero), written, if_pos isZero]
  rw [if_neg (mt (ofInt_s_eq_zero x).mp isZero)]
  by_cases ten : base = 10
  · rw [if_pos ten, toDecimal_ofInt isZero, ten]
  have baseIs : BigInteger.small base = ofInt base := small_eq (small.trans_lt (by decide))
  have enough : x.natAbs < base ^ (24 * (ofInt x).d.length) :=
    calc x.natAbs < bigIntegerBase ^ (ofInt x).d.length :=
          Nat.lt_base_pow_length_digits BigInteger.large
      _ ≤ (2 ^ 24) ^ (ofInt x).d.length := Nat.pow_le_pow_left (by decide) _
      _ = 2 ^ (24 * (ofInt x).d.length) := (Nat.pow_mul 2 24 _).symm
      _ ≤ base ^ (24 * (ofInt x).d.length) := Nat.pow_le_pow_left large _
  rw [if_neg ten, baseIs, abs_ofInt, numerals_ofInt large small enough, written, if_neg isZero,
    ofInt_s]
  show Except.ok (some (_ ++ (List.map numeral (Nat.digits base x.natAbs)).reverse)) = _
  rw [List.map_reverse]
  congr 3
  by_cases negative : x < 0
  · rw [if_pos negative, if_pos (Int.sign_neg_iff.mpr negative)]
  · rw [if_neg negative, if_neg (mt Int.sign_neg_iff.mp negative)]

/-! ### Decimal strings -/

/-- The integer of a number. -/
def toInt (x : BigInteger) : Int := x.s * (Nat.ofDigits bigIntegerBase x.d : Nat)

theorem toInt_ofInt (x : Int) : (ofInt x).toInt = x := by
  unfold toInt
  rw [ofInt_s, ofDigits_ofInt, Int.sign_mul_natAbs]

theorem isSign_ite (negative : Prop) [Decidable negative] :
    IsSign (if negative then -1 else 1) := by
  split
  · exact .inr rfl
  · exact .inl rfl

theorem prefixBase_le (baseSection : JsString) : prefixBase baseSection ≤ 16 := by
  unfold prefixBase
  split
  · decide
  · split
    · decide
    · split <;> decide

/-- What is read is the number of an integer. -/
theorem parse_isInt {string : JsString} {base : Option Nat} {x : BigInteger}
    (read : parse string base = .ok x) : ∃ number, x = ofInt number := by
  unfold parse at read
  rcases ite_eq_iff.mp read with ⟨_, read⟩ | ⟨_, read⟩
  · rcases ite_eq_iff.mp read with ⟨_, read⟩ | ⟨legal, read⟩
    · cases read
    · rcases ite_eq_iff.mp read with ⟨digits, read⟩ | ⟨_, read⟩
      · refine ⟨_, (Except.ok.inj read).symm.trans (ofNumerals_eq ?_ ?_ ?_)⟩
        · cases base with
          | none => exact (prefixBase_le _).trans (by decide)
          | some given =>
            simp only [Option.any_some, Bool.or_eq_true, decide_eq_true_eq] at legal
            exact Nat.not_lt.mp fun larger => legal (.inr larger)
        · intro digit member
          obtain ⟨unit, inUnits, worth⟩ := List.mem_filterMap.mp member
          have less := List.all_eq_true.mp digits unit ((List.dropWhile_suffix _).subset inUnits)
          rw [worth] at less
          exact of_decide_eq_true less
        · exact isSign_ite _
      · cases read
  · cases read

/-- A number is written in decimal digits as the model of amounts has it. -/
theorem written_ten (x : Int) : written 10 x = JSBigInt.toString x := by
  unfold written JSBigInt.toString toString10
  by_cases isZero : x = 0
  · rw [if_pos isZero, isZero, if_neg (by decide), if_pos (by decide)]
  · have units : (Nat.digits 10 x.natAbs).reverse.map numeral =
        (Nat.digits 10 x.natAbs).reverse.map hexUnit :=
      List.map_congr_left fun digit member =>
        numeral_eq_hexUnit (Nat.digits_lt_base (by decide) (List.mem_reverse.mp member))
    rw [if_neg isZero, if_neg (Int.natAbs_ne_zero.mpr isZero), units]
    split <;> rfl

theorem filterMap_decimal {units : JsString}
    (digits : ∀ unit ∈ units, JSBigInt.isDigit unit = true) :
    (∀ unit ∈ units, (digit36? unit).any (· < 10) = true) ∧
      units.filterMap digit36? = units.map fun unit => unit.toNat - 48 := by
  constructor
  · intro unit member
    have digit := digits unit member
    rw [digit36?_of_isDigit digit, Option.any_some, decide_eq_true_iff]
    unfold JSBigInt.isDigit at digit
    rw [Bool.and_eq_true, decide_eq_true_iff, decide_eq_true_iff] at digit
    omega
  · rw [← List.filterMap_eq_map]
    exact List.filterMap_congr fun unit member => digit36?_of_isDigit (digits unit member)

/-- The sign that a string begins with. -/
theorem exists_sign (string : JsString) : ∃ sign : Sign,
    string = sign.text ++ (if string.head? = some 45 ∨ string.head? = some 43 then string.tail
      else string) ∧ (sign = .minus ↔ string.head? = some 45) := by
  by_cases minus : string.head? = some 45
  · obtain ⟨rest, same⟩ := List.head?_eq_some_iff.mp minus
    rw [if_pos (.inl minus), same]
    exact ⟨.minus, rfl, iff_of_true rfl rfl⟩
  · by_cases plus : string.head? = some 43
    · obtain ⟨rest, same⟩ := List.head?_eq_some_iff.mp plus
      rw [if_pos (.inr plus), same]
      exact ⟨.plus, rfl, iff_of_false (by decide) fun isMinus =>
        absurd (Option.some.inj isMinus) (by decide)⟩
    · rw [if_neg (not_or.mpr ⟨minus, plus⟩)]
      exact ⟨.absent, rfl, iff_of_false (by decide) minus⟩

/-- Strings are read as the model of amounts has it, where the strings that it leaves open are read
as `parse` does. -/
theorem parse_refines (string : JsString) :
    parse string none =
      (JSBigInt.parse (fun other => (parse other none).map toInt) string).map ofInt := by
  obtain ⟨sign, isSigned, isMinus⟩ := exists_sign string
  unfold JSBigInt.parse
  dsimp only
  generalize (if string.head? = some 45 ∨ string.head? = some 43 then string.tail else string) =
    unsigned at isSigned ⊢
  split
  · next isPoint =>
    obtain ⟨small, worth⟩ := filterMap_decimal fun unit member =>
      List.mem_takeWhile_imp (p := JSBigInt.isDigit) (l := unsigned) member
    have digits : ∀ unit ∈ unsigned.takeWhile JSBigInt.isDigit, JSBigInt.isDigit unit = true :=
      fun unit member => List.mem_takeWhile_imp member
    have parts := List.takeWhile_append_dropWhile (p := JSBigInt.isDigit) (l := unsigned)
    have kept : expandExponential (sign.text ++ (unsigned.takeWhile JSBigInt.isDigit ++
        unsigned.dropWhile JSBigInt.isDigit)) = sign.text ++ (unsigned.takeWhile JSBigInt.isDigit ++
          unsigned.dropWhile JSBigInt.isDigit) := expandExponential_decimal digits isPoint
    have whole := parse_parts ((if_pos (.inl rfl)).trans kept) (.inr ⟨rfl, rfl⟩) (by decide)
      (by decide) small isPoint
    rw [parts, ← isSigned, worth] at whole
    rw [whole]
    refine congrArg (fun number => Except.ok (ofInt number)) ?_
    by_cases negative : string.head? = some 45
    · rw [if_pos negative, isMinus.mpr negative]
      exact neg_one_mul _
    · rw [if_neg negative, signOf, if_neg (mt isMinus.mp negative), one_mul]
  · match read : parse string none with
    | .error _ => rfl
    | .ok x =>
      obtain ⟨number, rfl⟩ := parse_isInt read
      show _ = Except.ok (ofInt (toInt (ofInt number)))
      rw [toInt_ofInt]

/-- To every base that is allowed, a number is written and read back, and without a base if it is
ten. A decimal string is read as the integer that it stands for. -/
theorem strings_refine :
    (∀ (x : Int) (base : Nat), 2 ≤ base → base ≤ 36 → ∃ string,
      (ofInt x).toString base = .ok (some string) ∧
        parse string (some base) = .ok (ofInt x) ∧
        (base = 10 → parse string none = .ok (ofInt x) ∧ string = JSBigInt.toString x)) ∧
    (∀ string, parse string none =
      (JSBigInt.parse (fun other => (parse other none).map toInt) string).map ofInt) := by
  refine ⟨fun x base large small => ⟨written base x, toString_ofInt x large small,
    parse_written large small x (.inl rfl),
    fun ten => ⟨parse_written large small x (.inr ⟨rfl, ten⟩), ?_⟩⟩, parse_refines⟩
  rw [ten, written_ten]

end LightWallet.Frontend.BigInteger
