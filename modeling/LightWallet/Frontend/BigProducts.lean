/-
This file models how the scripts multiply big integers and proves that the result is the
integers' product.

The longer number is multiplied by one digit of the shorter one after the other. A number
that is multiplied by itself is squared: the products of two different digits are counted
twice, and the carry of a row is left in the next digit, which exceeds the base until the
next row comes to it.
-/

import LightWallet.Frontend.BigInteger

namespace LightWallet.Frontend.BigInteger

open Limbs (Below LowBelow Trimmed)

/-! ### Multiplying -/

/-- One digit of the shorter number times the longer one, added to what there is. -/
def multiplyRow (bi : Nat) : List Nat → List Nat → Nat → List Nat
  | [], _, _ => []
  | partialDigit :: rest, [], carry =>
    if carry = 0 then partialDigit :: rest
    else Doubles.add partialDigit carry % bigIntegerBase :: rest
  | partialDigit :: rest, a :: as, carry =>
    let digit := Doubles.add (Doubles.add partialDigit (Doubles.mul bi a)) carry
    digit % bigIntegerBase :: multiplyRow bi rest as (carryOf digit)

/-- The rows of all digits of the shorter number, each one place higher than the last. -/
def multiplyRows : List Nat → List Nat → List Nat → List Nat
  | [], _, partialDigits => partialDigits
  | bi :: bs, a, partialDigits =>
    match multiplyRow bi partialDigits a 0 with
    | [] => []
    | low :: rest => low :: multiplyRows bs a rest

/-- The squares of the digits, each at its two places. -/
def squareDiagonal : List Nat → List Nat
  | [] => []
  | digit :: rest =>
    let product := Doubles.mul digit digit
    product % bigIntegerBase :: carryOf product :: squareDiagonal rest

/-- The carry of a row is added to the next digit as it is; behind the last one it is lost. -/
def addToFirst (carry : Nat) : List Nat → List Nat
  | [] => []
  | digit :: rest => Doubles.add digit carry :: rest

/-- One digit times the higher ones, twice, added to what there is. -/
def squareRow (di : Nat) : List Nat → List Nat → Nat → List Nat
  | _, [], _ => []
  | [], imult :: rest, carry =>
    let digit := Doubles.add carry imult
    digit % bigIntegerBase :: addToFirst (carryOf digit) rest
  | dj :: ds, imult :: rest, carry =>
    let product :=
      Doubles.add (Doubles.add (Doubles.mul (Doubles.mul dj di) 2) imult) carry
    product % bigIntegerBase :: squareRow di ds rest (carryOf product)

/-- The rows of all digits, each two places higher than the last. -/
def squareRows : List Nat → List Nat → List Nat
  | di :: ds, low :: rest =>
    match squareRow di ds rest 0 with
    | [] => [low]
    | next :: rest => low :: next :: squareRows ds rest
  | _, imult => imult

/-- `square`. -/
def square (x : BigInteger) : BigInteger :=
  if x.s = 0 then zero
  else if x.isUnit then one
  else construct (squareRows x.d (squareDiagonal x.d)) 1

/-- `x.multiply(n)`. A number that is multiplied by itself, the same object, is squared. -/
def multiply (same : Bool) (x n : BigInteger) : BigInteger :=
  if x.s = 0 then zero
  else if n.s = 0 then zero
  else if x.isUnit then (if x.s < 0 then n.negate else n)
  else if n.isUnit then (if n.s < 0 then x.negate else x)
  else if same then x.square
  else
    let (a, b) := if n.d.length ≤ x.d.length then (x.d, n.d) else (n.d, x.d)
    construct (multiplyRows b a (List.replicate (a.length + b.length) 0)) (x.s * n.s)

/-- The digits times a number of a few digits. -/
def scaleDigits (n : Nat) : List Nat → Nat → List Nat
  | [], carry => [carry]
  | a :: as, carry =>
    let digit := Doubles.add (Doubles.mul n a) carry
    digit % bigIntegerBase :: scaleDigits n as (carryOf digit)

/-- `multiplySingleDigit`. -/
def multiplySingleDigit (x : BigInteger) (n : Nat) : BigInteger :=
  if n = 0 ∨ x.s = 0 then zero
  else if n = 1 then x
  else
    match x.d with
    | [single] =>
      let digit := Doubles.mul single n
      if bigIntegerBase ≤ digit then construct [digit % bigIntegerBase, carryOf digit] 1
      else construct [digit] 1
    | _ =>
      if n = 2 then x.add x
      else if x.isUnit then construct [n] 1
      else construct (scaleDigits n x.d 0) 1

/-! ### Rows -/

/-- A row adds the digit's multiple of the number, and fills one place more. -/
theorem multiplyRow_spec {bi : Nat} (digit : bi < bigIntegerBase) {low a : List Nat}
    (below : Below bigIntegerBase low) (aBelow : Below bigIntegerBase a)
    (same : low.length = a.length) (zeros : List Nat) {carry : Nat}
    (small : carry < bigIntegerBase) :
    ∃ row, multiplyRow bi (low ++ 0 :: zeros) a carry = row ++ zeros ∧
      row.length = a.length + 1 ∧ Below bigIntegerBase row ∧
      Nat.ofDigits bigIntegerBase row =
        Nat.ofDigits bigIntegerBase low + bi * Nat.ofDigits bigIntegerBase a + carry := by
  induction a generalizing low carry with
  | nil =>
    rw [List.eq_nil_of_length_eq_zero same]
    refine ⟨[carry], ?_, rfl, Limbs.below_cons.mpr ⟨small, Limbs.below_nil⟩, ?_⟩
    · rw [List.nil_append, multiplyRow]
      split
      · next isZero =>
        rw [isZero]
        rfl
      · have fits : 0 + carry < 2 ^ 53 := by
          unfold bigIntegerBase at small
          omega
        rw [Doubles.add_eq fits, Nat.zero_add, Nat.mod_eq_of_lt small]
        rfl
    · rw [Nat.ofDigits_singleton, Nat.ofDigits_nil, Nat.mul_zero, Nat.zero_add]
  | cons head tail inductionHypothesis =>
    match low with
    | [] => cases same
    | first :: rest =>
      obtain ⟨firstBelow, restBelow⟩ := Limbs.below_cons.mp below
      obtain ⟨headBelow, tailBelow⟩ := Limbs.below_cons.mp aBelow
      have product : bi * head ≤ (bigIntegerBase - 1) * (bigIntegerBase - 1) :=
        Nat.mul_le_mul (Nat.le_sub_one_of_lt digit) (Nat.le_sub_one_of_lt headBelow)
      have bounded : first + bi * head + carry < bigIntegerBase * bigIntegerBase := by
        unfold bigIntegerBase at firstBelow small product ⊢
        omega
      have fits : first + bi * head + carry < 2 ^ 53 :=
        bounded.trans (by decide)
      have next : (first + bi * head + carry) / bigIntegerBase < bigIntegerBase :=
        Nat.div_lt_of_lt_mul bounded
      obtain ⟨row, isRow, length, rowBelow, sum⟩ := inductionHypothesis restBelow tailBelow
        (Nat.succ.inj same) next
      have partFits : first + bi * head < 2 ^ 53 := (Nat.le_add_right _ carry).trans_lt fits
      rw [List.cons_append, multiplyRow,
        Doubles.mul_eq ((Nat.le_add_left _ first).trans_lt partFits), Doubles.add_eq partFits,
        Doubles.add_eq fits]
      rw [carryOf_eq fits, isRow]
      refine ⟨(first + bi * head + carry) % bigIntegerBase :: row, rfl,
        congrArg Nat.succ length, Limbs.below_cons.mpr ⟨Nat.mod_lt _ (by decide), rowBelow⟩, ?_⟩
      rw [Nat.ofDigits_cons, Nat.ofDigits_cons, Nat.ofDigits_cons, sum]
      have parts := Nat.mod_add_div (first + bi * head + carry) bigIntegerBase
      calc _ = ((first + bi * head + carry) % bigIntegerBase +
              bigIntegerBase * ((first + bi * head + carry) / bigIntegerBase)) +
            bigIntegerBase * Nat.ofDigits bigIntegerBase rest +
            bigIntegerBase * (bi * Nat.ofDigits bigIntegerBase tail) := by ring
        _ = _ := by
          rw [parts]
          ring

/-- The rows add the product of the numbers. -/
theorem multiplyRows_spec {b a : List Nat} (bBelow : Below bigIntegerBase b)
    (aBelow : Below bigIntegerBase a) {low : List Nat} (below : Below bigIntegerBase low)
    (same : low.length = a.length) :
    Below bigIntegerBase (multiplyRows b a (low ++ List.replicate b.length 0)) ∧
      Nat.ofDigits bigIntegerBase (multiplyRows b a (low ++ List.replicate b.length 0)) =
        Nat.ofDigits bigIntegerBase low +
          Nat.ofDigits bigIntegerBase b * Nat.ofDigits bigIntegerBase a := by
  induction b generalizing low with
  | nil =>
    rw [List.length_nil, List.replicate_zero, List.append_nil, multiplyRows, Nat.ofDigits_nil,
      Nat.zero_mul, Nat.add_zero]
    exact ⟨below, rfl⟩
  | cons bi bs inductionHypothesis =>
    obtain ⟨digit, bsBelow⟩ := Limbs.below_cons.mp bBelow
    obtain ⟨row, isRow, length, rowBelow, sum⟩ := multiplyRow_spec digit below aBelow same
      (List.replicate bs.length 0) (Nat.lt_trans Nat.zero_lt_one large)
    match row with
    | [] => cases length
    | lowest :: rest =>
      obtain ⟨lowestBelow, restBelow⟩ := Limbs.below_cons.mp rowBelow
      obtain ⟨higherBelow, higher⟩ := inductionHypothesis bsBelow restBelow (Nat.succ.inj length)
      rw [List.length_cons, List.replicate_succ, multiplyRows, isRow, List.cons_append]
      dsimp only
      refine ⟨Limbs.below_cons.mpr ⟨lowestBelow, higherBelow⟩, ?_⟩
      rw [Nat.ofDigits_cons] at sum
      rw [Nat.ofDigits_cons, higher, Nat.ofDigits_cons]
      calc _ = (lowest + bigIntegerBase * Nat.ofDigits bigIntegerBase rest) +
            bigIntegerBase * (Nat.ofDigits bigIntegerBase bs * Nat.ofDigits bigIntegerBase a) := by
            ring
        _ = _ := by
          rw [sum]
          ring

/-! ### Squaring -/

theorem squareDiagonal_spec {digits : List Nat} (below : Below bigIntegerBase digits) :
    Below bigIntegerBase (squareDiagonal digits) ∧
      (squareDiagonal digits).length = 2 * digits.length := by
  induction digits with
  | nil => exact ⟨Limbs.below_nil, rfl⟩
  | cons digit rest inductionHypothesis =>
    obtain ⟨digitBelow, restBelow⟩ := Limbs.below_cons.mp below
    obtain ⟨higherBelow, higher⟩ := inductionHypothesis restBelow
    have bounded : digit * digit < bigIntegerBase * bigIntegerBase :=
      Nat.mul_lt_mul'' digitBelow digitBelow
    have fits : digit * digit < 2 ^ 53 := bounded.trans (by decide)
    rw [squareDiagonal, Doubles.mul_eq fits]
    rw [carryOf_eq fits]
    refine ⟨Limbs.below_cons.mpr ⟨Nat.mod_lt _ (by decide),
      Limbs.below_cons.mpr ⟨Nat.div_lt_of_lt_mul bounded, higherBelow⟩⟩, ?_⟩
    rw [List.length_cons, List.length_cons, List.length_cons, higher]
    omega

/-- The products of the digits with the higher ones, twice, at their places. -/
def crossTerms : List Nat → Nat
  | [] => 0
  | di :: ds =>
    bigIntegerBase * (2 * di * Nat.ofDigits bigIntegerBase ds) + bigIntegerBase ^ 2 * crossTerms ds

/-- The diagonal and the products beside it make up the square. -/
theorem diagonal_add_crossTerms {digits : List Nat} (below : Below bigIntegerBase digits) :
    Nat.ofDigits bigIntegerBase (squareDiagonal digits) + crossTerms digits =
      Nat.ofDigits bigIntegerBase digits ^ 2 := by
  induction digits with
  | nil => rfl
  | cons digit rest inductionHypothesis =>
    obtain ⟨digitBelow, restBelow⟩ := Limbs.below_cons.mp below
    have bounded : digit * digit < bigIntegerBase * bigIntegerBase :=
      Nat.mul_lt_mul'' digitBelow digitBelow
    have fits : digit * digit < 2 ^ 53 := bounded.trans (by decide)
    have parts := Nat.mod_add_div (digit * digit) bigIntegerBase
    rw [squareDiagonal, Doubles.mul_eq fits]
    rw [carryOf_eq fits, Nat.ofDigits_cons, Nat.ofDigits_cons, Nat.ofDigits_cons, crossTerms]
    calc _ = (digit * digit % bigIntegerBase + bigIntegerBase * (digit * digit / bigIntegerBase)) +
          bigIntegerBase ^ 2 *
            (Nat.ofDigits bigIntegerBase (squareDiagonal rest) + crossTerms rest) +
          bigIntegerBase * (2 * digit * Nat.ofDigits bigIntegerBase rest) := by ring
      _ = _ := by
        rw [parts, inductionHypothesis restBelow]
        ring

/-- A row leaves digits below the base and hands a carry of at most three to the next place,
which keeps what it adds to a digit small enough for the next row. -/
theorem squareRow_spec {di : Nat} (digit : di < bigIntegerBase) {ds mids : List Nat} {top : Nat}
    (dsBelow : Below bigIntegerBase ds) (midsBelow : Below bigIntegerBase mids)
    (topSmall : top ≤ bigIntegerBase + 2) (same : mids.length = ds.length) (high : List Nat)
    {carry : Nat} (small : carry < 2 * bigIntegerBase) :
    ∃ row lost, squareRow di ds (mids ++ top :: high) carry = row ++ addToFirst lost high ∧
      row.length = ds.length + 1 ∧ Below bigIntegerBase row ∧ lost ≤ 3 ∧
      Nat.ofDigits bigIntegerBase row + bigIntegerBase ^ (ds.length + 1) * lost =
        Nat.ofDigits bigIntegerBase (mids ++ [top]) + 2 * di * Nat.ofDigits bigIntegerBase ds +
          carry := by
  induction ds generalizing mids carry with
  | nil =>
    rw [List.eq_nil_of_length_eq_zero same]
    have fits : carry + top < 2 ^ 53 := by
      unfold bigIntegerBase at small topSmall
      omega
    refine ⟨[(carry + top) % bigIntegerBase], (carry + top) / bigIntegerBase, ?_, rfl,
      Limbs.below_cons.mpr ⟨Nat.mod_lt _ (by decide), Limbs.below_nil⟩, ?_, ?_⟩
    · rw [List.nil_append, squareRow, Doubles.add_eq fits]
      rw [carryOf_eq fits]
      rfl
    · unfold bigIntegerBase at small topSmall ⊢
      omega
    · have parts := Nat.mod_add_div (carry + top) bigIntegerBase
      rw [Nat.ofDigits_singleton, List.nil_append, Nat.ofDigits_singleton, Nat.ofDigits_nil,
        List.length_nil, Nat.zero_add, pow_one, Nat.mul_zero, Nat.add_zero, parts, Nat.add_comm]
  | cons dj ds inductionHypothesis =>
    match mids with
    | [] => cases same
    | imult :: rest =>
      obtain ⟨djBelow, dsBelow⟩ := Limbs.below_cons.mp dsBelow
      obtain ⟨imultBelow, restBelow⟩ := Limbs.below_cons.mp midsBelow
      have product : dj * di ≤ (bigIntegerBase - 1) * (bigIntegerBase - 1) :=
        Nat.mul_le_mul (Nat.le_sub_one_of_lt djBelow) (Nat.le_sub_one_of_lt digit)
      have bounded : dj * di * 2 + imult + carry < bigIntegerBase * (2 * bigIntegerBase) := by
        unfold bigIntegerBase at imultBelow small product ⊢
        omega
      have fits : dj * di * 2 + imult + carry < 2 ^ 53 := bounded.trans (by decide)
      have next : (dj * di * 2 + imult + carry) / bigIntegerBase < 2 * bigIntegerBase :=
        Nat.div_lt_of_lt_mul bounded
      obtain ⟨row, lost, isRow, length, rowBelow, lostSmall, sum⟩ :=
        inductionHypothesis dsBelow restBelow (Nat.succ.inj same) next
      refine ⟨(dj * di * 2 + imult + carry) % bigIntegerBase :: row, lost, ?_,
        congrArg Nat.succ length, Limbs.below_cons.mpr ⟨Nat.mod_lt _ (by decide), rowBelow⟩,
        lostSmall, ?_⟩
      · have twice : dj * di * 2 < 2 ^ 53 := by omega
        rw [List.cons_append, squareRow, Doubles.mul_eq (by omega : dj * di < 2 ^ 53),
          Doubles.mul_eq twice, Doubles.add_eq (by omega : dj * di * 2 + imult < 2 ^ 53),
          Doubles.add_eq fits, carryOf_eq fits, isRow]
        rfl
      · have parts := Nat.mod_add_div (dj * di * 2 + imult + carry) bigIntegerBase
        rw [List.cons_append, Nat.ofDigits_cons, Nat.ofDigits_cons, Nat.ofDigits_cons,
          List.length_cons]
        calc _ = (dj * di * 2 + imult + carry) % bigIntegerBase + bigIntegerBase *
              (Nat.ofDigits bigIntegerBase row + bigIntegerBase ^ (ds.length + 1) * lost) := by
              ring
          _ = ((dj * di * 2 + imult + carry) % bigIntegerBase +
              bigIntegerBase * ((dj * di * 2 + imult + carry) / bigIntegerBase)) +
              bigIntegerBase * Nat.ofDigits bigIntegerBase (rest ++ [top]) +
              bigIntegerBase * (2 * di * Nat.ofDigits bigIntegerBase ds) := by
              rw [sum]
              ring
          _ = _ := by
              rw [parts]
              ring

/-- All rows together add the products beside the diagonal. Nothing is lost that would count: only
a carry behind the last place is. -/
theorem squareRows_spec {digits mids high : List Nat} {top : Nat}
    (below : Below bigIntegerBase digits) (midsBelow : Below bigIntegerBase mids)
    (topSmall : top ≤ bigIntegerBase + 2) (highBelow : Below bigIntegerBase high)
    (same : mids.length = digits.length) (rest : high.length + 1 = digits.length) :
    Below bigIntegerBase (squareRows digits (mids ++ top :: high)) ∧
      (squareRows digits (mids ++ top :: high)).length = 2 * digits.length ∧
      ∃ lost, Nat.ofDigits bigIntegerBase (squareRows digits (mids ++ top :: high)) +
          bigIntegerBase ^ (2 * digits.length) * lost =
        Nat.ofDigits bigIntegerBase (mids ++ top :: high) + crossTerms digits := by
  induction digits generalizing mids high top with
  | nil => cases rest
  | cons di ds inductionHypothesis =>
    match mids with
    | [] => cases same
    | low :: mids =>
      obtain ⟨digit, dsBelow⟩ := Limbs.below_cons.mp below
      obtain ⟨lowBelow, midsBelow⟩ := Limbs.below_cons.mp midsBelow
      obtain ⟨row, carry, isRow, length, rowBelow, small, sum⟩ := squareRow_spec digit dsBelow
        midsBelow topSmall (Nat.succ.inj same) high (by decide : 0 < 2 * bigIntegerBase)
      match row with
      | [] => cases length
      | next :: row =>
        obtain ⟨nextBelow, rowBelow⟩ := Limbs.below_cons.mp rowBelow
        have rowLength : row.length = ds.length := Nat.succ.inj length
        have unfolded : squareRows (di :: ds) (low :: mids ++ top :: high) =
            low :: next :: squareRows ds (row ++ addToFirst carry high) := by
          rw [List.cons_append, squareRows, isRow, List.cons_append]
        have whole : Nat.ofDigits bigIntegerBase (low :: mids ++ top :: high) = low +
            bigIntegerBase * (Nat.ofDigits bigIntegerBase (mids ++ [top]) +
              bigIntegerBase ^ (ds.length + 1) * Nat.ofDigits bigIntegerBase high) := by
          rw [List.cons_append, Nat.ofDigits_cons, ← List.singleton_append,
            ← List.append_assoc, Nat.ofDigits_append, List.length_append, Nat.succ.inj same]
          rfl
        rw [unfolded, whole, Nat.ofDigits_cons, Nat.ofDigits_cons, crossTerms]
        rw [Nat.ofDigits_cons] at sum
        cases ds with
        | nil =>
          rw [List.eq_nil_of_length_eq_zero (Nat.succ.inj rest)]
          rw [List.eq_nil_of_length_eq_zero rowLength]
          refine ⟨Limbs.below_cons.mpr ⟨lowBelow, Limbs.below_cons.mpr ⟨nextBelow,
            Limbs.below_nil⟩⟩, rfl, carry, ?_⟩
          rw [List.eq_nil_of_length_eq_zero rowLength] at sum
          simp only [addToFirst, List.append_nil, squareRows, Nat.ofDigits_nil, List.length_nil,
            List.length_cons, crossTerms] at sum ⊢
          calc _ = low + bigIntegerBase * (next + bigIntegerBase * 0 +
                bigIntegerBase ^ (0 + 1) * carry) := by ring
            _ = _ := by
              rw [sum]
              ring
        | cons dj ds =>
          obtain ⟨first, higher, rfl⟩ :=
            List.exists_cons_of_length_eq_add_one (Nat.succ.inj rest)
          obtain ⟨firstBelow, higherBelow⟩ := Limbs.below_cons.mp highBelow
          have firstSmall : first + carry ≤ bigIntegerBase + 2 := by
            unfold bigIntegerBase at firstBelow ⊢
            omega
          have exact : Doubles.add first carry = first + carry := by
            refine Doubles.add_eq (firstSmall.trans_lt ?_)
            unfold bigIntegerBase
            omega
          obtain ⟨restBelow, restLength, lost, restSum⟩ := inductionHypothesis dsBelow rowBelow
            firstSmall higherBelow rowLength (Nat.succ.inj rest)
          rw [addToFirst, exact]
          refine ⟨Limbs.below_cons.mpr ⟨lowBelow, Limbs.below_cons.mpr ⟨nextBelow, restBelow⟩⟩,
            ?_, lost, ?_⟩
          · simp only [List.length_cons] at restLength ⊢
            omega
          · have placed : Nat.ofDigits bigIntegerBase (row ++ (first + carry) :: higher) =
                Nat.ofDigits bigIntegerBase row + bigIntegerBase ^ (ds.length + 1) *
                  (carry + Nat.ofDigits bigIntegerBase (first :: higher)) := by
              rw [Nat.ofDigits_append, Nat.ofDigits_cons, Nat.ofDigits_cons, rowLength,
                List.length_cons]
              ring
            rw [placed] at restSum
            rw [List.length_cons] at sum restSum ⊢
            rw [List.length_cons]
            calc _ = low + bigIntegerBase * next + bigIntegerBase ^ 2 *
                  (Nat.ofDigits bigIntegerBase
                      (squareRows (dj :: ds) (row ++ (first + carry) :: higher)) +
                    bigIntegerBase ^ (2 * (ds.length + 1)) * lost) := by ring
              _ = low + bigIntegerBase * (next + bigIntegerBase *
                    Nat.ofDigits bigIntegerBase row +
                    bigIntegerBase ^ (ds.length + 1 + 1) * carry) +
                  bigIntegerBase ^ (ds.length + 3) *
                    Nat.ofDigits bigIntegerBase (first :: higher) +
                  bigIntegerBase ^ 2 * crossTerms (dj :: ds) := by
                  rw [restSum]
                  ring
              _ = _ := by
                  rw [sum]
                  ring

section Products

variable (x y : Int)

theorem isSign_mul {first second : Int} (isSign : IsSign first) (otherSign : IsSign second) :
    IsSign (first * second) := by
  rcases isSign with rfl | rfl
  · rwa [one_mul]
  · rw [neg_one_mul]
    exact otherSign.neg

theorem square_ofInt : (ofInt x).square = ofInt (x * x) := by
  unfold square
  by_cases isZero : x = 0
  · rw [if_pos ((ofInt_s_eq_zero x).mpr isZero), isZero, ← ofInt_zero, Int.mul_zero]
  rw [if_neg (mt (ofInt_s_eq_zero x).mp isZero)]
  have magnitude : x * x = ((x.natAbs ^ 2 : Nat) : Int) := by
    rw [Nat.cast_pow, Int.natCast_natAbs, sq_abs, sq]
  by_cases isOne : x.natAbs = 1
  · rw [if_pos ((isUnit_ofInt x).mpr isOne), magnitude, isOne, ← ofInt_one]
    rfl
  rw [if_neg (mt (isUnit_ofInt x).mp isOne)]
  have below := below_ofInt x
  have digits : Nat.ofDigits bigIntegerBase (ofInt x).d = x.natAbs := ofDigits_ofInt x
  have nonempty := mt (ofInt_d_eq_nil x).mp isZero
  generalize (ofInt x).d = d at below digits nonempty ⊢
  obtain ⟨diagonalBelow, length⟩ := squareDiagonal_spec below
  have some : d.length < (squareDiagonal d).length := by
    have positive := List.length_pos_iff.mpr nonempty
    omega
  have split : squareDiagonal d = (squareDiagonal d).take d.length ++
      (squareDiagonal d)[d.length] :: (squareDiagonal d).drop (d.length + 1) := by
    rw [List.cons_getElem_drop_succ, List.take_append_drop]
  have parts := split ▸ diagonalBelow
  obtain ⟨frontBelow, backBelow⟩ := Limbs.below_append.mp parts
  obtain ⟨middleBelow, highBelow⟩ := Limbs.below_cons.mp backBelow
  obtain ⟨resultBelow, resultLength, lost, sum⟩ := squareRows_spec below frontBelow
    (middleBelow.le.trans (Nat.le_add_right _ 2)) highBelow
    (by rw [List.length_take]; omega) (by rw [List.length_drop]; omega)
  rw [← split] at resultBelow resultLength sum
  rw [diagonal_add_crossTerms below, digits] at sum
  -- the square has room in the places, so that the lost carry is none
  have room : x.natAbs ^ 2 < bigIntegerBase ^ (2 * d.length) := by
    rw [Nat.mul_comm 2, Nat.pow_mul, ← digits]
    exact Nat.pow_lt_pow_left (Limbs.ofDigits_lt large below) (by decide)
  have none : lost = 0 := by
    by_contra something
    have much := Nat.le_mul_of_pos_right (bigIntegerBase ^ (2 * d.length))
      (Nat.pos_of_ne_zero something)
    omega
  rw [none, Nat.mul_zero, Nat.add_zero] at sum
  rw [construct_eq resultBelow (.inl rfl), one_mul, sum, magnitude]

/-- What `multiply` does with numbers that are neither zero nor units. -/
theorem multiplyRows_ofInt (isSign : IsSign x.sign) (otherSign : IsSign y.sign) :
    construct (multiplyRows (ofInt y).d (ofInt x).d
        (List.replicate ((ofInt x).d.length + (ofInt y).d.length) 0)) (x.sign * y.sign) =
      ofInt (x * y) := by
  obtain ⟨below, product⟩ := multiplyRows_spec (below_ofInt y) (below_ofInt x)
    (Limbs.below_replicate (by decide : 0 < bigIntegerBase))
    (List.length_replicate (n := (ofInt x).d.length) (a := 0))
  rw [List.replicate_append_replicate] at below product
  rw [construct_eq below (isSign_mul isSign otherSign), product, Nat.ofDigits_replicate_zero,
    Nat.zero_add, ofDigits_ofInt, ofDigits_ofInt, Nat.cast_mul]
  congr 1
  calc _ = x.sign * x.natAbs * (y.sign * y.natAbs) := by ring
    _ = x * y := by rw [Int.sign_mul_natAbs, Int.sign_mul_natAbs]

/-- Numbers are multiplied as their integers are, also a number by itself. -/
theorem multiply_ofInt (same : Bool) (identical : same = true → x = y) :
    multiply same (ofInt x) (ofInt y) = ofInt (x * y) := by
  unfold multiply
  by_cases isZero : x = 0
  · rw [if_pos ((ofInt_s_eq_zero x).mpr isZero), isZero, Int.zero_mul, ofInt_zero]
  rw [if_neg (mt (ofInt_s_eq_zero x).mp isZero)]
  by_cases otherZero : y = 0
  · rw [if_pos ((ofInt_s_eq_zero y).mpr otherZero), otherZero, Int.mul_zero, ofInt_zero]
  rw [if_neg (mt (ofInt_s_eq_zero y).mp otherZero)]
  by_cases isOne : x.natAbs = 1
  · rw [if_pos ((isUnit_ofInt x).mpr isOne), negate_ofInt]
    rcases Int.natAbs_eq x with positive | negative
    · rw [positive, isOne, if_neg (by decide), Int.natCast_one, one_mul]
    · rw [negative, isOne, if_pos (by decide), Int.natCast_one, neg_one_mul]
  rw [if_neg (mt (isUnit_ofInt x).mp isOne)]
  by_cases otherOne : y.natAbs = 1
  · rw [if_pos ((isUnit_ofInt y).mpr otherOne), negate_ofInt]
    rcases Int.natAbs_eq y with positive | negative
    · rw [positive, otherOne, if_neg (by decide), Int.natCast_one, mul_one]
    · rw [negative, otherOne, if_pos (by decide), Int.natCast_one, mul_neg_one]
  rw [if_neg (mt (isUnit_ofInt y).mp otherOne)]
  cases same with
  | true => rw [if_pos rfl, square_ofInt, identical rfl]
  | false =>
    rw [if_neg Bool.false_ne_true]
    have isSign := isSign_sign isZero
    have otherSign := isSign_sign otherZero
    by_cases longer : (ofInt y).d.length ≤ (ofInt x).d.length
    · rw [if_pos longer]
      exact multiplyRows_ofInt x y isSign otherSign
    · rw [if_neg longer, ofInt_s, ofInt_s, mul_comm x.sign, mul_comm x]
      exact multiplyRows_ofInt y x otherSign isSign

end Products

/-! ### Single digits -/

/-- A multiple by little more than the base still has digits below the base, but for the highest
one. -/
theorem scaleDigits_spec {n : Nat} (factor : n ≤ bigIntegerBase + 2) {digits : List Nat}
    (below : Below bigIntegerBase digits) {carry : Nat} (small : carry ≤ bigIntegerBase + 2) :
    LowBelow bigIntegerBase (scaleDigits n digits carry) ∧
      (scaleDigits n digits carry).length = digits.length + 1 ∧
      Nat.ofDigits bigIntegerBase (scaleDigits n digits carry) =
        n * Nat.ofDigits bigIntegerBase digits + carry ∧
      (n < bigIntegerBase → carry < bigIntegerBase →
        Below bigIntegerBase (scaleDigits n digits carry)) := by
  induction digits generalizing carry with
  | nil =>
    refine ⟨Limbs.below_nil, rfl, ?_, fun _ carryBelow =>
      Limbs.below_cons.mpr ⟨carryBelow, Limbs.below_nil⟩⟩
    rw [scaleDigits, Nat.ofDigits_singleton, Nat.ofDigits_nil, Nat.mul_zero, Nat.zero_add]
  | cons a as inductionHypothesis =>
    obtain ⟨aBelow, asBelow⟩ := Limbs.below_cons.mp below
    have product : n * a ≤ (bigIntegerBase + 2) * (bigIntegerBase - 1) :=
      Nat.mul_le_mul factor (Nat.le_sub_one_of_lt aBelow)
    have bounded : n * a + carry < bigIntegerBase * (bigIntegerBase + 3) := by
      unfold bigIntegerBase at small product ⊢
      omega
    have fits : n * a + carry < 2 ^ 53 := bounded.trans (by decide)
    have next : (n * a + carry) / bigIntegerBase ≤ bigIntegerBase + 2 :=
      Nat.lt_succ_iff.mp (Nat.div_lt_of_lt_mul bounded)
    obtain ⟨low, length, value, whole⟩ := inductionHypothesis asBelow next
    have unfolded : scaleDigits n (a :: as) carry = (n * a + carry) % bigIntegerBase ::
        scaleDigits n as ((n * a + carry) / bigIntegerBase) := by
      rw [scaleDigits, Doubles.mul_eq ((Nat.le_add_right _ carry).trans_lt fits),
        Doubles.add_eq fits, carryOf_eq fits]
    have digit : (n * a + carry) % bigIntegerBase < bigIntegerBase := Nat.mod_lt _ (by decide)
    rw [unfolded]
    refine ⟨?_, congrArg Nat.succ length, ?_, ?_⟩
    · obtain ⟨first, rest, same⟩ := List.exists_cons_of_length_eq_add_one length
      rw [same] at low ⊢
      exact Limbs.lowBelow_cons_cons.mpr ⟨digit, low⟩
    · have parts := Nat.mod_add_div (n * a + carry) bigIntegerBase
      rw [Nat.ofDigits_cons, Nat.ofDigits_cons, value]
      calc _ = ((n * a + carry) % bigIntegerBase +
            bigIntegerBase * ((n * a + carry) / bigIntegerBase)) +
            bigIntegerBase * (n * Nat.ofDigits bigIntegerBase as) := by ring
        _ = _ := by
          rw [parts]
          ring
    · intro factorBelow carryBelow
      have smaller : n * a ≤ (bigIntegerBase - 1) * (bigIntegerBase - 1) :=
        Nat.mul_le_mul (Nat.le_sub_one_of_lt factorBelow) (Nat.le_sub_one_of_lt aBelow)
      refine Limbs.below_cons.mpr ⟨digit, whole factorBelow (Nat.div_lt_of_lt_mul ?_)⟩
      unfold bigIntegerBase at carryBelow smaller ⊢
      omega

/-- The multiple of a number by little more than the base at most. -/
theorem multiplySingleDigit_spec (number : Nat) {n : Nat} (factor : n ≤ bigIntegerBase + 2) :
    ∃ digits, (ofInt number).multiplySingleDigit n = construct digits 1 ∧
      LowBelow bigIntegerBase digits ∧ Nat.ofDigits bigIntegerBase digits = n * number ∧
      (n < bigIntegerBase → Below bigIntegerBase digits) ∧
      (Below bigIntegerBase digits ∨ digits.length = (ofInt number).d.length + 1) := by
  have below := below_ofInt number
  have value : Nat.ofDigits bigIntegerBase (ofInt number).d = number := ofDigits_ofInt number
  have whole : ofInt number = construct (ofInt number).d 1 := by
    rw [construct_ofInt _ (.inl rfl), Int.natAbs_natCast, one_mul]
  unfold multiplySingleDigit
  by_cases none : n = 0 ∨ (ofInt number).s = 0
  · rw [if_pos none]
    refine ⟨[], rfl, Limbs.below_nil, ?_, fun _ => Limbs.below_nil, .inl Limbs.below_nil⟩
    rcases none with isZero | isZero
    · rw [isZero, Nat.zero_mul]
      rfl
    · rw [Int.natCast_eq_zero.mp ((ofInt_s_eq_zero number).mp isZero), Nat.mul_zero]
      rfl
  rw [if_neg none]
  by_cases isOne : n = 1
  · rw [if_pos isOne, isOne]
    exact ⟨_, whole, below.low, by rw [value, Nat.one_mul], fun _ => below, .inl below⟩
  rw [if_neg isOne]
  have scaled : ∃ digits, construct (scaleDigits n (ofInt number).d 0) 1 = construct digits 1 ∧
      LowBelow bigIntegerBase digits ∧ Nat.ofDigits bigIntegerBase digits = n * number ∧
      (n < bigIntegerBase → Below bigIntegerBase digits) ∧
      (Below bigIntegerBase digits ∨ digits.length = (ofInt number).d.length + 1) := by
    obtain ⟨low, length, scaledValue, scaledBelow⟩ :=
      scaleDigits_spec factor below (Nat.zero_le (bigIntegerBase + 2))
    refine ⟨_, rfl, low, ?_, fun factorBelow => scaledBelow factorBelow (by decide), .inr length⟩
    rw [scaledValue, value, Nat.add_zero]
  split
  · next single same =>
    rw [same] at below value ⊢
    rw [Nat.ofDigits_singleton] at value
    have singleBelow := (Limbs.below_cons.mp below).1
    have product : single * n ≤ (bigIntegerBase - 1) * (bigIntegerBase + 2) :=
      Nat.mul_le_mul (Nat.le_sub_one_of_lt singleBelow) factor
    have fits : single * n < 2 ^ 53 := product.trans_lt (by decide)
    rw [Doubles.mul_eq fits]
    dsimp only
    split
    · rw [carryOf_eq fits]
      have digit : single * n % bigIntegerBase < bigIntegerBase := Nat.mod_lt _ (by decide)
      refine ⟨_, rfl, Limbs.below_cons.mpr ⟨digit, Limbs.below_nil⟩, ?_, ?_, .inr rfl⟩
      · rw [Nat.ofDigits_cons, Nat.ofDigits_singleton, Nat.mod_add_div, value, Nat.mul_comm]
      · intro factorBelow
        have smaller : single * n < bigIntegerBase * bigIntegerBase :=
          Nat.mul_lt_mul'' singleBelow factorBelow
        exact Limbs.below_cons.mpr ⟨digit, Limbs.below_cons.mpr
          ⟨Nat.div_lt_of_lt_mul smaller, Limbs.below_nil⟩⟩
    · next less =>
      have single := Limbs.below_cons.mpr ⟨Nat.not_le.mp less, Limbs.below_nil⟩
      refine ⟨_, rfl, single.low, ?_, fun _ => single, .inl single⟩
      rw [Nat.ofDigits_singleton, value, Nat.mul_comm]
  · next several =>
    by_cases isTwo : n = 2
    · rw [if_pos isTwo, isTwo, add_ofInt]
      have doubled := below_ofInt ((number : Int) + number)
      refine ⟨(ofInt ((number : Int) + number)).d, ?_, doubled.low, ?_, fun _ => doubled,
        .inl doubled⟩
      · rw [construct_ofInt _ (.inl rfl), one_mul]
        congr 1
      · rw [ofDigits_ofInt]
        omega
    · rw [if_neg isTwo]
      have notUnit : ¬(ofInt number).isUnit = true := fun unit =>
        several 1 (decide_eq_true_iff.mp unit)
      rw [if_neg notUnit]
      exact scaled

/-- The multiple of a number by a digit. -/
theorem multiplySingleDigit_ofInt (number : Nat) {n : Nat} (factor : n < bigIntegerBase) :
    (ofInt number).multiplySingleDigit n = ofInt ((n * number : Nat) : Int) := by
  obtain ⟨digits, same, _, value, below, _⟩ :=
    multiplySingleDigit_spec number (factor.le.trans (Nat.le_add_right _ 2))
  rw [same, construct_eq (below factor) (.inl rfl), value, one_mul]

/-- Products are those of the integers, whether a number is multiplied row by row with another one
or squared as it meets itself. No step of it is rounded. -/
theorem products_refine :
    (∀ x y : Int, multiply false (ofInt x) (ofInt y) = ofInt (x * y)) ∧
    (∀ x : Int, multiply true (ofInt x) (ofInt x) = ofInt (x * x)) :=
  ⟨fun x y => multiply_ofInt x y false fun same => absurd same Bool.false_ne_true,
    fun x => multiply_ofInt x x true fun _ => rfl⟩

end LightWallet.Frontend.BigInteger
