/-
This file settles which payments of an import are found.

The search looks through the mempool and the blocks from ten below the tip on. The first of them is
computed with unsigned arithmetic: on a chain of fewer blocks it wraps around to a block above the
tip, and no block is looked at. At the other end, the loop over the blocks ends when its counter has
passed the tip, which no counter passes that is the largest of its type.
-/

import LightWallet.Imports

namespace LightWallet.PaymentSearch

/-! ### The search -/

section Search

variable (backend : Backend) (height : UInt64)

/-- The loop over the blocks, from `blk_i` on. It gives the transactions to check, or nothing when a
block cannot be read, which makes the search return false. Without fuel it has no result. -/
def appendBlocks : Nat → UInt64 → List Transaction → Option (Option (List Transaction))
  | 0, _, _ => none
  | fuel + 1, blkI, txsToCheck =>
    if blkI ≤ height then
      match backend.blockTxs blkI.toNat with
      | none => some none
      | some blkTxs => appendBlocks fuel (blkI + 1) (txsToCheck ++ blkTxs)
    else some (some txsToCheck)

/-- The loop over the transactions to check: the hash of the first that carries the payment id and
pays the amount. -/
def checkTxs (expectedPaymentId : String) (desiredAmount : UInt64) :
    List Transaction → Option String
  | [] => none
  | tx :: rest =>
    if backend.integratedPaymentId tx = expectedPaymentId then
      if backend.amountPaid tx ≥ desiredAmount then some tx.hash
      else checkTxs expectedPaymentId desiredAmount rest
    else checkTxs expectedPaymentId desiredAmount rest

/-- `search_if_payment_made`: the hash it reports when it returns true, nothing when it returns
false. -/
def searchIfPaymentMade (fuel : Nat) (paymentId : String) (desiredAmount : UInt64) :
    Option (Option String) :=
  match appendBlocks backend height fuel (height - 10) (backend.mempoolTxs.map (·.2)) with
  | none => none
  | some none => some none
  | some (some txsToCheck) =>
    match backend.hexToPaymentId paymentId with
    | none => some none
    | some expectedPaymentId => some (checkTxs backend expectedPaymentId desiredAmount txsToCheck)

/-! ### The property -/

variable (paymentId : String) (desiredAmount : UInt64)

/-- The transaction has the integrated payment id and pays at least the amount. -/
def Pays (tx : Transaction) : Prop :=
  backend.hexToPaymentId paymentId = some (backend.integratedPaymentId tx) ∧
    desiredAmount ≤ backend.amountPaid tx

/-- The transaction is in one of the recent blocks. -/
def InRecentBlock (tx : Transaction) : Prop :=
  ∃ blk, height.toNat - 10 ≤ blk ∧ blk ≤ height.toNat ∧
    ∃ txs, backend.blockTxs blk = some txs ∧ tx ∈ txs

/-- The transaction is in the mempool. -/
def InMempool (tx : Transaction) : Prop := tx ∈ backend.mempoolTxs.map (·.2)

/-- The search ends; it returns true exactly when some transaction pays, and reports the hash of
such a one. -/
def FindsPayments : Prop :=
  ∃ fuel answer, searchIfPaymentMade backend height fuel paymentId desiredAmount = some answer ∧
    (answer.isSome = true ↔
      ∃ tx, (InMempool backend tx ∨ InRecentBlock backend height tx) ∧
        Pays backend paymentId desiredAmount tx) ∧
    ∀ hash, answer = some hash →
      ∃ tx, (InMempool backend tx ∨ InRecentBlock backend height tx) ∧
        Pays backend paymentId desiredAmount tx ∧ tx.hash = hash

/-- On a chain of fewer than ten blocks below the tip, a payment in a block is one in the mempool
too. At the largest height there is, where the counter goes on at zero, some block of any height
cannot be read, and there is no payment. -/
def SearchReaches : Prop :=
  (height.toNat < 10 →
    (∃ tx, InRecentBlock backend height tx ∧ Pays backend paymentId desiredAmount tx) →
      ∃ tx, InMempool backend tx ∧ Pays backend paymentId desiredAmount tx) ∧
  (height.toNat + 1 = 2 ^ 64 →
    (∃ blk < 2 ^ 64, backend.blockTxs blk = none) ∧
      ¬ ∃ tx, (InMempool backend tx ∨ InRecentBlock backend height tx) ∧
        Pays backend paymentId desiredAmount tx)

end Search

/-! ### The transactions to check -/

section Check

variable {backend : Backend} {paymentId : String} {desiredAmount : UInt64}

theorem checkTxs_isSome {expectedPaymentId : String} (txs : List Transaction) :
    (checkTxs backend expectedPaymentId desiredAmount txs).isSome = true ↔
      ∃ tx ∈ txs, backend.integratedPaymentId tx = expectedPaymentId ∧
        desiredAmount ≤ backend.amountPaid tx := by
  induction txs with
  | nil => simp [checkTxs]
  | cons tx rest inductionHypothesis =>
    rw [checkTxs]
    by_cases same : backend.integratedPaymentId tx = expectedPaymentId
    · by_cases enough : backend.amountPaid tx ≥ desiredAmount
      · rw [if_pos same, if_pos enough]
        exact iff_of_true rfl ⟨tx, List.mem_cons_self, same, enough⟩
      · rw [if_pos same, if_neg enough, inductionHypothesis]
        simp [show ¬ desiredAmount ≤ backend.amountPaid tx from enough]
    · rw [if_neg same, inductionHypothesis]
      simp [same]

theorem checkTxs_hash {expectedPaymentId hash : String} {txs : List Transaction}
    (found : checkTxs backend expectedPaymentId desiredAmount txs = some hash) :
    ∃ tx ∈ txs, (backend.integratedPaymentId tx = expectedPaymentId ∧
      desiredAmount ≤ backend.amountPaid tx) ∧ tx.hash = hash := by
  induction txs with
  | nil => cases found
  | cons tx rest inductionHypothesis =>
    have later (foundLater : checkTxs backend expectedPaymentId desiredAmount rest = some hash) :
        ∃ other ∈ tx :: rest, (backend.integratedPaymentId other = expectedPaymentId ∧
          desiredAmount ≤ backend.amountPaid other) ∧ other.hash = hash := by
      obtain ⟨other, member, pays⟩ := inductionHypothesis foundLater
      exact ⟨other, List.mem_cons_of_mem _ member, pays⟩
    rw [checkTxs] at found
    by_cases same : backend.integratedPaymentId tx = expectedPaymentId
    · rw [if_pos same] at found
      by_cases enough : backend.amountPaid tx ≥ desiredAmount
      · rw [if_pos enough] at found
        exact ⟨tx, List.mem_cons_self, ⟨same, enough⟩, Option.some.inj found⟩
      · rw [if_neg enough] at found
        exact later found
    · rw [if_neg same] at found
      exact later found

/-- What the search answers once the transactions are gathered. -/
def answerOf (backend : Backend) (paymentId : String) (desiredAmount : UInt64)
    (txs : List Transaction) : Option String :=
  match backend.hexToPaymentId paymentId with
  | none => none
  | some expectedPaymentId => checkTxs backend expectedPaymentId desiredAmount txs

theorem answerOf_isSome (txs : List Transaction) :
    (answerOf backend paymentId desiredAmount txs).isSome = true ↔
      ∃ tx ∈ txs, Pays backend paymentId desiredAmount tx := by
  unfold answerOf Pays
  cases backend.hexToPaymentId paymentId with
  | none => simp
  | some expectedPaymentId =>
    rw [checkTxs_isSome]
    simp only [Option.some.injEq, eq_comm]

theorem answerOf_hash {hash : String} {txs : List Transaction}
    (found : answerOf backend paymentId desiredAmount txs = some hash) :
    ∃ tx ∈ txs, Pays backend paymentId desiredAmount tx ∧ tx.hash = hash := by
  unfold answerOf at found
  unfold Pays
  cases parsed : backend.hexToPaymentId paymentId with
  | none =>
    rw [parsed] at found
    cases found
  | some expectedPaymentId =>
    rw [parsed] at found
    obtain ⟨tx, member, ⟨same, enough⟩, hashed⟩ := checkTxs_hash found
    exact ⟨tx, member, ⟨by rw [same], enough⟩, hashed⟩

end Check

/-! ### The loop over the blocks -/

section Blocks

variable {backend : Backend} {height : UInt64}

theorem appendBlocks_end {fuel : Nat} {blkI : UInt64} {txs : List Transaction}
    (past : height.toNat < blkI.toNat) :
    appendBlocks backend height (fuel + 1) blkI txs = some (some txs) :=
  if_neg fun le => Nat.not_lt.mpr (UInt64.le_iff_toNat_le.mp le) past

theorem appendBlocks_read {fuel : Nat} {blkI : UInt64} {txs blkTxs : List Transaction}
    (within : blkI.toNat ≤ height.toNat) (read : backend.blockTxs blkI.toNat = some blkTxs) :
    appendBlocks backend height (fuel + 1) blkI txs =
      appendBlocks backend height fuel (blkI + 1) (txs ++ blkTxs) := by
  rw [appendBlocks, if_pos (UInt64.le_iff_toNat_le.mpr within), read]

theorem appendBlocks_unread {fuel : Nat} {blkI : UInt64} {txs : List Transaction}
    (within : blkI.toNat ≤ height.toNat) (unread : backend.blockTxs blkI.toNat = none) :
    appendBlocks backend height (fuel + 1) blkI txs = some none := by
  rw [appendBlocks, if_pos (UInt64.le_iff_toNat_le.mpr within), unread]

theorem toNat_next {blkI : UInt64} (fits : blkI.toNat + 1 < 2 ^ 64) :
    (blkI + 1).toNat = blkI.toNat + 1 :=
  (UInt64.toNat_add _ _).trans (Nat.mod_eq_of_lt fits)

/-- Below the largest height, the loop goes through the blocks up to the tip and appends their
transactions, in as many iterations and one more. -/
theorem appendBlocks_all (notLargest : height.toNat + 1 < 2 ^ 64) {count : Nat} {blkI : UInt64}
    (left : blkI.toNat + count = height.toNat + 1) (fuel : Nat) (txs : List Transaction)
    (readable : ∀ blk, blkI.toNat ≤ blk → blk ≤ height.toNat → backend.blockTxs blk ≠ none) :
    ∃ blkTxs, appendBlocks backend height (fuel + count + 1) blkI txs =
        some (some (txs ++ blkTxs)) ∧
      ∀ tx, tx ∈ blkTxs ↔ ∃ blk, blkI.toNat ≤ blk ∧ blk ≤ height.toNat ∧
        ∃ ofBlock, backend.blockTxs blk = some ofBlock ∧ tx ∈ ofBlock := by
  induction count generalizing blkI txs with
  | zero =>
    have past : height.toNat < blkI.toNat := Nat.lt_of_succ_le (Nat.le_of_eq left.symm)
    refine ⟨[], by rw [appendBlocks_end past, List.append_nil], fun tx => ?_⟩
    refine iff_of_false List.not_mem_nil fun ⟨blk, lower, upper, _⟩ => ?_
    exact Nat.not_lt.mpr (Nat.le_trans lower upper) past
  | succ count inductionHypothesis =>
    have within : blkI.toNat ≤ height.toNat := by omega
    have next := toNat_next (Nat.lt_of_le_of_lt (Nat.succ_le_succ within) notLargest)
    obtain ⟨here, read⟩ :=
      Option.ne_none_iff_exists'.mp (readable blkI.toNat (Nat.le_refl _) within)
    obtain ⟨blkTxs, ran, member⟩ := inductionHypothesis (by rw [next]; omega) (txs ++ here)
      fun blk lower upper => by
        rw [next] at lower
        exact readable blk (Nat.le_of_succ_le lower) upper
    refine ⟨here ++ blkTxs, ?_, fun tx => ?_⟩
    · rw [show fuel + (count + 1) + 1 = fuel + count + 1 + 1 from rfl,
        appendBlocks_read within read, ran, List.append_assoc]
    · rw [List.mem_append, member]
      constructor
      · rintro (inHere | ⟨blk, lower, upper, inBlock⟩)
        · exact ⟨blkI.toNat, Nat.le_refl _, within, here, read, inHere⟩
        · exact ⟨blk, by rw [next] at lower; exact Nat.le_of_succ_le lower, upper, inBlock⟩
      · rintro ⟨blk, lower, upper, ofBlock, readBlock, inBlock⟩
        rcases Nat.eq_or_lt_of_le lower with rfl | later
        · exact .inl (Option.some.inj (read.symm.trans readBlock) ▸ inBlock)
        · exact .inr ⟨blk, by rw [next]; exact later, upper, ofBlock, readBlock, inBlock⟩

theorem le_largest (largest : height.toNat + 1 = 2 ^ 64) (blk : UInt64) :
    blk.toNat ≤ height.toNat := by
  have below := blk.toNat_lt
  omega

/-- At the largest height, the loop does not get past the tip. -/
theorem appendBlocks_largest (largest : height.toNat + 1 = 2 ^ 64) (fuel : Nat) (blkI : UInt64)
    (txs : List Transaction) :
    appendBlocks backend height fuel blkI txs = none ∨
      appendBlocks backend height fuel blkI txs = some none := by
  induction fuel generalizing blkI txs with
  | zero => exact .inl rfl
  | succ fuel inductionHypothesis =>
    have within := le_largest largest blkI
    cases read : backend.blockTxs blkI.toNat with
    | none => exact .inr (appendBlocks_unread within read)
    | some here =>
      rw [appendBlocks_read within read]
      exact inductionHypothesis (blkI + 1) (txs ++ here)

/-- It ends only at a block that cannot be read. -/
theorem appendBlocks_endless (largest : height.toNat + 1 = 2 ^ 64)
    (readable : ∀ blk < 2 ^ 64, backend.blockTxs blk ≠ none) (fuel : Nat) (blkI : UInt64)
    (txs : List Transaction) : appendBlocks backend height fuel blkI txs = none := by
  induction fuel generalizing blkI txs with
  | zero => rfl
  | succ fuel inductionHypothesis =>
    obtain ⟨here, read⟩ := Option.ne_none_iff_exists'.mp (readable blkI.toNat blkI.toNat_lt)
    rw [appendBlocks_read (le_largest largest blkI) read]
    exact inductionHypothesis (blkI + 1) (txs ++ here)

/-- It gets to such a block, in whatever distance that is. -/
theorem appendBlocks_ends (largest : height.toNat + 1 = 2 ^ 64) {blk : UInt64}
    (unread : backend.blockTxs blk.toNat = none) (blkI : UInt64) (txs : List Transaction) :
    ∃ fuel, appendBlocks backend height fuel blkI txs = some none := by
  induction distance : (blk - blkI).toNat generalizing blkI txs with
  | zero =>
    have here : blkI = blk := by
      have none : blk - blkI = 0 := UInt64.toNat_inj.mp distance
      rw [← UInt64.sub_add_cancel blk blkI, none, UInt64.zero_add]
    refine ⟨1, appendBlocks_unread (le_largest largest blkI) ?_⟩
    rw [here]
    exact unread
  | succ further inductionHypothesis =>
    have within := le_largest largest blkI
    cases read : backend.blockTxs blkI.toNat with
    | none => exact ⟨1, appendBlocks_unread within read⟩
    | some here =>
      have closer : (blk - (blkI + 1)).toNat = further := by
        have same : blk - (blkI + 1) = blk - blkI - 1 := by grind
        have one : (1 : UInt64) ≤ blk - blkI := by
          rw [UInt64.le_iff_toNat_le, distance]
          exact Nat.succ_le_succ (Nat.zero_le _)
        rw [same, UInt64.toNat_sub_of_le _ _ one, distance]
        rfl
      obtain ⟨fuel, ran⟩ := inductionHypothesis (blkI + 1) (txs ++ here) closer
      exact ⟨fuel + 1, (appendBlocks_read within read).trans ran⟩

end Blocks

/-! ### What is found -/

section Found

variable {backend : Backend} {height : UInt64} {paymentId : String} {desiredAmount : UInt64}

theorem search_of_gathered {fuel : Nat} {txs : List Transaction}
    (gathered : appendBlocks backend height fuel (height - 10) (backend.mempoolTxs.map (·.2)) =
      some (some txs)) :
    searchIfPaymentMade backend height fuel paymentId desiredAmount =
      some (answerOf backend paymentId desiredAmount txs) := by
  unfold searchIfPaymentMade answerOf
  rw [gathered]
  cases backend.hexToPaymentId paymentId <;> rfl

theorem search_of_unread {fuel : Nat}
    (unread : appendBlocks backend height fuel (height - 10) (backend.mempoolTxs.map (·.2)) =
      some none) : searchIfPaymentMade backend height fuel paymentId desiredAmount = some none := by
  unfold searchIfPaymentMade
  rw [unread]

theorem search_of_endless {fuel : Nat}
    (endless : appendBlocks backend height fuel (height - 10) (backend.mempoolTxs.map (·.2)) =
      none) : searchIfPaymentMade backend height fuel paymentId desiredAmount = none := by
  unfold searchIfPaymentMade
  rw [endless]

/-- A search that has gathered all transactions finds the payments among them. -/
theorem findsPayments_of_gathered {fuel : Nat} {txs : List Transaction}
    (gathered : appendBlocks backend height fuel (height - 10) (backend.mempoolTxs.map (·.2)) =
      some (some txs))
    (all : ∀ tx, tx ∈ txs ↔ InMempool backend tx ∨ InRecentBlock backend height tx) :
    FindsPayments backend height paymentId desiredAmount := by
  refine ⟨fuel, _, search_of_gathered gathered, ?_, fun hash found => ?_⟩
  · rw [answerOf_isSome]
    exact exists_congr fun tx => and_congr_left fun _ => all tx
  · obtain ⟨tx, member, pays⟩ := answerOf_hash found
    exact ⟨tx, (all tx).mp member, pays⟩

/-- Below ten blocks, the loop has none to visit. -/
theorem appendBlocks_short (short : height.toNat < 10) (fuel : Nat) (txs : List Transaction) :
    appendBlocks backend height (fuel + 1) (height - 10) txs = some (some txs) := by
  refine appendBlocks_end ?_
  have ten : (10 : UInt64).toNat = 10 := rfl
  rw [UInt64.toNat_sub, ten]
  omega

theorem findsPayments_short (short : height.toNat < 10) :
    FindsPayments backend height paymentId desiredAmount ↔
      ((∃ tx, InRecentBlock backend height tx ∧ Pays backend paymentId desiredAmount tx) →
        ∃ tx, InMempool backend tx ∧ Pays backend paymentId desiredAmount tx) := by
  constructor
  · rintro ⟨fuel, answer, ran, whether, -⟩ ⟨tx, inBlock, pays⟩
    cases fuel with
    | zero => cases ran
    | succ fuel =>
      rw [search_of_gathered (appendBlocks_short short fuel _)] at ran
      obtain rfl := Option.some.inj ran
      exact (answerOf_isSome _).mp (whether.mpr ⟨tx, .inr inBlock, pays⟩)
  · intro reaches
    refine ⟨1, _, search_of_gathered (appendBlocks_short short 0 _), ?_, fun hash found => ?_⟩
    · rw [answerOf_isSome]
      constructor
      · rintro ⟨tx, member, pays⟩
        exact ⟨tx, .inl member, pays⟩
      · rintro ⟨tx, inMempool | inBlock, pays⟩
        · exact ⟨tx, inMempool, pays⟩
        · exact reaches ⟨tx, inBlock, pays⟩
    · obtain ⟨tx, member, pays⟩ := answerOf_hash found
      exact ⟨tx, .inl member, pays⟩

/-- From ten blocks on, all recent blocks are gathered. -/
theorem appendBlocks_recent (enough : 10 ≤ height.toNat) (notLargest : height.toNat + 1 < 2 ^ 64)
    (readable : ∀ blk, height.toNat - 10 ≤ blk → blk ≤ height.toNat →
      backend.blockTxs blk ≠ none) :
    ∃ txs, appendBlocks backend height 12 (height - 10) (backend.mempoolTxs.map (·.2)) =
        some (some txs) ∧
      ∀ tx, tx ∈ txs ↔ InMempool backend tx ∨ InRecentBlock backend height tx := by
  have first : (height - 10).toNat = height.toNat - 10 :=
    UInt64.toNat_sub_of_le _ _ (UInt64.le_iff_toNat_le.mpr enough)
  have left : (height - 10).toNat + 11 = height.toNat + 1 := by
    rw [first]
    omega
  obtain ⟨blkTxs, ran, member⟩ := appendBlocks_all notLargest left 0 _ (first ▸ readable)
  refine ⟨_, ran, fun tx => ?_⟩
  rw [List.mem_append, member, first]
  rfl

theorem findsPayments_largest (largest : height.toNat + 1 = 2 ^ 64) :
    FindsPayments backend height paymentId desiredAmount ↔
      (∃ blk < 2 ^ 64, backend.blockTxs blk = none) ∧
        ¬ ∃ tx, (InMempool backend tx ∨ InRecentBlock backend height tx) ∧
          Pays backend paymentId desiredAmount tx := by
  constructor
  · rintro ⟨fuel, answer, ran, whether, -⟩
    have unread : appendBlocks backend height fuel (height - 10)
        (backend.mempoolTxs.map (·.2)) = some none := by
      refine (appendBlocks_largest largest fuel _ _).resolve_left fun endless => ?_
      exact absurd ((search_of_endless endless).symm.trans ran) (by simp)
    rw [search_of_unread unread] at ran
    obtain rfl := Option.some.inj ran
    refine ⟨?_, fun payment => absurd (whether.mpr payment) (by simp)⟩
    by_contra all
    have readable : ∀ blk < 2 ^ 64, backend.blockTxs blk ≠ none :=
      fun blk below none => all ⟨blk, below, none⟩
    rw [appendBlocks_endless largest readable] at unread
    cases unread
  · rintro ⟨⟨blk, below, unread⟩, noPayment⟩
    have word : (UInt64.ofNat blk).toNat = blk := UInt64.toNat_ofNat_of_lt' below
    obtain ⟨fuel, ran⟩ := appendBlocks_ends largest (word.symm ▸ unread) (height - 10)
      (backend.mempoolTxs.map (·.2))
    exact ⟨fuel, none, search_of_unread ran, iff_of_false (by simp) noPayment,
      fun hash found => nomatch found⟩

/-- Where the recent blocks can be read, the search ends and finds exactly the payments in them and
in the mempool, if and only if it reaches the blocks. -/
theorem findsPayments_iff (backend : Backend) (height : UInt64)
    (readable : ∀ blk, height.toNat - 10 ≤ blk → blk ≤ height.toNat → backend.blockTxs blk ≠ none)
    (paymentId : String) (desiredAmount : UInt64) :
    FindsPayments backend height paymentId desiredAmount ↔
      SearchReaches backend height paymentId desiredAmount := by
  unfold SearchReaches
  by_cases short : height.toNat < 10
  · rw [findsPayments_short short]
    refine ⟨fun reaches => ⟨fun _ => reaches, fun largest => ?_⟩, fun reaches => reaches.1 short⟩
    omega
  · by_cases largest : height.toNat + 1 = 2 ^ 64
    · rw [findsPayments_largest largest]
      exact ⟨fun none => ⟨fun low => absurd low short, fun _ => none⟩,
        fun reaches => reaches.2 largest⟩
    · have notLargest : height.toNat + 1 < 2 ^ 64 :=
        Nat.lt_of_le_of_ne (Nat.succ_le_of_lt height.toNat_lt) largest
      obtain ⟨txs, ran, all⟩ := appendBlocks_recent (Nat.le_of_not_lt short) notLargest readable
      exact iff_of_true (findsPayments_of_gathered ran all)
        ⟨fun low => absurd low short, fun here => absurd here largest⟩

end Found

/-! ### Chains of five and of twenty blocks -/

/-- A blockchain whose block 3 has a transaction that pays 7, and whose other blocks are empty. -/
def paidChain : Backend :=
  { Backend.empty with
    blockTxs := fun blk => some (if blk = 3 then [{ hash := "t" }] else [])
    integratedPaymentId := fun _ => "ab"
    amountPaid := fun _ => 7 }

theorem paidChain_readable (height : UInt64) (blk : Nat) (_ : height.toNat - 10 ≤ blk)
    (_ : blk ≤ height.toNat) : paidChain.blockTxs blk ≠ none :=
  Option.some_ne_none _

/-- At the height 5 the payment is not found. -/
theorem not_findsPayments : ¬ FindsPayments paidChain 5 "ab" 7 := by
  rw [findsPayments_short (by decide)]
  intro reaches
  obtain ⟨tx, inMempool, -⟩ := reaches ⟨{ hash := "t" },
    ⟨3, by decide, by decide, [{ hash := "t" }], rfl, List.mem_singleton_self _⟩, rfl, by decide⟩
  exact absurd inMempool List.not_mem_nil

/-- At the height 12 it is. -/
theorem findsPayments_iff_twelve : FindsPayments paidChain 12 "ab" 7 :=
  (findsPayments_iff paidChain 12 (paidChain_readable 12) "ab" 7).mpr
    ⟨fun short => absurd short (by decide), fun largest => absurd largest (by decide)⟩

/-! ### The search of the requests -/

section Requests

variable {backend : Backend} {height : UInt64}

theorem appendBlocks_eq_mapM (notLargest : height.toNat + 1 < 2 ^ 64) {count : Nat} {blkI : UInt64}
    (left : blkI.toNat + count = height.toNat + 1) (fuel : Nat) (txs : List Transaction) :
    appendBlocks backend height (fuel + count + 1) blkI txs =
      some (((List.range' blkI.toNat count).mapM backend.blockTxs).map (txs ++ ·.flatten)) := by
  induction count generalizing blkI txs with
  | zero =>
    rw [Nat.add_zero] at left ⊢
    rw [appendBlocks_end (Nat.lt_of_succ_le (Nat.le_of_eq left.symm))]
    simp
  | succ count inductionHypothesis =>
    have within : blkI.toNat ≤ height.toNat := by omega
    have next := toNat_next (Nat.lt_of_le_of_lt (Nat.succ_le_succ within) notLargest)
    rw [show fuel + (count + 1) + 1 = fuel + count + 1 + 1 from rfl, List.range'_succ,
      List.mapM_cons]
    cases read : backend.blockTxs blkI.toNat with
    | none =>
      rw [appendBlocks_unread within read]
      rfl
    | some here =>
      rw [appendBlocks_read within read, inductionHypothesis (by rw [next]; omega), next]
      cases (List.range' (blkI.toNat + 1) count).mapM backend.blockTxs with
      | none => rfl
      | some later => simp [List.append_assoc]

theorem checkTxs_eq_find? {expectedPaymentId : String} {desiredAmount : UInt64}
    (txs : List Transaction) :
    checkTxs backend expectedPaymentId desiredAmount txs =
      (txs.find? fun tx => backend.integratedPaymentId tx = expectedPaymentId ∧
        desiredAmount.toNat ≤ (backend.amountPaid tx).toNat).map (·.hash) := by
  induction txs with
  | nil => rfl
  | cons tx rest inductionHypothesis =>
    have amount : backend.amountPaid tx ≥ desiredAmount ↔
        desiredAmount.toNat ≤ (backend.amountPaid tx).toNat := UInt64.le_iff_toNat_le
    rw [checkTxs, List.find?_cons]
    by_cases same : backend.integratedPaymentId tx = expectedPaymentId
    · by_cases enough : desiredAmount.toNat ≤ (backend.amountPaid tx).toNat
      · simp [same, amount, enough]
      · simp [same, amount, enough, inductionHypothesis]
    · simp [same, inductionHypothesis]

/-- Below the largest height, the search of the requests is this one. -/
theorem search_eq (notLargest : height.toNat + 1 < 2 ^ 64)
    (current : backend.status.currentHeight = height.toNat) (paymentId : String)
    (desiredAmount : UInt64) :
    searchIfPaymentMade backend height 12 paymentId desiredAmount =
      some (LightWallet.searchIfPaymentMade backend paymentId desiredAmount.toNat) := by
  have gathered : appendBlocks backend height 12 (height - 10) (backend.mempoolTxs.map (·.2)) =
      some ((recentBlockTxs backend).map (backend.mempoolTxs.map (·.2) ++ ·)) := by
    unfold recentBlockTxs
    rw [current]
    by_cases short : height.toNat < 10
    · rw [appendBlocks_short short, if_pos short]
      simp
    · have enough := Nat.le_of_not_lt short
      have first : (height - 10).toNat = height.toNat - 10 :=
        UInt64.toNat_sub_of_le _ _ (UInt64.le_iff_toNat_le.mpr enough)
      have left : (height - 10).toNat + 11 = height.toNat + 1 := by
        rw [first]
        omega
      rw [if_neg short, ← first, appendBlocks_eq_mapM notLargest left 0, Option.map_map]
      rfl
  unfold LightWallet.searchIfPaymentMade
  cases blockTxs : recentBlockTxs backend with
  | none =>
    rw [blockTxs] at gathered
    exact search_of_unread gathered
  | some txs =>
    rw [blockTxs] at gathered
    rw [search_of_gathered gathered, answerOf]
    cases backend.hexToPaymentId paymentId with
    | none => rfl
    | some expectedPaymentId =>
      refine congrArg some ((checkTxs_eq_find? _).trans ?_)
      show Option.map _ _ = Option.bind _ _
      rw [Option.map_eq_bind]
      rfl

end Requests

end LightWallet.PaymentSearch
