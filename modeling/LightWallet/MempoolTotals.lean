/-
This file settles when the balances that are adjusted by the mempool are exact.

The request adds up 64-bit totals of rows and of transactions of the mempool, and takes
away the amounts of all stored outputs that an input in the mempool may spend. Nothing
says that such an input is the account's, so that more may be taken away than there is.
What is reported is the exact integer modulo 2^64.
-/

import LightWallet.Totals

namespace LightWallet.MempoolTotals

open Balances

/-! ### Exact sums -/

/-- The sum of 64-bit amounts is their exact sum, modulo 2^64. -/
theorem total_ofNat {Row : Type} (amount : Row → UInt64) (rows : List Row) :
    Tables.total amount rows = .ofNat (Tables.total (fun row => (amount row).toNat) rows) := by
  induction rows with
  | nil => rfl
  | cons row rest inductionHypothesis =>
    rw [Tables.total_cons, Tables.total_cons, inductionHypothesis, UInt64.ofNat_add,
      UInt64.ofNat_toNat]

/-- What is added and taken away is exact if the result is in the range of 64 bits. -/
theorem toNat_adjusted_iff (received mempoolReceived mempoolSent : Nat) :
    ((UInt64.ofNat received + .ofNat mempoolReceived - .ofNat mempoolSent).toNat : Int) =
        received + mempoolReceived - mempoolSent ↔
      mempoolSent ≤ received + mempoolReceived ∧
        received + mempoolReceived < mempoolSent + UInt64.size := by
  rw [UInt64.toNat_sub, UInt64.toNat_add, UInt64.toNat_ofNat', UInt64.toNat_ofNat',
    UInt64.toNat_ofNat']
  unfold UInt64.size
  omega

section Amounts

variable (backend : Backend)

/-- The exact sum of what is stored as received. -/
def exactReceived (txs : List XmrTransaction) : Nat :=
  Tables.total (fun tx => tx.totalReceived.toNat) txs

/-- The exact sum of the outputs in the mempool that are identified as the thread's. -/
def exactMempoolReceived (thread : SearchThread) : Nat :=
  Tables.total (fun entry : Nat × Transaction =>
    Tables.total (fun info => info.amount.toNat)
      ((backend.identifier thread.address thread.viewkey).outputs entry.2)) backend.mempoolTxs

/-- The amount of the stored output that an input may spend. -/
def storedAmount (db : Database) (info : InputInfo) : Nat :=
  ((db.outputExists info.outPubKey).map (·.amount.toNat)).getD 0

/-- The exact sum of the stored outputs that inputs in the mempool may spend, as often as they
may. -/
def exactMempoolSent (thread : SearchThread) (db : Database) : Nat :=
  Tables.total (fun entry : Nat × Transaction =>
    Tables.total (storedAmount db)
      ((backend.identifier thread.address thread.viewkey).inputs thread.known entry.2))
    backend.mempoolTxs

/-! ### Reading the mempool -/

theorem knownSpent_quiet {world : World} (quiet : world.Quiet) (infos : List InputInfo) :
    ∃ found, knownSpent infos world = (found, world) ∧
      totalStored found = .ofNat (Tables.total (storedAmount world.db) infos) := by
  induction infos with
  | nil => exact ⟨[], rfl, rfl⟩
  | cons info rest inductionHypothesis =>
    obtain ⟨found, read, total⟩ := inductionHypothesis
    unfold totalStored at total
    rw [Tables.foldl_add_eq, zero_add] at total
    cases output : world.db.outputExists info.outPubKey with
    | none =>
      refine ⟨found, ?_, ?_⟩
      · unfold knownSpent
        rw [Handler.bind_apply, outputExists, query_quiet _ _ quiet, output]
        exact read
      · unfold totalStored
        rw [Tables.foldl_add_eq, zero_add, total, Tables.total_cons, storedAmount, output]
        exact congrArg UInt64.ofNat (Nat.zero_add _).symm
    | some out =>
      refine ⟨(info, out) :: found, ?_, ?_⟩
      · unfold knownSpent
        rw [Handler.bind_apply, outputExists, query_quiet _ _ quiet, output]
        simp only [Handler.bind_apply]
        rw [read]
        rfl
      · unfold totalStored
        rw [Tables.foldl_add_eq, zero_add, Tables.total_cons, total, Tables.total_cons,
          UInt64.ofNat_add, storedAmount, output]
        exact congrArg (· + _) UInt64.ofNat_toNat.symm

theorem calcTotalXmr_ofNat (outputs : List OutputInfo) :
    calcTotalXmr outputs = .ofNat (Tables.total (fun info => info.amount.toNat) outputs) := by
  unfold calcTotalXmr
  rw [Tables.foldl_add_eq, zero_add, total_ofNat]

theorem findTxInMempool_quiet {world : World} (quiet : world.Quiet) (thread : SearchThread)
    (receiveTime : Nat) (tx : Transaction) :
    ∃ entry, findTxInMempool backend thread receiveTime tx world = (entry, world) ∧
      Tables.total MempoolTx.totalReceived entry.toList =
        .ofNat (Tables.total (fun info => info.amount.toNat)
          ((backend.identifier thread.address thread.viewkey).outputs tx)) ∧
      Tables.total MempoolTx.totalSent entry.toList =
        .ofNat (Tables.total (storedAmount world.db)
          ((backend.identifier thread.address thread.viewkey).inputs thread.known tx)) := by
  obtain ⟨found, read, sent⟩ := knownSpent_quiet quiet
    ((backend.identifier thread.address thread.viewkey).inputs thread.known tx)
  unfold findTxInMempool
  simp only [Handler.bind_apply]
  rw [read, ← sent, ← calcTotalXmr_ofNat]
  generalize (backend.identifier thread.address thread.viewkey).outputs tx = outputs
  cases outputs with
  | nil =>
    cases found with
    | nil => exact ⟨none, rfl, rfl, rfl⟩
    | cons entry more => exact ⟨some _, rfl, Tables.total_cons _ _ [], by simp⟩
  | cons info rest =>
    cases found with
    | nil => exact ⟨some _, rfl, by simp, by simp [totalStored]⟩
    | cons entry more => exact ⟨some _, rfl, by simp, by simp⟩

theorem findTxs_quiet {world : World} (quiet : world.Quiet) (thread : SearchThread)
    (txs : List (Nat × Transaction)) :
    ∃ entries, findTxs backend thread txs world = (entries, world) ∧
      Tables.total MempoolTx.totalReceived entries =
        .ofNat (Tables.total (fun entry : Nat × Transaction =>
          Tables.total (fun info => info.amount.toNat)
            ((backend.identifier thread.address thread.viewkey).outputs entry.2)) txs) ∧
      Tables.total MempoolTx.totalSent entries =
        .ofNat (Tables.total (fun entry : Nat × Transaction =>
          Tables.total (storedAmount world.db)
            ((backend.identifier thread.address thread.viewkey).inputs thread.known entry.2))
          txs) := by
  induction txs with
  | nil => exact ⟨[], rfl, rfl, rfl⟩
  | cons pair rest inductionHypothesis =>
    obtain ⟨receiveTime, tx⟩ := pair
    obtain ⟨entry, read, received, sent⟩ :=
      findTxInMempool_quiet backend quiet thread receiveTime tx
    obtain ⟨entries, readRest, receivedRest, sentRest⟩ := inductionHypothesis
    refine ⟨entry.toList ++ entries, ?_, ?_, ?_⟩
    · unfold findTxs
      rw [Handler.bind_apply, read]
      simp only [Handler.bind_apply]
      rw [readRest]
      rfl
    · rw [Tables.total_append, received, receivedRest, Tables.total_cons, UInt64.ofNat_add]
    · rw [Tables.total_append, sent, sentRest, Tables.total_cons, UInt64.ofNat_add]

/-- What the mempool adds and takes away, exactly. Nothing without a search thread. -/
structure Adjustment where
  received : Nat
  sent : Nat
  deriving DecidableEq, Repr

/-- What the mempool changes for the search thread, if there is one. -/
def adjustmentOf (thread : Option SearchThread) (db : Database) : Adjustment where
  received := (thread.map (exactMempoolReceived backend)).getD 0
  sent := (thread.map (exactMempoolSent backend · db)).getD 0

theorem findTxsInMempool_quiet {world : World} (quiet : world.Quiet) (address : String) :
    Tables.total MempoolTx.totalReceived ((findTxsInMempool backend address world).1.getD []) =
        .ofNat (adjustmentOf backend (world.thread? address) world.db).received ∧
      Tables.total MempoolTx.totalSent ((findTxsInMempool backend address world).1.getD []) =
        .ofNat (adjustmentOf backend (world.thread? address) world.db).sent := by
  unfold findTxsInMempool
  rw [Handler.bind_apply]
  unfold withThread
  cases world.thread? address with
  | none => exact ⟨rfl, rfl⟩
  | some thread =>
    have quietAfter : ((world.visited address).putThread address thread).Quiet := quiet
    obtain ⟨entries, read, received, sent⟩ :=
      findTxs_quiet backend quietAfter thread backend.mempoolTxs
    simp only [Handler.bind_apply]
    rw [read]
    exact ⟨received, sent⟩

end Amounts

/-! ### The reported balances -/

/-- The exact balance. -/
def Adjustment.exact (adjustment : Adjustment) (received : Nat) : Int :=
  received + adjustment.received - adjustment.sent

/-- No more is taken away than there is, and what is left is less than 2^64. -/
def Adjustment.Covered (adjustment : Adjustment) (received : Nat) : Prop :=
  adjustment.sent ≤ received + adjustment.received ∧
    received + adjustment.received < adjustment.sent + UInt64.size

instance (adjustment : Adjustment) (received : Nat) : Decidable (adjustment.Covered received) :=
  inferInstanceAs (Decidable (_ ∧ _))

section Reports

variable (backend : Backend)

/-- The transactions that the request handles, as the check hands them on. -/
def checkedTxs (address viewKey : String) (world : World) : List XmrTransaction :=
  (world.db.selectTransactions (loggedIn backend address viewKey world).1.2.1.id).filterMap
    (txAfterCheck backend)

/-- What the mempool adds and takes away for the thread that the request finds. -/
def adjustment (address viewKey : String) (world : World) : Adjustment :=
  adjustmentOf backend ((loggedIn backend address viewKey world).2.thread? address)
    (checkAccount backend (loggedIn backend address viewKey world).1.2.1.id world.db)

theorem totalReceivedByTxs_ofNat (entries : List AddressTx) :
    totalReceivedByTxs entries = .ofNat (exactReceived (entries.map AddressTx.tx)) := by
  unfold totalReceivedByTxs exactReceived
  rw [Tables.foldl_add_eq, zero_add, Tables.total_map, total_ofNat]

theorem addressTxsAnswer_totals (response : Json) {read : AddressTxs} {entries : List AddressTx}
    (isRead : read.entries = some entries) :
    Answer.get? (addressTxsAnswer response read) "total_received" =
        some (.ofText (totalReceivedByTxs entries +
          Tables.total MempoolTx.totalReceived (read.mempool.getD []) -
          Tables.total MempoolTx.totalSent (read.mempool.getD [])).toNat) ∧
      Answer.get? (addressTxsAnswer response read) "total_received_unlocked" =
        some (.ofText (totalReceivedUnlocked entries +
          Tables.total MempoolTx.totalReceived (read.mempool.getD []) -
          Tables.total MempoolTx.totalSent (read.mempool.getD [])).toNat) := by
  unfold addressTxsAnswer
  rw [isRead]
  have sums (amount : MempoolTx → UInt64) :
      ((read.mempool.getD []).map amount).foldl (· + ·) 0 =
        Tables.total amount (read.mempool.getD []) := by
    rw [List.foldl_map, Tables.foldl_add_eq, zero_add]
  simp only [sums]
  constructor <;> simp [Answer.get?, sessionClose]

variable {backend} {request : Json} {address viewKey : String} {world : World}

/-- A request that logs in reports two balances, and each is exact if and only if the mempool takes
no more away from it than there is, and what is left is less than 2^64. -/
theorem adjusted_exact_iff (valid : world.db.Valid) (quiet : world.Quiet)
    (credentials : readCredentials backend request = .ok (address, viewKey))
    (succeeds : (loggedIn backend address viewKey world).1.1 = true) :
    ∃ total unlocked : UInt64,
      Answer.get? (getAddressTxs backend (some request) world).1 "total_received" =
          some (.ofText total.toNat) ∧
        Answer.get? (getAddressTxs backend (some request) world).1 "total_received_unlocked" =
          some (.ofText unlocked.toNat) ∧
        ((total.toNat : Int) = (adjustment backend address viewKey world).exact
            (exactReceived (checkedTxs backend address viewKey world)) ↔
          (adjustment backend address viewKey world).Covered
            (exactReceived (checkedTxs backend address viewKey world))) ∧
        ((unlocked.toNat : Int) = (adjustment backend address viewKey world).exact
            (exactReceived ((checkedTxs backend address viewKey world).filter (·.spendable))) ↔
          (adjustment backend address viewKey world).Covered
            (exactReceived ((checkedTxs backend address viewKey world).filter (·.spendable)))) := by
  obtain ⟨success, acc, after, login⟩ :=
    loginAndStartSearchThread_response backend address viewKey {} world
  obtain ⟨shown, loginTxs⟩ := login addressTxsResponse
  obtain ⟨shownNull, loginNull⟩ := login .null
  have kept := loginAndStartSearchThread_keepsTables backend address viewKey {} .null world quiet
  unfold adjustment checkedTxs loggedIn at *
  rw [loginNull] at kept succeeds ⊢
  obtain ⟨quietAfter, sameDb⟩ := kept
  simp only at quietAfter sameDb succeeds ⊢
  subst succeeds
  obtain ⟨entries, read, txs, -⟩ :=
    readAddress_eq backend quietAfter (sameDb ▸ valid) address acc
  have checkedQuiet : (after.on (checkAccount backend acc.id after.db)).Quiet := quietAfter
  obtain ⟨received, sent⟩ := findTxsInMempool_quiet backend checkedQuiet address
  obtain ⟨totals, unlocked⟩ := addressTxsAnswer_totals
    (accountHeader backend acc (shown.set "total_received" (.ofNat 0)))
    (congrArg AddressTxs.entries read)
  have answer : (getAddressTxs backend (some request) world).1 =
      addressTxsAnswer (accountHeader backend acc (shown.set "total_received" (.ofNat 0)))
        (readAddress backend address acc after).1 := by
    unfold getAddressTxs
    rw [parseRequest_of_credentials backend credentials .null]
    simp only
    rw [credentials]
    simp only [Handler.bind_apply]
    rw [loginTxs]
    rfl
  rw [read] at totals unlocked
  rw [read] at answer
  simp only at totals unlocked
  rw [received, sent, totalReceivedByTxs_ofNat] at totals
  rw [received, sent, totalReceivedUnlocked, totalReceivedByTxs_ofNat] at unlocked
  have spendable : (entries.filter (·.tx.spendable)).map AddressTx.tx =
      (entries.map AddressTx.tx).filter (·.spendable) := List.filter_map.symm
  rw [txs, sameDb] at totals
  rw [spendable, txs, sameDb] at unlocked
  rw [answer, sameDb]
  exact ⟨_, _, totals, unlocked, toNat_adjusted_iff _ _ _, toNat_adjusted_iff _ _ _⟩

end Reports

/-! ### Decoys -/

/-- Transactions `a1` and `b2` pay 5 and 7 to the account, `c3` has the output of 5 in a ring, and
every other one has it in two. -/
def decoys : Identifier where
  outputs tx :=
    if tx.hash = "a1" then [{ pubKey := "k1", amount := 5 }]
    else if tx.hash = "b2" then [{ pubKey := "k2", amount := 7 }]
    else []
  inputs known tx :=
    if tx.hash = "a1" ∨ tx.hash = "b2" then []
    else (known.filter (·.1 = "k1")).flatMap fun entry =>
      (if tx.hash = "c3" then ["i1"] else ["i1", "i2"]).map fun image =>
        { keyImg := image, outPubKey := entry.1, amount := entry.2 }

/-- A backend with the given transactions in the mempool. -/
def withMempool (mempoolTxs : List (Nat × Transaction)) : Backend :=
  { backend with identifier := fun _ _ => decoys, mempoolTxs }

/-- The account has received 5. -/
def received : Database :=
  Runs.run step {}
    [.create (account 0 "4ApA"),
      .pass { account := account 1 "4ApA", identifier := decoys } { currentHeight := 100 }
        { blkHeight := 10, blkTimestamp := 1600000000, isCoinbase := false } { hash := "a1" }
        { chainIndices := [7] } [] none]

/-- A transaction that pays the account, and one that spends what it has received. -/
def paidAndSpent : Backend :=
  withMempool [(1600000000, { hash := "b2" }), (1600000060, { hash := "c3" })]

/-- Of 5, of the 7 of the mempool and of the 5 that are spent there, 7 are left. -/
theorem adjusted_exact_iff_paidAndSpent :
    ∃ total unlocked : UInt64,
      Answer.get? (getAddressTxs paidAndSpent (some (request "4ApA")) { db := received }).1
          "total_received" = some (.ofText total.toNat) ∧
        Answer.get? (getAddressTxs paidAndSpent (some (request "4ApA")) { db := received }).1
          "total_received_unlocked" = some (.ofText unlocked.toNat) ∧
        (total.toNat : Int) = 7 ∧ (unlocked.toNat : Int) = 7 := by
  obtain ⟨total, unlocked, isTotal, isUnlocked, totalExact, unlockedExact⟩ :=
    @adjusted_exact_iff paidAndSpent (request "4ApA") "4ApA" "c0de" { db := received }
      (by decide +kernel) rfl rfl (by decide +kernel)
  have balance : (adjustment paidAndSpent "4ApA" "c0de" { db := received }).exact
      (exactReceived (checkedTxs paidAndSpent "4ApA" "c0de" { db := received })) = 7 := by
    decide +kernel
  have unlockedBalance : (adjustment paidAndSpent "4ApA" "c0de" { db := received }).exact
      (exactReceived ((checkedTxs paidAndSpent "4ApA" "c0de" { db := received }).filter
        (·.spendable))) = 7 := by
    decide +kernel
  refine ⟨total, unlocked, isTotal, isUnlocked, ?_, ?_⟩
  · exact (totalExact.mpr (by decide +kernel)).trans balance
  · exact (unlockedExact.mpr (by decide +kernel)).trans unlockedBalance

/-- A stranger's transaction in the mempool has the output of 5 in two rings: the exact balance is
below zero, and what is reported is almost 2^64. -/
theorem adjusted_wraps :
    (adjustment (withMempool [(1600000000, { hash := "d1" })]) "4ApA" "c0de"
        { db := received }).exact
      (exactReceived (checkedTxs (withMempool [(1600000000, { hash := "d1" })]) "4ApA" "c0de"
        { db := received })) = -5 ∧
      (Answer.get? (getAddressTxs (withMempool [(1600000000, { hash := "d1" })])
        (some (request "4ApA")) { db := received }).1 "total_received" >>= Json.asString?) =
          some "18446744073709551611" := by
  decide +kernel

end LightWallet.MempoolTotals
