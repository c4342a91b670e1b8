/-
This file settles how deep a transaction is when it is marked as spendable.

The scan and the spendability check both ask whether the transaction is unlocked.
Only a transaction without an unlock time is given one that keeps it locked for
the default number of blocks. Every other unlock time is the sender's, and may lie
in the past of the block that holds the transaction.
-/

import LightWallet.Balances

namespace LightWallet.Depth

open Balances (Event step createRow saveRow)

/-! ### Marks -/

/-- The transaction has the depth at which blocks are taken to be permanent. -/
def Deep (status : Status) (height : Nat) : Prop :=
  height + defaultTxSpendableAge ≤ status.currentHeight + 1

instance (status : Status) (height : Nat) : Decidable (Deep status height) :=
  inferInstanceAs (Decidable (_ ≤ _))

/-- What a pass or a check sees of the outside. -/
def statusOf : Event → Option Status
  | .pass _ status _ _ _ _ _ => some status
  | .check backend _ _ => some backend.status
  | _ => none

/-- A row that the event marks, or inserts as marked, is deep. -/
def MarksDeep (db : Database) (event : Event) : Prop :=
  ∀ row ∈ (step db event).transactions, row.spendable = true →
    (∃ old ∈ db.transactions, old.id = row.id ∧ old.spendable = true) ∨
      ∃ status ∈ statusOf event, Deep status row.height

instance (db : Database) (event : Event) : Decidable (MarksDeep db event) :=
  have (height : Nat) : Decidable (∃ status ∈ statusOf event, Deep status height) :=
    match statusOf event with
    | none => isFalse fun ⟨_, absent, _⟩ => absurd absent (Option.not_mem_none _)
    | some status => decidable_of_iff (Deep status height) (by simp)
  inferInstanceAs
    (Decidable (∀ row : XmrTransaction, row ∈ _ → row.spendable = true → _ ∨ _))

/-! ### The condition -/

/-- A block index locks the transaction for the default number of blocks; a time has not come yet
when the transaction is not deep. -/
def LocksLongEnough (status : Status) (unlockTime height : Nat) : Prop :=
  if unlockTime < maxBlockNumber then height + defaultTxSpendableAge ≤ unlockTime
  else status.now + getLeeway status.netType height < unlockTime ∨ Deep status height

instance (status : Status) (unlockTime height : Nat) :
    Decidable (LocksLongEnough status unlockTime height) := by
  unfold LocksLongEnough
  infer_instance

/-- The transactions that a pass records are locked long enough, and so are those that a check
goes through and whose unlock time is no block index. -/
def StepLocks (db : Database) : Event → Prop
  | .pass wallet status tuple tx _ known _ =>
    wallet.identifier.outputs tx ≠ [] ∨ wallet.identifier.inputs known tx ≠ [] →
      LocksLongEnough status (txUnlockTime tuple tx) tuple.blkHeight
  | .check backend accountId _ =>
    ∀ row ∈ db.selectTransactions accountId, row.spendable = false →
      maxBlockNumber ≤ row.unlockTime →
      LocksLongEnough backend.status row.unlockTime row.height
  | _ => True

instance (db : Database) : ∀ event, Decidable (StepLocks db event)
  | .pass _ _ _ _ _ _ _ => inferInstanceAs (Decidable (_ ∨ _ → _))
  | .check _ _ _ => inferInstanceAs (Decidable (∀ row ∈ _, _ → _ → _))
  | .create _ => inferInstanceAs (Decidable True)
  | .save _ _ _ _ _ => inferInstanceAs (Decidable True)

/-! ### The invariant -/

/-- A recorded unlock time that is a block index locks for the default number of blocks. -/
def Locked (db : Database) : Prop :=
  ∀ row ∈ db.transactions, row.unlockTime < maxBlockNumber →
    row.height + defaultTxSpendableAge ≤ row.unlockTime

theorem deep_of_unlocked {status : Status} {unlockTime height : Nat}
    (locks : LocksLongEnough status unlockTime height)
    (unlocked : isTxUnlocked status unlockTime height = true) : Deep status height := by
  unfold LocksLongEnough at locks
  unfold isTxUnlocked lockedTxAllowedDeltaBlocks at unlocked
  unfold Deep
  split at locks
  · next index =>
    rw [if_pos index, decide_eq_true_eq] at unlocked
    exact locks.trans unlocked
  · next time =>
    rw [if_neg time, decide_eq_true_eq] at unlocked
    exact locks.resolve_left (Nat.not_lt.mpr unlocked)

/-- Rows that were there before keep their heights and their unlock times. -/
def Continues (before after : Database) : Prop :=
  ∀ row ∈ after.transactions, ∃ old ∈ before.transactions,
    old.id = row.id ∧ old.height = row.height ∧ old.unlockTime = row.unlockTime

theorem Continues.locked {before after : Database} (continues : Continues before after)
    (locked : Locked before) : Locked after := by
  intro row member index
  obtain ⟨old, inRows, -, height, unlockTime⟩ := continues row member
  rw [← height, ← unlockTime]
  exact locked old inRows (unlockTime ▸ index)

theorem createRow_transactions (db : Database) (row : XmrAccount) :
    (createRow db row).transactions = db.transactions := by
  obtain ⟨accounts, nextAccount, after⟩ := Balances.createRow_eq db row
  rw [after]

theorem saveRow_transactions (db : Database) (answers : Bool)
    (accountId scannedHeight startHeight blkTimestamp : Nat) :
    (saveRow db answers accountId scannedHeight startHeight blkTimestamp).transactions =
      db.transactions := by
  obtain ⟨accounts, after⟩ :=
    Balances.saveRow_eq db answers accountId scannedHeight startHeight blkTimestamp
  rw [after]

/-! ### A pass -/

section Pass

variable {wallet : Wallet} {status : Status} {tuple : TxTuple} {tx : Transaction}
  {outcomes : Outcomes} {scanned : Scanned}

theorem mem_clearedDb {row : XmrTransaction}
    (member : row ∈ (clearedDb wallet tx outcomes scanned.db).transactions) :
    row ∈ scanned.db.transactions := by
  unfold clearedDb at member
  split at member
  · exact member
  · exact (Database.mem_deleteTx_transactions.mp member).1

/-- A row of the tables after a pass is an old one, or the new row of the transaction. -/
theorem mem_recordTx {row : XmrTransaction}
    (member : row ∈ (recordTx wallet status tuple tx outcomes scanned).2.db.transactions) :
    row ∈ scanned.db.transactions ∨
      (wallet.identifier.outputs tx ≠ [] ∨ identifiedInputs wallet tx scanned ≠ []) ∧
        row.height = tuple.blkHeight ∧ row.unlockTime = txUnlockTime tuple tx ∧
        row.spendable = isTxUnlocked status (txUnlockTime tuple tx) tuple.blkHeight := by
  rcases recordTx_cases wallet status tuple tx outcomes scanned with
    ⟨-, same | cleared⟩ | ⟨stores, -, filled⟩
  · rw [same] at member
    exact .inl member
  · rw [cleared] at member
    exact .inl (mem_clearedDb member)
  · rw [filled] at member
    rcases mem_filledDb_transactions.mp member with old | rfl
    · exact .inl (mem_clearedDb old)
    · exact .inr ⟨stores.opens.2.1, rfl, rfl, rfl⟩

end Pass

/-! ### A check -/

/-- A check continues the rows, and marks a row only when it is deep. -/
theorem check_marks {db : Database} (valid : db.Valid) (locked : Locked db) (backend : Backend)
    (accountId : Nat) (throwing : List Bool)
    (locks : StepLocks db (.check backend accountId throwing)) :
    Continues db (step db (.check backend accountId throwing)) ∧
      MarksDeep db (.check backend accountId throwing) := by
  let kept (after : Database) : Prop :=
    Continues db after ∧ ∀ row ∈ after.transactions, row.spendable = true →
      (∃ old ∈ db.transactions, old.id = row.id ∧ old.spendable = true) ∨
        Deep backend.status row.height
  have read : (selectTransactions accountId { db, throwing }).2.db = db :=
    (KeepsDb.query [] (·.selectTransactions accountId) _).1
  have selected : ∀ tx ∈ (selectTransactions accountId { db, throwing }).1,
      tx ∈ db.selectTransactions accountId := by
    intro tx member
    have answers : (selectTransactions accountId { db, throwing }).1 = [] ∨
        (selectTransactions accountId { db, throwing }).1 = db.selectTransactions accountId :=
      query_result rfl
    rcases answers with none | some
    · rw [none] at member
      cases member
    · rw [some] at member
      exact member
  have after : kept (step db (.check backend accountId throwing)) := by
    refine check_induction kept backend _ (fun before tx _ keeps => ?_)
      (fun before tx member unmarked unlocked keeps => ?_) _ ?_
    · refine ⟨fun row inRows => ?_, fun row inRows => ?_⟩
      · exact keeps.1 row (Database.mem_deleteTx_transactions.mp inRows).1
      · exact keeps.2 row (Database.mem_deleteTx_transactions.mp inRows).1
    · -- the row that is marked is still the one that was selected
      have deep : ∀ row ∈ before.transactions, row.id = tx.id →
          Deep backend.status row.height := by
        intro row inRows same
        obtain ⟨old, inOld, id, height, -⟩ := keeps.1 row inRows
        have inDb := (List.mem_filter.mp (selected tx member)).1
        obtain rfl := valid.transactionIds.eq_of_key inOld inDb (id.trans same)
        rw [← height]
        refine deep_of_unlocked ?_ unlocked
        by_cases index : old.unlockTime < maxBlockNumber
        · unfold LocksLongEnough
          rw [if_pos index]
          exact locked old inOld index
        · exact locks old (selected old member) (by simpa using unmarked) (Nat.not_lt.mp index)
      refine ⟨fun row inRows => ?_, fun row inRows spendable => ?_⟩
      · obtain ⟨original, inBefore, rfl⟩ := List.mem_map.mp inRows
        obtain ⟨old, inOld, same⟩ := keeps.1 original inBefore
        refine ⟨old, inOld, ?_⟩
        split <;> exact same
      · obtain ⟨original, inBefore, rfl⟩ := List.mem_map.mp inRows
        split at spendable
        · next same =>
          rw [if_pos same]
          exact .inr (deep original inBefore same)
        · next differs =>
          rw [if_neg differs]
          exact keeps.2 original inBefore spendable
    · rw [read]
      exact ⟨fun row member => ⟨row, member, rfl, rfl, rfl⟩,
        fun row member spendable => .inl ⟨row, member, rfl, spendable⟩⟩
  refine ⟨after.1, fun row member spendable => ?_⟩
  exact (after.2 row member spendable).imp id fun deep => ⟨backend.status, rfl, deep⟩

/-! ### Runs -/

/-- A step under the condition marks deep rows only, and keeps the invariant. -/
theorem marksDeep_step {db : Database} {event : Event} (kept : db.Valid ∧ Locked db)
    (locks : StepLocks db event) :
    ((step db event).Valid ∧ Locked (step db event)) ∧ MarksDeep db event := by
  obtain ⟨valid, locked⟩ := kept
  have validAfter : (step db event).Valid := Balances.step_valid valid event
  cases event with
  | create row =>
    have same : (step db (.create row)).transactions = db.transactions :=
      createRow_transactions db row
    refine ⟨⟨validAfter, ?_⟩, ?_⟩
    · unfold Locked
      rw [same]
      exact locked
    · intro row member spendable
      rw [same] at member
      exact .inl ⟨row, member, rfl, spendable⟩
  | save answers accountId scannedHeight startHeight blkTimestamp =>
    have same := saveRow_transactions db answers accountId scannedHeight startHeight blkTimestamp
    refine ⟨⟨validAfter, ?_⟩, ?_⟩
    · unfold Locked
      rw [show (step db (.save _ _ _ _ _)).transactions = db.transactions from same]
      exact locked
    · intro row member spendable
      rw [show (step db (.save _ _ _ _ _)).transactions = db.transactions from same] at member
      exact .inl ⟨row, member, rfl, spendable⟩
  | pass wallet status tuple tx outcomes known blkTimestamp =>
    refine ⟨⟨validAfter, fun row member index => ?_⟩, fun row member spendable => ?_⟩
    · rcases mem_recordTx member with old | ⟨something, height, unlockTime, -⟩
      · exact locked row old index
      · have long := locks something
        unfold LocksLongEnough at long
        rw [unlockTime] at index
        rw [if_pos index] at long
        rw [height, unlockTime]
        exact long
    · rcases mem_recordTx member with old | ⟨something, height, -, marked⟩
      · exact .inl ⟨row, old, rfl, spendable⟩
      · rw [marked] at spendable
        refine .inr ⟨status, rfl, ?_⟩
        rw [height]
        exact deep_of_unlocked (locks something) spendable
  | check backend accountId throwing =>
    obtain ⟨continues, deep⟩ := check_marks valid locked backend accountId throwing locks
    exact ⟨⟨validAfter, continues.locked locked⟩, deep⟩

/-- In every run whose transactions are locked long enough, every row that is marked is deep. -/
theorem marked_deep (events : List Event) (locks : Runs.Along step StepLocks {} events) :
    Runs.Along step MarksDeep {} events :=
  Runs.along_of_step step StepLocks MarksDeep (fun db => db.Valid ∧ Locked db)
    (fun _ _ kept stepLocks => marksDeep_step kept stepLocks) events {}
    ⟨by decide, fun row member => absurd member List.not_mem_nil⟩ locks

/-! ### An unlock time in the past -/

/-- Every transaction pays the account. -/
def paid : Identifier where
  outputs tx := [{ pubKey := tx.hash, amount := 5 }]
  inputs _ _ := []

/-- The account that is paid. -/
def account : XmrAccount := { id := 1, address := "4ApA", viewkeyHash := "c0de" }

/-- A scan of a transaction in the block at height 10. -/
def scans (unlockTime currentHeight : Nat) : Event :=
  .pass { account, identifier := paid } { currentHeight }
    { blkHeight := 10, blkTimestamp := 1600000000, isCoinbase := false }
    { hash := "a1", unlockTime } { chainIndices := [7] } [] none

/-- A check of the account, with the given height of the blockchain. -/
def checks (currentHeight : Nat) : Event :=
  .check { Backend.empty with status := { currentHeight }, txExist := fun _ => some 1 } 1 []

/-- Without an unlock time the transaction stays locked until it is deep. -/
theorem marked_deep_unlocked :
    Runs.Along step MarksDeep {} [.create account, scans 0 10, checks 15, checks 19] :=
  marked_deep [.create account, scans 0 10, checks 15, checks 19] (by decide +kernel)

/-- A sender's unlock time of one marks a transaction in the newest block, at the scan; one of a
block ahead does so at the next check. -/
theorem marked_shallow :
    ¬ Runs.Along step MarksDeep {} [.create account, scans 1 10] ∧
      ¬ Runs.Along step MarksDeep {} [.create account, scans 12 10, checks 11] := by
  decide +kernel

end LightWallet.Depth
