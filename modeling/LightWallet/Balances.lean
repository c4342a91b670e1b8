/-
This file holds what makes the sums over the tables agree. What was received by
a transaction is the sum of its outputs, whatever is scanned. An input refers to
an output of its own account as long as the passes look up outputs of their own
accounts, which they may not: the lookup by public key finds the output of
whichever account.
-/

import LightWallet.Check
import LightWallet.Login
import LightWallet.Runs
import Mathlib.Data.UInt

namespace LightWallet.Balances

/-! ### The invariant -/

/-- What was received by a transaction is the sum of its outputs, rows belong to the account of
their transaction, and inputs refer to outputs of their own account. -/
structure Balanced (db : Database) : Prop where
  received : ∀ tx ∈ db.transactions,
    tx.totalReceived = Tables.total XmrOutput.amount (db.outputsForTx tx.id)
  outputOwner : ∀ output ∈ db.outputs, ∀ tx ∈ db.transactions, tx.id = output.txId →
    output.accountId = tx.accountId
  inputOwner : ∀ input ∈ db.inputs, ∀ tx ∈ db.transactions, tx.id = input.txId →
    input.accountId = tx.accountId
  linked : ∀ input ∈ db.inputs, ∀ output ∈ db.outputs, output.id = input.outputId →
    input.accountId = output.accountId

theorem balanced_of_empty {db : Database} (transactions : db.transactions = [])
    (outputs : db.outputs = []) (inputs : db.inputs = []) : Balanced db where
  received := by simp [transactions]
  outputOwner := by simp [outputs]
  inputOwner := by simp [inputs]
  linked := by simp [inputs]

theorem Balanced.deleteTx {db : Database} (balanced : Balanced db) (txId : Nat) :
    Balanced (db.deleteTx txId).2 where
  received tx member := by
    obtain ⟨inRows, kept⟩ := Database.mem_deleteTx_transactions.mp member
    rw [balanced.received tx inRows]
    refine congrArg (Tables.total XmrOutput.amount) ?_
    show _ = (db.outputs.filter (·.txId ≠ txId)).filter (·.txId = tx.id)
    rw [List.filter_filter]
    refine List.filter_congr fun output _ => ?_
    by_cases here : output.txId = tx.id
    · simp [here, kept]
    · simp [here]
  outputOwner output inOutputs tx inRows :=
    balanced.outputOwner output (Database.mem_deleteTx_outputs.mp inOutputs).1 tx
      (Database.mem_deleteTx_transactions.mp inRows).1
  inputOwner input inInputs tx inRows :=
    balanced.inputOwner input (Database.mem_deleteTx_inputs.mp inInputs).1 tx
      (Database.mem_deleteTx_transactions.mp inRows).1
  linked input inInputs output inOutputs :=
    balanced.linked input (Database.mem_deleteTx_inputs.mp inInputs).1 output
      (Database.mem_deleteTx_outputs.mp inOutputs).1

theorem Balanced.markTxSpendable {db : Database} (balanced : Balanced db) (txId now : Nat) :
    Balanced (db.markTxSpendable txId now).2 := by
  -- marking touches neither the ids, nor the accounts, nor the totals
  have marked {tx : XmrTransaction}
      (member : tx ∈ (db.markTxSpendable txId now).2.transactions) :
      ∃ row ∈ db.transactions, tx.id = row.id ∧ tx.accountId = row.accountId ∧
        tx.totalReceived = row.totalReceived := by
    obtain ⟨row, inRows, rfl⟩ := List.mem_map.mp member
    refine ⟨row, inRows, ?_⟩
    split <;> exact ⟨rfl, rfl, rfl⟩
  exact
    { received := fun tx member => by
        obtain ⟨row, inRows, id, -, total⟩ := marked member
        rw [total, id]
        exact balanced.received row inRows
      outputOwner := fun output inOutputs tx member same => by
        obtain ⟨row, inRows, id, account, -⟩ := marked member
        rw [account]
        exact balanced.outputOwner output inOutputs row inRows (id.symm.trans same)
      inputOwner := fun input inInputs tx member same => by
        obtain ⟨row, inRows, id, account, -⟩ := marked member
        rw [account]
        exact balanced.inputOwner input inInputs row inRows (id.symm.trans same)
      linked := balanced.linked }

/-! ### Recording -/

section Pass

variable {wallet : Wallet} {status : Status} {tuple : TxTuple} {tx : Transaction}
  {outcomes : Outcomes} {scanned : Scanned}

/-- Every recorded output that the pass looks up for an input belongs to its account. -/
def LooksUpOwn (wallet : Wallet) (tx : Transaction) (outcomes : Outcomes) (scanned : Scanned) :
    Prop :=
  ∀ info ∈ identifiedInputs wallet tx scanned,
    ∀ output ∈ (clearedDb wallet tx outcomes scanned.db).outputs,
      output.outPubKey = info.outPubKey → output.accountId = wallet.account.id

instance : Decidable (LooksUpOwn wallet tx outcomes scanned) :=
  inferInstanceAs (Decidable (∀ info ∈ _, ∀ output ∈ _, _ → _))

theorem clearedDb_balanced (balanced : Balanced scanned.db) :
    Balanced (clearedDb wallet tx outcomes scanned.db) := by
  unfold clearedDb
  cases existingTx wallet tx outcomes scanned.db with
  | none => exact balanced
  | some old => exact balanced.deleteTx old.id

theorem total_numbered {Row : Type} (setId : Row → Nat → Row) (amount : Row → UInt64)
    (fixed : ∀ row id, amount (setId row id) = amount row) (next : Nat) (rows : List Row) :
    Tables.total amount (Database.numbered setId next rows) = Tables.total amount rows := by
  unfold Tables.total
  rw [Database.numbered_map setId amount fixed]

/-- The rows of the outputs add up to what is stored as received. -/
theorem total_storedOutputs (txMysqlId : Nat) :
    Tables.total XmrOutput.amount (storedOutputs wallet tuple tx outcomes scanned txMysqlId) =
      calcTotalXmr (wallet.identifier.outputs tx) := by
  unfold calcTotalXmr
  rw [Tables.foldl_add_eq, zero_add]
  unfold Tables.total storedOutputs
  rw [List.map_map]
  rfl

/-- The new rows of a transaction keep the balance, if every input refers to an output of its own
account. -/
theorem Stores.balanced (stores : Stores wallet status tuple tx outcomes scanned)
    (valid : scanned.db.Valid) (balanced : Balanced scanned.db)
    (own : LooksUpOwn wallet tx outcomes scanned) :
    Balanced (filledDb wallet status tuple tx outcomes scanned) := by
  have validCleared : (clearedDb wallet tx outcomes scanned.db).Valid := clearedDb_valid valid
  have before : Balanced (clearedDb wallet tx outcomes scanned.db) := clearedDb_balanced balanced
  have validFilled := stores.valid valid
  refine ⟨fun row member => ?_, fun output inOutputs row inRows same => ?_,
    fun input inInputs row inRows same => ?_, fun input inInputs output inOutputs same => ?_⟩
  · rcases mem_filledDb_transactions.mp member with old | rfl
    · rw [filledDb_outputsForTx (Nat.ne_of_lt (validCleared.transactionFresh row old))]
      exact before.received row old
    · rw [filledDb_outputsForTx_new valid]
      exact ((total_numbered (fun (output : XmrOutput) id => { output with id })
        XmrOutput.amount (fun _ _ => rfl) _ _).trans (total_storedOutputs _)).symm
  · rcases mem_filledDb_outputs.mp inOutputs with old | new
    · rcases mem_filledDb_transactions.mp inRows with oldRow | rfl
      · exact before.outputOwner output old row oldRow same
      · exact absurd same.symm (Nat.ne_of_lt (validCleared.output_txId_lt old))
    · obtain ⟨-, -, -, txId, account, -⟩ := of_mem_newOutputs new
      rcases mem_filledDb_transactions.mp inRows with oldRow | rfl
      · exact absurd (same.trans txId) (Nat.ne_of_lt (validCleared.transactionFresh row oldRow))
      · exact account
  · rcases mem_filledDb_inputs.mp inInputs with old | new
    · rcases mem_filledDb_transactions.mp inRows with oldRow | rfl
      · exact before.inputOwner input old row oldRow same
      · exact absurd same.symm (Nat.ne_of_lt (validCleared.input_txId_lt old))
    · obtain ⟨txId, found, inFound, account, -⟩ := of_mem_newInputs new
      rcases mem_filledDb_transactions.mp inRows with oldRow | rfl
      · exact absurd (same.trans txId) (Nat.ne_of_lt (validCleared.transactionFresh row oldRow))
      · obtain ⟨-, -, -, -, -, ours, -⟩ := of_mem_passInputs status inFound
        exact account.trans ours
  · rcases mem_filledDb_inputs.mp inInputs with old | new
    · rcases mem_filledDb_outputs.mp inOutputs with oldOutput | newOutput
      · exact before.linked input old output oldOutput same
      · obtain ⟨-, -, least, -⟩ := of_mem_newOutputs newOutput
        have earlier := validCleared.input_outputId_lt old
        omega
    · obtain ⟨-, found, inFound, account, outputId, -⟩ := of_mem_newInputs new
      obtain ⟨info, identified, spent, inFilled, key, ours, id, -⟩ :=
        of_mem_passInputs status inFound
      -- the output looked up is the one the input refers to
      obtain rfl : output = spent := validFilled.outputIds.eq_of_key inOutputs inFilled
        (same.trans (outputId.trans id))
      rw [account, ours]
      rcases mem_filledDb_outputs.mp inOutputs with oldOutput | newOutput
      · exact (own info identified output oldOutput key).symm
      · obtain ⟨-, -, -, -, theirs, -⟩ := of_mem_newOutputs newOutput
        exact theirs.symm

end Pass

/-! ### Runs -/

/-- An account is inserted; its row gets other heights, at the end of a window or by an import; a
search thread records a transaction, with the cache and the block time it starts with; or a
request selects the transactions of an account and checks them. -/
inductive Event where
  | create (row : XmrAccount)
  | save (answers : Bool) (accountId scannedHeight startHeight blkTimestamp : Nat)
  | pass (wallet : Wallet) (status : Status) (tuple : TxTuple) (tx : Transaction)
      (outcomes : Outcomes) (known : KnownOutputs) (blkTimestamp : Option Nat)
  | check (backend : Backend) (accountId : Nat) (throwing : List Bool)

/-- An insertion that is refused leaves the tables as they are. -/
def createRow (db : Database) (row : XmrAccount) : Database :=
  ((db.insertAccount row).map (·.2)).getD db

/-- The heights of a row are written, unless there is no such row or the statement fails. -/
def saveRow (db : Database) (answers : Bool)
    (accountId scannedHeight startHeight blkTimestamp : Nat) : Database :=
  match db.accounts.find? (·.id = accountId) with
  | none => db
  | some row =>
    (db.update answers row
      { row with
        scannedBlockHeight := scannedHeight
        startHeight := startHeight
        scannedBlockTimestamp := blkTimestamp }).2

/-- What an event does to the tables. -/
def step (db : Database) : Event → Database
  | .create row => createRow db row
  | .save answers accountId scannedHeight startHeight blkTimestamp =>
    saveRow db answers accountId scannedHeight startHeight blkTimestamp
  | .pass wallet status tuple tx outcomes known blkTimestamp =>
    (recordTx wallet status tuple tx outcomes ⟨db, known, blkTimestamp⟩).2.db
  | .check backend accountId throwing =>
    ((selectTransactions accountId >>= selectTxsForAccountSpendabilityCheck backend)
      { db, throwing }).2.db

/-- A pass looks up outputs of its own account only. -/
def StepLooksUpOwn (db : Database) : Event → Prop
  | .pass wallet _ _ tx outcomes known blkTimestamp =>
    LooksUpOwn wallet tx outcomes ⟨db, known, blkTimestamp⟩
  | _ => True

instance (db : Database) : ∀ event, Decidable (StepLooksUpOwn db event)
  | .pass _ _ _ _ _ _ _ => inferInstanceAs (Decidable (LooksUpOwn _ _ _ _))
  | .create _ => inferInstanceAs (Decidable True)
  | .save _ _ _ _ _ => inferInstanceAs (Decidable True)
  | .check _ _ _ => inferInstanceAs (Decidable True)

/-- What is said of transactions, outputs and inputs does not depend on the accounts. -/
theorem Balanced.onAccounts {db after : Database} (balanced : Balanced db)
    (transactions : after.transactions = db.transactions) (outputs : after.outputs = db.outputs)
    (inputs : after.inputs = db.inputs) : Balanced after where
  received := by
    unfold Database.outputsForTx
    rw [transactions, outputs]
    exact balanced.received
  outputOwner := by
    rw [transactions, outputs]
    exact balanced.outputOwner
  inputOwner := by
    rw [transactions, inputs]
    exact balanced.inputOwner
  linked := by
    rw [outputs, inputs]
    exact balanced.linked

/-- Creating a row touches nothing but the rows of accounts. -/
theorem createRow_eq (db : Database) (row : XmrAccount) :
    ∃ accounts nextAccount, createRow db row = { db with accounts, nextAccount } := by
  unfold createRow
  cases inserted : db.insertAccount row with
  | none => exact ⟨db.accounts, db.nextAccount, rfl⟩
  | some pair => exact ⟨_, _, (Database.insertAccount_eq inserted).2.2⟩

/-- And so does saving one. -/
theorem saveRow_eq (db : Database) (answers : Bool)
    (accountId scannedHeight startHeight blkTimestamp : Nat) :
    ∃ accounts, saveRow db answers accountId scannedHeight startHeight blkTimestamp =
      { db with accounts } := by
  unfold saveRow
  cases db.accounts.find? (·.id = accountId) with
  | none => exact ⟨db.accounts, rfl⟩
  | some row => cases answers <;> exact ⟨_, rfl⟩

/-- What is kept whichever transaction is deleted or marked holds after the check of an account. -/
theorem step_check_invariant (invariant : Database → Prop)
    (deletes : ∀ db txId, invariant db → invariant (db.deleteTx txId).2)
    (marks : ∀ db txId now, invariant db → invariant (db.markTxSpendable txId now).2)
    (backend : Backend) (accountId : Nat) (throwing : List Bool) {db : Database}
    (initially : invariant db) : invariant (step db (.check backend accountId throwing)) := by
  refine check_invariant invariant deletes marks backend _ _ ?_
  have read : (selectTransactions accountId { db, throwing }).2.db = db :=
    (KeepsDb.query [] (·.selectTransactions accountId) _).1
  rw [read]
  exact initially

theorem createRow_valid {db : Database} (valid : db.Valid) (row : XmrAccount) :
    (createRow db row).Valid := by
  unfold createRow
  cases inserted : db.insertAccount row with
  | none => exact valid
  | some pair => exact valid.insertAccount inserted

theorem saveRow_valid {db : Database} (valid : db.Valid) (answers : Bool)
    (accountId scannedHeight startHeight blkTimestamp : Nat) :
    (saveRow db answers accountId scannedHeight startHeight blkTimestamp).Valid := by
  unfold saveRow
  cases found : db.accounts.find? (·.id = accountId) with
  | none => exact valid
  | some row =>
    cases answers with
    | false => exact valid
    | true => exact valid.updateAccount (List.mem_of_find?_eq_some found) rfl rfl rfl

/-- Every step keeps what the schema guarantees. -/
theorem step_valid {db : Database} (valid : db.Valid) (event : Event) : (step db event).Valid := by
  cases event with
  | create row => exact createRow_valid valid row
  | save answers accountId scannedHeight startHeight blkTimestamp =>
    exact saveRow_valid valid answers accountId scannedHeight startHeight blkTimestamp
  | pass wallet status tuple tx outcomes known blkTimestamp =>
    exact @recordTx_valid wallet status tuple tx outcomes ⟨db, known, blkTimestamp⟩ valid
  | check backend accountId throwing =>
    exact step_check_invariant Database.Valid (fun _ txId kept => kept.deleteTx txId)
      (fun _ txId now kept => kept.markTxSpendable txId now) backend accountId throwing valid

theorem createRow_balanced {db : Database} (balanced : Balanced db) (row : XmrAccount) :
    Balanced (createRow db row) := by
  obtain ⟨accounts, nextAccount, after⟩ := createRow_eq db row
  rw [after]
  exact balanced.onAccounts rfl rfl rfl

theorem saveRow_balanced {db : Database} (balanced : Balanced db) (answers : Bool)
    (accountId scannedHeight startHeight blkTimestamp : Nat) :
    Balanced (saveRow db answers accountId scannedHeight startHeight blkTimestamp) := by
  obtain ⟨accounts, after⟩ := saveRow_eq db answers accountId scannedHeight startHeight blkTimestamp
  rw [after]
  exact balanced.onAccounts rfl rfl rfl

theorem balanced_step {db : Database} {event : Event} (balanced : db.Valid ∧ Balanced db)
    (own : StepLooksUpOwn db event) : (step db event).Valid ∧ Balanced (step db event) := by
  refine ⟨step_valid balanced.1 event, ?_⟩
  cases event with
  | create row => exact createRow_balanced balanced.2 row
  | save answers accountId scannedHeight startHeight blkTimestamp =>
    exact saveRow_balanced balanced.2 answers accountId scannedHeight startHeight blkTimestamp
  | pass wallet status tuple tx outcomes known blkTimestamp =>
    show Balanced (recordTx _ _ _ _ _ _).2.db
    rcases recordTx_cases wallet status tuple tx outcomes ⟨db, known, blkTimestamp⟩ with
      ⟨-, same | cleared⟩ | ⟨stores, -, filled⟩
    · rw [same]
      exact balanced.2
    · rw [cleared]
      exact clearedDb_balanced balanced.2
    · rw [filled]
      exact Stores.balanced stores balanced.1 balanced.2 own
  | check backend accountId throwing =>
    exact step_check_invariant Balanced (fun _ txId kept => kept.deleteTx txId)
      (fun _ txId now kept => kept.markTxSpendable txId now) backend accountId throwing balanced.2

/-- Every run of steps that look up outputs of their own account leaves the tables balanced. -/
theorem balanced_run (events : List Event) (own : Runs.Along step StepLooksUpOwn {} events) :
    (Runs.run step {} events).Valid ∧ Balanced (Runs.run step {} events) :=
  Runs.run_invariant step StepLooksUpOwn (fun db => db.Valid ∧ Balanced db)
    (fun _ _ balanced ownStep => balanced_step balanced ownStep) events {}
    ⟨by decide, balanced_of_empty rfl rfl rfl⟩ own

end LightWallet.Balances
