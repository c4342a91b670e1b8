/-
This file holds the database of the service and the statements that are run on
it: the tables with the unique keys and foreign keys of `openmonero.sql`, and
one definition for each statement of `MySqlAccounts`. A statement is one step of
one connection. A multi-row `INSERT` is all or nothing, a `DELETE` of a
transaction takes the rows that refer to it along, and an `UPDATE` reports the
rows it changed.
-/

import LightWallet.Rows
import LightWallet.Tables

namespace LightWallet

/-- The tables with their `AUTO_INCREMENT` counters. -/
structure Database where
  accounts : List XmrAccount := []
  transactions : List XmrTransaction := []
  outputs : List XmrOutput := []
  inputs : List XmrInput := []
  payments : List XmrPayment := []
  nextAccount : Nat := 1
  nextTransaction : Nat := 1
  nextOutput : Nat := 1
  nextInput : Nat := 1
  nextPayment : Nat := 1
  deriving DecidableEq, Repr

namespace Database

/-! ### Selections -/

/-- `SELECT * FROM Accounts WHERE address = …`. -/
def selectAccount (db : Database) (address : String) : Option XmrAccount :=
  db.accounts.find? (·.address = address)

/-- `SELECT * FROM Transactions WHERE account_id = …`. -/
def selectTransactions (db : Database) (accountId : Nat) : List XmrTransaction :=
  db.transactions.filter (·.accountId = accountId)

/-- `SELECT * FROM Outputs WHERE account_id = …`. -/
def selectOutputs (db : Database) (accountId : Nat) : List XmrOutput :=
  db.outputs.filter (·.accountId = accountId)

/-- `SELECT * FROM Payments WHERE account_id = …`. -/
def selectPayments (db : Database) (accountId : Nat) : List XmrPayment :=
  db.payments.filter (·.accountId = accountId)

/-- `SELECT * FROM Outputs WHERE tx_id = …`. -/
def outputsForTx (db : Database) (txId : Nat) : List XmrOutput :=
  db.outputs.filter (·.txId = txId)

/-- `SELECT * FROM Inputs WHERE tx_id = …`. -/
def inputsForTx (db : Database) (txId : Nat) : List XmrInput :=
  db.inputs.filter (·.txId = txId)

/-- `SELECT * FROM Inputs WHERE output_id = …`. -/
def inputsForOut (db : Database) (outputId : Nat) : List XmrInput :=
  db.inputs.filter (·.outputId = outputId)

/-- `SELECT * FROM Outputs WHERE id = …`. -/
def outputByPrimaryId (db : Database) (id : Nat) : Option XmrOutput :=
  db.outputs.find? (·.id = id)

/-- `SELECT * FROM Transactions WHERE account_id = … AND hash = …`. -/
def txExists (db : Database) (accountId : Nat) (hash : String) : Option XmrTransaction :=
  db.transactions.find? fun tx => tx.accountId = accountId ∧ tx.hash = hash

/-- `SELECT * FROM Outputs WHERE out_pub_key = …`, of whichever account. -/
def outputExists (db : Database) (outPubKey : String) : Option XmrOutput :=
  db.outputs.find? (·.outPubKey = outPubKey)

/-! ### Insertions -/

/-- A row of `Accounts` has the id. -/
def hasAccount (db : Database) (id : Nat) : Bool := db.accounts.any (·.id = id)

/-- A row of `Transactions` has the id. -/
def hasTransaction (db : Database) (id : Nat) : Bool := db.transactions.any (·.id = id)

/-- A row of `Outputs` has the id. -/
def hasOutput (db : Database) (id : Nat) : Bool := db.outputs.any (·.id = id)

/-- `address` is a unique key of `Accounts`. -/
def insertAccount (db : Database) (row : XmrAccount) : Option (Nat × Database) :=
  if db.accounts.all (·.address ≠ row.address) then
    some (db.nextAccount,
      { db with
        accounts := db.accounts ++ [{ row with id := db.nextAccount, viewkey := "" }]
        nextAccount := db.nextAccount + 1 })
  else none

/-- `(hash, account_id)` is a unique key of `Transactions`. -/
def acceptsTransaction (db : Database) (row : XmrTransaction) : Bool :=
  db.hasAccount row.accountId &&
    db.transactions.all fun old => ¬ (old.hash = row.hash ∧ old.accountId = row.accountId)

/-- The row gets the next id. -/
def appendTransaction (db : Database) (row : XmrTransaction) : Database :=
  { db with
    transactions := db.transactions ++ [{ row with id := db.nextTransaction }]
    nextTransaction := db.nextTransaction + 1 }

/-- The id that the row gets, unless a key or a reference refuses it. -/
def insertTransaction (db : Database) (row : XmrTransaction) : Option (Nat × Database) :=
  if db.acceptsTransaction row then some (db.nextTransaction, db.appendTransaction row) else none

/-- The rows of a multi-row `INSERT`, numbered from the counter on. -/
def numbered {Row : Type} (setId : Row → Nat → Row) : Nat → List Row → List Row
  | _, [] => []
  | next, row :: rest => setId row next :: numbered setId (next + 1) rest

/-- `out_pub_key` is a unique key of `Outputs`, over all accounts. -/
def acceptsOutputs (db : Database) (rows : List XmrOutput) : Bool :=
  decide (rows.map (·.outPubKey)).Nodup &&
    rows.all fun row => db.hasAccount row.accountId && db.hasTransaction row.txId &&
      db.outputs.all (·.outPubKey ≠ row.outPubKey)

/-- The rows get the next ids. -/
def appendOutputs (db : Database) (rows : List XmrOutput) : Database :=
  { db with
    outputs := db.outputs ++ numbered (fun row id => { row with id }) db.nextOutput rows
    nextOutput := db.nextOutput + rows.length }

/-- One statement inserts all rows, or none. -/
def insertOutputs (db : Database) (rows : List XmrOutput) : Option Database :=
  if db.acceptsOutputs rows then some (db.appendOutputs rows) else none

/-- `(output_id, key_image)` is a unique key of `Inputs`. -/
def acceptsInputs (db : Database) (rows : List XmrInput) : Bool :=
  decide (rows.map fun row => (row.outputId, row.keyImage)).Nodup &&
    rows.all fun row => db.hasAccount row.accountId && db.hasTransaction row.txId &&
      db.hasOutput row.outputId &&
      db.inputs.all fun old => ¬ (old.outputId = row.outputId ∧ old.keyImage = row.keyImage)

/-- The rows get the next ids. -/
def appendInputs (db : Database) (rows : List XmrInput) : Database :=
  { db with
    inputs := db.inputs ++ numbered (fun row id => { row with id }) db.nextInput rows
    nextInput := db.nextInput + rows.length }

/-- One statement inserts all rows, or none. -/
def insertInputs (db : Database) (rows : List XmrInput) : Option Database :=
  if db.acceptsInputs rows then some (db.appendInputs rows) else none

/-- `account_id` and `payment_id` are unique keys of `Payments`. -/
def insertPayment (db : Database) (row : XmrPayment) : Option (Nat × Database) :=
  if db.hasAccount row.accountId &&
      db.payments.all (fun old => old.accountId ≠ row.accountId ∧ old.paymentId ≠ row.paymentId)
  then
    some (db.nextPayment,
      { db with
        payments := db.payments ++ [{ row with id := db.nextPayment }]
        nextPayment := db.nextPayment + 1 })
  else none

/-! ### Updates and deletions -/

/-- `UPDATE Accounts SET … WHERE id = …` with the id of the original row: all columns are
written, and the number of rows that changed is reported. -/
def updateAccount (db : Database) (original new : XmrAccount) : Nat × Database :=
  let stored := { new with viewkey := "" }
  ((db.accounts.filter fun row => row.id = original.id ∧ row ≠ stored).length,
    { db with
      accounts := db.accounts.map fun row => if row.id = original.id then stored else row })

/-- `UPDATE Payments SET … WHERE id = …`. -/
def updatePayment (db : Database) (original new : XmrPayment) : Nat × Database :=
  ((db.payments.filter fun row => row.id = original.id ∧ row ≠ new).length,
    { db with payments := db.payments.map fun row => if row.id = original.id then new else row })

/-- `mark_spendable`, with `MARK_AS_SPENDABLE_STMT` or with `MARK_AS_NONSPENDABLE_STMT`: `spendable`
is set, and `timestamp` is set to the clock. -/
def markSpendable (db : Database) (txId now : Nat) (spendable : Bool) : Nat × Database :=
  let marked (row : XmrTransaction) := { row with spendable, timestamp := now }
  ((db.transactions.filter fun row => row.id = txId ∧ row ≠ marked row).length,
    { db with
      transactions := db.transactions.map fun row => if row.id = txId then marked row else row })

/-- `mark_tx_spendable`. -/
def markTxSpendable (db : Database) (txId now : Nat) : Nat × Database :=
  db.markSpendable txId now true

/-- `DELETE FROM Transactions WHERE id = …`. The foreign keys take the transaction's outputs
along, its inputs, and every input, of whichever transaction, that refers to one of its
outputs. -/
def deleteTx (db : Database) (txId : Nat) : Nat × Database :=
  let goes (outputId : Nat) :=
    db.outputs.any fun output => output.id = outputId ∧ output.txId = txId
  ((db.transactions.filter (·.id = txId)).length,
    { db with
      transactions := db.transactions.filter (·.id ≠ txId)
      outputs := db.outputs.filter (·.txId ≠ txId)
      inputs := db.inputs.filter fun input => input.txId ≠ txId ∧ ¬ goes input.outputId })

/-! ### What the schema guarantees -/

/-- The schema's constraints: unique keys are unique, foreign keys refer to rows, and the
counters are past every id given out. -/
structure Valid (db : Database) : Prop where
  accountIds : Tables.Unique XmrAccount.id db.accounts
  accountAddresses : Tables.Unique XmrAccount.address db.accounts
  accountFresh : ∀ account ∈ db.accounts, account.id < db.nextAccount
  transactionIds : Tables.Unique XmrTransaction.id db.transactions
  transactionHashes : Tables.Unique (fun tx => (tx.hash, tx.accountId)) db.transactions
  transactionAccount : ∀ tx ∈ db.transactions, db.hasAccount tx.accountId
  transactionFresh : ∀ tx ∈ db.transactions, tx.id < db.nextTransaction
  outputIds : Tables.Unique XmrOutput.id db.outputs
  outputKeys : Tables.Unique XmrOutput.outPubKey db.outputs
  outputTransaction : ∀ output ∈ db.outputs, db.hasTransaction output.txId
  outputFresh : ∀ output ∈ db.outputs, output.id < db.nextOutput
  inputKeys : Tables.Unique (fun input => (input.outputId, input.keyImage)) db.inputs
  inputTransaction : ∀ input ∈ db.inputs, db.hasTransaction input.txId
  inputOutput : ∀ input ∈ db.inputs, db.hasOutput input.outputId
  paymentIds : Tables.Unique XmrPayment.id db.payments
  paymentAccount : ∀ payment ∈ db.payments, db.hasAccount payment.accountId
  paymentFresh : ∀ payment ∈ db.payments, payment.id < db.nextPayment

instance (db : Database) : Decidable db.Valid :=
  decidable_of_iff
    ((Tables.Unique XmrAccount.id db.accounts ∧ Tables.Unique XmrAccount.address db.accounts ∧
        ∀ account ∈ db.accounts, account.id < db.nextAccount) ∧
      (Tables.Unique XmrTransaction.id db.transactions ∧
        Tables.Unique (fun tx => (tx.hash, tx.accountId)) db.transactions ∧
        (∀ tx ∈ db.transactions, db.hasAccount tx.accountId) ∧
        ∀ tx ∈ db.transactions, tx.id < db.nextTransaction) ∧
      (Tables.Unique XmrOutput.id db.outputs ∧ Tables.Unique XmrOutput.outPubKey db.outputs ∧
        (∀ output ∈ db.outputs, db.hasTransaction output.txId) ∧
        ∀ output ∈ db.outputs, output.id < db.nextOutput) ∧
      (Tables.Unique (fun input => (input.outputId, input.keyImage)) db.inputs ∧
        (∀ input ∈ db.inputs, db.hasTransaction input.txId) ∧
        ∀ input ∈ db.inputs, db.hasOutput input.outputId) ∧
      Tables.Unique XmrPayment.id db.payments ∧
      (∀ payment ∈ db.payments, db.hasAccount payment.accountId) ∧
      ∀ payment ∈ db.payments, payment.id < db.nextPayment)
    ⟨fun ⟨⟨a, b, c⟩, ⟨d, e, f, g⟩, ⟨h, i, j, k⟩, ⟨l, m, n⟩, o, p, q⟩ =>
        ⟨a, b, c, d, e, f, g, h, i, j, k, l, m, n, o, p, q⟩,
      fun ⟨a, b, c, d, e, f, g, h, i, j, k, l, m, n, o, p, q⟩ =>
        ⟨⟨a, b, c⟩, ⟨d, e, f, g⟩, ⟨h, i, j, k⟩, ⟨l, m, n⟩, o, p, q⟩⟩

end Database

end LightWallet
