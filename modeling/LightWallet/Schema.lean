/-
This file shows that the statements keep what the schema guarantees: unique keys
stay unique, foreign keys keep referring to rows, and the counters stay past
every id.
-/

import LightWallet.Database

namespace LightWallet

namespace Database

/-! ### References -/

theorem hasTransaction_iff (db : Database) (id : Nat) :
    db.hasTransaction id = true ↔ ∃ tx ∈ db.transactions, tx.id = id := by
  simp [hasTransaction]

theorem hasOutput_iff (db : Database) (id : Nat) :
    db.hasOutput id = true ↔ ∃ output ∈ db.outputs, output.id = id := by
  simp [hasOutput]

theorem hasAccount_iff (db : Database) (id : Nat) :
    db.hasAccount id = true ↔ ∃ account ∈ db.accounts, account.id = id := by
  simp [hasAccount]

/-! ### The rows of a multi-row insertion -/

section Numbered

variable {Row Key : Type} (setId : Row → Nat → Row)

@[simp] theorem numbered_length (next : Nat) (rows : List Row) :
    (numbered setId next rows).length = rows.length := by
  induction rows generalizing next with
  | nil => rfl
  | cons row rest inductionHypothesis =>
    exact congrArg Nat.succ (inductionHypothesis (next + 1))

/-- Numbering does not touch the other columns. -/
theorem numbered_map (column : Row → Key) (fixed : ∀ row id, column (setId row id) = column row)
    (next : Nat) (rows : List Row) : (numbered setId next rows).map column = rows.map column := by
  induction rows generalizing next with
  | nil => rfl
  | cons row rest inductionHypothesis =>
    rw [numbered, List.map_cons, List.map_cons, fixed, inductionHypothesis]

theorem mem_numbered {next : Nat} {rows : List Row} {row : Row}
    (member : row ∈ numbered setId next rows) :
    ∃ original ∈ rows, ∃ id, next ≤ id ∧ id < next + rows.length ∧ row = setId original id := by
  induction rows generalizing next with
  | nil => cases member
  | cons head rest inductionHypothesis =>
    rw [List.length_cons]
    rcases List.mem_cons.mp member with rfl | later
    · exact ⟨head, List.mem_cons_self, next, Nat.le_refl next, by omega, rfl⟩
    · obtain ⟨original, inRest, id, least, most, rfl⟩ := inductionHypothesis later
      exact ⟨original, List.mem_cons_of_mem _ inRest, id, by omega, by omega, rfl⟩

/-- The ids given out by one insertion are distinct. -/
theorem numbered_unique (idOf : Row → Nat) (sets : ∀ row id, idOf (setId row id) = id)
    (next : Nat) (rows : List Row) : Tables.Unique idOf (numbered setId next rows) := by
  induction rows generalizing next with
  | nil => exact Tables.unique_nil idOf
  | cons row rest inductionHypothesis =>
    refine List.nodup_cons.mpr ⟨?_, inductionHypothesis (next + 1)⟩
    intro member
    obtain ⟨other, inRest, same⟩ := List.mem_map.mp member
    obtain ⟨original, -, id, least, -, rfl⟩ := mem_numbered setId inRest
    rw [sets, sets] at same
    omega

end Numbered

/-! ### Insertions -/

theorem acceptsTransaction_iff (db : Database) (row : XmrTransaction) :
    db.acceptsTransaction row = true ↔ db.hasAccount row.accountId = true ∧
      ∀ old ∈ db.transactions, (old.hash, old.accountId) ≠ (row.hash, row.accountId) := by
  simp [acceptsTransaction, imp_iff_not_or]

theorem acceptsOutputs_iff (db : Database) (rows : List XmrOutput) :
    db.acceptsOutputs rows = true ↔ Tables.Unique XmrOutput.outPubKey rows ∧
      ∀ row ∈ rows, db.hasAccount row.accountId = true ∧ db.hasTransaction row.txId = true ∧
        ∀ old ∈ db.outputs, old.outPubKey ≠ row.outPubKey := by
  simp [acceptsOutputs, Tables.Unique, and_assoc]

theorem acceptsInputs_iff (db : Database) (rows : List XmrInput) :
    db.acceptsInputs rows = true ↔
      Tables.Unique (fun row : XmrInput => (row.outputId, row.keyImage)) rows ∧
      ∀ row ∈ rows, db.hasAccount row.accountId = true ∧ db.hasTransaction row.txId = true ∧
        db.hasOutput row.outputId = true ∧
        ∀ old ∈ db.inputs, (old.outputId, old.keyImage) ≠ (row.outputId, row.keyImage) := by
  simp [acceptsInputs, Tables.Unique, and_assoc, imp_iff_not_or]

theorem hasTransaction_append {db : Database} {id : Nat} (row : XmrTransaction)
    (has : db.hasTransaction id = true) : (db.appendTransaction row).hasTransaction id = true := by
  obtain ⟨tx, member, same⟩ := (hasTransaction_iff _ _).mp has
  exact (hasTransaction_iff _ _).mpr ⟨tx, List.mem_append_left _ member, same⟩

theorem hasOutput_append {db : Database} {id : Nat} (rows : List XmrOutput)
    (has : db.hasOutput id = true) : (db.appendOutputs rows).hasOutput id = true := by
  obtain ⟨output, member, same⟩ := (hasOutput_iff _ _).mp has
  exact (hasOutput_iff _ _).mpr ⟨output, List.mem_append_left _ member, same⟩

theorem Valid.appendTransaction {db : Database} (valid : db.Valid) {row : XmrTransaction}
    (accepts : db.acceptsTransaction row = true) : (db.appendTransaction row).Valid := by
  obtain ⟨account, fresh⟩ := (acceptsTransaction_iff db row).mp accepts
  exact
    { valid with
      transactionIds := valid.transactionIds.append_one fun old member =>
        Nat.ne_of_lt (valid.transactionFresh old member)
      transactionHashes := valid.transactionHashes.append_one fresh
      transactionAccount := fun tx member => by
        rcases List.mem_append.mp member with old | new
        · exact valid.transactionAccount tx old
        · rw [List.mem_singleton.mp new]
          exact account
      transactionFresh := fun tx member => by
        rcases List.mem_append.mp member with old | new
        · exact Nat.lt_succ_of_lt (valid.transactionFresh tx old)
        · rw [List.mem_singleton.mp new]
          exact Nat.lt_succ_self _
      outputTransaction := fun output member =>
        hasTransaction_append row (valid.outputTransaction output member)
      inputTransaction := fun input member =>
        hasTransaction_append row (valid.inputTransaction input member) }

theorem Valid.appendOutputs {db : Database} (valid : db.Valid) {rows : List XmrOutput}
    (accepts : db.acceptsOutputs rows = true) : (db.appendOutputs rows).Valid := by
  obtain ⟨distinct, fresh⟩ := (acceptsOutputs_iff db rows).mp accepts
  exact
    { valid with
      outputIds := Tables.unique_append.mpr ⟨valid.outputIds,
        numbered_unique _ XmrOutput.id (fun _ _ => rfl) _ _, fun old member new inserted => by
          obtain ⟨row, -, id, least, -, rfl⟩ := mem_numbered _ inserted
          exact Nat.ne_of_lt (Nat.lt_of_lt_of_le (valid.outputFresh old member) least)⟩
      outputKeys := Tables.unique_append.mpr ⟨valid.outputKeys, by
          unfold Tables.Unique
          rw [numbered_map (fun (row : XmrOutput) id => { row with id }) XmrOutput.outPubKey
            fun _ _ => rfl]
          exact distinct, fun old member new inserted => by
          obtain ⟨row, original, id, -, -, rfl⟩ := mem_numbered _ inserted
          exact (fresh row original).2.2 old member⟩
      outputTransaction := fun output member => by
        rcases List.mem_append.mp member with old | new
        · exact valid.outputTransaction output old
        · obtain ⟨row, original, id, -, -, rfl⟩ := mem_numbered _ new
          exact (fresh row original).2.1
      outputFresh := fun output member => by
        show output.id < db.nextOutput + rows.length
        rcases List.mem_append.mp member with old | new
        · exact Nat.lt_add_right _ (valid.outputFresh output old)
        · obtain ⟨row, -, id, -, most, rfl⟩ := mem_numbered _ new
          exact most
      inputOutput := fun input member => hasOutput_append rows (valid.inputOutput input member) }

theorem Valid.appendInputs {db : Database} (valid : db.Valid) {rows : List XmrInput}
    (accepts : db.acceptsInputs rows = true) : (db.appendInputs rows).Valid := by
  obtain ⟨distinct, fresh⟩ := (acceptsInputs_iff db rows).mp accepts
  exact
    { valid with
      inputKeys := Tables.unique_append.mpr ⟨valid.inputKeys, by
          unfold Tables.Unique
          rw [numbered_map (fun (row : XmrInput) id => { row with id })
            (fun input => (input.outputId, input.keyImage)) fun _ _ => rfl]
          exact distinct, fun old member new inserted => by
          obtain ⟨row, original, id, -, -, rfl⟩ := mem_numbered _ inserted
          exact (fresh row original).2.2.2 old member⟩
      inputTransaction := fun input member => by
        rcases List.mem_append.mp member with old | new
        · exact valid.inputTransaction input old
        · obtain ⟨row, original, id, -, -, rfl⟩ := mem_numbered _ new
          exact (fresh row original).2.1
      inputOutput := fun input member => by
        rcases List.mem_append.mp member with old | new
        · exact valid.inputOutput input old
        · obtain ⟨row, original, id, -, -, rfl⟩ := mem_numbered _ new
          exact (fresh row original).2.2.1 }

/-! ### Deletions and updates -/

theorem mem_deleteTx_transactions {db : Database} {txId : Nat} {tx : XmrTransaction} :
    tx ∈ (db.deleteTx txId).2.transactions ↔ tx ∈ db.transactions ∧ tx.id ≠ txId := by
  show tx ∈ db.transactions.filter (·.id ≠ txId) ↔ _
  simp

theorem mem_deleteTx_outputs {db : Database} {txId : Nat} {output : XmrOutput} :
    output ∈ (db.deleteTx txId).2.outputs ↔ output ∈ db.outputs ∧ output.txId ≠ txId := by
  show output ∈ db.outputs.filter (·.txId ≠ txId) ↔ _
  simp

/-- The inputs that stay are not the transaction's, and refer to none of its outputs. -/
theorem mem_deleteTx_inputs {db : Database} {txId : Nat} {input : XmrInput} :
    input ∈ (db.deleteTx txId).2.inputs ↔ input ∈ db.inputs ∧ input.txId ≠ txId ∧
      ∀ output ∈ db.outputs, output.id = input.outputId → output.txId ≠ txId := by
  unfold deleteTx
  simp

theorem Valid.deleteTx {db : Database} (valid : db.Valid) (txId : Nat) :
    (db.deleteTx txId).2.Valid where
  accountIds := valid.accountIds
  accountAddresses := valid.accountAddresses
  accountFresh := valid.accountFresh
  transactionIds := valid.transactionIds.filter _
  transactionHashes := valid.transactionHashes.filter _
  transactionAccount := fun tx member =>
    valid.transactionAccount tx (mem_deleteTx_transactions.mp member).1
  transactionFresh := fun tx member =>
    valid.transactionFresh tx (mem_deleteTx_transactions.mp member).1
  outputIds := valid.outputIds.filter _
  outputKeys := valid.outputKeys.filter _
  outputTransaction := fun output member => by
    obtain ⟨inOutputs, kept⟩ := mem_deleteTx_outputs.mp member
    obtain ⟨tx, inTransactions, same⟩ :=
      (hasTransaction_iff _ _).mp (valid.outputTransaction output inOutputs)
    exact (hasTransaction_iff _ _).mpr
      ⟨tx, mem_deleteTx_transactions.mpr ⟨inTransactions, same ▸ kept⟩, same⟩
  outputFresh := fun output member =>
    valid.outputFresh output (mem_deleteTx_outputs.mp member).1
  inputKeys := valid.inputKeys.filter _
  inputTransaction := fun input member => by
    obtain ⟨inInputs, kept, -⟩ := mem_deleteTx_inputs.mp member
    obtain ⟨tx, inTransactions, same⟩ :=
      (hasTransaction_iff _ _).mp (valid.inputTransaction input inInputs)
    exact (hasTransaction_iff _ _).mpr
      ⟨tx, mem_deleteTx_transactions.mpr ⟨inTransactions, same ▸ kept⟩, same⟩
  inputOutput := fun input member => by
    obtain ⟨inInputs, -, kept⟩ := mem_deleteTx_inputs.mp member
    obtain ⟨output, inOutputs, same⟩ :=
      (hasOutput_iff _ _).mp (valid.inputOutput input inInputs)
    exact (hasOutput_iff _ _).mpr
      ⟨output, mem_deleteTx_outputs.mpr ⟨inOutputs, kept output inOutputs same⟩, same⟩
  paymentIds := valid.paymentIds
  paymentAccount := valid.paymentAccount
  paymentFresh := valid.paymentFresh

theorem Valid.markSpendable {db : Database} (valid : db.Valid) (txId now : Nat)
    (spendable : Bool) : (db.markSpendable txId now spendable).2.Valid := by
  have fixed {Key : Type} (column : XmrTransaction → Key)
      (untouched : ∀ row, column { row with spendable, timestamp := now } = column row)
      (row : XmrTransaction) :
      column (if row.id = txId then { row with spendable, timestamp := now } else row) =
        column row := by
    split
    · exact untouched row
    · rfl
  have has {id : Nat} (before : db.hasTransaction id = true) :
      (db.markSpendable txId now spendable).2.hasTransaction id = true := by
    obtain ⟨tx, member, same⟩ := (hasTransaction_iff _ _).mp before
    exact (hasTransaction_iff _ _).mpr
      ⟨_, List.mem_map_of_mem member, (fixed XmrTransaction.id (fun _ => rfl) tx).trans same⟩
  exact
    { valid with
      transactionIds := valid.transactionIds.map (fixed XmrTransaction.id fun _ => rfl)
      transactionHashes := valid.transactionHashes.map
        (fixed (fun tx => (tx.hash, tx.accountId)) fun _ => rfl)
      transactionAccount := fun tx member => by
        obtain ⟨row, original, rfl⟩ := List.mem_map.mp member
        have account := fixed XmrTransaction.accountId (fun _ => rfl) row
        exact (congrArg db.hasAccount account).trans (valid.transactionAccount row original)
      transactionFresh := fun tx member => by
        obtain ⟨row, original, rfl⟩ := List.mem_map.mp member
        have id := fixed XmrTransaction.id (fun _ => rfl) row
        exact Nat.lt_of_le_of_lt (Nat.le_of_eq id) (valid.transactionFresh row original)
      outputTransaction := fun output member => has (valid.outputTransaction output member)
      inputTransaction := fun input member => has (valid.inputTransaction input member) }

theorem Valid.markTxSpendable {db : Database} (valid : db.Valid) (txId now : Nat) :
    (db.markTxSpendable txId now).2.Valid := valid.markSpendable txId now true

/-- Updating an account in place keeps every account's id. -/
theorem updateAccount_hasAccount (db : Database) (original new : XmrAccount) (id : Nat)
    (same : new.id = original.id) :
    (db.updateAccount original new).2.hasAccount id = db.hasAccount id := by
  show (db.accounts.map _).any _ = db.accounts.any _
  rw [List.any_map]
  refine congrArg (List.any db.accounts) (funext fun row => ?_)
  show decide ((if row.id = original.id then { new with viewkey := "" } else row).id = id) = _
  split
  · next here => rw [here]; exact congrArg (fun other => decide (other = id)) same
  · rfl

/-- Every row with the id of the original is the new one. -/
theorem updateAccount_row {db : Database} {original new row : XmrAccount}
    (member : row ∈ (db.updateAccount original new).2.accounts) (id : row.id = original.id) :
    row = { new with viewkey := "" } := by
  obtain ⟨before, -, rfl⟩ := List.mem_map.mp member
  by_cases here : before.id = original.id
  · exact if_pos here
  · rw [if_neg here] at id
    exact absurd id here

/-- An update that keeps the id and the address of the account keeps the schema. -/
theorem Valid.updateAccount {db : Database} (valid : db.Valid) {original new old : XmrAccount}
    (member : old ∈ db.accounts) (same : old.id = original.id) (id : new.id = original.id)
    (address : new.address = old.address) :
    (db.updateAccount original new).2.Valid := by
  have fixed (row : XmrAccount) (inAccounts : row ∈ db.accounts) :
      (if row.id = original.id then { new with viewkey := "" } else row).id = row.id ∧
        (if row.id = original.id then { new with viewkey := "" } else row).address =
          row.address := by
    by_cases here : row.id = original.id
    · rw [if_pos here, valid.accountIds.eq_of_key inAccounts member (here.trans same.symm)]
      exact ⟨id.trans same.symm, address⟩
    · rw [if_neg here]
      exact ⟨rfl, rfl⟩
  have ids : (db.updateAccount original new).2.accounts.map XmrAccount.id =
      db.accounts.map XmrAccount.id := by
    show (db.accounts.map _).map _ = _
    rw [List.map_map]
    exact List.map_congr_left fun row inAccounts => (fixed row inAccounts).1
  have addresses : (db.updateAccount original new).2.accounts.map XmrAccount.address =
      db.accounts.map XmrAccount.address := by
    show (db.accounts.map _).map _ = _
    rw [List.map_map]
    exact List.map_congr_left fun row inAccounts => (fixed row inAccounts).2
  have has (accountId : Nat) (before : db.hasAccount accountId = true) :
      (db.updateAccount original new).2.hasAccount accountId = true :=
    (updateAccount_hasAccount db original new accountId id).trans before
  exact
    { valid with
      accountIds := by
        unfold Tables.Unique
        rw [ids]
        exact valid.accountIds
      accountAddresses := by
        unfold Tables.Unique
        rw [addresses]
        exact valid.accountAddresses
      accountFresh := fun account inAccounts => by
        obtain ⟨row, before, rfl⟩ := List.mem_map.mp inAccounts
        exact Nat.lt_of_le_of_lt (Nat.le_of_eq (fixed row before).1)
          (valid.accountFresh row before)
      transactionAccount := fun tx inTransactions =>
        has _ (valid.transactionAccount tx inTransactions)
      paymentAccount := fun payment inPayments => has _ (valid.paymentAccount payment inPayments) }

theorem insertAccount_eq {db after : Database} {row : XmrAccount} {id : Nat}
    (inserted : db.insertAccount row = some (id, after)) :
    (∀ account ∈ db.accounts, account.address ≠ row.address) ∧ id = db.nextAccount ∧
      after = { db with
        accounts := db.accounts ++ [{ row with id := db.nextAccount, viewkey := "" }]
        nextAccount := db.nextAccount + 1 } := by
  unfold insertAccount at inserted
  split at inserted
  · next fresh =>
    cases inserted
    exact ⟨by simpa using fresh, rfl, rfl⟩
  · cases inserted

theorem hasAccount_insert {db after : Database} {row : XmrAccount} {id other : Nat}
    (inserted : db.insertAccount row = some (id, after)) (has : db.hasAccount other = true) :
    after.hasAccount other = true := by
  obtain ⟨-, -, rfl⟩ := insertAccount_eq inserted
  obtain ⟨account, member, same⟩ := (hasAccount_iff _ _).mp has
  exact (hasAccount_iff _ _).mpr ⟨account, List.mem_append_left _ member, same⟩

theorem Valid.insertAccount {db after : Database} (valid : db.Valid) {row : XmrAccount} {id : Nat}
    (inserted : db.insertAccount row = some (id, after)) : after.Valid := by
  have has {other : Nat} := @hasAccount_insert db after row id other inserted
  obtain ⟨fresh, -, rfl⟩ := insertAccount_eq inserted
  exact
    { valid with
      accountIds := valid.accountIds.append_one fun old member =>
        Nat.ne_of_lt (valid.accountFresh old member)
      accountAddresses := valid.accountAddresses.append_one fresh
      accountFresh := fun account member => by
        rcases List.mem_append.mp member with old | new
        · exact Nat.lt_succ_of_lt (valid.accountFresh account old)
        · rw [List.mem_singleton.mp new]
          exact Nat.lt_succ_self _
      transactionAccount := fun tx member => has (valid.transactionAccount tx member)
      paymentAccount := fun payment member => has (valid.paymentAccount payment member) }

theorem insertPayment_eq {db after : Database} {row : XmrPayment} {id : Nat}
    (inserted : db.insertPayment row = some (id, after)) :
    db.hasAccount row.accountId = true ∧ id = db.nextPayment ∧
      after = { db with
        payments := db.payments ++ [{ row with id := db.nextPayment }]
        nextPayment := db.nextPayment + 1 } := by
  unfold insertPayment at inserted
  split at inserted
  · next accepts =>
    cases inserted
    exact ⟨(Bool.and_eq_true_iff.mp accepts).1, rfl, rfl⟩
  · cases inserted

theorem Valid.insertPayment {db after : Database} (valid : db.Valid) {row : XmrPayment} {id : Nat}
    (inserted : db.insertPayment row = some (id, after)) : after.Valid := by
  obtain ⟨account, -, rfl⟩ := insertPayment_eq inserted
  exact
    { valid with
      paymentIds := valid.paymentIds.append_one fun old member =>
        Nat.ne_of_lt (valid.paymentFresh old member)
      paymentAccount := fun payment member => by
        rcases List.mem_append.mp member with old | new
        · exact valid.paymentAccount payment old
        · rw [List.mem_singleton.mp new]
          exact account
      paymentFresh := fun payment member => by
        rcases List.mem_append.mp member with old | new
        · exact Nat.lt_succ_of_lt (valid.paymentFresh payment old)
        · rw [List.mem_singleton.mp new]
          exact Nat.lt_succ_self _ }

/-- An update that keeps the id and the account of the payment keeps the schema. -/
theorem Valid.updatePayment {db : Database} (valid : db.Valid) {original new : XmrPayment}
    (member : original ∈ db.payments) (id : new.id = original.id)
    (account : new.accountId = original.accountId) :
    (db.updatePayment original new).2.Valid := by
  have fixed (row : XmrPayment) (inPayments : row ∈ db.payments) :
      (if row.id = original.id then new else row).id = row.id ∧
        (if row.id = original.id then new else row).accountId = row.accountId := by
    by_cases here : row.id = original.id
    · rw [if_pos here, valid.paymentIds.eq_of_key inPayments member here]
      exact ⟨id, account⟩
    · rw [if_neg here]
      exact ⟨rfl, rfl⟩
  have ids : (db.updatePayment original new).2.payments.map XmrPayment.id =
      db.payments.map XmrPayment.id := by
    show (db.payments.map _).map _ = _
    rw [List.map_map]
    exact List.map_congr_left fun row inPayments => (fixed row inPayments).1
  exact
    { valid with
      paymentIds := by
        unfold Tables.Unique
        rw [ids]
        exact valid.paymentIds
      paymentAccount := fun payment inPayments => by
        obtain ⟨row, before, rfl⟩ := List.mem_map.mp inPayments
        exact (congrArg db.hasAccount (fixed row before).2).trans
          (valid.paymentAccount row before)
      paymentFresh := fun payment inPayments => by
        obtain ⟨row, before, rfl⟩ := List.mem_map.mp inPayments
        exact Nat.lt_of_le_of_lt (Nat.le_of_eq (fixed row before).1)
          (valid.paymentFresh row before) }

/-! ### Counters -/

/-- The transaction of an output was numbered before. -/
theorem Valid.output_txId_lt {db : Database} (valid : db.Valid) {output : XmrOutput}
    (member : output ∈ db.outputs) : output.txId < db.nextTransaction := by
  obtain ⟨tx, inRows, same⟩ :=
    (hasTransaction_iff _ _).mp (valid.outputTransaction output member)
  rw [← same]
  exact valid.transactionFresh tx inRows

theorem Valid.input_txId_lt {db : Database} (valid : db.Valid) {input : XmrInput}
    (member : input ∈ db.inputs) : input.txId < db.nextTransaction := by
  obtain ⟨tx, inRows, same⟩ := (hasTransaction_iff _ _).mp (valid.inputTransaction input member)
  rw [← same]
  exact valid.transactionFresh tx inRows

theorem Valid.input_outputId_lt {db : Database} (valid : db.Valid) {input : XmrInput}
    (member : input ∈ db.inputs) : input.outputId < db.nextOutput := by
  obtain ⟨output, inRows, same⟩ := (hasOutput_iff _ _).mp (valid.inputOutput input member)
  rw [← same]
  exact valid.outputFresh output inRows

/-! ### Changed rows -/

/-- Updating one row changes at most one. -/
theorem updateAccount_count_le {db : Database} (valid : db.Valid) (original new : XmrAccount) :
    (db.updateAccount original new).1 ≤ 1 := by
  show (db.accounts.filter fun row =>
    row.id = original.id ∧ row ≠ { new with viewkey := "" }).length ≤ 1
  rw [show (db.accounts.filter fun row =>
      row.id = original.id ∧ row ≠ { new with viewkey := "" }) =
    ((db.accounts.filter fun row => row.id = original.id).filter fun row =>
      row ≠ { new with viewkey := "" }) by
    rw [List.filter_filter]
    refine congrArg (List.filter · db.accounts) (funext fun row => ?_)
    rw [Bool.and_comm]
    simp]
  refine Nat.le_trans (List.length_filter_le _ _) ?_
  by_cases has : ∃ row ∈ db.accounts, row.id = original.id
  · obtain ⟨row, member, same⟩ := has
    rw [← same, Tables.filter_key_eq_singleton valid.accountIds member]
    exact Nat.le_refl 1
  · rw [List.filter_eq_nil_iff.mpr fun row member same =>
      has ⟨row, member, of_decide_eq_true same⟩]
    exact Nat.zero_le 1

/-- Exactly one row is changed when the row of the account is not yet the new one. -/
theorem updateAccount_count_eq_one {db : Database} (valid : db.Valid)
    {original new row : XmrAccount} (member : row ∈ db.accounts) (id : row.id = original.id)
    (differs : row ≠ { new with viewkey := "" }) : (db.updateAccount original new).1 = 1 := by
  refine Nat.le_antisymm (updateAccount_count_le valid original new) ?_
  refine Nat.succ_le_of_lt (List.length_pos_of_mem
    (List.mem_filter.mpr ⟨member, decide_eq_true ⟨id, differs⟩⟩))

/-- An update that changes no row leaves the table alone. -/
theorem updateAccount_eq_of_count_eq_zero {db : Database} {original new : XmrAccount}
    (none : (db.updateAccount original new).1 = 0) : (db.updateAccount original new).2 = db := by
  have same : ∀ row ∈ db.accounts,
      (if row.id = original.id then { new with viewkey := "" } else row) = row := by
    intro row member
    split
    · next here =>
      have kept := List.filter_eq_nil_iff.mp (List.length_eq_zero_iff.mp none) row member
      simp only [here, true_and, ne_eq, decide_not, Bool.not_eq_true', decide_eq_false_iff_not,
        not_not] at kept
      exact kept.symm
    · rfl
  exact congrArg (fun accounts => { db with accounts })
    ((List.map_congr_left same).trans (List.map_id _))

theorem updatePayment_count_eq_one {db : Database} (valid : db.Valid)
    {original new : XmrPayment} (member : original ∈ db.payments) (differs : original ≠ new) :
    (db.updatePayment original new).1 = 1 := by
  have only : (db.payments.filter fun row => row.id = original.id ∧ row ≠ new) = [original] := by
    rw [← List.filter_eq_self.mpr fun row (single : row ∈ [original]) =>
        decide_eq_true (List.mem_singleton.mp single ▸ differs : row ≠ new),
      ← Tables.filter_key_eq_singleton valid.paymentIds member, List.filter_filter]
    refine congrArg (List.filter · db.payments) (funext fun row => ?_)
    rw [Bool.and_comm]
    simp
  show (db.payments.filter fun row => row.id = original.id ∧ row ≠ new).length = 1
  rw [only]
  rfl

end Database

end LightWallet
