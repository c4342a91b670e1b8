/-
This file says which tables the steps of the service leave: a pass leaves the
tables alone, or without the rows of an earlier scan, or with the new rows of its
transaction; the spendability check marks and deletes transactions, one after
the other.
-/

import LightWallet.Recorded
import LightWallet.Schema
import LightWallet.Service

namespace LightWallet

/-! ### The tables after a pass -/

section Pass

variable (wallet : Wallet) (status : Status) (tuple : TxTuple) (tx : Transaction)
  (outcomes : Outcomes) (scanned : Scanned)

/-- The inputs that a pass finds in the tables without the rows of an earlier scan. -/
def passInputs : List XmrInput :=
  foundInputs wallet tuple tx outcomes scanned outcomes.outputExistsAnswers
    (clearedDb wallet tx outcomes scanned.db)

/-- The pass stores rows, which the tables accept. -/
structure Stores : Prop where
  opens : Opens wallet tx outcomes scanned
  succeeds : StepsSucceed wallet status tuple tx outcomes scanned
    (clearedDb wallet tx outcomes scanned.db)
  something : ¬ (wallet.identifier.outputs tx = [] ∧
    passInputs wallet tuple tx outcomes scanned = [])

/-- The tables with the new rows of the transaction. -/
def filledDb : Database :=
  (withOutputs wallet status tuple tx outcomes scanned
      (passInputs wallet tuple tx outcomes scanned)
      (clearedDb wallet tx outcomes scanned.db)).appendInputs
    (linkedInputs (passInputs wallet tuple tx outcomes scanned)
      (clearedDb wallet tx outcomes scanned.db).nextTransaction)

/-- A pass that does not open its transaction leaves the tables alone, and throws unless it has
identified nothing. -/
theorem recordTx_closed (closed : ¬ Opens wallet tx outcomes scanned) :
    ((recordTx wallet status tuple tx outcomes scanned).1 = .next →
        wallet.identifier.outputs tx = [] ∧ identifiedInputs wallet tx scanned = []) ∧
      (recordTx wallet status tuple tx outcomes scanned).2.db = scanned.db := by
  by_cases something : outcomes.identifies = true →
      wallet.identifier.outputs tx ≠ [] ∨ identifiedInputs wallet tx scanned ≠ []
  · obtain ⟨leaves, same⟩ := recordTx_fails wallet status tuple tx outcomes scanned closed something
    exact ⟨fun next => absurd next leaves, same⟩
  · obtain ⟨identifies, none⟩ := Classical.not_imp.mp something
    obtain ⟨outputs, inputs⟩ := not_or.mp none
    rw [recordTx_skips wallet status tuple tx outcomes scanned identifies (not_not.mp outputs)
      (not_not.mp inputs)]
    exact ⟨fun _ => ⟨not_not.mp outputs, not_not.mp inputs⟩, rfl⟩

/-- A pass leaves the tables alone, or clears them, or fills them. -/
theorem recordTx_cases :
    (¬ Stores wallet status tuple tx outcomes scanned ∧
        ((recordTx wallet status tuple tx outcomes scanned).2.db = scanned.db ∨
          (recordTx wallet status tuple tx outcomes scanned).2.db =
            clearedDb wallet tx outcomes scanned.db)) ∨
      (Stores wallet status tuple tx outcomes scanned ∧
        (recordTx wallet status tuple tx outcomes scanned).1 = .next ∧
        (recordTx wallet status tuple tx outcomes scanned).2.db =
          filledDb wallet status tuple tx outcomes scanned) := by
  by_cases opens : Opens wallet tx outcomes scanned
  · by_cases succeeds : StepsSucceed wallet status tuple tx outcomes scanned
        (clearedDb wallet tx outcomes scanned.db)
    · obtain ⟨next, db⟩ := recordTx_stores wallet status tuple tx outcomes scanned opens succeeds
      by_cases nothing : wallet.identifier.outputs tx = [] ∧
          passInputs wallet tuple tx outcomes scanned = []
      · refine .inl ⟨fun stores => stores.something nothing, .inr ?_⟩
        rw [db]
        exact if_pos nothing
      · refine .inr ⟨⟨opens, succeeds, nothing⟩, next, ?_⟩
        rw [db]
        exact if_neg nothing
    · exact .inl ⟨fun stores => succeeds stores.succeeds,
        .inr (recordTx_clears wallet status tuple tx outcomes scanned opens succeeds).2⟩
  · exact .inl ⟨fun stores => opens stores.opens,
      .inl (recordTx_closed wallet status tuple tx outcomes scanned opens).2⟩

/-- A pass that opens its transaction clears the tables, or fills them. -/
theorem recordTx_opened (opens : Opens wallet tx outcomes scanned) :
    (recordTx wallet status tuple tx outcomes scanned).2.db =
        clearedDb wallet tx outcomes scanned.db ∨
      (recordTx wallet status tuple tx outcomes scanned).2.db =
        filledDb wallet status tuple tx outcomes scanned := by
  by_cases succeeds : StepsSucceed wallet status tuple tx outcomes scanned
      (clearedDb wallet tx outcomes scanned.db)
  · rw [(recordTx_stores wallet status tuple tx outcomes scanned opens succeeds).2]
    exact ite_eq_or_eq _ _ _
  · exact .inl (recordTx_clears wallet status tuple tx outcomes scanned opens succeeds).2

theorem clearedDb_accounts (db : Database) :
    (clearedDb wallet tx outcomes db).accounts = db.accounts := by
  unfold clearedDb
  split <;> rfl

/-- A pass leaves the accounts alone. -/
theorem recordTx_accounts :
    (recordTx wallet status tuple tx outcomes scanned).2.db.accounts = scanned.db.accounts := by
  rcases recordTx_cases wallet status tuple tx outcomes scanned with
    ⟨-, same | clears⟩ | ⟨-, -, fills⟩
  · rw [same]
  · rw [clears]
    exact clearedDb_accounts wallet tx outcomes scanned.db
  · rw [fills]
    exact clearedDb_accounts wallet tx outcomes scanned.db

variable {wallet status tuple tx outcomes scanned}

/-- The tables accept the row of the transaction, the rows of its outputs and those of its
inputs. -/
theorem Stores.accepts (stores : Stores wallet status tuple tx outcomes scanned) :
    (clearedDb wallet tx outcomes scanned.db).acceptsTransaction
        (storedTransaction wallet status tuple tx outcomes scanned
          (passInputs wallet tuple tx outcomes scanned)) = true ∧
      ((clearedDb wallet tx outcomes scanned.db).appendTransaction
        (storedTransaction wallet status tuple tx outcomes scanned
          (passInputs wallet tuple tx outcomes scanned))).acceptsOutputs
        (storedOutputs wallet tuple tx outcomes scanned
          (clearedDb wallet tx outcomes scanned.db).nextTransaction) = true ∧
      (withOutputs wallet status tuple tx outcomes scanned
        (passInputs wallet tuple tx outcomes scanned)
        (clearedDb wallet tx outcomes scanned.db)).acceptsInputs
        (linkedInputs (passInputs wallet tuple tx outcomes scanned)
          (clearedDb wallet tx outcomes scanned.db).nextTransaction) = true := by
  have inputs : passInputs wallet tuple tx outcomes scanned ≠ [] →
      InputsSucceed wallet status tuple tx outcomes scanned
        (passInputs wallet tuple tx outcomes scanned)
        (clearedDb wallet tx outcomes scanned.db) := stores.succeeds.1.ofInputs
  have linked : (withOutputs wallet status tuple tx outcomes scanned
      (passInputs wallet tuple tx outcomes scanned)
      (clearedDb wallet tx outcomes scanned.db)).acceptsInputs
      (linkedInputs (passInputs wallet tuple tx outcomes scanned)
        (clearedDb wallet tx outcomes scanned.db).nextTransaction) = true := by
    by_cases none : passInputs wallet tuple tx outcomes scanned = []
    · rw [none]
      rfl
    · exact (inputs none).acceptsInputs
  by_cases outputs : wallet.identifier.outputs tx = []
  · have found := inputs fun none => stores.something ⟨outputs, none⟩
    refine ⟨found.accepts outputs, ?_, linked⟩
    rw [storedOutputs_of_none wallet tuple tx outcomes scanned _ outputs]
    rfl
  · have received := stores.succeeds.1.ofOutputs outputs
    rw [storedTransaction_of_outputs wallet status tuple tx outcomes scanned _ outputs]
    exact ⟨received.accepts, received.acceptsOutputs, linked⟩

theorem clearedDb_valid (valid : scanned.db.Valid) :
    (clearedDb wallet tx outcomes scanned.db).Valid := by
  unfold clearedDb
  cases existingTx wallet tx outcomes scanned.db with
  | none => exact valid
  | some old => exact valid.deleteTx old.id

theorem Stores.valid (stores : Stores wallet status tuple tx outcomes scanned)
    (valid : scanned.db.Valid) : (filledDb wallet status tuple tx outcomes scanned).Valid := by
  obtain ⟨row, outputs, inputs⟩ := stores.accepts
  exact (((clearedDb_valid valid).appendTransaction row).appendOutputs outputs).appendInputs inputs

/-- A pass keeps what the schema guarantees. -/
theorem recordTx_valid (valid : scanned.db.Valid) :
    (recordTx wallet status tuple tx outcomes scanned).2.db.Valid := by
  rcases recordTx_cases wallet status tuple tx outcomes scanned with
    ⟨-, same | cleared⟩ | ⟨stores, -, filled⟩
  · rw [same]
    exact valid
  · rw [cleared]
    exact clearedDb_valid valid
  · rw [filled]
    exact stores.valid valid

/-- The rows of the transaction's outputs, with their ids. -/
theorem mem_filledDb_outputs {output : XmrOutput} :
    output ∈ (filledDb wallet status tuple tx outcomes scanned).outputs ↔
      output ∈ (clearedDb wallet tx outcomes scanned.db).outputs ∨
        output ∈ Database.numbered (fun (row : XmrOutput) id => { row with id })
          (clearedDb wallet tx outcomes scanned.db).nextOutput
          (storedOutputs wallet tuple tx outcomes scanned
            (clearedDb wallet tx outcomes scanned.db).nextTransaction) :=
  List.mem_append

theorem mem_filledDb_inputs {input : XmrInput} :
    input ∈ (filledDb wallet status tuple tx outcomes scanned).inputs ↔
      input ∈ (clearedDb wallet tx outcomes scanned.db).inputs ∨
        input ∈ Database.numbered (fun (row : XmrInput) id => { row with id })
          (clearedDb wallet tx outcomes scanned.db).nextInput
          (linkedInputs (passInputs wallet tuple tx outcomes scanned)
            (clearedDb wallet tx outcomes scanned.db).nextTransaction) :=
  List.mem_append

theorem mem_filledDb_transactions {row : XmrTransaction} :
    row ∈ (filledDb wallet status tuple tx outcomes scanned).transactions ↔
      row ∈ (clearedDb wallet tx outcomes scanned.db).transactions ∨
        row = { storedTransaction wallet status tuple tx outcomes scanned
            (passInputs wallet tuple tx outcomes scanned) with
          id := (clearedDb wallet tx outcomes scanned.db).nextTransaction } :=
  List.mem_append.trans (or_congr_right List.mem_singleton)

theorem filledDb_hasTransaction_iff {id : Nat} :
    (filledDb wallet status tuple tx outcomes scanned).hasTransaction id ↔
      (clearedDb wallet tx outcomes scanned.db).hasTransaction id ∨
        (clearedDb wallet tx outcomes scanned.db).nextTransaction = id := by
  simp only [Database.hasTransaction_iff, mem_filledDb_transactions, or_and_right, exists_or,
    exists_eq_left]

/-- A new row of `Outputs` is an identified output under a new id. -/
theorem of_mem_newOutputs {next txMysqlId : Nat} {output : XmrOutput}
    (member : output ∈ Database.numbered (fun (row : XmrOutput) id => { row with id }) next
      (storedOutputs wallet tuple tx outcomes scanned txMysqlId)) :
    ∃ info ∈ wallet.identifier.outputs tx, next ≤ output.id ∧ output.txId = txMysqlId ∧
      output.accountId = wallet.account.id ∧ output.outPubKey = info.pubKey ∧
      output.amount = info.amount := by
  obtain ⟨row, stored, id, least, -, rfl⟩ := Database.mem_numbered _ member
  obtain ⟨info, identified, rfl⟩ := List.mem_map.mp stored
  exact ⟨info, identified, least, rfl, rfl, rfl, rfl⟩

/-- A new row of `Inputs` is an input that the pass has found. -/
theorem of_mem_newInputs {next txMysqlId : Nat} {input : XmrInput}
    (member : input ∈ Database.numbered (fun (row : XmrInput) id => { row with id }) next
      (linkedInputs (passInputs wallet tuple tx outcomes scanned) txMysqlId)) :
    input.txId = txMysqlId ∧ ∃ found ∈ passInputs wallet tuple tx outcomes scanned,
      input.accountId = found.accountId ∧ input.outputId = found.outputId ∧
        input.keyImage = found.keyImage ∧ input.amount = found.amount := by
  obtain ⟨row, linked, id, -, -, rfl⟩ := Database.mem_numbered _ member
  obtain ⟨found, inFound, rfl⟩ := List.mem_map.mp linked
  exact ⟨rfl, found, inFound, rfl, rfl, rfl, rfl⟩

theorem mem_collectInputs {row : InputInfo → XmrOutput → XmrInput} {answers : Nat → Bool}
    {db : Database} {index : Nat} {infos : List InputInfo} {found : XmrInput}
    (member : found ∈ collectInputs row answers db index infos) :
    ∃ info ∈ infos, ∃ output ∈ db.outputs, output.outPubKey = info.outPubKey ∧
      found = row info output := by
  induction infos generalizing index with
  | nil => cases member
  | cons info rest inductionHypothesis =>
    by_cases lookup : answers index = true ∧ db.outputExists info.outPubKey ≠ none
    · obtain ⟨answer, present⟩ := lookup
      obtain ⟨output, isFound⟩ := Option.ne_none_iff_exists'.mp present
      rw [collectInputs_cons_some row answers answer isFound] at member
      rcases List.mem_cons.mp member with rfl | later
      · have key := List.find?_some isFound
        exact ⟨info, List.mem_cons_self, output, List.mem_of_find?_eq_some isFound,
          of_decide_eq_true key, rfl⟩
      · obtain ⟨other, inRest, rest⟩ := inductionHypothesis later
        exact ⟨other, List.mem_cons_of_mem _ inRest, rest⟩
    · rw [collectInputs_cons_none row answers fun answer => not_not.mp fun present =>
        lookup ⟨answer, present⟩] at member
      obtain ⟨other, inRest, rest⟩ := inductionHypothesis member
      exact ⟨other, List.mem_cons_of_mem _ inRest, rest⟩

variable (status) in
/-- An input that the pass finds spends an output of the tables it fills. -/
theorem of_mem_passInputs {found : XmrInput}
    (member : found ∈ passInputs wallet tuple tx outcomes scanned) :
    ∃ info ∈ identifiedInputs wallet tx scanned,
      ∃ output ∈ (filledDb wallet status tuple tx outcomes scanned).outputs,
        output.outPubKey = info.outPubKey ∧ found.accountId = wallet.account.id ∧
          found.outputId = output.id ∧ found.keyImage = info.keyImg ∧
          found.amount = output.amount := by
  obtain ⟨info, identified, output, inOutputs, key, rfl⟩ := mem_collectInputs member
  exact ⟨info, identified, output, inOutputs, key, rfl, rfl, rfl, rfl⟩

/-- The outputs of other transactions stay as they are. -/
theorem filledDb_outputsForTx {txId : Nat}
    (other : txId ≠ (clearedDb wallet tx outcomes scanned.db).nextTransaction) :
    (filledDb wallet status tuple tx outcomes scanned).outputsForTx txId =
      (clearedDb wallet tx outcomes scanned.db).outputsForTx txId := by
  show List.filter _ (_ ++ Database.numbered _ _ _) = _
  rw [List.filter_append]
  refine (congrArg _ (List.filter_eq_nil_iff.mpr fun output new => ?_)).trans (List.append_nil _)
  obtain ⟨-, -, -, here, -⟩ := of_mem_newOutputs new
  simpa [here] using other.symm

/-- The outputs of the transaction are the new ones. -/
theorem filledDb_outputsForTx_new (valid : scanned.db.Valid) :
    (filledDb wallet status tuple tx outcomes scanned).outputsForTx
        (clearedDb wallet tx outcomes scanned.db).nextTransaction =
      Database.numbered (fun (row : XmrOutput) id => { row with id })
        (clearedDb wallet tx outcomes scanned.db).nextOutput
        (storedOutputs wallet tuple tx outcomes scanned
          (clearedDb wallet tx outcomes scanned.db).nextTransaction) := by
  show List.filter _ (_ ++ Database.numbered _ _ _) = _
  rw [List.filter_append, List.filter_eq_nil_iff.mpr fun output old => ?_, List.nil_append]
  · refine List.filter_eq_self.mpr fun output new => ?_
    obtain ⟨-, -, -, here, -⟩ := of_mem_newOutputs new
    exact decide_eq_true here
  · have earlier := Database.Valid.output_txId_lt (clearedDb_valid valid) old
    simpa using Nat.ne_of_lt earlier

end Pass

/-! ### The tables after the spendability check -/

/-- What holds of the tables, and is kept when a transaction of the list is deleted, or marked
because it is unlocked, holds after the check. -/
theorem check_induction (invariant : Database → Prop) (backend : Backend)
    (txs : List XmrTransaction)
    (deletes : ∀ db, ∀ tx ∈ txs, invariant db → invariant (db.deleteTx tx.id).2)
    (marks : ∀ db, ∀ tx ∈ txs, ¬ tx.spendable = true →
      isTxUnlocked backend.status tx.unlockTime tx.height = true →
      invariant db → invariant (db.markTxSpendable tx.id backend.status.now).2)
    (world : World) (initially : invariant world.db) :
    invariant (selectTxsForAccountSpendabilityCheck backend txs world).2.db := by
  induction txs generalizing world with
  | nil => exact initially
  | cons tx rest inductionHypothesis =>
    have later := inductionHypothesis
      (fun db other member => deletes db other (List.mem_cons_of_mem _ member))
      (fun db other member => marks db other (List.mem_cons_of_mem _ member))
    have kept {Result : Type} (onThrow : Result) (run : Database → Result × Database)
        (keeps : invariant (run world.db).2) :
        invariant (statement onThrow run world).2.db := by
      by_cases throws : world.throws = true
      · rw [statement_throws _ _ throws]
        exact initially
      · rw [statement_runs _ _ throws]
        exact keeps
    unfold selectTxsForAccountSpendabilityCheck
    split
    · exact later world initially
    · next unmarked =>
      split
      · next unlocked =>
        rw [Handler.bind_apply]
        have marked := kept 0 (·.markTxSpendable tx.id backend.status.now)
          (marks _ tx List.mem_cons_self unmarked unlocked initially)
        split
        · exact marked
        · exact later _ marked
      · split
        · rw [Handler.bind_apply]
          have deleted := kept 0 (·.deleteTx tx.id)
            (deletes _ tx List.mem_cons_self initially)
          split
          · exact deleted
          · exact later _ deleted
        · exact later world initially

/-- What is kept whichever transaction is deleted or marked holds after the check. -/
theorem check_invariant (invariant : Database → Prop)
    (deletes : ∀ db txId, invariant db → invariant (db.deleteTx txId).2)
    (marks : ∀ db txId now, invariant db → invariant (db.markTxSpendable txId now).2)
    (backend : Backend) (txs : List XmrTransaction) (world : World)
    (initially : invariant world.db) :
    invariant (selectTxsForAccountSpendabilityCheck backend txs world).2.db :=
  check_induction invariant backend txs (fun db tx _ => deletes db tx.id)
    (fun db tx _ _ _ => marks db tx.id backend.status.now) world initially

end LightWallet
