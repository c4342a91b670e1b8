/-
This file says what one pass of the loop over transactions amounts to, in terms
of the tables before it and of the answers it gets.

A pass opens its database transaction when something was identified. From there
it has three ends: it does not get to open the transaction and touches nothing;
it opens it, and some later step fails, which leaves the tables without the rows
of an earlier scan; or every step succeeds, and the rows of the transaction are
stored. The conditions are stated on the tables and the answers alone, and the
three theorems at the end prove them of the pass.
-/

import LightWallet.Recording

namespace LightWallet

/-! ### The loops over outputs and inputs -/

theorem collectOutputs_fst (row : OutputInfo → Nat → XmrOutput) (indices : List Nat)
    (infos : List OutputInfo) (known : KnownOutputs)
    (covered : ∀ info ∈ infos, info.idxInTx < indices.length) :
    (collectOutputs row indices infos known).1 =
      some (infos.map fun info => row info (indices.getD info.idxInTx 0)) := by
  induction infos generalizing known with
  | nil => rfl
  | cons info rest inductionHypothesis =>
    have here : indices[info.idxInTx]? = some (indices.getD info.idxInTx 0) := by
      rw [List.getD_eq_getElem?_getD, List.getElem?_eq_getElem (covered info (by simp))]
      rfl
    rw [collectOutputs, here]
    show Option.map _ (collectOutputs row indices rest (known.insert info.pubKey info.amount)).1 = _
    rw [inductionHypothesis _ fun other member => covered other (List.mem_cons_of_mem _ member)]
    rfl

theorem collectOutputs_fst_eq_none (row : OutputInfo → Nat → XmrOutput) (indices : List Nat)
    (infos : List OutputInfo) (known : KnownOutputs)
    (uncovered : ¬ ∀ info ∈ infos, info.idxInTx < indices.length) :
    (collectOutputs row indices infos known).1 = none := by
  induction infos generalizing known with
  | nil => exact absurd (by simp) uncovered
  | cons info rest inductionHypothesis =>
    by_cases here : info.idxInTx < indices.length
    · have later : ¬ ∀ other ∈ rest, other.idxInTx < indices.length := by
        intro covered
        exact uncovered (List.forall_mem_cons.mpr ⟨here, covered⟩)
      rw [collectOutputs, List.getElem?_eq_getElem here]
      show Option.map _ (collectOutputs row indices rest _).1 = _
      rw [inductionHypothesis _ later]
      rfl
    · rw [collectOutputs, List.getElem?_eq_none (by omega)]

theorem collectInputs_cons_none (row : InputInfo → XmrOutput → XmrInput) (answers : Nat → Bool)
    {db : Database} {index : Nat} {info : InputInfo}
    (unfound : answers index = true → db.outputExists info.outPubKey = none)
    (rest : List InputInfo) :
    collectInputs row answers db index (info :: rest) =
      collectInputs row answers db (index + 1) rest := by
  have lookup : (if answers index = true then db.outputExists info.outPubKey else none) = none := by
    split
    · next answer => exact unfound answer
    · rfl
  rw [collectInputs, lookup]

theorem collectInputs_cons_some (row : InputInfo → XmrOutput → XmrInput) (answers : Nat → Bool)
    {db : Database} {index : Nat} {info : InputInfo} {output : XmrOutput}
    (answer : answers index = true) (found : db.outputExists info.outPubKey = some output)
    (rest : List InputInfo) :
    collectInputs row answers db index (info :: rest) =
      row info output :: collectInputs row answers db (index + 1) rest := by
  rw [collectInputs, if_pos answer, found]

/-- Only the table of outputs matters to the lookups of the inputs. -/
theorem collectInputs_congr (row : InputInfo → XmrOutput → XmrInput) (answers : Nat → Bool)
    (first second : Database) (same : first.outputs = second.outputs) (index : Nat)
    (infos : List InputInfo) :
    collectInputs row answers first index infos = collectInputs row answers second index infos := by
  induction infos generalizing index with
  | nil => rfl
  | cons info rest inductionHypothesis =>
    simp only [collectInputs, Database.outputExists, same, inductionHypothesis]

theorem appendInputs_nil (db : Database) : db.appendInputs [] = db := by
  unfold Database.appendInputs Database.numbered
  rw [List.append_nil]
  rfl

theorem appendOutputs_nil (db : Database) : db.appendOutputs [] = db := by
  unfold Database.appendOutputs Database.numbered
  rw [List.append_nil]
  rfl

/-! ### What a pass stores -/

section Pass

variable (wallet : Wallet) (status : Status) (tuple : TxTuple) (tx : Transaction)
  (outcomes : Outcomes) (scanned : Scanned)

/-- The inputs that the cache of known outputs lets the pass identify. -/
def identifiedInputs : List InputInfo := wallet.identifier.inputs scanned.known tx

/-- The time that is stored with the rows of the transaction. -/
def storedTimestamp : Nat := scanned.blkTimestamp.getD tuple.blkTimestamp

/-- The row of an earlier scan, when the lookup answers. -/
def existingTx (db : Database) : Option XmrTransaction :=
  if outcomes.existsAnswers then db.txExists wallet.account.id tx.hash else none

/-- The tables without the rows of an earlier scan. -/
def clearedDb (db : Database) : Database :=
  match existingTx wallet tx outcomes db with
  | none => db
  | some old => (db.deleteTx old.id).2

/-- The pass identifies something, and opens its transaction. -/
def Opens : Prop :=
  outcomes.identifies = true ∧
    (wallet.identifier.outputs tx ≠ [] ∨ identifiedInputs wallet tx scanned ≠ []) ∧
    outcomes.begins = true ∧
    (existingTx wallet tx outcomes scanned.db ≠ none → outcomes.deleteAnswers = true)

/-- The rows of the identified outputs. -/
def storedOutputs (txMysqlId : Nat) : List XmrOutput :=
  (wallet.identifier.outputs tx).map fun info =>
    outputRow wallet tuple tx txMysqlId (storedTimestamp tuple scanned) info
      (outcomes.chainIndices.getD info.idxInTx 0)

/-- The rows of the identified inputs whose output is found in the given tables. -/
def foundInputs (answers : Nat → Bool) (db : Database) : List XmrInput :=
  collectInputs (inputRow wallet (storedTimestamp tuple scanned)) answers
    (db.appendOutputs (storedOutputs wallet tuple tx outcomes scanned db.nextTransaction)) 0
    (identifiedInputs wallet tx scanned)

/-- The row of the transaction. What is spent enters it only when nothing is received. -/
def storedTransaction (found : List XmrInput) : XmrTransaction :=
  transactionRow wallet status tuple tx outcomes.chainTxId
    (calcTotalXmr (wallet.identifier.outputs tx))
    (if wallet.identifier.outputs tx = [] then calcTotalSent found else 0)
    (storedTimestamp tuple scanned)

/-- The tables with the row of the transaction and the rows of its outputs. -/
def withOutputs (found : List XmrInput) (db : Database) : Database :=
  (db.appendTransaction
      (storedTransaction wallet status tuple tx outcomes scanned found)).appendOutputs
    (storedOutputs wallet tuple tx outcomes scanned db.nextTransaction)

/-- The rows of the inputs, once the transaction has an id. -/
def linkedInputs (found : List XmrInput) (txMysqlId : Nat) : List XmrInput :=
  found.map fun row => { row with txId := txMysqlId }

/-- The tables with every row of the transaction. A transaction without identified outputs
gets rows only if some input was found. -/
def storedDb (found : List XmrInput) (db : Database) : Database :=
  if wallet.identifier.outputs tx = [] ∧ found = [] then db
  else
    (withOutputs wallet status tuple tx outcomes scanned found db).appendInputs
      (linkedInputs found db.nextTransaction)

/-- The rows of the outputs are stored. -/
structure OutputsSucceed (db : Database) : Prop where
  looksUp : outcomes.txExistAnswers = true
  inserts : outcomes.insertsTransaction = true
  accepts : db.acceptsTransaction
    (storedTransaction wallet status tuple tx outcomes scanned []) = true
  hasIndices : outcomes.indicesAnswer = true
  covers : ∀ info ∈ wallet.identifier.outputs tx, info.idxInTx < outcomes.chainIndices.length
  insertsOutputs : outcomes.insertsOutputs = true
  acceptsOutputs :
    (db.appendTransaction
        (storedTransaction wallet status tuple tx outcomes scanned [])).acceptsOutputs
      (storedOutputs wallet tuple tx outcomes scanned db.nextTransaction) = true

/-- The rows of the inputs that are found are stored. -/
structure InputsSucceed (found : List XmrInput) (db : Database) : Prop where
  inserts : wallet.identifier.outputs tx = [] → outcomes.insertsTransaction = true
  accepts : wallet.identifier.outputs tx = [] → db.acceptsTransaction
    (storedTransaction wallet status tuple tx outcomes scanned found) = true
  insertsInputs : outcomes.insertsInputs = true
  acceptsInputs :
    (withOutputs wallet status tuple tx outcomes scanned found db).acceptsInputs
      (linkedInputs found db.nextTransaction) = true

/-- Every step between the opening of the transaction and its commit succeeds. -/
structure RowsSucceed (db : Database) : Prop where
  ofOutputs : wallet.identifier.outputs tx ≠ [] →
    OutputsSucceed wallet status tuple tx outcomes scanned db
  looksUpAgain : identifiedInputs wallet tx scanned ≠ [] →
    wallet.identifier.outputs tx = [] ∨ outcomes.chainTxId = 0 →
    outcomes.txExistAnswersAgain = true
  ofInputs : foundInputs wallet tuple tx outcomes scanned outcomes.outputExistsAnswers db ≠ [] →
    InputsSucceed wallet status tuple tx outcomes scanned
      (foundInputs wallet tuple tx outcomes scanned outcomes.outputExistsAnswers db) db

/-- Every step after the opening of the transaction succeeds. -/
def StepsSucceed (db : Database) : Prop :=
  RowsSucceed wallet status tuple tx outcomes scanned db ∧ outcomes.commits = true

theorem storedTransaction_of_outputs (found : List XmrInput)
    (some : wallet.identifier.outputs tx ≠ []) :
    storedTransaction wallet status tuple tx outcomes scanned found =
      storedTransaction wallet status tuple tx outcomes scanned [] := by
  unfold storedTransaction
  rw [if_neg some, if_neg some]

theorem storedDb_of_none (db : Database) (none : wallet.identifier.outputs tx = []) :
    storedDb wallet status tuple tx outcomes scanned [] db = db := if_pos ⟨none, rfl⟩

theorem storedDb_of_some (found : List XmrInput) (db : Database)
    (some : ¬ (wallet.identifier.outputs tx = [] ∧ found = [])) :
    storedDb wallet status tuple tx outcomes scanned found db =
      (withOutputs wallet status tuple tx outcomes scanned found db).appendInputs
        (linkedInputs found db.nextTransaction) := if_neg some

theorem storedOutputs_of_none (txMysqlId : Nat) (none : wallet.identifier.outputs tx = []) :
    storedOutputs wallet tuple tx outcomes scanned txMysqlId = [] := by
  unfold storedOutputs
  rw [none, List.map_nil]

theorem withOutputs_of_none (found : List XmrInput) (db : Database)
    (none : wallet.identifier.outputs tx = []) :
    withOutputs wallet status tuple tx outcomes scanned found db =
      db.appendTransaction (transactionRow wallet status tuple tx outcomes.chainTxId 0
        (calcTotalSent found) (storedTimestamp tuple scanned)) := by
  unfold withOutputs storedTransaction
  rw [storedOutputs_of_none wallet tuple tx outcomes scanned _ none, appendOutputs_nil,
    if_pos none, none]
  rfl

theorem withOutputs_of_some (found : List XmrInput) (db : Database)
    (some : wallet.identifier.outputs tx ≠ []) :
    withOutputs wallet status tuple tx outcomes scanned found db =
      withOutputs wallet status tuple tx outcomes scanned [] db := by
  unfold withOutputs
  rw [storedTransaction_of_outputs wallet status tuple tx outcomes scanned _ some]

end Pass

/-! ### Leaving a pass -/

/-- The step leaves the pass, with nothing committed but the given tables. -/
def Step.LeavesWith (db : Database) : Step → Prop
  | .go _ => False
  | .leave exit pass => exit ≠ .next ∧ pass.committed = db

theorem Step.LeavesWith.andThen {db : Database} {step : Step} (leaves : step.LeavesWith db)
    (rest : Pass → Step) : (step.andThen rest).LeavesWith db := by
  cases step with
  | go pass => exact leaves.elim
  | leave exit pass => exact leaves

theorem Step.LeavesWith.finish {db : Database} {step : Step} (leaves : step.LeavesWith db) :
    step.finish.1 ≠ .next ∧ step.finish.2.db = db := by
  cases step with
  | go pass => exact leaves.elim
  | leave exit pass => exact leaves

/-! ### The steps of a pass -/

section Steps

variable (wallet : Wallet) (status : Status) (tuple : TxTuple) (tx : Transaction)
  (outcomes : Outcomes) (scanned : Scanned)

/-- The pass before its first step. -/
def initialPass : Pass :=
  { committed := scanned.db, known := scanned.known, blkTimestamp := scanned.blkTimestamp }

/-- The pass once its transaction is open. -/
def openedPass (known : KnownOutputs) : Pass :=
  { committed := clearedDb wallet tx outcomes scanned.db
    transaction := some (clearedDb wallet tx outcomes scanned.db)
    known := known
    blkTimestamp := some (storedTimestamp tuple scanned) }

/-- The pass once the transaction was found in the blockchain. -/
def lookedUpPass (known : KnownOutputs) : Pass :=
  { openedPass wallet tuple tx outcomes scanned known with blockchainTxId := outcomes.chainTxId }

/-- The pass once the rows of the outputs are stored. -/
def receivedPass (known : KnownOutputs) : Pass :=
  { lookedUpPass wallet tuple tx outcomes scanned known with
    transaction := some (withOutputs wallet status tuple tx outcomes scanned []
      (clearedDb wallet tx outcomes scanned.db))
    txMysqlId := some (clearedDb wallet tx outcomes scanned.db).nextTransaction }

theorem txExists_mem {db : Database} {accountId : Nat} {hash : String} {old : XmrTransaction}
    (found : db.txExists accountId hash = some old) :
    old ∈ db.transactions ∧ old.accountId = accountId ∧ old.hash = hash := by
  refine ⟨List.mem_of_find?_eq_some found, ?_⟩
  simpa using List.find?_some found

theorem deleteTx_count_ne_zero {db : Database} {old : XmrTransaction}
    (member : old ∈ db.transactions) : (db.deleteTx old.id).1 ≠ 0 := by
  show (db.transactions.filter (·.id = old.id)).length ≠ 0
  rw [Ne, List.length_eq_zero_iff]
  exact List.ne_nil_of_mem (List.mem_filter.mpr ⟨member, by simp⟩)

theorem existingTx_mem {db : Database} {old : XmrTransaction}
    (existing : existingTx wallet tx outcomes db = some old) :
    old ∈ db.transactions ∧ old.accountId = wallet.account.id ∧ old.hash = tx.hash := by
  unfold existingTx at existing
  split at existing
  · exact txExists_mem existing
  · cases existing

theorem openTransaction_go (begins : outcomes.begins = true)
    (deletes : existingTx wallet tx outcomes scanned.db ≠ none → outcomes.deleteAnswers = true) :
    openTransaction wallet tuple tx outcomes (initialPass scanned) =
      .go (openedPass wallet tuple tx outcomes scanned scanned.known) := by
  unfold openTransaction beginTransaction
  rw [if_pos begins, Step.andThen_go]
  unfold deleteExistingTxIfExists
  cases existing : existingTx wallet tx outcomes scanned.db with
  | none =>
    have lookup : (if outcomes.existsAnswers = true then
        scanned.db.txExists wallet.account.id tx.hash else none) = none := existing
    simp only [stampBlock, initialPass, lookup, openedPass, clearedDb, existing, storedTimestamp]
  | some old =>
    have lookup : (if outcomes.existsAnswers = true then
        scanned.db.txExists wallet.account.id tx.hash else none) = some old := existing
    have counted := deleteTx_count_ne_zero (existingTx_mem wallet tx outcomes existing).1
    have answers : outcomes.deleteAnswers = true :=
      deletes (by rw [existing]; exact Option.some_ne_none _)
    simp only [stampBlock, initialPass, lookup, openedPass, clearedDb, existing, storedTimestamp,
      answers, counted, Option.map_some, ne_eq, not_false_eq_true, and_self, if_true]

theorem openTransaction_leaves
    (fails : ¬ (outcomes.begins = true ∧
      (existingTx wallet tx outcomes scanned.db ≠ none → outcomes.deleteAnswers = true))) :
    (openTransaction wallet tuple tx outcomes (initialPass scanned)).LeavesWith scanned.db := by
  unfold openTransaction beginTransaction
  by_cases begins : outcomes.begins = true
  · rw [if_pos begins, Step.andThen_go]
    unfold deleteExistingTxIfExists
    cases existing : existingTx wallet tx outcomes scanned.db with
    | none => exact absurd ⟨begins, fun found => absurd existing found⟩ fails
    | some old =>
      have lookup : (if outcomes.existsAnswers = true then
          scanned.db.txExists wallet.account.id tx.hash else none) = some old := existing
      have refuses : ¬ outcomes.deleteAnswers = true := fun answers =>
        fails ⟨begins, fun _ => answers⟩
      simp only [stampBlock, initialPass, lookup, refuses]
      exact ⟨Exit.noConfusion, rfl⟩
  · rw [if_neg begins]
    exact ⟨Exit.noConfusion, rfl⟩

/-- The commit keeps what the transaction has written, or loses it. -/
theorem commitTransaction_go {pass : Pass} {db : Database} (opened : pass.transaction = some db)
    (commits : outcomes.commits = true) :
    commitTransaction outcomes pass = .go { pass with committed := db, transaction := none } := by
  unfold commitTransaction
  rw [opened]
  exact if_pos commits

theorem commitTransaction_leaves {pass : Pass} {db : Database} (opened : pass.transaction = some db)
    (fails : ¬ outcomes.commits = true) :
    (commitTransaction outcomes pass).LeavesWith pass.committed := by
  unfold commitTransaction
  rw [opened]
  show Step.LeavesWith _ (if outcomes.commits = true then _ else _)
  rw [if_neg fails]
  exact ⟨Exit.noConfusion, rfl⟩

theorem insertTransactionRow_stores (totalReceived totalSent : UInt64) (pass : Pass)
    (inserts : outcomes.insertsTransaction = true)
    (accepts : pass.seen.acceptsTransaction (transactionRow wallet status tuple tx
      pass.blockchainTxId totalReceived totalSent (pass.blkTimestamp.getD 0)) = true) :
    insertTransactionRow wallet status tuple tx outcomes totalReceived totalSent pass =
      { pass.write (pass.seen.appendTransaction (transactionRow wallet status tuple tx
          pass.blockchainTxId totalReceived totalSent (pass.blkTimestamp.getD 0))) with
        txMysqlId := some pass.seen.nextTransaction } := by
  unfold insertTransactionRow Database.insertTransaction
  simp only [inserts, accepts, if_true]

theorem insertTransactionRow_fails (totalReceived totalSent : UInt64) (pass : Pass)
    (fails : ¬ (outcomes.insertsTransaction = true ∧
      pass.seen.acceptsTransaction (transactionRow wallet status tuple tx
        pass.blockchainTxId totalReceived totalSent (pass.blkTimestamp.getD 0)) = true)) :
    insertTransactionRow wallet status tuple tx outcomes totalReceived totalSent pass =
      { pass with txMysqlId := none } := by
  unfold insertTransactionRow Database.insertTransaction
  by_cases inserts : outcomes.insertsTransaction = true
  · simp only [inserts, if_true, if_neg fun accepts => fails ⟨inserts, accepts⟩]
  · simp only [inserts, Bool.false_eq_true, if_false]

theorem insertTransactionRow_committed (totalReceived totalSent : UInt64) (pass : Pass) :
    (insertTransactionRow wallet status tuple tx outcomes totalReceived totalSent
      pass).committed = pass.committed := by
  by_cases inserts : outcomes.insertsTransaction = true ∧
      pass.seen.acceptsTransaction (transactionRow wallet status tuple tx pass.blockchainTxId
        totalReceived totalSent (pass.blkTimestamp.getD 0)) = true
  · rw [insertTransactionRow_stores wallet status tuple tx outcomes _ _ _ inserts.1 inserts.2]
    rfl
  · rw [insertTransactionRow_fails wallet status tuple tx outcomes _ _ _ inserts]

theorem insertOutputRows_go (outputs : List OutputInfo) (txMysqlId : Nat) (pass : Pass)
    (covers : ∀ info ∈ outputs, info.idxInTx < outcomes.chainIndices.length)
    (inserts : outcomes.insertsOutputs = true)
    (accepts : pass.seen.acceptsOutputs (outputs.map fun info =>
      outputRow wallet tuple tx txMysqlId (pass.blkTimestamp.getD 0) info
        (outcomes.chainIndices.getD info.idxInTx 0)) = true) :
    ∃ known, insertOutputRows wallet tuple tx outcomes outputs txMysqlId pass =
      .go (({ pass with known := known } : Pass).write (pass.seen.appendOutputs
        (outputs.map fun info => outputRow wallet tuple tx txMysqlId (pass.blkTimestamp.getD 0)
          info (outcomes.chainIndices.getD info.idxInTx 0)))) := by
  refine ⟨(collectOutputs (outputRow wallet tuple tx txMysqlId (pass.blkTimestamp.getD 0))
    outcomes.chainIndices outputs pass.known).2, ?_⟩
  unfold insertOutputRows
  simp only [collectOutputs_fst _ _ _ _ covers, inserts, if_true]
  have inserted : pass.seen.insertOutputs (outputs.map fun info =>
      outputRow wallet tuple tx txMysqlId (pass.blkTimestamp.getD 0) info
        (outcomes.chainIndices.getD info.idxInTx 0)) = some _ := if_pos accepts
  simp only [Pass.seen] at inserted ⊢
  rw [inserted]

theorem insertOutputRows_leaves (outputs : List OutputInfo) (txMysqlId : Nat) (pass : Pass)
    (fails : ¬ ((∀ info ∈ outputs, info.idxInTx < outcomes.chainIndices.length) ∧
      outcomes.insertsOutputs = true ∧
      pass.seen.acceptsOutputs (outputs.map fun info =>
        outputRow wallet tuple tx txMysqlId (pass.blkTimestamp.getD 0) info
          (outcomes.chainIndices.getD info.idxInTx 0)) = true)) :
    (insertOutputRows wallet tuple tx outcomes outputs txMysqlId pass).LeavesWith
      pass.committed := by
  unfold insertOutputRows
  by_cases covers : ∀ info ∈ outputs, info.idxInTx < outcomes.chainIndices.length
  · have refused : (if outcomes.insertsOutputs = true then
        pass.seen.insertOutputs (outputs.map fun info =>
          outputRow wallet tuple tx txMysqlId (pass.blkTimestamp.getD 0) info
            (outcomes.chainIndices.getD info.idxInTx 0)) else none) = none := by
      by_cases inserts : outcomes.insertsOutputs = true
      · rw [if_pos inserts]
        exact if_neg fun accepts => fails ⟨covers, inserts, accepts⟩
      · rw [if_neg inserts]
    simp only [collectOutputs_fst _ _ _ _ covers]
    simp only [Pass.seen] at refused ⊢
    rw [refused]
    exact ⟨Exit.noConfusion, rfl⟩
  · simp only [collectOutputs_fst_eq_none _ _ _ _ covers]
    exact ⟨Exit.noConfusion, rfl⟩

theorem insertInputRows_go (found : List XmrInput) (txMysqlId : Nat) (pass : Pass)
    (numbered : pass.txMysqlId = some txMysqlId) (inserts : outcomes.insertsInputs = true)
    (accepts : pass.seen.acceptsInputs (linkedInputs found txMysqlId) = true) :
    insertInputRows outcomes found pass =
      .go (pass.write (pass.seen.appendInputs (linkedInputs found txMysqlId))) := by
  unfold insertInputRows
  have inserted : pass.seen.insertInputs (linkedInputs found txMysqlId) = some _ := if_pos accepts
  unfold linkedInputs at inserted
  simp only [numbered, inserts, if_true, inserted, linkedInputs]

theorem insertInputRows_leaves (found : List XmrInput) (pass : Pass)
    (fails : ¬ ∃ txMysqlId, pass.txMysqlId = some txMysqlId ∧ outcomes.insertsInputs = true ∧
      pass.seen.acceptsInputs (linkedInputs found txMysqlId) = true) :
    (insertInputRows outcomes found pass).LeavesWith pass.committed := by
  unfold insertInputRows
  cases numbered : pass.txMysqlId with
  | none => exact ⟨Exit.noConfusion, rfl⟩
  | some txMysqlId =>
    have refused : (if outcomes.insertsInputs = true then
        pass.seen.insertInputs (linkedInputs found txMysqlId) else none) = none := by
      by_cases inserts : outcomes.insertsInputs = true
      · rw [if_pos inserts]
        exact if_neg fun accepts => fails ⟨txMysqlId, numbered, inserts, accepts⟩
      · rw [if_neg inserts]
    unfold linkedInputs at refused
    simp only [refused]
    exact ⟨Exit.noConfusion, rfl⟩

/-- The outputs part stores its rows when every step of it succeeds. -/
theorem outputsPart_go (identified : wallet.identifier.outputs tx ≠ [])
    (begins : outcomes.begins = true)
    (deletes : existingTx wallet tx outcomes scanned.db ≠ none → outcomes.deleteAnswers = true)
    (succeeds : OutputsSucceed wallet status tuple tx outcomes scanned
      (clearedDb wallet tx outcomes scanned.db)) :
    ∃ known, outputsPart wallet status tuple tx outcomes (initialPass scanned) =
      .go (receivedPass wallet status tuple tx outcomes scanned known) := by
  obtain ⟨info, rest, outputs⟩ := List.exists_cons_of_ne_nil identified
  have accepts := succeeds.accepts
  have covers := succeeds.covers
  have acceptsOutputs := succeeds.acceptsOutputs
  unfold storedTransaction at accepts acceptsOutputs
  unfold storedOutputs at acceptsOutputs
  rw [if_neg identified] at accepts acceptsOutputs
  unfold outputsPart
  rw [outputs] at accepts covers acceptsOutputs ⊢
  simp only [openTransaction_go wallet tuple tx outcomes scanned begins deletes,
    Step.andThen_go, lookUpTx, succeeds.looksUp, if_true, succeeds.hasIndices]
  have inserted := insertTransactionRow_stores wallet status tuple tx outcomes
    (calcTotalXmr (info :: rest)) 0 (lookedUpPass wallet tuple tx outcomes scanned scanned.known)
    succeeds.inserts accepts
  unfold lookedUpPass at inserted
  rw [inserted]
  obtain ⟨known, stored⟩ := insertOutputRows_go wallet tuple tx outcomes (info :: rest)
    (clearedDb wallet tx outcomes scanned.db).nextTransaction
    { receivedPass wallet status tuple tx outcomes scanned scanned.known with
      transaction := some ((clearedDb wallet tx outcomes scanned.db).appendTransaction
        (transactionRow wallet status tuple tx outcomes.chainTxId (calcTotalXmr (info :: rest)) 0
          (storedTimestamp tuple scanned))) }
    covers succeeds.insertsOutputs acceptsOutputs
  refine ⟨known, stored.trans ?_⟩
  unfold receivedPass withOutputs storedTransaction storedOutputs
  rw [if_neg identified, outputs]
  rfl

/-- Otherwise it leaves the tables without the rows of an earlier scan. -/
theorem outputsPart_leaves (identified : wallet.identifier.outputs tx ≠ [])
    (begins : outcomes.begins = true)
    (deletes : existingTx wallet tx outcomes scanned.db ≠ none → outcomes.deleteAnswers = true)
    (fails : ¬ OutputsSucceed wallet status tuple tx outcomes scanned
      (clearedDb wallet tx outcomes scanned.db)) :
    (outputsPart wallet status tuple tx outcomes (initialPass scanned)).LeavesWith
      (clearedDb wallet tx outcomes scanned.db) := by
  obtain ⟨info, rest, outputs⟩ := List.exists_cons_of_ne_nil identified
  unfold outputsPart
  rw [outputs]
  simp only [openTransaction_go wallet tuple tx outcomes scanned begins deletes, Step.andThen_go,
    lookUpTx]
  by_cases looksUp : outcomes.txExistAnswers = true
  · simp only [looksUp, if_true, Step.andThen_go]
    by_cases hasIndices : outcomes.indicesAnswer = true
    · rw [if_pos hasIndices]
      by_cases inserts : outcomes.insertsTransaction = true ∧
          (clearedDb wallet tx outcomes scanned.db).acceptsTransaction
            (transactionRow wallet status tuple tx outcomes.chainTxId
              (calcTotalXmr (info :: rest)) 0 (storedTimestamp tuple scanned)) = true
      · have inserted := insertTransactionRow_stores wallet status tuple tx outcomes
          (calcTotalXmr (info :: rest)) 0
          (lookedUpPass wallet tuple tx outcomes scanned scanned.known) inserts.1 inserts.2
        unfold lookedUpPass at inserted
        rw [inserted]
        refine insertOutputRows_leaves wallet tuple tx outcomes _ _ _ ?_
        rintro ⟨covers, insertsOutputs, acceptsOutputs⟩
        refine fails ⟨looksUp, inserts.1, ?_, hasIndices, ?_, insertsOutputs, ?_⟩
        · unfold storedTransaction
          rw [if_neg identified, outputs]
          exact inserts.2
        · rw [outputs]
          exact covers
        · unfold storedTransaction storedOutputs
          rw [if_neg identified, outputs]
          exact acceptsOutputs
      · have refused := insertTransactionRow_fails wallet status tuple tx outcomes
          (calcTotalXmr (info :: rest)) 0
          (lookedUpPass wallet tuple tx outcomes scanned scanned.known) inserts
        unfold lookedUpPass at refused
        rw [refused]
        exact ⟨Exit.noConfusion, rfl⟩
    · rw [if_neg hasIndices]
      exact ⟨Exit.noConfusion, insertTransactionRow_committed wallet status tuple tx outcomes _ _ _⟩
  · simp only [looksUp, Bool.false_eq_true, if_false, Step.andThen_leave]
    exact ⟨Exit.noConfusion, rfl⟩

/-- The pass before the lookups of the inputs. -/
def readyPass (known : KnownOutputs) : Pass :=
  if wallet.identifier.outputs tx = [] then lookedUpPass wallet tuple tx outcomes scanned known
  else receivedPass wallet status tuple tx outcomes scanned known

/-- The pass once every row of the transaction is written. -/
def writtenPass (found : List XmrInput) (known : KnownOutputs) (txMysqlId : Option Nat) : Pass :=
  { lookedUpPass wallet tuple tx outcomes scanned known with
    transaction := some (storedDb wallet status tuple tx outcomes scanned found
      (clearedDb wallet tx outcomes scanned.db))
    txMysqlId := txMysqlId }

theorem readyPass_of_none (known : KnownOutputs) (none : wallet.identifier.outputs tx = []) :
    readyPass wallet status tuple tx outcomes scanned known =
      lookedUpPass wallet tuple tx outcomes scanned known := if_pos none

theorem readyPass_of_some (known : KnownOutputs) (some : wallet.identifier.outputs tx ≠ []) :
    readyPass wallet status tuple tx outcomes scanned known =
      receivedPass wallet status tuple tx outcomes scanned known := if_neg some

theorem openForInputs_initial (identified : wallet.identifier.outputs tx = [])
    (begins : outcomes.begins = true)
    (deletes : existingTx wallet tx outcomes scanned.db ≠ none → outcomes.deleteAnswers = true)
    (looksUp : outcomes.txExistAnswersAgain = true) :
    openForInputs wallet tuple tx outcomes (initialPass scanned) =
      .go (readyPass wallet status tuple tx outcomes scanned scanned.known) := by
  unfold openForInputs
  simp only [initialPass]
  have opened := openTransaction_go wallet tuple tx outcomes scanned begins deletes
  unfold initialPass at opened
  rw [opened, Step.andThen_go, readyPass, if_pos identified]
  simp only [openedPass, lookUpTx, looksUp, if_true, lookedUpPass]

theorem openForInputs_received (identified : wallet.identifier.outputs tx ≠ [])
    (known : KnownOutputs)
    (looksUp : outcomes.chainTxId = 0 → outcomes.txExistAnswersAgain = true) :
    openForInputs wallet tuple tx outcomes
        (receivedPass wallet status tuple tx outcomes scanned known) =
      .go (readyPass wallet status tuple tx outcomes scanned known) := by
  unfold openForInputs
  rw [readyPass, if_neg identified]
  simp only [receivedPass, stampBlock, lookedUpPass, openedPass, Step.andThen_go,
    Option.getD_some]
  by_cases absent : outcomes.chainTxId = 0
  · simp only [absent, if_true, lookUpTx, looksUp absent]
  · rw [if_neg absent]

theorem inputsFound_ready (known : KnownOutputs) :
    inputsFound wallet outcomes (identifiedInputs wallet tx scanned)
        (readyPass wallet status tuple tx outcomes scanned known) =
      foundInputs wallet tuple tx outcomes scanned outcomes.outputExistsAnswers
        (clearedDb wallet tx outcomes scanned.db) := by
  unfold readyPass
  split
  · next none =>
    refine collectInputs_congr _ _ _ _ ?_ _ _
    show (clearedDb wallet tx outcomes scanned.db).outputs = _
    rw [storedOutputs_of_none wallet tuple tx outcomes scanned _ none]
    exact (List.append_nil _).symm
  · exact collectInputs_congr (inputRow wallet (storedTimestamp tuple scanned))
      outcomes.outputExistsAnswers
      (withOutputs wallet status tuple tx outcomes scanned []
        (clearedDb wallet tx outcomes scanned.db))
      ((clearedDb wallet tx outcomes scanned.db).appendOutputs (storedOutputs wallet tuple tx
        outcomes scanned (clearedDb wallet tx outcomes scanned.db).nextTransaction)) rfl 0 _

theorem recordFound_go (found : List XmrInput) (known : KnownOutputs)
    (succeeds : found ≠ [] → InputsSucceed wallet status tuple tx outcomes scanned found
      (clearedDb wallet tx outcomes scanned.db)) :
    ∃ txMysqlId, recordFound wallet status tuple tx outcomes found
        (readyPass wallet status tuple tx outcomes scanned known) =
      .go (writtenPass wallet status tuple tx outcomes scanned found known txMysqlId) := by
  cases found with
  | nil =>
    unfold writtenPass
    by_cases identified : wallet.identifier.outputs tx = []
    · refine ⟨none, ?_⟩
      rw [readyPass_of_none wallet status tuple tx outcomes scanned known identified,
        storedDb_of_none wallet status tuple tx outcomes scanned _ identified]
      rfl
    · refine ⟨some (clearedDb wallet tx outcomes scanned.db).nextTransaction, ?_⟩
      rw [readyPass_of_some wallet status tuple tx outcomes scanned known identified,
        storedDb_of_some wallet status tuple tx outcomes scanned _ _ fun both => identified both.1,
        linkedInputs, List.map_nil, appendInputs_nil]
      rfl
  | cons input more =>
    have inputs := succeeds (List.cons_ne_nil _ _)
    have accepts := inputs.acceptsInputs
    refine ⟨some (clearedDb wallet tx outcomes scanned.db).nextTransaction, ?_⟩
    unfold writtenPass
    rw [storedDb_of_some wallet status tuple tx outcomes scanned _ _ fun both =>
      List.cons_ne_nil _ _ both.2]
    by_cases identified : wallet.identifier.outputs tx = []
    · have acceptsRow := inputs.accepts identified
      unfold storedTransaction at acceptsRow
      rw [if_pos identified, identified] at acceptsRow
      have inserted := insertTransactionRow_stores wallet status tuple tx outcomes 0
        (calcTotalSent (input :: more)) (lookedUpPass wallet tuple tx outcomes scanned known)
        (inputs.inserts identified) acceptsRow
      rw [withOutputs_of_none wallet status tuple tx outcomes scanned _ _ identified] at accepts ⊢
      rw [readyPass_of_none wallet status tuple tx outcomes scanned known identified]
      have unnumbered :
          (lookedUpPass wallet tuple tx outcomes scanned known).txMysqlId = none := rfl
      simp only [recordFound, unnumbered, inserted]
      exact insertInputRows_go outcomes (input :: more) _ _ rfl inputs.insertsInputs accepts
    · rw [withOutputs_of_some wallet status tuple tx outcomes scanned _ _ identified] at accepts ⊢
      rw [readyPass_of_some wallet status tuple tx outcomes scanned known identified]
      exact insertInputRows_go outcomes (input :: more) _
        (receivedPass wallet status tuple tx outcomes scanned known) rfl inputs.insertsInputs
        accepts

theorem recordFound_leaves (found : List XmrInput) (known : KnownOutputs) (some : found ≠ [])
    (fails : ¬ InputsSucceed wallet status tuple tx outcomes scanned found
      (clearedDb wallet tx outcomes scanned.db)) :
    (recordFound wallet status tuple tx outcomes found
      (readyPass wallet status tuple tx outcomes scanned known)).LeavesWith
      (clearedDb wallet tx outcomes scanned.db) := by
  obtain ⟨input, more, rfl⟩ := List.exists_cons_of_ne_nil some
  by_cases identified : wallet.identifier.outputs tx = []
  · rw [readyPass_of_none wallet status tuple tx outcomes scanned known identified]
    have unnumbered : (lookedUpPass wallet tuple tx outcomes scanned known).txMysqlId = none := rfl
    have row : storedTransaction wallet status tuple tx outcomes scanned (input :: more) =
        transactionRow wallet status tuple tx outcomes.chainTxId 0 (calcTotalSent (input :: more))
          (storedTimestamp tuple scanned) := by
      unfold storedTransaction
      rw [if_pos identified, identified]
      rfl
    simp only [recordFound, unnumbered]
    by_cases inserts : outcomes.insertsTransaction = true ∧
        (clearedDb wallet tx outcomes scanned.db).acceptsTransaction
          (storedTransaction wallet status tuple tx outcomes scanned (input :: more)) = true
    · have accepts := inserts.2
      rw [row] at accepts
      rw [insertTransactionRow_stores wallet status tuple tx outcomes _ _
        (lookedUpPass wallet tuple tx outcomes scanned known) inserts.1 accepts]
      refine insertInputRows_leaves outcomes _ _ ?_
      rintro ⟨txMysqlId, numbered, insertsInputs, acceptsInputs⟩
      refine fails ⟨fun _ => inserts.1, fun _ => inserts.2, insertsInputs, ?_⟩
      rw [withOutputs_of_none wallet status tuple tx outcomes scanned _ _ identified]
      cases numbered
      exact acceptsInputs
    · rw [row] at inserts
      rw [insertTransactionRow_fails wallet status tuple tx outcomes _ _
        (lookedUpPass wallet tuple tx outcomes scanned known) inserts]
      exact ⟨Exit.noConfusion, rfl⟩
  · rw [readyPass_of_some wallet status tuple tx outcomes scanned known identified]
    refine insertInputRows_leaves outcomes _
      (receivedPass wallet status tuple tx outcomes scanned known) ?_
    rintro ⟨txMysqlId, numbered, insertsInputs, acceptsInputs⟩
    refine fails ⟨fun none => absurd none identified, fun none => absurd none identified,
      insertsInputs, ?_⟩
    rw [withOutputs_of_some wallet status tuple tx outcomes scanned _ _ identified]
    cases numbered
    exact acceptsInputs

/-- The inputs part, from the opening of the transaction on. -/
theorem inputsPart_ready (pass : Pass) (known : KnownOutputs)
    (identified : identifiedInputs wallet tx scanned ≠ [])
    (ready : openForInputs wallet tuple tx outcomes pass =
      .go (readyPass wallet status tuple tx outcomes scanned known)) :
    inputsPart wallet status tuple tx outcomes (identifiedInputs wallet tx scanned) pass =
      recordFound wallet status tuple tx outcomes
        (foundInputs wallet tuple tx outcomes scanned outcomes.outputExistsAnswers
          (clearedDb wallet tx outcomes scanned.db))
        (readyPass wallet status tuple tx outcomes scanned known) := by
  rw [← inputsFound_ready wallet status tuple tx outcomes scanned known]
  obtain ⟨info, rest, inputs⟩ := List.exists_cons_of_ne_nil identified
  rw [inputs]
  unfold inputsPart
  rw [ready]
  rfl

theorem foundInputs_of_none (answers : Nat → Bool) (db : Database)
    (none : identifiedInputs wallet tx scanned = []) :
    foundInputs wallet tuple tx outcomes scanned answers db = [] := by
  unfold foundInputs
  rw [none]
  rfl

/-- Both parts together write every row when every step of them succeeds. -/
theorem parts_go
    (opens : Opens wallet tx outcomes scanned)
    (succeeds : RowsSucceed wallet status tuple tx outcomes scanned
      (clearedDb wallet tx outcomes scanned.db)) :
    ∃ known txMysqlId,
      (outputsPart wallet status tuple tx outcomes (initialPass scanned)).andThen
          (inputsPart wallet status tuple tx outcomes (identifiedInputs wallet tx scanned)) =
        .go (writtenPass wallet status tuple tx outcomes scanned
          (foundInputs wallet tuple tx outcomes scanned outcomes.outputExistsAnswers
            (clearedDb wallet tx outcomes scanned.db)) known txMysqlId) := by
  obtain ⟨-, something, begins, deletes⟩ := opens
  by_cases outputs : wallet.identifier.outputs tx = []
  · have inputs : identifiedInputs wallet tx scanned ≠ [] := something.resolve_left fun some =>
      some outputs
    have nothing : outputsPart wallet status tuple tx outcomes (initialPass scanned) =
        .go (initialPass scanned) := by
      unfold outputsPart
      rw [outputs]
    have ready := openForInputs_initial wallet status tuple tx outcomes scanned outputs begins
      deletes (succeeds.looksUpAgain inputs (.inl outputs))
    rw [nothing, Step.andThen_go, inputsPart_ready wallet status tuple tx outcomes scanned _ _
      inputs ready]
    exact ⟨_, recordFound_go wallet status tuple tx outcomes scanned _ _ succeeds.ofInputs⟩
  · obtain ⟨known, received⟩ := outputsPart_go wallet status tuple tx outcomes scanned outputs
      begins deletes (succeeds.ofOutputs outputs)
    rw [received, Step.andThen_go]
    refine ⟨known, ?_⟩
    by_cases inputs : identifiedInputs wallet tx scanned = []
    · obtain ⟨txMysqlId, written⟩ := recordFound_go wallet status tuple tx outcomes scanned []
        known fun some => absurd rfl some
      refine ⟨txMysqlId, ?_⟩
      rw [foundInputs_of_none wallet tuple tx outcomes scanned _ _ inputs, inputs, ← written,
        readyPass_of_some wallet status tuple tx outcomes scanned known outputs]
      rfl
    · have ready := openForInputs_received wallet status tuple tx outcomes scanned outputs known
        fun absent => succeeds.looksUpAgain inputs (.inr absent)
      rw [inputsPart_ready wallet status tuple tx outcomes scanned _ _ inputs ready]
      exact recordFound_go wallet status tuple tx outcomes scanned _ _ succeeds.ofInputs

/-- When a step of them fails, the pass is left. -/
theorem parts_leave
    (opens : Opens wallet tx outcomes scanned)
    (fails : ¬ RowsSucceed wallet status tuple tx outcomes scanned
      (clearedDb wallet tx outcomes scanned.db)) :
    ((outputsPart wallet status tuple tx outcomes (initialPass scanned)).andThen
      (inputsPart wallet status tuple tx outcomes
        (identifiedInputs wallet tx scanned))).LeavesWith
      (clearedDb wallet tx outcomes scanned.db) := by
  obtain ⟨-, something, begins, deletes⟩ := opens
  by_cases outputs : wallet.identifier.outputs tx = []
  · have inputs : identifiedInputs wallet tx scanned ≠ [] := something.resolve_left fun some =>
      some outputs
    have nothing : outputsPart wallet status tuple tx outcomes (initialPass scanned) =
        .go (initialPass scanned) := by
      unfold outputsPart
      rw [outputs]
    rw [nothing, Step.andThen_go]
    by_cases looksUp : outcomes.txExistAnswersAgain = true
    · have ready := openForInputs_initial wallet status tuple tx outcomes scanned outputs begins
        deletes looksUp
      rw [inputsPart_ready wallet status tuple tx outcomes scanned _ _ inputs ready]
      by_cases found : foundInputs wallet tuple tx outcomes scanned outcomes.outputExistsAnswers
          (clearedDb wallet tx outcomes scanned.db) = []
      · exact absurd ⟨fun some => absurd outputs some, fun _ _ => looksUp,
          fun some => absurd found some⟩ fails
      · refine recordFound_leaves wallet status tuple tx outcomes scanned _ _ found ?_
        intro stored
        exact fails ⟨fun some => absurd outputs some, fun _ _ => looksUp, fun _ => stored⟩
    · have opened := openTransaction_go wallet tuple tx outcomes scanned begins deletes
      obtain ⟨info, rest, infos⟩ := List.exists_cons_of_ne_nil inputs
      rw [infos]
      unfold inputsPart openForInputs
      refine Step.LeavesWith.andThen ?_ _
      show Step.LeavesWith _ ((openTransaction wallet tuple tx outcomes
        (initialPass scanned)).andThen _)
      rw [opened, Step.andThen_go]
      simp only [openedPass, if_true, lookUpTx, looksUp, Bool.false_eq_true, if_false]
      exact ⟨Exit.noConfusion, rfl⟩
  · by_cases stored : OutputsSucceed wallet status tuple tx outcomes scanned
        (clearedDb wallet tx outcomes scanned.db)
    · obtain ⟨known, received⟩ := outputsPart_go wallet status tuple tx outcomes scanned outputs
        begins deletes stored
      rw [received, Step.andThen_go]
      by_cases inputs : identifiedInputs wallet tx scanned = []
      · refine absurd ⟨fun _ => stored, fun some => absurd inputs some, fun some => ?_⟩ fails
        exact absurd (foundInputs_of_none wallet tuple tx outcomes scanned _ _ inputs) some
      · by_cases looksUp : outcomes.chainTxId = 0 → outcomes.txExistAnswersAgain = true
        · have ready := openForInputs_received wallet status tuple tx outcomes scanned outputs
            known looksUp
          rw [inputsPart_ready wallet status tuple tx outcomes scanned _ _ inputs ready]
          have again : wallet.identifier.outputs tx = [] ∨ outcomes.chainTxId = 0 →
              outcomes.txExistAnswersAgain = true := fun either =>
            looksUp (either.resolve_left outputs)
          by_cases found : foundInputs wallet tuple tx outcomes scanned
              outcomes.outputExistsAnswers (clearedDb wallet tx outcomes scanned.db) = []
          · exact absurd ⟨fun _ => stored, fun _ => again, fun some => absurd found some⟩ fails
          · refine recordFound_leaves wallet status tuple tx outcomes scanned _ _ found ?_
            intro linked
            exact fails ⟨fun _ => stored, fun _ => again, fun _ => linked⟩
        · obtain ⟨absent, silent⟩ := Classical.not_imp.mp looksUp
          obtain ⟨info, rest, infos⟩ := List.exists_cons_of_ne_nil inputs
          rw [infos]
          unfold inputsPart openForInputs
          refine Step.LeavesWith.andThen ?_ _
          simp only [receivedPass, lookedUpPass, Step.andThen_go, stampBlock, absent, if_true,
            lookUpTx, silent, Bool.false_eq_true, if_false]
          exact ⟨Exit.noConfusion, rfl⟩
    · exact (outputsPart_leaves wallet status tuple tx outcomes scanned outputs begins deletes
        stored).andThen _

/-! ### The ends of a pass -/

theorem recordPass_eq (identifies : outcomes.identifies = true) :
    recordPass wallet status tuple tx outcomes scanned =
      ((outputsPart wallet status tuple tx outcomes (initialPass scanned)).andThen
        (inputsPart wallet status tuple tx outcomes (identifiedInputs wallet tx scanned))).andThen
          (commitTransaction outcomes) := if_pos identifies

/-- Every step succeeds: the rows of the transaction are stored. -/
theorem recordTx_stores
    (opens : Opens wallet tx outcomes scanned)
    (succeeds : StepsSucceed wallet status tuple tx outcomes scanned
      (clearedDb wallet tx outcomes scanned.db)) :
    (recordTx wallet status tuple tx outcomes scanned).1 = .next ∧
      (recordTx wallet status tuple tx outcomes scanned).2.db =
        storedDb wallet status tuple tx outcomes scanned
          (foundInputs wallet tuple tx outcomes scanned outcomes.outputExistsAnswers
            (clearedDb wallet tx outcomes scanned.db))
          (clearedDb wallet tx outcomes scanned.db) := by
  obtain ⟨known, txMysqlId, written⟩ := parts_go wallet status tuple tx outcomes scanned opens
    succeeds.1
  unfold recordTx
  rw [recordPass_eq wallet status tuple tx outcomes scanned opens.1, written, Step.andThen_go,
    commitTransaction_go outcomes rfl succeeds.2]
  exact ⟨rfl, rfl⟩

/-- A later step fails: the rows of an earlier scan are gone, and nothing is stored. -/
theorem recordTx_clears
    (opens : Opens wallet tx outcomes scanned)
    (fails : ¬ StepsSucceed wallet status tuple tx outcomes scanned
      (clearedDb wallet tx outcomes scanned.db)) :
    (recordTx wallet status tuple tx outcomes scanned).1 ≠ .next ∧
      (recordTx wallet status tuple tx outcomes scanned).2.db =
        clearedDb wallet tx outcomes scanned.db := by
  unfold recordTx
  rw [recordPass_eq wallet status tuple tx outcomes scanned opens.1]
  by_cases rows : RowsSucceed wallet status tuple tx outcomes scanned
      (clearedDb wallet tx outcomes scanned.db)
  · obtain ⟨known, txMysqlId, written⟩ := parts_go wallet status tuple tx outcomes scanned opens
      rows
    rw [written, Step.andThen_go]
    exact (commitTransaction_leaves outcomes rfl fun commits => fails ⟨rows, commits⟩).finish
  · exact ((parts_leave wallet status tuple tx outcomes scanned opens rows).andThen _).finish

/-- Nothing is identified: nothing is touched. -/
theorem recordTx_skips (identifies : outcomes.identifies = true)
    (outputs : wallet.identifier.outputs tx = [])
    (inputs : identifiedInputs wallet tx scanned = []) :
    recordTx wallet status tuple tx outcomes scanned = (.next, scanned) := by
  unfold recordTx
  rw [recordPass_eq wallet status tuple tx outcomes scanned identifies, inputs]
  unfold outputsPart
  rw [outputs]
  rfl

/-- Something is identified, but the transaction is not opened: the tables are not touched. -/
theorem recordTx_fails (closed : ¬ Opens wallet tx outcomes scanned)
    (something : outcomes.identifies = true →
      wallet.identifier.outputs tx ≠ [] ∨ identifiedInputs wallet tx scanned ≠ []) :
    (recordTx wallet status tuple tx outcomes scanned).1 ≠ .next ∧
      (recordTx wallet status tuple tx outcomes scanned).2.db = scanned.db := by
  by_cases identifies : outcomes.identifies = true
  · have refused : ¬ (outcomes.begins = true ∧
        (existingTx wallet tx outcomes scanned.db ≠ none → outcomes.deleteAnswers = true)) :=
      fun opened => closed ⟨identifies, something identifies, opened⟩
    have leaves := openTransaction_leaves wallet tuple tx outcomes scanned refused
    unfold recordTx
    rw [recordPass_eq wallet status tuple tx outcomes scanned identifies]
    by_cases outputs : wallet.identifier.outputs tx = []
    · obtain ⟨info, rest, infos⟩ := List.exists_cons_of_ne_nil
        ((something identifies).resolve_left fun some => some outputs)
      have nothing : outputsPart wallet status tuple tx outcomes (initialPass scanned) =
          .go (initialPass scanned) := by
        unfold outputsPart
        rw [outputs]
      rw [nothing, Step.andThen_go, infos]
      unfold inputsPart openForInputs
      exact (((leaves.andThen _).andThen _).andThen _).finish
    · obtain ⟨info, rest, infos⟩ := List.exists_cons_of_ne_nil outputs
      unfold outputsPart
      rw [infos]
      exact ((((leaves.andThen _).andThen _).andThen _).andThen _).finish
  · unfold recordTx recordPass
    simp only [identifies, Bool.false_eq_true, if_false]
    exact ⟨Exit.noConfusion, rfl⟩

end Steps

end LightWallet
