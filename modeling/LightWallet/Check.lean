/-
This file says what the spendability check amounts to when no statement throws:
every transaction that is unlocked is marked, every other one that the
blockchain does not have under the stored id is deleted, and the check goes
through all of them.
-/

import LightWallet.Passes

namespace LightWallet

/-! ### Worlds in which no statement throws -/

/-- No statement throws from here on. -/
def World.Quiet (world : World) : Prop := world.throwing = []

theorem World.Quiet.runs {world : World} (quiet : world.Quiet) : ¬ world.throws = true := by
  unfold World.throws
  rw [show world.throwing = [] from quiet]
  decide

theorem World.Quiet.next {world : World} (quiet : world.Quiet) : world.next = world := by
  unfold World.next
  rw [show world.throwing.tail = world.throwing by rw [show world.throwing = [] from quiet]; rfl]

theorem query_quiet {Result : Type} (onThrow : Result) (read : Database → Result) {world : World}
    (quiet : world.Quiet) : query onThrow read world = (read world.db, world) := by
  unfold query
  rw [statement_runs _ _ quiet.runs]
  exact congrArg (fun after : World => (read world.db, after)) quiet.next

theorem statement_quiet {Result : Type} (onThrow : Result) (run : Database → Result × Database)
    {world : World} (quiet : world.Quiet) :
    statement onThrow run world = ((run world.db).1, world.on (run world.db).2) := by
  rw [statement_runs _ _ quiet.runs]
  unfold World.on
  rw [quiet.next]

/-! ### One transaction -/

section Check

variable (backend : Backend)

/-- The blockchain does not have the transaction under the stored id. -/
def Orphaned (tx : XmrTransaction) : Prop := (backend.txExist tx.hash).getD 0 ≠ tx.blockchainTxId

instance (tx : XmrTransaction) : Decidable (Orphaned backend tx) :=
  inferInstanceAs (Decidable (_ ≠ _))

/-- What becomes of the row of a transaction. -/
def rowAfterCheck (tx : XmrTransaction) : Option XmrTransaction :=
  if tx.spendable then some tx
  else if isTxUnlocked backend.status tx.unlockTime tx.height then
    some { tx with spendable := true, timestamp := backend.status.now }
  else if Orphaned backend tx then none
  else some tx

/-- What is handed on of a transaction. -/
def txAfterCheck (tx : XmrTransaction) : Option XmrTransaction :=
  if tx.spendable then some tx
  else if isTxUnlocked backend.status tx.unlockTime tx.height then
    some { tx with spendable := true }
  else if Orphaned backend tx then none
  else
    some { tx with
      unlockTime :=
        if tx.unlockTime = 0 then tx.height + defaultTxSpendableAge else tx.unlockTime }

/-- The tables after the check of one transaction. -/
def checkTx (db : Database) (tx : XmrTransaction) : Database :=
  if tx.spendable then db
  else if isTxUnlocked backend.status tx.unlockTime tx.height then
    (db.markTxSpendable tx.id backend.status.now).2
  else if Orphaned backend tx then (db.deleteTx tx.id).2
  else db

/-- The tables after the check. -/
def checkDb (txs : List XmrTransaction) (db : Database) : Database :=
  txs.foldl (checkTx backend) db

theorem markTxSpendable_count {db : Database} (valid : db.Valid) {tx : XmrTransaction}
    (member : tx ∈ db.transactions) (unmarked : tx.spendable = false) (now : Nat) :
    (db.markTxSpendable tx.id now).1 = 1 := by
  show (db.transactions.filter fun row =>
    row.id = tx.id ∧ row ≠ { row with spendable := true, timestamp := now }).length = 1
  have only : (db.transactions.filter fun row =>
      row.id = tx.id ∧ row ≠ { row with spendable := true, timestamp := now }) = [tx] := by
    rw [← Tables.filter_key_eq_singleton valid.transactionIds member]
    refine List.filter_congr fun row inRows => ?_
    by_cases here : row.id = tx.id
    · obtain rfl := valid.transactionIds.eq_of_key inRows member here
      have changes : row ≠ { row with spendable := true, timestamp := now } := fun same => by
        have marked := congrArg XmrTransaction.spendable same
        rw [unmarked] at marked
        cases marked
      simp [changes]
    · simp [here]
  rw [only]
  rfl

theorem deleteTx_count {db : Database} (valid : db.Valid) {tx : XmrTransaction}
    (member : tx ∈ db.transactions) : (db.deleteTx tx.id).1 = 1 := by
  show (db.transactions.filter (·.id = tx.id)).length = 1
  rw [Tables.filter_key_eq_singleton valid.transactionIds member]
  rfl

theorem checkTx_valid {db : Database} (valid : db.Valid) (tx : XmrTransaction) :
    (checkTx backend db tx).Valid := by
  unfold checkTx
  split
  · exact valid
  · split
    · exact valid.markTxSpendable _ _
    · split
      · exact valid.deleteTx _
      · exact valid

/-- The rows of other transactions are not touched. -/
theorem mem_checkTx {db : Database} {tx other : XmrTransaction} (member : other ∈ db.transactions)
    (differs : other.id ≠ tx.id) : other ∈ (checkTx backend db tx).transactions := by
  unfold checkTx
  split
  · exact member
  · split
    · exact List.mem_map.mpr ⟨other, member, if_neg differs⟩
    · split
      · exact Database.mem_deleteTx_transactions.mpr ⟨member, differs⟩
      · exact member

/-- When no statement throws, the check goes through all transactions. -/
theorem check_quiet (txs : List XmrTransaction) {world : World} (quiet : world.Quiet)
    (valid : world.db.Valid) (rows : ∀ tx ∈ txs, tx ∈ world.db.transactions)
    (distinct : Tables.Unique XmrTransaction.id txs) :
    selectTxsForAccountSpendabilityCheck backend txs world =
      (some (txs.filterMap (txAfterCheck backend)), world.on (checkDb backend txs world.db)) := by
  induction txs generalizing world with
  | nil => rfl
  | cons tx rest inductionHypothesis =>
    obtain ⟨fresh, distinctRest⟩ := List.nodup_cons.mp distinct
    have member := rows tx List.mem_cons_self
    have later : selectTxsForAccountSpendabilityCheck backend rest
        (world.on (checkTx backend world.db tx)) =
        (some (rest.filterMap (txAfterCheck backend)),
          world.on (checkDb backend (tx :: rest) world.db)) := by
      refine inductionHypothesis quiet (checkTx_valid backend valid tx) (fun other inRest => ?_)
        distinctRest
      exact mem_checkTx backend (rows other (List.mem_cons_of_mem _ inRest)) fun same =>
        fresh (List.mem_map.mpr ⟨other, inRest, same⟩)
    unfold selectTxsForAccountSpendabilityCheck
    rw [List.filterMap_cons]
    unfold txAfterCheck
    by_cases spendable : tx.spendable = true
    · have same : checkTx backend world.db tx = world.db := if_pos spendable
      rw [same] at later
      simp only [if_pos spendable, Handler.bind_apply]
      rw [show selectTxsForAccountSpendabilityCheck backend rest world = _ from later]
      rfl
    · by_cases unlocked : isTxUnlocked backend.status tx.unlockTime tx.height = true
      · have marked : checkTx backend world.db tx =
            (world.db.markTxSpendable tx.id backend.status.now).2 := by
          unfold checkTx
          rw [if_neg spendable, if_pos unlocked]
        have answers : markTxSpendable tx.id backend.status.now world =
            (1, world.on (checkTx backend world.db tx)) := by
          unfold markTxSpendable
          rw [statement_quiet _ _ quiet, marked, markTxSpendable_count valid member
            (by simpa using spendable)]
        simp only [if_neg spendable, if_pos unlocked, Handler.bind_apply]
        rw [answers]
        simp only [ne_eq, not_true_eq_false, if_false, Handler.bind_apply]
        rw [later]
        rfl
      · by_cases orphaned : Orphaned backend tx
        · have deleted : checkTx backend world.db tx = (world.db.deleteTx tx.id).2 := by
            unfold checkTx
            rw [if_neg spendable, if_neg unlocked, if_pos orphaned]
          have answers : deleteTx tx.id world = (1, world.on (checkTx backend world.db tx)) := by
            unfold deleteTx
            rw [statement_quiet _ _ quiet, deleted, deleteTx_count valid member]
          have condition : (backend.txExist tx.hash).getD 0 ≠ tx.blockchainTxId := orphaned
          simp only [if_neg spendable, if_neg unlocked, if_pos condition, if_pos orphaned,
            Handler.bind_apply]
          rw [answers]
          simp only [ne_eq, not_true_eq_false, if_false]
          exact later
        · have same : checkTx backend world.db tx = world.db := by
            unfold checkTx
            rw [if_neg spendable, if_neg unlocked, if_neg orphaned]
          have condition : ¬ (backend.txExist tx.hash).getD 0 ≠ tx.blockchainTxId := orphaned
          rw [same] at later
          simp only [if_neg spendable, if_neg unlocked, if_neg condition, if_neg orphaned,
            Handler.bind_apply]
          rw [show selectTxsForAccountSpendabilityCheck backend rest world = _ from later]
          rfl

theorem checkDb_valid (txs : List XmrTransaction) {db : Database} (valid : db.Valid) :
    (checkDb backend txs db).Valid := by
  induction txs generalizing db with
  | nil => exact valid
  | cons tx rest inductionHypothesis => exact inductionHypothesis (checkTx_valid backend valid tx)

theorem rowAfterCheck_id {row after : XmrTransaction}
    (kept : rowAfterCheck backend row = some after) : after.id = row.id := by
  unfold rowAfterCheck at kept
  split at kept
  · cases kept
    rfl
  · split at kept
    · cases kept
      rfl
    · split at kept
      · cases kept
      · cases kept
        rfl

theorem rowAfterCheck_accountId {row after : XmrTransaction}
    (kept : rowAfterCheck backend row = some after) : after.accountId = row.accountId := by
  unfold rowAfterCheck at kept
  split at kept
  · cases kept
    rfl
  · split at kept
    · cases kept
      rfl
    · split at kept
      · cases kept
      · cases kept
        rfl

theorem checkTx_transactions {db : Database} (valid : db.Valid) {tx : XmrTransaction}
    (member : tx ∈ db.transactions) :
    (checkTx backend db tx).transactions = db.transactions.filterMap fun row =>
      if row.id = tx.id then rowAfterCheck backend row else some row := by
  -- the row with the transaction's id is the transaction
  have only {after : XmrTransaction → Option XmrTransaction}
      (here : rowAfterCheck backend tx = after tx)
      (elsewhere : ∀ row, row.id ≠ tx.id → after row = some row) :
      (db.transactions.filterMap fun row =>
        if row.id = tx.id then rowAfterCheck backend row else some row) =
          db.transactions.filterMap after := by
    refine List.filterMap_congr fun row inRows => ?_
    split
    · next same => rw [valid.transactionIds.eq_of_key inRows member same, here]
    · next differs => rw [elsewhere row differs]
  unfold checkTx
  by_cases spendable : tx.spendable = true
  · rw [if_pos spendable, only (if_pos spendable) fun _ _ => rfl, List.filterMap_some]
  · by_cases unlocked : isTxUnlocked backend.status tx.unlockTime tx.height = true
    · rw [if_neg spendable, if_pos unlocked]
      have after : rowAfterCheck backend tx =
          some { tx with spendable := true, timestamp := backend.status.now } := by
        unfold rowAfterCheck
        rw [if_neg spendable, if_pos unlocked]
      let marked (row : XmrTransaction) : XmrTransaction :=
        if row.id = tx.id then { row with spendable := true, timestamp := backend.status.now }
        else row
      rw [@only (fun row => some (marked row)) (after.trans (congrArg some (if_pos rfl).symm))
        fun row differs => congrArg some (if_neg differs), List.filterMap_eq_map']
      rfl
    · by_cases orphaned : Orphaned backend tx
      · rw [if_neg spendable, if_neg unlocked, if_pos orphaned]
        have after : rowAfterCheck backend tx = none := by
          unfold rowAfterCheck
          rw [if_neg spendable, if_neg unlocked, if_pos orphaned]
        rw [@only (Option.guard fun row => decide (row.id ≠ tx.id))
          (after.trans (by simp [Option.guard])) fun row differs => by simp [differs],
          List.filterMap_eq_filter]
        rfl
      · rw [if_neg spendable, if_neg unlocked, if_neg orphaned]
        have after : rowAfterCheck backend tx = some tx := by
          unfold rowAfterCheck
          rw [if_neg spendable, if_neg unlocked, if_neg orphaned]
        rw [@only some after fun _ _ => rfl, List.filterMap_some]

/-- The rows of the transactions that are checked become what the check makes of them; the others
stay. -/
theorem checkDb_transactions (txs : List XmrTransaction) {db : Database} (valid : db.Valid)
    (rows : ∀ tx ∈ txs, tx ∈ db.transactions) (distinct : Tables.Unique XmrTransaction.id txs) :
    (checkDb backend txs db).transactions = db.transactions.filterMap fun row =>
      if row.id ∈ txs.map XmrTransaction.id then rowAfterCheck backend row else some row := by
  induction txs generalizing db with
  | nil =>
    simp only [List.map_nil, List.not_mem_nil, if_false]
    exact List.filterMap_some.symm
  | cons tx rest inductionHypothesis =>
    obtain ⟨fresh, distinctRest⟩ := List.nodup_cons.mp distinct
    show (checkDb backend rest (checkTx backend db tx)).transactions = _
    rw [inductionHypothesis (checkTx_valid backend valid tx) (fun other inRest => ?_) distinctRest,
      checkTx_transactions backend valid (rows tx List.mem_cons_self), List.filterMap_filterMap]
    · refine List.filterMap_congr fun row inRows => ?_
      by_cases here : row.id = tx.id
      · have absent : row.id ∉ rest.map XmrTransaction.id := here ▸ fresh
        simp only [here, if_true, List.map_cons, List.mem_cons, true_or]
        cases after : rowAfterCheck backend row with
        | none => rfl
        | some kept =>
          rw [Option.bind_some, rowAfterCheck_id backend after, if_neg absent]
      · simp only [here, if_false, List.map_cons, List.mem_cons, false_or, Option.bind_some]
    · exact mem_checkTx backend (rows other (List.mem_cons_of_mem _ inRest)) fun same =>
        fresh (List.mem_map.mpr ⟨other, inRest, same⟩)

/-- The tables after the check of all transactions of an account. -/
def checkAccount (accountId : Nat) (db : Database) : Database :=
  checkDb backend (db.selectTransactions accountId) db

variable {backend}

theorem checkAccount_transactions {db : Database} (valid : db.Valid) (accountId : Nat) :
    (checkAccount backend accountId db).transactions = db.transactions.filterMap fun row =>
      if row.accountId = accountId then rowAfterCheck backend row else some row := by
  have rows : ∀ tx ∈ db.selectTransactions accountId, tx ∈ db.transactions :=
    fun tx member => (List.mem_filter.mp member).1
  unfold checkAccount
  rw [checkDb_transactions backend _ valid rows (valid.transactionIds.filter _)]
  refine List.filterMap_congr fun row inRows => ?_
  have ours : row.id ∈ (db.selectTransactions accountId).map XmrTransaction.id ↔
      row.accountId = accountId := by
    constructor
    · intro member
      obtain ⟨tx, selected, same⟩ := List.mem_map.mp member
      obtain rfl := valid.transactionIds.eq_of_key (rows tx selected) inRows same
      exact of_decide_eq_true (List.mem_filter.mp selected).2
    · intro account
      exact List.mem_map.mpr ⟨row, List.mem_filter.mpr ⟨inRows, decide_eq_true account⟩, rfl⟩
  simp only [ours]

/-- The requests that read an account select its transactions and check them. -/
theorem checkAccount_quiet {world : World} (quiet : world.Quiet) (valid : world.db.Valid)
    (accountId : Nat) :
    selectTxsForAccountSpendabilityCheck backend (world.db.selectTransactions accountId) world =
      (some ((world.db.selectTransactions accountId).filterMap (txAfterCheck backend)),
        world.on (checkAccount backend accountId world.db)) :=
  check_quiet backend _ quiet valid (fun _ member => (List.mem_filter.mp member).1)
    (valid.transactionIds.filter _)

theorem checkAccount_valid {db : Database} (valid : db.Valid) (accountId : Nat) :
    (checkAccount backend accountId db).Valid := checkDb_valid backend _ valid

/-! ### The transactions that the check works on -/

/-- The check has something to do for the transaction. -/
def Changes (backend : Backend) (tx : XmrTransaction) : Prop :=
  tx.spendable = false ∧
    (isTxUnlocked backend.status tx.unlockTime tx.height = true ∨ Orphaned backend tx)

instance (backend : Backend) (tx : XmrTransaction) : Decidable (Changes backend tx) :=
  inferInstanceAs (Decidable (_ ∧ _))

theorem rowAfterCheck_of_changes {tx : XmrTransaction} (changes : Changes backend tx) :
    rowAfterCheck backend tx =
      if isTxUnlocked backend.status tx.unlockTime tx.height then
        some { tx with spendable := true, timestamp := backend.status.now }
      else none := by
  unfold rowAfterCheck
  rw [if_neg (ne_true_of_eq_false changes.1)]
  split
  · rfl
  · next locked => exact if_pos (changes.2.resolve_left locked)

theorem txAfterCheck_of_changes {tx : XmrTransaction} (changes : Changes backend tx) :
    txAfterCheck backend tx =
      if isTxUnlocked backend.status tx.unlockTime tx.height then some { tx with spendable := true }
      else none := by
  unfold txAfterCheck
  rw [if_neg (ne_true_of_eq_false changes.1)]
  split
  · rfl
  · next locked => exact if_pos (changes.2.resolve_left locked)

theorem checkTx_of_not_changes {tx : XmrTransaction} (idle : ¬ Changes backend tx)
    (db : Database) : checkTx backend db tx = db := by
  unfold checkTx
  by_cases spendable : tx.spendable = true
  · exact if_pos spendable
  · have idle := not_or.mp fun works => idle ⟨eq_false_of_ne_true spendable, works⟩
    rw [if_neg spendable, if_neg idle.1, if_neg idle.2]

end Check

end LightWallet
