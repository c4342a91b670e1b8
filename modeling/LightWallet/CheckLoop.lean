/-
This file follows the spendability check through the vector it works on.

The loop holds an iterator into the vector. A row that is kept is changed in place and passed; a
row that is gone from the blockchain is erased, which leaves the iterator on the next one. The
tables are changed row by row, and a statement that does not change exactly one row ends the loop
where it stands.
-/

import LightWallet.ConcurrentChecks

namespace LightWallet.CheckLoop

/-! ### The loop -/

/-- The vector, the iterator as its distance from the first element, and what has been returned. -/
structure Loop where
  it : Nat := 0
  txs : List XmrTransaction
  returned : Option Bool := none
  deriving DecidableEq, Repr

section Loop

variable (backend : Backend)

/-- An iteration of the loop of `select_txs_for_account_spendability_check`, the test of its
condition included. -/
def iterate (loop : Loop) : Handler Loop :=
  match loop.returned, loop.txs[loop.it]? with
  | some _, _ => pure loop
  | none, none => pure { loop with returned := some true }
  | none, some tx =>
    if tx.spendable then pure { loop with it := loop.it + 1 }
    else if isTxUnlocked backend.status tx.unlockTime tx.height then do
      if (← markTxSpendable tx.id backend.status.now) ≠ 1 then
        pure { loop with returned := some false }
      else
        pure { loop with
          txs := loop.txs.set loop.it { tx with spendable := true }
          it := loop.it + 1 }
    else if (backend.txExist tx.hash).getD 0 ≠ tx.blockchainTxId then do
      if (← deleteTx tx.id) ≠ 1 then pure { loop with returned := some false }
      -- `it = txs.erase(it)`
      else pure { loop with txs := loop.txs.eraseIdx loop.it }
    else
      pure { loop with
        txs := loop.txs.set loop.it { tx with
          unlockTime :=
            if tx.unlockTime = 0 then tx.height + defaultTxSpendableAge else tx.unlockTime }
        it := loop.it + 1 }

/-- A number of iterations. -/
def iterations : Nat → Loop → Handler Loop
  | 0, loop => pure loop
  | count + 1, loop => do iterations count (← iterate backend loop)

end Loop

/-! ### The property -/

section Property

variable (backend : Backend)

/-- The row is not spendable, not unlocked, and the blockchain does not have its hash, or has it
under another id. -/
def Removed (tx : XmrTransaction) : Prop :=
  tx.spendable = false ∧ isTxUnlocked backend.status tx.unlockTime tx.height = false ∧
    ∀ id, backend.txExist tx.hash = some id → id ≠ tx.blockchainTxId

instance (tx : XmrTransaction) : Decidable (Removed backend tx) :=
  decidable_of_iff (tx.spendable = false ∧
    isTxUnlocked backend.status tx.unlockTime tx.height = false ∧
      ∀ id ∈ backend.txExist tx.hash, id ≠ tx.blockchainTxId) Iff.rfl

/-- What the list holds of a row that stays: the bit is set if the row is unlocked, and a locked
row without an unlock time gets one. -/
def checked (tx : XmrTransaction) : XmrTransaction :=
  let spendable := tx.spendable || isTxUnlocked backend.status tx.unlockTime tx.height
  { tx with
    spendable
    unlockTime :=
      if spendable = false ∧ tx.unlockTime = 0 then tx.height + defaultTxSpendableAge
      else tx.unlockTime }

/-- A check that has gone through all rows: the list in its old order, the rows of the table, and
the agreement of the two. -/
structure Checked (txs result : List XmrTransaction) (before after : Database) : Prop where
  list : result = (txs.filter fun tx => ¬ Removed backend tx).map (checked backend)
  deleted : ∀ row ∈ before.transactions,
    (∀ other ∈ after.transactions, other.id ≠ row.id) ↔ row ∈ txs ∧ Removed backend row
  agrees : ∀ tx ∈ result, ∃ row ∈ after.transactions, row.id = tx.id ∧
    row.spendable = tx.spendable
  spendable : ∀ tx ∈ txs, ∀ row ∈ after.transactions, row.id = tx.id → row.spendable =
    (tx.spendable || isTxUnlocked backend.status tx.unlockTime tx.height)
  others : ∀ row ∈ before.transactions, row ∉ txs → row ∈ after.transactions

/-- The statement that the check makes for a row: a mark if it is unlocked, else a deletion. -/
def rowStatement (tx : XmrTransaction) (db : Database) : Nat × Database :=
  if isTxUnlocked backend.status tx.unlockTime tx.height then
    db.markTxSpendable tx.id backend.status.now
  else db.deleteTx tx.id

/-- A statement is made for the row, and throws or changes other than one row. -/
def StatementFails (tx : XmrTransaction) (throws : Bool) (db : Database) : Prop :=
  Changes backend tx ∧ (throws = true ∨ (rowStatement backend tx db).1 ≠ 1)

/-- The number of statements that are made for the rows. -/
def statements (txs : List XmrTransaction) : Nat := (txs.filter (Changes backend ·)).length

/-- A check that was given up at a row, whose statement has failed: the rows before it are checked,
the row itself and those after it are as they were, in the list and in the table. -/
structure GivenUp (throwing : List Bool) (txs result : List XmrTransaction)
    (before after : Database) (done : List XmrTransaction) (failing : XmrTransaction)
    (later : List XmrTransaction) : Prop where
  split : txs = done ++ failing :: later
  failed : StatementFails backend failing
    ((throwing.drop (statements backend done)).headD false) after
  list : result =
    (done.filter fun tx => ¬ Removed backend tx).map (checked backend) ++ failing :: later
  tables : after = checkDb backend done before
  untouched : ∀ row ∈ before.transactions, row ∉ done → row ∈ after.transactions

end Property

/-! ### Statements that miss their row -/

theorem markTxSpendable_missed {db : Database} (valid : db.Valid) {txId now : Nat}
    (missed : (db.markTxSpendable txId now).1 ≠ 1) : (db.markTxSpendable txId now).2 = db := by
  have marked := mt (ConcurrentChecks.markTxSpendable_count_iff valid txId now).mpr missed
  have same : ∀ row ∈ db.transactions,
      (if row.id = txId then { row with spendable := true, timestamp := now } else row) = row := by
    intro row member
    split
    · next here =>
      refine ((ConcurrentChecks.marked_eq_iff row now).mpr ?_).symm
      by_contra unmarked
      exact marked ⟨row, member, here, unmarked⟩
    · rfl
  exact congrArg (fun transactions => { db with transactions })
    ((List.map_congr_left same).trans (List.map_id _))

theorem deleteTx_missed {db : Database} (valid : db.Valid) {txId : Nat}
    (missed : (db.deleteTx txId).1 ≠ 1) : (db.deleteTx txId).2 = db := by
  have absent : ∀ row ∈ db.transactions, row.id ≠ txId := fun row member same =>
    missed ((ConcurrentChecks.deleteTx_count_iff valid txId).mpr ⟨row, member, same⟩)
  have noRow : ∀ id, db.hasTransaction id = true → id ≠ txId := fun id has same => by
    obtain ⟨row, member, here⟩ := (Database.hasTransaction_iff db id).mp has
    exact absent row member (here.trans same)
  have transactions : db.transactions.filter (·.id ≠ txId) = db.transactions :=
    List.filter_eq_self.mpr fun row member => decide_eq_true (absent row member)
  have outputs : db.outputs.filter (·.txId ≠ txId) = db.outputs :=
    List.filter_eq_self.mpr fun output member =>
      decide_eq_true (noRow _ (valid.outputTransaction output member))
  have noOutput : ∀ outputId,
      ¬ (db.outputs.any fun output => output.id = outputId ∧ output.txId = txId) = true := by
    intro outputId goes
    obtain ⟨output, member, here⟩ := List.any_eq_true.mp goes
    exact noRow _ (valid.outputTransaction output member) (of_decide_eq_true here).2
  have inputs : (db.inputs.filter fun input => input.txId ≠ txId ∧
      ¬ (db.outputs.any fun output => output.id = input.outputId ∧ output.txId = txId)) =
        db.inputs :=
    List.filter_eq_self.mpr fun input member =>
      decide_eq_true ⟨noRow _ (valid.inputTransaction input member), noOutput _⟩
  show { db with
    transactions := db.transactions.filter (·.id ≠ txId)
    outputs := db.outputs.filter (·.txId ≠ txId)
    inputs := db.inputs.filter fun input => input.txId ≠ txId ∧
      ¬ (db.outputs.any fun output => output.id = input.outputId ∧ output.txId = txId) } = db
  rw [transactions, outputs, inputs]

/-- A statement that has changed one row has not thrown. -/
theorem statement_of_counts {run : Database → Nat × Database} {world : World}
    (counts : (statement 0 run world).1 = 1) :
    (statement 0 run world).2.db = (run world.db).2 := by
  by_cases throws : world.throws = true
  · rw [statement_throws _ _ throws] at counts
    exact absurd counts Nat.zero_ne_one
  · rw [statement_runs _ _ throws]

/-- A statement that has not changed one row has thrown, or has missed its row. -/
theorem statement_of_missed {run : Database → Nat × Database} {world : World}
    (missed : (run world.db).1 ≠ 1 → (run world.db).2 = world.db)
    (counts : (statement 0 run world).1 ≠ 1) : (statement 0 run world).2.db = world.db := by
  by_cases throws : world.throws = true
  · rw [statement_throws _ _ throws]
    rfl
  · rw [statement_runs _ _ throws] at counts ⊢
    exact missed counts

theorem statement_throwing {run : Database → Nat × Database} {world : World} :
    (statement 0 run world).2.throwing = world.throwing.tail := by
  unfold statement
  split <;> rfl

theorem fails_of_statement {run : Database → Nat × Database} {world : World}
    (counts : (statement 0 run world).1 ≠ 1) :
    world.throws = true ∨ (run world.db).1 ≠ 1 := by
  by_cases throws : world.throws = true
  · exact .inl throws
  · rw [statement_runs _ _ throws] at counts
    exact .inr counts

/-! ### One row -/

section Step

variable {backend : Backend}

/-- What stands at the iterator, and what becomes of the vector when it is changed or erased. -/
theorem getElem?_split (kept later : List XmrTransaction) (tx : XmrTransaction) :
    (kept ++ tx :: later)[kept.length]? = some tx := by
  rw [List.getElem?_append_right (Nat.le_refl _), Nat.sub_self]
  rfl

theorem set_split (kept later : List XmrTransaction) (tx changed : XmrTransaction) :
    (kept ++ tx :: later).set kept.length changed = kept ++ [changed] ++ later := by
  rw [List.set_append_right _ _ (Nat.le_refl _), Nat.sub_self, List.append_assoc]
  rfl

theorem eraseIdx_split (kept later : List XmrTransaction) (tx : XmrTransaction) :
    (kept ++ tx :: later).eraseIdx kept.length = kept ++ later := by
  rw [List.eraseIdx_append_of_length_le (Nat.le_refl _), Nat.sub_self]
  rfl

/-- The loop between two rows: what is kept, and what it has still to go through. -/
def between (kept later : List XmrTransaction) : Loop := { it := kept.length, txs := kept ++ later }

/-- An iteration either deals with the row at the iterator and stands before the next one, or its
statement fails, and it returns false and leaves everything as it is. -/
theorem iterate_between (kept later : List XmrTransaction) (tx : XmrTransaction) {world : World}
    (valid : world.db.Valid) :
    ∃ after,
      (iterate backend (between kept (tx :: later)) world =
          (between (kept ++ (txAfterCheck backend tx).toList) later, after) ∧
        after.db = checkTx backend world.db tx ∧
        after.throwing = world.throwing.drop (statements backend [tx]) ∧
        selectTxsForAccountSpendabilityCheck backend (tx :: later) world =
          ((selectTxsForAccountSpendabilityCheck backend later after).1.map
              ((txAfterCheck backend tx).toList ++ ·),
            (selectTxsForAccountSpendabilityCheck backend later after).2)) ∨
      (iterate backend (between kept (tx :: later)) world =
          ({ between kept (tx :: later) with returned := some false }, after) ∧
        after.db = world.db ∧ StatementFails backend tx world.throws world.db ∧
        selectTxsForAccountSpendabilityCheck backend (tx :: later) world = (none, after)) := by
  have quiet (stays : ¬ Changes backend tx) : statements backend [tx] = 0 := by
    simp [statements, stays]
  have one (changes : Changes backend tx) :
      world.throwing.tail = world.throwing.drop (statements backend [tx]) := by
    rw [show statements backend [tx] = 1 by simp [statements, changes], List.drop_one]
  have here := getElem?_split kept later tx
  have passed (changed : XmrTransaction) : between (kept ++ [changed]) later =
      { it := kept.length + 1, txs := kept ++ [changed] ++ later } :=
    congrArg (fun it => ({ it, txs := kept ++ [changed] ++ later } : Loop)) List.length_append
  rw [selectTxsForAccountSpendabilityCheck]
  unfold iterate txAfterCheck checkTx
  simp only [show (between kept (tx :: later)).txs[(between kept (tx :: later)).it]? = some tx
    from here, show (between kept (tx :: later)).returned = none from rfl]
  by_cases spendable : tx.spendable = true
  · simp only [if_pos spendable, Option.toList_some, passed]
    refine ⟨world, .inl ⟨?_, rfl, ?_, rfl⟩⟩
    · simp [between]
    · rw [quiet fun changes => absurd (changes.1.symm.trans spendable) (by decide)]
      rfl
  · simp only [if_neg spendable]
    by_cases unlocked : isTxUnlocked backend.status tx.unlockTime tx.height = true
    · have changes : Changes backend tx := ⟨eq_false_of_ne_true spendable, .inl unlocked⟩
      simp only [if_pos unlocked, Handler.bind_apply, Option.toList_some, passed]
      by_cases counts : (markTxSpendable tx.id backend.status.now world).1 = 1
      · simp only [counts, ne_eq, not_true_eq_false, if_false]
        refine ⟨(markTxSpendable tx.id backend.status.now world).2, .inl ⟨?_, ?_, ?_, rfl⟩⟩
        · simp only [between, set_split]
          rfl
        · exact statement_of_counts counts
        · exact statement_throwing.trans (one changes)
      · simp only [ne_eq, counts, not_false_eq_true, if_true]
        refine ⟨(markTxSpendable tx.id backend.status.now world).2,
          .inr ⟨rfl, ?_, ⟨changes, ?_⟩, rfl⟩⟩
        · exact statement_of_missed (markTxSpendable_missed valid) counts
        · rw [rowStatement, if_pos unlocked]
          exact fails_of_statement counts
    · simp only [if_neg unlocked]
      by_cases orphaned : Orphaned backend tx
      · have changes : Changes backend tx := ⟨eq_false_of_ne_true spendable, .inr orphaned⟩
        have condition : (backend.txExist tx.hash).getD 0 ≠ tx.blockchainTxId := orphaned
        simp only [if_pos condition, if_pos orphaned, Handler.bind_apply, Option.toList_none,
          List.append_nil]
        by_cases counts : (deleteTx tx.id world).1 = 1
        · simp only [counts, ne_eq, not_true_eq_false, if_false]
          refine ⟨(deleteTx tx.id world).2, .inl ⟨?_, ?_, ?_, ?_⟩⟩
          · simp only [between, eraseIdx_split]
            rfl
          · exact statement_of_counts counts
          · exact statement_throwing.trans (one changes)
          · exact congrArg (·, _) Option.map_id'.symm
        · simp only [ne_eq, counts, not_false_eq_true, if_true]
          refine ⟨(deleteTx tx.id world).2, .inr ⟨rfl, ?_, ⟨changes, ?_⟩, rfl⟩⟩
          · exact statement_of_missed (deleteTx_missed valid) counts
          · rw [rowStatement, if_neg unlocked]
            exact fails_of_statement counts
      · have condition : ¬ (backend.txExist tx.hash).getD 0 ≠ tx.blockchainTxId := orphaned
        simp only [if_neg condition, if_neg orphaned, Option.toList_some, passed]
        refine ⟨world, .inl ⟨?_, rfl, ?_, rfl⟩⟩
        · simp only [between, set_split]
          rfl
        · rw [quiet fun changes => changes.2.elim unlocked orphaned]
          rfl

/-- A loop that has returned does nothing more. -/
theorem iterations_of_returned (count : Nat) {loop : Loop} {ok : Bool}
    (returned : loop.returned = some ok) (world : World) :
    iterations backend count loop world = (loop, world) := by
  induction count with
  | zero => rfl
  | succ count inductionHypothesis =>
    have stays : iterate backend loop world = (loop, world) := by
      unfold iterate
      rw [returned]
      rfl
    rw [iterations, Handler.bind_apply, stays]
    exact inductionHypothesis

theorem filterMap_cons_toList (tx : XmrTransaction) (rest : List XmrTransaction) :
    (tx :: rest).filterMap (txAfterCheck backend) =
      (txAfterCheck backend tx).toList ++ rest.filterMap (txAfterCheck backend) := by
  rw [List.filterMap_cons]
  cases txAfterCheck backend tx <;> rfl

theorem statements_cons (tx : XmrTransaction) (rest : List XmrTransaction) :
    statements backend (tx :: rest) = statements backend [tx] + statements backend rest := by
  unfold statements
  rw [← List.length_append, ← List.filter_append]
  rfl

/-- The loop returns after no more iterations than there are rows and one, having dealt with the
rows before the one it stops at. The check of the requests is this loop. -/
theorem iterations_between (rest kept : List XmrTransaction) {world : World}
    (valid : world.db.Valid) :
    ∃ done later it ok after, rest = done ++ later ∧ (ok = true ↔ later = []) ∧
      iterations backend (rest.length + 1) (between kept rest) world =
        (⟨it, kept ++ done.filterMap (txAfterCheck backend) ++ later, some ok⟩, after) ∧
      after.db = checkDb backend done world.db ∧
      (∀ failing ∈ later.head?, StatementFails backend failing
        ((world.throwing.drop (statements backend done)).headD false) after.db) ∧
      selectTxsForAccountSpendabilityCheck backend rest world =
        (if ok then some (done.filterMap (txAfterCheck backend)) else none, after) := by
  induction rest generalizing kept world with
  | nil =>
    refine ⟨[], [], kept.length, true, world, rfl, iff_of_true rfl rfl, ?_, rfl,
      fun failing absent => absurd absent (by simp), rfl⟩
    have ended : iterate backend (between kept []) world =
        (⟨kept.length, kept ++ [], some true⟩, world) := by
      have atEnd : (between kept []).txs[(between kept []).it]? = none :=
        List.getElem?_eq_none (by simp [between])
      unfold iterate
      rw [atEnd]
      rfl
    rw [List.filterMap_nil, List.append_nil, ← ended]
    rfl
  | cons tx rest inductionHypothesis =>
    rw [List.length_cons, iterations, Handler.bind_apply]
    obtain ⟨next, ⟨stepped, db, throwing, same⟩ | ⟨stepped, db, fails, same⟩⟩ :=
      @iterate_between backend kept rest tx world valid
    · obtain ⟨done, later, it, ok, after, split, whether, ran, tables, failed, rec⟩ :=
        @inductionHypothesis (kept ++ (txAfterCheck backend tx).toList) next
          (db ▸ checkTx_valid backend valid tx)
      refine ⟨tx :: done, later, it, ok, after, by rw [split, List.cons_append], whether, ?_, ?_,
        ?_, ?_⟩
      · rw [stepped, ran, filterMap_cons_toList, List.append_assoc kept]
      · rw [tables, db]
        rfl
      · rwa [throwing, List.drop_drop, ← statements_cons] at failed
      · rw [same, rec, filterMap_cons_toList]
        cases ok <;> rfl
    · refine ⟨[], tx :: rest, kept.length, false, next, rfl, by simp, ?_, db, ?_, same⟩
      · rw [stepped, iterations_of_returned _ rfl, List.filterMap_nil, List.append_nil]
        rfl
      · rintro failing ⟨⟩
        rw [db]
        exact fails

end Step

/-! ### What the check leaves -/

section Result

variable {backend : Backend}

/-- With an id other than zero, a row is dropped exactly when it is to be removed; the others are
handed on as they are to be. -/
theorem txAfterCheck_eq {tx : XmrTransaction} (indexed : tx.blockchainTxId ≠ 0) :
    txAfterCheck backend tx = if Removed backend tx then none else some (checked backend tx) := by
  have orphanedIff : Orphaned backend tx ↔
      ∀ id, backend.txExist tx.hash = some id → id ≠ tx.blockchainTxId := by
    unfold Orphaned
    cases backend.txExist tx.hash with
    | none => exact iff_of_true indexed.symm fun id found => nomatch found
    | some other =>
      exact ⟨fun differs id found => Option.some.inj found ▸ differs, fun all => all other rfl⟩
  unfold txAfterCheck checked
  cases spendable : tx.spendable with
  | true =>
    simp only [Removed, spendable, if_true, Bool.true_eq_false, false_and, if_false, Bool.true_or]
    rw [← spendable]
  | false =>
    cases unlocked : isTxUnlocked backend.status tx.unlockTime tx.height with
    | true => simp [Removed, unlocked]
    | false =>
      have removedIff : Removed backend tx ↔ Orphaned backend tx := by
        unfold Removed
        rw [orphanedIff]
        exact (and_iff_right spendable).trans (and_iff_right unlocked)
      simp only [removedIff, Bool.false_eq_true, if_false, Bool.or_false, true_and]

theorem filterMap_txAfterCheck {txs : List XmrTransaction}
    (indexed : ∀ tx ∈ txs, tx.blockchainTxId ≠ 0) :
    txs.filterMap (txAfterCheck backend) =
      (txs.filter fun tx => ¬ Removed backend tx).map (checked backend) := by
  induction txs with
  | nil => rfl
  | cons tx rest inductionHypothesis =>
    have later := inductionHypothesis fun other member =>
      indexed other (List.mem_cons_of_mem _ member)
    have here : txAfterCheck backend tx = _ := txAfterCheck_eq (indexed tx List.mem_cons_self)
    by_cases removed : Removed backend tx
    · rw [List.filterMap_cons_none (here.trans (if_pos removed)), later,
        List.filter_cons_of_neg (by simpa using removed)]
    · rw [List.filterMap_cons_some (here.trans (if_neg removed)), later,
        List.filter_cons_of_pos (by simpa using removed)]
      rfl

theorem rowAfterCheck_eq_none_iff {row : XmrTransaction} (indexed : row.blockchainTxId ≠ 0) :
    rowAfterCheck backend row = none ↔ Removed backend row := by
  have sameNone : rowAfterCheck backend row = none ↔ txAfterCheck backend row = none := by
    unfold rowAfterCheck txAfterCheck
    repeat' split
    all_goals simp
  rw [sameNone, txAfterCheck_eq indexed]
  by_cases removed : Removed backend row <;> simp [removed]

theorem rowAfterCheck_spendable {row after : XmrTransaction}
    (kept : rowAfterCheck backend row = some after) :
    after.spendable = (row.spendable || isTxUnlocked backend.status row.unlockTime row.height) := by
  unfold rowAfterCheck at kept
  by_cases spendable : row.spendable = true
  · rw [if_pos spendable] at kept
    obtain rfl := Option.some.inj kept
    rw [spendable, Bool.true_or]
  · rw [if_neg spendable] at kept
    by_cases unlocked : isTxUnlocked backend.status row.unlockTime row.height = true
    · rw [if_pos unlocked] at kept
      obtain rfl := Option.some.inj kept
      rw [unlocked, Bool.or_true]
    · rw [if_neg unlocked] at kept
      split at kept
      · cases kept
      · obtain rfl := Option.some.inj kept
        rw [eq_false_of_ne_true unlocked, Bool.or_false]

section Stored

variable {db : Database} {txs : List XmrTransaction}

/-- The rows after the check of stored transactions, one for each that is kept. -/
theorem mem_checkDb (valid : db.Valid) (stored : ∀ tx ∈ txs, tx ∈ db.transactions)
    (distinct : Tables.Unique XmrTransaction.id txs) {row : XmrTransaction} :
    row ∈ (checkDb backend txs db).transactions ↔ ∃ old ∈ db.transactions,
      (if old ∈ txs then rowAfterCheck backend old else some old) = some row := by
  have listed (old : XmrTransaction) (member : old ∈ db.transactions) :
      old.id ∈ txs.map XmrTransaction.id ↔ old ∈ txs := by
    refine ⟨fun inIds => ?_, fun inTxs => List.mem_map_of_mem inTxs⟩
    obtain ⟨tx, inTxs, same⟩ := List.mem_map.mp inIds
    rwa [valid.transactionIds.eq_of_key member (stored tx inTxs) same.symm]
  rw [checkDb_transactions backend txs valid stored distinct, List.mem_filterMap]
  refine exists_congr fun old => and_congr_right fun member => ?_
  simp only [listed old member]

theorem checkDb_id (valid : db.Valid) (stored : ∀ tx ∈ txs, tx ∈ db.transactions)
    (distinct : Tables.Unique XmrTransaction.id txs) {row old : XmrTransaction}
    (after : row ∈ (checkDb backend txs db).transactions) (before : old ∈ db.transactions)
    (same : row.id = old.id) :
    (if old ∈ txs then rowAfterCheck backend old else some old) = some row := by
  obtain ⟨other, member, becomes⟩ := (mem_checkDb valid stored distinct).mp after
  have sameId : row.id = other.id := by
    split at becomes
    · exact rowAfterCheck_id backend becomes
    · rw [Option.some.inj becomes]
  rwa [valid.transactionIds.eq_of_key before member (same.symm.trans sameId)]

theorem checkDb_others (valid : db.Valid) (stored : ∀ tx ∈ txs, tx ∈ db.transactions)
    (distinct : Tables.Unique XmrTransaction.id txs) {row : XmrTransaction}
    (member : row ∈ db.transactions) (other : row ∉ txs) :
    row ∈ (checkDb backend txs db).transactions :=
  (mem_checkDb valid stored distinct).mpr ⟨row, member, if_neg other⟩

/-- The list and the table of a check that has gone through all rows. -/
theorem checked_all (valid : db.Valid) (stored : ∀ tx ∈ txs, tx ∈ db.transactions)
    (distinct : Tables.Unique XmrTransaction.id txs)
    (indexed : ∀ tx ∈ txs, tx.blockchainTxId ≠ 0) :
    Checked backend txs (txs.filterMap (txAfterCheck backend)) db (checkDb backend txs db) := by
  have list : txs.filterMap (txAfterCheck backend) = _ := filterMap_txAfterCheck indexed
  refine ⟨list, fun row member => ⟨fun gone => ?_, fun ⟨inTxs, removed⟩ other after same => ?_⟩,
    fun tx inResult => ?_, fun tx inTxs row after same => ?_,
    fun row member other => checkDb_others valid stored distinct member other⟩
  · by_cases inTxs : row ∈ txs
    · refine ⟨inTxs, (rowAfterCheck_eq_none_iff (indexed row inTxs)).mp ?_⟩
      refine Option.eq_none_iff_forall_ne_some.mpr fun kept becomes => ?_
      exact gone kept ((mem_checkDb valid stored distinct).mpr
        ⟨row, member, (if_pos inTxs).trans becomes⟩) (rowAfterCheck_id backend becomes)
    · exact absurd rfl (gone row (checkDb_others valid stored distinct member inTxs))
  · have becomes := checkDb_id valid stored distinct after member same
    rw [if_pos inTxs, (rowAfterCheck_eq_none_iff (indexed row inTxs)).mpr removed] at becomes
    cases becomes
  · rw [list] at inResult
    obtain ⟨original, inFilter, rfl⟩ := List.mem_map.mp inResult
    obtain ⟨inTxs, stays⟩ := List.mem_filter.mp inFilter
    obtain ⟨kept, becomes⟩ := Option.ne_none_iff_exists'.mp
      (mt (rowAfterCheck_eq_none_iff (indexed original inTxs)).mp (of_decide_eq_true stays))
    exact ⟨kept, (mem_checkDb valid stored distinct).mpr
        ⟨original, stored original inTxs, (if_pos inTxs).trans becomes⟩,
      show kept.id = original.id from rowAfterCheck_id backend becomes,
      rowAfterCheck_spendable becomes⟩
  · have becomes := checkDb_id valid stored distinct after (stored tx inTxs) same
    rw [if_pos inTxs] at becomes
    exact rowAfterCheck_spendable becomes

end Stored

/-- The check of stored transactions ends within one iteration more than there are rows. When it
returns true, the list and the table are those of the rows that stay; when it returns false, the
statement of a row has failed, and neither that row nor one after it has been touched. -/
theorem iterations_checked {world : World} (valid : world.db.Valid) {txs : List XmrTransaction}
    (stored : ∀ tx ∈ txs, tx ∈ world.db.transactions)
    (distinct : Tables.Unique XmrTransaction.id txs)
    (indexed : ∀ tx ∈ txs, tx.blockchainTxId ≠ 0) :
    ∃ it result ok after,
      iterations backend (txs.length + 1) { txs } world = (⟨it, result, some ok⟩, after) ∧
      (ok = true → Checked backend txs result world.db after.db) ∧
      (ok = false → ∃ done failing later,
        GivenUp backend world.throwing txs result world.db after.db done failing later) := by
  obtain ⟨done, later, it, ok, after, split, whether, ran, tables, failed, -⟩ :=
    @iterations_between backend txs [] world valid
  refine ⟨it, _, ok, after, ran, fun returnsTrue => ?_, fun returnsFalse => ?_⟩
  · rw [whether.mp returnsTrue, List.append_nil] at split ⊢
    rw [tables, ← split]
    exact checked_all valid stored distinct indexed
  · cases later with
    | nil => exact absurd (whether.mpr rfl) (by rw [returnsFalse]; exact Bool.false_ne_true)
    | cons failing later =>
      have inTxs : ∀ tx ∈ done, tx ∈ txs := fun tx member =>
        split ▸ List.mem_append_left _ member
      have ofDone : Tables.Unique XmrTransaction.id done := by
        unfold Tables.Unique at distinct ⊢
        rw [split, List.map_append] at distinct
        exact (List.nodup_append.mp distinct).1
      refine ⟨done, failing, later, split, failed failing rfl, ?_, tables,
        fun row member other => ?_⟩
      · rw [List.nil_append, filterMap_txAfterCheck fun tx member => indexed tx (inTxs tx member)]
      · rw [tables]
        exact checkDb_others valid (fun tx inDone => stored tx (inTxs tx inDone)) ofDone member
          other

/-- Two rows of an account: one that is spendable, and one that the empty blockchain lacks. -/
def sampleTxs : List XmrTransaction :=
  [{ id := 1, hash := "a", accountId := 1, blockchainTxId := 7, spendable := true },
    { id := 2, hash := "b", accountId := 1, blockchainTxId := 8, unlockTime := 90, height := 80 }]

/-- The two rows in the tables, and the statements that throw. -/
def sampleWorld (throwing : List Bool) : World where
  db :=
    { accounts := [{ id := 1, address := "x" }], transactions := sampleTxs, nextAccount := 2,
      nextTransaction := 3 }
  throwing := throwing

/-- Without a fault the check returns true, and the second row is gone; when the statement for it
throws, it returns false. -/
theorem iterations_checked_sample :
    (∃ it result after,
      iterations Backend.empty 3 { txs := sampleTxs } (sampleWorld []) =
        (⟨it, result, some true⟩, after) ∧
      Checked Backend.empty sampleTxs result (sampleWorld []).db after.db) ∧
    ∃ it result after,
      iterations Backend.empty 3 { txs := sampleTxs } (sampleWorld [true]) =
        (⟨it, result, some false⟩, after) ∧
      ∃ done failing later, GivenUp Backend.empty [true] sampleTxs result
        (sampleWorld [true]).db after.db done failing later := by
  constructor
  · obtain ⟨it, result, ok, after, ran, returnsTrue, -⟩ :=
      @iterations_checked Backend.empty (sampleWorld []) (by decide) sampleTxs (by decide)
        (by decide) (by decide)
    have answers : (iterations Backend.empty 3 { txs := sampleTxs }
        (sampleWorld [])).1.returned = some true := by
      decide +kernel
    obtain rfl : true = ok :=
      Option.some.inj (answers.symm.trans (congrArg (fun answer => answer.1.returned) ran))
    exact ⟨it, result, after, ran, returnsTrue rfl⟩
  · obtain ⟨it, result, ok, after, ran, -, returnsFalse⟩ :=
      @iterations_checked Backend.empty (sampleWorld [true]) (by decide) sampleTxs (by decide)
        (by decide) (by decide)
    have answers : (iterations Backend.empty 3 { txs := sampleTxs }
        (sampleWorld [true])).1.returned = some false := by
      decide +kernel
    obtain rfl : false = ok :=
      Option.some.inj (answers.symm.trans (congrArg (fun answer => answer.1.returned) ran))
    exact ⟨it, result, after, ran, returnsFalse rfl⟩

/-- The check of the requests hands on what the loop has made of the vector. -/
theorem check_eq_iterations {world : World} (valid : world.db.Valid)
    (txs : List XmrTransaction) :
    ∃ it result ok after,
      iterations backend (txs.length + 1) { txs } world = (⟨it, result, some ok⟩, after) ∧
      selectTxsForAccountSpendabilityCheck backend txs world =
        (if ok then some result else none, after) := by
  obtain ⟨done, later, it, ok, after, -, whether, ran, -, -, same⟩ :=
    @iterations_between backend txs [] world valid
  refine ⟨it, _, ok, after, ran, ?_⟩
  rw [same]
  cases ok with
  | false => rfl
  | true =>
    rw [whether.mp rfl, List.append_nil]
    rfl

end Result

end LightWallet.CheckLoop
