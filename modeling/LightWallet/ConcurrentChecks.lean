/-
This file settles when spendability checks of one account that run at the same time
do not disturb each other.

A check works on rows that it has selected before, one statement after the other, and
takes it for a failure when a statement does not change exactly one row. A row that
someone else has marked or deleted in between is not changed once more. As long as
every statement finds its row, the checks answer what one of them alone would, and they
leave the tables as it would.
-/

import LightWallet.Check
import LightWallet.Runs

namespace LightWallet.ConcurrentChecks

/-! ### Calls and statements -/

/-- A call that has selected the rows of the account: the rows before it, the rows it will hand
on, and what it has returned. -/
structure Call where
  todo : List XmrTransaction
  done : List XmrTransaction := []
  result : Option Bool := none
  deriving DecidableEq, Repr

/-- The tables, and the calls of the check that are under way. -/
structure State where
  db : Database
  calls : List Call := []
  deriving DecidableEq, Repr

/-- `check` is a turn of the loop of a call, `scanDelete` and `scanInsert` are those of the scan
thread. -/
inductive Event where
  | select
  | check (call : Nat) (backend : Backend)
  | scanDelete (txId : Nat)
  | scanInsert (row : XmrTransaction) (outputs : Nat → List XmrOutput)
      (inputs : Nat → Nat → List XmrInput)

/-- A turn of the loop of `select_txs_for_account_spendability_check`, or its end. -/
def Call.check (backend : Backend) (db : Database) (call : Call) : Database × Call :=
  match call.todo with
  | [] => (db, { call with result := some true })
  | tx :: rest =>
    if tx.spendable then (db, { call with todo := rest, done := call.done ++ [tx] })
    else if isTxUnlocked backend.status tx.unlockTime tx.height then
      let (noRowUpdated, db) := db.markTxSpendable tx.id backend.status.now
      if noRowUpdated ≠ 1 then (db, { call with result := some false })
      else (db, { call with todo := rest, done := call.done ++ [{ tx with spendable := true }] })
    else if Orphaned backend tx then
      let (noRowUpdated, db) := db.deleteTx tx.id
      if noRowUpdated ≠ 1 then (db, { call with result := some false })
      else (db, { call with todo := rest })
    else
      let unlockTime := if tx.unlockTime = 0 then tx.height + defaultTxSpendableAge
        else tx.unlockTime
      (db, { call with todo := rest, done := call.done ++ [{ tx with unlockTime }] })

namespace State

variable (state : State)

/-- A call that has returned does nothing any more. -/
def check (index : Nat) (backend : Backend) : State :=
  match state.calls[index]? with
  | none => state
  | some call =>
    if call.result = none then
      { db := (call.check backend state.db).1
        calls := state.calls.set index (call.check backend state.db).2 }
    else state

/-- The new rows of a transaction become visible when they are committed. -/
def scanInsert (row : XmrTransaction) (outputs : Nat → List XmrOutput)
    (inputs : Nat → Nat → List XmrInput) : State :=
  let txMysqlId := state.db.nextTransaction
  let outputId := state.db.nextOutput
  if state.db.acceptsTransaction row then
    let db := state.db.appendTransaction row
    if db.acceptsOutputs (outputs txMysqlId) then
      let db := db.appendOutputs (outputs txMysqlId)
      if db.acceptsInputs (inputs txMysqlId outputId) then
        { state with db := db.appendInputs (inputs txMysqlId outputId) }
      else state
    else state
  else state

end State

/-- What an event does to the tables and the calls. -/
def step (accountId : Nat) (state : State) : Event → State
  | .select =>
    { state with calls := state.calls ++ [{ todo := state.db.selectTransactions accountId }] }
  | .check index backend => state.check index backend
  | .scanDelete txId => { state with db := (state.db.deleteTx txId).2 }
  | .scanInsert row outputs inputs => state.scanInsert row outputs inputs

/-! ### When a statement finds its row -/

/-- The row that is to be marked is there, and not yet marked at this second. -/
def FindsUnmarked (db : Database) (txId now : Nat) : Prop :=
  ∃ row ∈ db.transactions, row.id = txId ∧ ¬ (row.spendable = true ∧ row.timestamp = now)

/-- The row that is to be deleted is there. -/
def FindsRow (db : Database) (txId : Nat) : Prop := ∃ row ∈ db.transactions, row.id = txId

instance (db : Database) (txId now : Nat) : Decidable (FindsUnmarked db txId now) :=
  inferInstanceAs (Decidable (∃ row ∈ _, _))

instance (db : Database) (txId : Nat) : Decidable (FindsRow db txId) :=
  inferInstanceAs (Decidable (∃ row ∈ _, _))

/-- The statement of the next turn of a call, if it makes one, finds its row. -/
def Call.Finds (backend : Backend) (db : Database) (call : Call) : Prop :=
  ∀ tx ∈ call.todo.head?, call.result = none → tx.spendable = false →
    if isTxUnlocked backend.status tx.unlockTime tx.height = true then
      FindsUnmarked db tx.id backend.status.now
    else Orphaned backend tx → FindsRow db tx.id

instance (backend : Backend) (db : Database) (call : Call) : Decidable (call.Finds backend db) := by
  unfold Call.Finds
  infer_instance

/-- Every statement of a call finds its row. -/
def Finds (state : State) : Event → Prop
  | .check index backend => ∀ call ∈ state.calls[index]?, call.Finds backend state.db
  | _ => True

instance (state : State) : ∀ event, Decidable (Finds state event)
  | .check _ _ => inferInstanceAs (Decidable (∀ call ∈ _, _))
  | .select => inferInstanceAs (Decidable True)
  | .scanDelete _ => inferInstanceAs (Decidable True)
  | .scanInsert _ _ _ => inferInstanceAs (Decidable True)

/-- Some call has returned false. -/
def Failed (state : State) : Prop := ∃ call ∈ state.calls, call.result = some false

instance (state : State) : Decidable (Failed state) :=
  inferInstanceAs (Decidable (∃ call ∈ _, _))

theorem marked_eq_iff (row : XmrTransaction) (now : Nat) :
    row = { row with spendable := true, timestamp := now } ↔
      row.spendable = true ∧ row.timestamp = now := by
  constructor
  · intro same
    exact ⟨congrArg XmrTransaction.spendable same, congrArg XmrTransaction.timestamp same⟩
  · rintro ⟨spendable, timestamp⟩
    rw [← spendable, ← timestamp]

theorem markTxSpendable_count_iff {db : Database} (valid : db.Valid) (txId now : Nat) :
    (db.markTxSpendable txId now).1 = 1 ↔ FindsUnmarked db txId now := by
  show (db.transactions.filter fun row =>
    row.id = txId ∧ row ≠ { row with spendable := true, timestamp := now }).length = 1 ↔ _
  constructor
  · intro one
    obtain ⟨row, only⟩ := List.length_eq_one_iff.mp one
    have member : row ∈ db.transactions.filter fun row =>
        row.id = txId ∧ row ≠ { row with spendable := true, timestamp := now } :=
      only ▸ List.mem_singleton_self row
    obtain ⟨inRows, changes⟩ := List.mem_filter.mp member
    obtain ⟨here, differs⟩ := of_decide_eq_true changes
    exact ⟨row, inRows, here, fun marked => differs ((marked_eq_iff row now).mpr marked)⟩
  · rintro ⟨row, inRows, rfl, unmarked⟩
    have only : (db.transactions.filter fun other => other.id = row.id ∧
        other ≠ { other with spendable := true, timestamp := now }) = [row] := by
      rw [← Tables.filter_key_eq_singleton valid.transactionIds inRows]
      refine List.filter_congr fun other inOther => ?_
      by_cases here : other.id = row.id
      · obtain rfl := valid.transactionIds.eq_of_key inOther inRows here
        simp [(marked_eq_iff other now).not.mpr unmarked]
      · simp [here]
    rw [only]
    rfl

theorem deleteTx_count_iff {db : Database} (valid : db.Valid) (txId : Nat) :
    (db.deleteTx txId).1 = 1 ↔ FindsRow db txId := by
  constructor
  · intro one
    obtain ⟨row, only⟩ := List.length_eq_one_iff.mp one
    have member : row ∈ db.transactions.filter (·.id = txId) := only ▸ List.mem_singleton_self row
    obtain ⟨inRows, here⟩ := List.mem_filter.mp member
    exact ⟨row, inRows, of_decide_eq_true here⟩
  · rintro ⟨row, inRows, rfl⟩
    exact deleteTx_count valid inRows

/-- A call that is under way returns false exactly when its statement misses its row. -/
theorem check_result_iff {backend : Backend} {db : Database} (valid : db.Valid) {call : Call}
    (underway : call.result = none) :
    (call.check backend db).2.result = some false ↔ ¬ call.Finds backend db := by
  unfold Call.check Call.Finds
  cases call.todo with
  | nil => simp
  | cons tx rest =>
    simp only [List.head?_cons, Option.mem_def, Option.some.injEq, forall_eq', underway,
      forall_const]
    by_cases spendable : tx.spendable = true
    · simp [spendable]
    · simp only [eq_false_of_ne_true spendable, Bool.false_eq_true, if_false, true_implies]
      by_cases unlocked : isTxUnlocked backend.status tx.unlockTime tx.height = true
      · rw [if_pos unlocked, if_pos unlocked, ← markTxSpendable_count_iff valid]
        split
        · next missed => exact ⟨fun _ => missed, fun _ => rfl⟩
        · next found =>
          exact ⟨nofun, fun missed => absurd missed found⟩
      · rw [if_neg unlocked, if_neg unlocked]
        by_cases orphaned : Orphaned backend tx
        · rw [if_pos orphaned, ← deleteTx_count_iff valid]
          split
          · next missed => exact ⟨fun _ finds => missed (finds orphaned), fun _ => rfl⟩
          · next found =>
            exact ⟨nofun,
              fun missed => absurd (fun _ => not_not.mp found) missed⟩
        · rw [if_neg orphaned]
          exact ⟨nofun,
            fun missed => absurd (fun orphan => absurd orphan orphaned) missed⟩

theorem check_db_valid {backend : Backend} {db : Database} (valid : db.Valid) (call : Call) :
    (call.check backend db).1.Valid := by
  unfold Call.check
  split
  · exact valid
  · next tx rest _ =>
    split
    · exact valid
    · split
      · have marked := valid.markTxSpendable tx.id backend.status.now
        dsimp only
        split <;> exact marked
      · split
        · have deleted := valid.deleteTx tx.id
          dsimp only
          split <;> exact deleted
        · exact valid

theorem step_valid {accountId : Nat} {state : State} (valid : state.db.Valid) (event : Event) :
    (step accountId state event).db.Valid := by
  cases event with
  | select => exact valid
  | check index backend =>
    show (state.check index backend).db.Valid
    unfold State.check
    split
    · exact valid
    · next call _ =>
      split
      · exact check_db_valid valid call
      · exact valid
  | scanDelete txId => exact valid.deleteTx txId
  | scanInsert row outputs inputs =>
    show (state.scanInsert row outputs inputs).db.Valid
    unfold State.scanInsert
    dsimp only
    split
    · next row =>
      split
      · next outputs =>
        split
        · next inputs =>
          exact ((valid.appendTransaction row).appendOutputs outputs).appendInputs inputs
        · exact valid
      · exact valid
    · exact valid

/-! ### No call fails -/

theorem scanInsert_calls (state : State) (row : XmrTransaction) (outputs : Nat → List XmrOutput)
    (inputs : Nat → Nat → List XmrInput) :
    (state.scanInsert row outputs inputs).calls = state.calls := by
  unfold State.scanInsert
  dsimp only
  split
  · split
    · split <;> rfl
    · rfl
  · rfl

/-- A call that has failed stays so. -/
theorem failed_step {accountId : Nat} {state : State} (failed : Failed state) (event : Event) :
    Failed (step accountId state event) := by
  obtain ⟨call, member, result⟩ := failed
  cases event with
  | select => exact ⟨call, List.mem_append_left _ member, result⟩
  | check index backend =>
    show Failed (state.check index backend)
    unfold State.check
    split
    · exact ⟨call, member, result⟩
    · next other isOther =>
      split
      · next underway =>
        -- the call that has failed is not the one that goes on
        obtain ⟨place, bound, here⟩ := List.getElem_of_mem member
        have differs : index ≠ place := fun same => by
          subst same
          rw [List.getElem?_eq_getElem bound, here] at isOther
          rw [Option.some.inj isOther, underway] at result
          cases result
        have kept : (state.calls.set index (Call.check backend state.db other).2)[place]? =
            some call := by
          rw [List.getElem?_set_ne differs, List.getElem?_eq_getElem bound, here]
        exact ⟨call, List.mem_of_getElem? kept, result⟩
      · exact ⟨call, member, result⟩
  | scanDelete txId => exact ⟨call, member, result⟩
  | scanInsert row outputs inputs =>
    show Failed (state.scanInsert row outputs inputs)
    exact ⟨call, scanInsert_calls state row outputs inputs ▸ member, result⟩

/-- The first statement that misses its row makes a call fail. -/
theorem failed_of_misses {accountId : Nat} {state : State} (valid : state.db.Valid) {event : Event}
    (misses : ¬ Finds state event) : Failed (step accountId state event) := by
  cases event with
  | check index backend =>
    obtain ⟨call, isCall, missed⟩ : ∃ call, state.calls[index]? = some call ∧
        ¬ call.Finds backend state.db := by
      simpa only [Finds, Option.mem_def, not_forall, exists_prop] using misses
    have underway : call.result = none := by
      by_contra returned
      exact missed fun _ _ underway => absurd underway returned
    show Failed (state.check index backend)
    unfold State.check
    rw [isCall]
    simp only [if_pos underway]
    exact ⟨_, List.mem_of_getElem? (List.getElem?_set_self (List.getElem?_eq_some_iff.mp isCall).1),
      (check_result_iff valid underway).mpr missed⟩
  | _ => exact absurd trivial misses

/-- As long as statements find their rows, no call fails. -/
theorem not_failed_step {accountId : Nat} {state : State} (valid : state.db.Valid)
    (unfailed : ¬ Failed state) {event : Event} (finds : Finds state event) :
    ¬ Failed (step accountId state event) := by
  rintro ⟨call, member, result⟩
  cases event with
  | select =>
    rcases List.mem_append.mp member with old | new
    · exact unfailed ⟨call, old, result⟩
    · rw [List.mem_singleton.mp new] at result
      cases result
  | check index backend =>
    change call ∈ (state.check index backend).calls at member
    unfold State.check at member
    split at member
    · exact unfailed ⟨call, member, result⟩
    · next other isOther =>
      split at member
      · next underway =>
        rcases List.mem_or_eq_of_mem_set member with old | rfl
        · exact unfailed ⟨call, old, result⟩
        · exact (check_result_iff valid underway).mp result (finds other isOther)
      · exact unfailed ⟨call, member, result⟩
  | scanDelete txId => exact unfailed ⟨call, member, result⟩
  | scanInsert row outputs inputs =>
    change call ∈ (state.scanInsert row outputs inputs).calls at member
    exact unfailed ⟨call, scanInsert_calls state row outputs inputs ▸ member, result⟩

theorem not_failed_iff (accountId : Nat) (db : Database) (valid : db.Valid) (events : List Event) :
    ¬ Failed (Runs.run (step accountId) { db } events) ↔
      Runs.Along (step accountId) Finds { db } events := by
  constructor
  · exact Runs.along_of_unspoilt (step accountId) Finds (fun state => state.db.Valid) Failed
      (fun _ event valid => step_valid valid event) (fun _ event failed => failed_step failed event)
      (fun _ _ valid misses => failed_of_misses valid misses) events { db } valid
  · intro finds
    exact (Runs.run_invariant (step accountId) Finds
      (fun state => state.db.Valid ∧ ¬ Failed state)
      (fun _ event kept finds => ⟨step_valid kept.1 event, not_failed_step kept.1 kept.2 finds⟩)
      events { db } ⟨valid, fun failed => by
        obtain ⟨_, member, _⟩ := failed
        cases member⟩ finds).2

/-! ### The order of the statements -/

theorem markTxSpendable_comm (db : Database) {first second : Nat} (differ : first ≠ second)
    (now : Nat) :
    ((db.markTxSpendable first now).2.markTxSpendable second now).2 =
      ((db.markTxSpendable second now).2.markTxSpendable first now).2 := by
  unfold Database.markTxSpendable Database.markSpendable
  dsimp only
  congr 1
  rw [List.map_map, List.map_map]
  refine List.map_congr_left fun row _ => ?_
  by_cases here : row.id = first
  · simp [here, differ]
  · by_cases there : row.id = second
    · simp [there, differ.symm]
    · simp [here, there]

theorem markTxSpendable_deleteTx (db : Database) (marked deleted now : Nat) :
    ((db.markTxSpendable marked now).2.deleteTx deleted).2 =
      ((db.deleteTx deleted).2.markTxSpendable marked now).2 := by
  unfold Database.markTxSpendable Database.markSpendable Database.deleteTx
  dsimp only
  congr 1
  rw [List.filter_map]
  refine congrArg (List.map _) (List.filter_congr fun row _ => ?_)
  rw [Function.comp_apply]
  split <;> rfl

theorem deleteTx_comm (db : Database) {first second : Nat} (differ : first ≠ second) :
    ((db.deleteTx first).2.deleteTx second).2 = ((db.deleteTx second).2.deleteTx first).2 := by
  -- the outputs of one transaction are still there when the other is deleted
  have there {kept gone : Nat} (differ : gone ≠ kept) (outputId : Nat) :
      ((db.outputs.filter (·.txId ≠ gone)).any fun output =>
        output.id = outputId ∧ output.txId = kept) =
      db.outputs.any fun output => output.id = outputId ∧ output.txId = kept := by
    rw [List.any_filter]
    refine congrArg db.outputs.any (funext fun output => ?_)
    by_cases here : output.txId = kept
    · simp [here, differ.symm]
    · simp [here]
  unfold Database.deleteTx
  dsimp only
  congr 1
  · rw [List.filter_filter, List.filter_filter]
    exact List.filter_congr fun row _ => Bool.and_comm _ _
  · rw [List.filter_filter, List.filter_filter]
    exact List.filter_congr fun row _ => Bool.and_comm _ _
  · rw [List.filter_filter, List.filter_filter]
    refine List.filter_congr fun input _ => ?_
    simp only [there differ, there differ.symm, Bool.and_comm]

variable {backend : Backend} {accountId : Nat} {start : Database}

/-- The check of a transaction touches nothing, or marks it, or deletes it. -/
theorem checkTx_cases (backend : Backend) (tx : XmrTransaction) :
    (∀ db, checkTx backend db tx = db) ∨
      (∀ db, checkTx backend db tx = (db.markTxSpendable tx.id backend.status.now).2) ∨
      ∀ db, checkTx backend db tx = (db.deleteTx tx.id).2 := by
  unfold checkTx
  by_cases spendable : tx.spendable = true
  · exact .inl fun _ => if_pos spendable
  · by_cases unlocked : isTxUnlocked backend.status tx.unlockTime tx.height = true
    · exact .inr (.inl fun _ => by rw [if_neg spendable, if_pos unlocked])
    · by_cases orphaned : Orphaned backend tx
      · exact .inr (.inr fun _ => by rw [if_neg spendable, if_neg unlocked, if_pos orphaned])
      · exact .inl fun _ => by rw [if_neg spendable, if_neg unlocked, if_neg orphaned]

theorem checkTx_comm (db : Database) {first second : XmrTransaction}
    (differ : first.id ≠ second.id) :
    checkTx backend (checkTx backend db first) second =
      checkTx backend (checkTx backend db second) first := by
  rcases checkTx_cases backend first with same | marks | deletes
  · rw [same, same]
  · rcases checkTx_cases backend second with sameSecond | marksSecond | deletesSecond
    · rw [sameSecond, sameSecond]
    · rw [marks, marksSecond, marksSecond, marks, markTxSpendable_comm db differ]
    · rw [marks, deletesSecond, deletesSecond, marks, markTxSpendable_deleteTx]
  · rcases checkTx_cases backend second with sameSecond | marksSecond | deletesSecond
    · rw [sameSecond, sameSecond]
    · rw [deletes, marksSecond, marksSecond, deletes, markTxSpendable_deleteTx]
    · rw [deletes, deletesSecond, deletesSecond, deletes, deleteTx_comm db differ]

/-- The order in which transactions are checked does not matter. -/
theorem checkDb_perm {first second : List XmrTransaction} (same : first.Perm second)
    (unique : Tables.Unique XmrTransaction.id first) (db : Database) :
    checkDb backend first db = checkDb backend second db := by
  refine same.foldl_eq' (fun tx inFirst other inOther db => ?_) db
  by_cases here : tx.id = other.id
  · rw [unique.eq_of_key inFirst inOther here]
  · exact checkTx_comm db here

theorem checkDb_filter_changes (txs : List XmrTransaction) (db : Database) :
    checkDb backend (txs.filter (Changes backend ·)) db = checkDb backend txs db := by
  unfold checkDb
  rw [List.foldl_filter]
  refine congrFun (congrFun (congrArg _ (funext fun db => funext fun tx => ?_)) db) txs
  by_cases changes : Changes backend tx
  · exact if_pos (decide_eq_true changes)
  · rw [checkTx_of_not_changes changes]
    exact ite_self _

/-! ### One turn of a call -/

theorem check_db {call : Call} {tx : XmrTransaction} {rest : List XmrTransaction}
    (next : call.todo = tx :: rest) (db : Database) :
    (call.check backend db).1 = checkTx backend db tx := by
  unfold Call.check checkTx
  rw [next]
  dsimp only
  split
  · rfl
  · split
    · split <;> rfl
    · split
      · split <;> rfl
      · rfl

/-- A call whose statement finds its row goes on to the next transaction. -/
theorem check_call {db : Database} (valid : db.Valid) {call : Call} {tx : XmrTransaction}
    {rest : List XmrTransaction} (next : call.todo = tx :: rest) (underway : call.result = none)
    (finds : call.Finds backend db) :
    (call.check backend db).2 =
      { todo := rest, done := call.done ++ (txAfterCheck backend tx).toList, result := none } := by
  have goesOn := (check_result_iff valid underway).not_left.mpr finds
  unfold Call.check txAfterCheck at *
  rw [next] at goesOn ⊢
  rw [← underway]
  dsimp only at goesOn ⊢
  by_cases spendable : tx.spendable = true
  · simp only [if_pos spendable, Option.toList_some]
  · simp only [if_neg spendable] at goesOn ⊢
    by_cases unlocked : isTxUnlocked backend.status tx.unlockTime tx.height = true
    · simp only [if_pos unlocked] at goesOn ⊢
      split
      · next missed => exact absurd (by rw [if_pos missed]) goesOn
      · rfl
    · simp only [if_neg unlocked] at goesOn ⊢
      by_cases orphaned : Orphaned backend tx
      · simp only [if_pos orphaned] at goesOn ⊢
        split
        · next missed => exact absurd (by rw [if_pos missed]) goesOn
        · exact congrArg (Call.mk rest · call.result) (List.append_nil _).symm
      · simp only [if_neg orphaned, Option.toList_some]

/-! ### Checks that run at the same time -/

/-- A check with the given backend, or its select. -/
def OfCheck (backend : Backend) : Event → Prop
  | .select => True
  | .check _ other => other = backend
  | _ => False

/-- A select finds no row whose time an earlier mark has changed. -/
def KeepsTimes (backend : Backend) (accountId : Nat) (start : Database) (state : State) :
    Event → Prop
  | .select => ∀ tx ∈ start.selectTransactions accountId, tx.spendable = false →
      isTxUnlocked backend.status tx.unlockTime tx.height = true →
      tx ∉ state.db.transactions → tx.timestamp = backend.status.now
  | _ => True

instance (backend : Backend) (accountId : Nat) (start : Database) (state : State) :
    ∀ event, Decidable (KeepsTimes backend accountId start state event)
  | .select => inferInstanceAs (Decidable (∀ tx ∈ _, _))
  | .check _ _ => inferInstanceAs (Decidable True)
  | .scanDelete _ => inferInstanceAs (Decidable True)
  | .scanInsert _ _ _ => inferInstanceAs (Decidable True)

/-- The rows that have been handled so far have been handled once, and every call has the others
still before it. -/
structure Following (backend : Backend) (accountId : Nat) (start : Database)
    (handled : List XmrTransaction) (state : State) : Prop where
  rows : ∀ tx ∈ handled, tx ∈ start.selectTransactions accountId ∧ Changes backend tx
  once : Tables.Unique XmrTransaction.id handled
  db : state.db = checkDb backend handled start
  list : ∀ call ∈ state.calls, call.done ++ call.todo.filterMap (txAfterCheck backend) =
    (start.selectTransactions accountId).filterMap (txAfterCheck backend)
  todo : ∀ call ∈ state.calls, ∀ tx ∈ call.todo, Changes backend tx →
    tx ∈ start.selectTransactions accountId
  before : ∀ call ∈ state.calls, ∀ tx ∈ start.selectTransactions accountId, Changes backend tx →
    tx ∈ handled ∨ tx ∈ call.todo
  returned : ∀ call ∈ state.calls, call.result = some true → call.todo = []

namespace Following

variable {handled : List XmrTransaction} {state : State}

theorem transactions (following : Following backend accountId start handled state)
    (valid : start.Valid) :
    state.db.transactions = start.transactions.filterMap fun row =>
      if row ∈ handled then rowAfterCheck backend row else some row := by
  have inTable : ∀ tx ∈ handled, tx ∈ start.transactions :=
    fun tx member => (List.mem_filter.mp (following.rows tx member).1).1
  rw [following.db, checkDb_transactions backend handled valid inTable following.once]
  refine List.filterMap_congr fun row inRows => ?_
  have same : row.id ∈ handled.map XmrTransaction.id ↔ row ∈ handled := by
    constructor
    · intro member
      obtain ⟨tx, isHandled, id⟩ := List.mem_map.mp member
      rwa [← valid.transactionIds.eq_of_key (inTable tx isHandled) inRows id]
    · exact fun member => List.mem_map.mpr ⟨row, member, rfl⟩
  simp only [same]

theorem selectTransactions (following : Following backend accountId start handled state)
    (valid : start.Valid) :
    state.db.selectTransactions accountId =
      (start.selectTransactions accountId).filterMap fun row =>
        if row ∈ handled then rowAfterCheck backend row else some row := by
  unfold Database.selectTransactions
  rw [following.transactions valid, List.filter_filterMap, List.filterMap_filter]
  refine List.filterMap_congr fun row _ => ?_
  cases after : if row ∈ handled then rowAfterCheck backend row else some row with
  | none => simp
  | some kept =>
    have same : kept.accountId = row.accountId := by
      split at after
      · exact rowAfterCheck_accountId backend after
      · cases after
        rfl
    simp [Option.filter, same]

/-- A row that was handled is what the check has made of it. -/
theorem row_of_handled (following : Following backend accountId start handled state)
    (valid : start.Valid) {tx row : XmrTransaction} (isHandled : tx ∈ handled)
    (member : row ∈ state.db.transactions) (same : row.id = tx.id) :
    rowAfterCheck backend tx = some row := by
  rw [following.transactions valid] at member
  obtain ⟨other, inRows, after⟩ := List.mem_filterMap.mp member
  have id : row.id = other.id := by
    split at after
    · exact rowAfterCheck_id backend after
    · cases after
      rfl
  have inTable := (List.mem_filter.mp (following.rows tx isHandled).1).1
  obtain rfl := valid.transactionIds.eq_of_key inRows inTable (id.symm.trans same)
  rwa [if_pos isHandled] at after

theorem gone_of_handled (following : Following backend accountId start handled state)
    (valid : start.Valid) {tx : XmrTransaction} (isHandled : tx ∈ handled) :
    tx ∉ state.db.transactions := by
  intro member
  have changes := (following.rows tx isHandled).2
  have after := following.row_of_handled valid isHandled member rfl
  rw [rowAfterCheck_of_changes changes] at after
  split at after
  · have marked := congrArg XmrTransaction.spendable (Option.some.inj after)
    rw [changes.1] at marked
    cases marked
  · cases after

theorem not_handled_of_finds (following : Following backend accountId start handled state)
    (valid : start.Valid) {call : Call} {tx : XmrTransaction} {rest : List XmrTransaction}
    (next : call.todo = tx :: rest) (underway : call.result = none)
    (changes : Changes backend tx) (finds : call.Finds backend state.db) : tx ∉ handled := by
  intro isHandled
  have found := finds tx (by rw [next]; rfl) underway changes.1
  have after {row : XmrTransaction} (member : row ∈ state.db.transactions)
      (same : row.id = tx.id) := following.row_of_handled valid isHandled member same
  rw [rowAfterCheck_of_changes changes] at after
  by_cases unlocked : isTxUnlocked backend.status tx.unlockTime tx.height = true
  · rw [if_pos unlocked] at found
    obtain ⟨row, member, same, unmarked⟩ := found
    have marked := after member same
    rw [if_pos unlocked] at marked
    exact unmarked (by rw [← Option.some.inj marked]; exact ⟨rfl, rfl⟩)
  · rw [if_neg unlocked] at found
    obtain ⟨row, member, same⟩ := found (changes.2.resolve_left unlocked)
    have gone := after member same
    rw [if_neg unlocked] at gone
    cases gone

theorem select (following : Following backend accountId start handled state) (valid : start.Valid)
    (keepsTimes : KeepsTimes backend accountId start state .select) :
    Following backend accountId start handled (step accountId state .select) := by
  have selected := following.selectTransactions valid
  have onCalls {holds : Call → Prop} (old : ∀ call ∈ state.calls, holds call)
      (new : holds { todo := state.db.selectTransactions accountId }) :
      ∀ call ∈ (step accountId state .select).calls, holds call := fun call member => by
    rcases List.mem_append.mp member with inCalls | single
    · exact old call inCalls
    · rw [List.mem_singleton.mp single]
      exact new
  refine ⟨following.rows, following.once, following.db, onCalls following.list ?_,
    onCalls following.todo ?_, onCalls following.before ?_, onCalls following.returned nofun⟩
  · show [] ++ (state.db.selectTransactions accountId).filterMap (txAfterCheck backend) = _
    rw [List.nil_append, selected, List.filterMap_filterMap]
    refine List.filterMap_congr fun row inRows => ?_
    split
    · next isHandled =>
      have changes := (following.rows row isHandled).2
      rw [rowAfterCheck_of_changes changes, txAfterCheck_of_changes changes]
      split
      · next unlocked =>
        have time := keepsTimes row inRows changes.1 unlocked
          (following.gone_of_handled valid isHandled)
        rw [← time]
        rfl
      · rfl
    · rfl
  · intro tx member changes
    change tx ∈ state.db.selectTransactions accountId at member
    rw [selected] at member
    obtain ⟨row, inRows, after⟩ := List.mem_filterMap.mp member
    split at after
    · next isHandled =>
      rw [rowAfterCheck_of_changes (following.rows row isHandled).2] at after
      split at after
      · rw [← Option.some.inj after] at changes
        cases changes.1
      · cases after
    · cases after
      exact inRows
  · intro tx inRows _
    by_cases isHandled : tx ∈ handled
    · exact .inl isHandled
    · refine .inr ?_
      show tx ∈ state.db.selectTransactions accountId
      rw [selected]
      exact List.mem_filterMap.mpr ⟨tx, inRows, if_neg isHandled⟩

/-- A call goes on to the next transaction, which is handled then if there is something to do. -/
theorem next (following : Following backend accountId start handled state) (valid : start.Valid)
    {index : Nat} {call : Call} {tx : XmrTransaction} {rest : List XmrTransaction}
    (isCall : state.calls[index]? = some call) (next : call.todo = tx :: rest)
    (underway : call.result = none) (finds : call.Finds backend state.db) :
    Following backend accountId start
      (if Changes backend tx then handled ++ [tx] else handled)
      { db := (call.check backend state.db).1
        calls := state.calls.set index (call.check backend state.db).2 } := by
  have member := List.mem_of_getElem? isCall
  have validNow : state.db.Valid := following.db ▸ checkDb_valid backend handled valid
  have head : tx ∈ call.todo := next ▸ List.mem_cons_self
  rw [check_db next, check_call validNow next underway finds]
  have more : ∀ other ∈ handled, other ∈ if Changes backend tx then handled ++ [tx] else handled :=
    fun other isHandled => by
      split
      · exact List.mem_append_left _ isHandled
      · exact isHandled
  have onCalls {holds : Call → Prop} {after : Call} (old : ∀ call ∈ state.calls, holds call)
      (new : holds after) : ∀ call ∈ state.calls.set index after, holds call :=
    fun other inCalls => (List.mem_or_eq_of_mem_set inCalls).elim (old other) (· ▸ new)
  refine ⟨fun other isHandled => ?_, ?_, ?_, onCalls following.list ?_,
    onCalls following.todo fun other inRest => ?_,
    onCalls (fun other inCalls row inRows changes => ?_) fun row inRows changes => ?_,
    onCalls following.returned nofun⟩
  · split at isHandled
    · next changes =>
      rcases List.mem_append.mp isHandled with old | new
      · exact following.rows other old
      · rw [List.mem_singleton.mp new]
        exact ⟨following.todo call member tx head changes, changes⟩
    · exact following.rows other isHandled
  · split
    · next changes =>
      refine following.once.append_one fun other isHandled same => ?_
      have inTable {row : XmrTransaction} (inRows : row ∈ start.selectTransactions accountId) :
          row ∈ start.transactions := (List.mem_filter.mp inRows).1
      have here := valid.transactionIds.eq_of_key (inTable (following.rows other isHandled).1)
        (inTable (following.todo call member tx head changes)) same
      exact following.not_handled_of_finds valid next underway changes finds (here ▸ isHandled)
    · exact following.once
  · show checkTx backend state.db tx = _
    split
    · rw [following.db]
      show _ = (handled ++ [tx]).foldl (checkTx backend) start
      rw [List.foldl_append]
      rfl
    · next idle => rw [checkTx_of_not_changes idle, following.db]
  · show (call.done ++ (txAfterCheck backend tx).toList) ++ rest.filterMap _ = _
    have before := following.list call member
    rw [next, List.filterMap_cons] at before
    rw [← before, List.append_assoc]
    cases txAfterCheck backend tx <;> rfl
  · exact following.todo call member other (next ▸ List.mem_cons_of_mem _ inRest)
  · exact (following.before other inCalls row inRows changes).imp_left (more row)
  · rcases following.before call member row inRows changes with isHandled | inTodo
    · exact .inl (more row isHandled)
    · rw [next] at inTodo
      rcases List.mem_cons.mp inTodo with rfl | inRest
      · refine .inl ?_
        rw [if_pos changes]
        exact List.mem_append_right _ (List.mem_singleton_self _)
      · exact .inr inRest

theorem returns (following : Following backend accountId start handled state)
    {index : Nat} {call : Call} (isCall : state.calls[index]? = some call)
    (finished : call.todo = []) :
    Following backend accountId start handled
      { db := (call.check backend state.db).1
        calls := state.calls.set index (call.check backend state.db).2 } := by
  have member := List.mem_of_getElem? isCall
  have after : call.check backend state.db = (state.db, { call with result := some true }) := by
    unfold Call.check
    rw [finished]
  rw [after]
  have onCalls {holds : Call → Prop} (old : ∀ call ∈ state.calls, holds call)
      (new : holds { call with result := some true }) :
      ∀ other ∈ state.calls.set index { call with result := some true }, holds other :=
    fun other inCalls => (List.mem_or_eq_of_mem_set inCalls).elim (old other) (· ▸ new)
  exact ⟨following.rows, following.once, following.db,
    onCalls following.list (following.list call member),
    onCalls following.todo (following.todo call member),
    onCalls following.before (following.before call member),
    onCalls following.returned fun _ => finished⟩

end Following

theorem following_step {state : State} (valid : start.Valid)
    (kept : ∃ handled, Following backend accountId start handled state) {event : Event}
    (ofCheck : OfCheck backend event) (finds : Finds state event)
    (keepsTimes : KeepsTimes backend accountId start state event) :
    ∃ handled, Following backend accountId start handled (step accountId state event) := by
  obtain ⟨handled, following⟩ := kept
  cases event with
  | select => exact ⟨handled, following.select valid keepsTimes⟩
  | check index other =>
    obtain rfl : other = backend := ofCheck
    show ∃ handled, Following other accountId start handled (state.check index other)
    unfold State.check
    cases isCall : state.calls[index]? with
    | none => exact ⟨handled, following⟩
    | some call =>
      dsimp only
      split
      · next underway =>
        cases next : call.todo with
        | nil => exact ⟨handled, following.returns isCall next⟩
        | cons tx rest =>
          exact ⟨_, following.next valid isCall next underway (finds call isCall)⟩
      · exact ⟨handled, following⟩
  | scanDelete txId => exact ofCheck.elim
  | scanInsert row outputs inputs => exact ofCheck.elim

/-- Once a call has returned true, everything is handled. -/
theorem Following.alone {handled : List XmrTransaction} {state : State}
    (following : Following backend accountId start handled state) (valid : start.Valid)
    {call : Call} (member : call ∈ state.calls) (result : call.result = some true) :
    call.done = (start.selectTransactions accountId).filterMap (txAfterCheck backend) ∧
      state.db = checkAccount backend accountId start := by
  have finished := following.returned call member result
  have list := following.list call member
  rw [finished, List.filterMap_nil, List.append_nil] at list
  refine ⟨list, ?_⟩
  have rows : (start.selectTransactions accountId).Nodup :=
    List.Nodup.of_map _ (valid.transactionIds.filter _)
  have all : handled.Perm ((start.selectTransactions accountId).filter (Changes backend ·)) := by
    rw [List.perm_ext_iff_of_nodup (List.Nodup.of_map _ following.once) (rows.filter _)]
    intro tx
    rw [List.mem_filter, decide_eq_true_iff]
    constructor
    · exact following.rows tx
    · rintro ⟨inRows, changes⟩
      refine (following.before call member tx inRows changes).resolve_right fun inTodo => ?_
      rw [finished] at inTodo
      cases inTodo
  rw [following.db, checkDb_perm all following.once, checkDb_filter_changes]
  rfl

/-- Every statement finds its row, and no select a row whose time a mark has changed. -/
def Undisturbed (backend : Backend) (accountId : Nat) (start : Database) (state : State)
    (event : Event) : Prop :=
  Finds state event ∧ KeepsTimes backend accountId start state event

instance (backend : Backend) (accountId : Nat) (start : Database) (state : State) (event : Event) :
    Decidable (Undisturbed backend accountId start state event) :=
  inferInstanceAs (Decidable (_ ∧ _))

/-- Calls that are interleaved with each other and with the scan thread all return true exactly if
every statement finds its row. Where the calls are interleaved with each other only, and no select
finds a row whose time a mark has changed, they hand on the list that one call alone would, and
leave the tables that it would. -/
theorem checks_undisturbed (accountId : Nat) (db : Database) (valid : db.Valid)
    (events : List Event) :
    ((∀ call ∈ (Runs.run (step accountId) { db } events).calls, call.result ≠ some false) ↔
        Runs.Along (step accountId) Finds { db } events) ∧
      ∀ backend, (∀ event ∈ events, OfCheck backend event) →
        Runs.Along (step accountId) (Undisturbed backend accountId db) { db } events →
        ∀ call ∈ (Runs.run (step accountId) { db } events).calls, call.result = some true →
          selectTxsForAccountSpendabilityCheck backend (db.selectTransactions accountId) { db } =
            (some call.done, { db := (Runs.run (step accountId) { db } events).db }) := by
  refine ⟨?_, fun backend ofCheck undisturbed call member result => ?_⟩
  · rw [← not_failed_iff accountId db valid events]
    exact ⟨fun all ⟨call, member, result⟩ => all call member result,
      fun unfailed call member result => unfailed ⟨call, member, result⟩⟩
  · have initially : Following backend accountId db [] { db } :=
      ⟨fun _ member => absurd member List.not_mem_nil, Tables.unique_nil _, rfl,
        fun _ member => absurd member List.not_mem_nil,
        fun _ member => absurd member List.not_mem_nil,
        fun _ member => absurd member List.not_mem_nil,
        fun _ member => absurd member List.not_mem_nil⟩
    obtain ⟨handled, following⟩ := Runs.run_invariant (step accountId) _
      (fun state => ∃ handled, Following backend accountId db handled state)
      (fun _ _ kept met => following_step valid kept met.1 met.2.1 met.2.2) events { db }
      ⟨[], initially⟩ (Runs.along_and_of_forall ofCheck undisturbed)
    obtain ⟨list, rows⟩ := following.alone valid member result
    have quiet : World.Quiet { db } := rfl
    rw [list, rows]
    exact checkAccount_quiet quiet valid accountId

/-! ### Two calls that have selected the same row -/

/-- An account with a transaction that is to be marked, or to be deleted while it is locked. -/
def stored (unlockTime : Nat) : Database :=
  { accounts := [{ id := 1, address := "4ApA" }]
    transactions := [{ id := 1, hash := "a1", accountId := 1, blockchainTxId := 7, unlockTime }]
    nextAccount := 2
    nextTransaction := 2 }

/-- The second call selects after the first has marked. -/
def late : List Event :=
  [.select, .check 0 Backend.empty, .select, .check 1 Backend.empty, .check 0 Backend.empty,
    .check 1 Backend.empty]

theorem checks_undisturbed_late :
    (∀ call ∈ (Runs.run (step 1) { db := stored 0 } late).calls, call.result ≠ some false) ∧
      ∀ call ∈ (Runs.run (step 1) { db := stored 0 } late).calls, call.result = some true →
        selectTxsForAccountSpendabilityCheck Backend.empty ((stored 0).selectTransactions 1)
            { db := stored 0 } =
          (some call.done, { db := (Runs.run (step 1) { db := stored 0 } late).db }) :=
  have both := checks_undisturbed 1 (stored 0) (by decide +kernel) late
  ⟨both.1.mpr (by decide +kernel),
    both.2 Backend.empty (by simp [late, OfCheck]) (by decide +kernel)⟩

/-- The second call finds the row marked, or deleted by the first, or deleted by the scan. -/
theorem checks_disturbed :
    Failed (Runs.run (step 1) { db := stored 0 }
        [.select, .select, .check 0 Backend.empty, .check 1 Backend.empty]) ∧
      Failed (Runs.run (step 1) { db := stored 100 }
        [.select, .select, .check 0 Backend.empty, .check 1 Backend.empty]) ∧
      Failed (Runs.run (step 1) { db := stored 0 }
        [.select, .scanDelete 1, .check 0 Backend.empty]) := by
  decide +kernel

end LightWallet.ConcurrentChecks
