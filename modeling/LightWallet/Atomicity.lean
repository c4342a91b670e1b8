/-
This file settles whether recording a transaction is atomic.

A pass that opens its transaction first removes the rows of an earlier scan, on
another connection, whose statements are committed at once. What follows is
committed or rolled back as a whole. The pass is therefore atomic exactly when
nothing fails after a removal. A lookup of an output that fails counts as an
output that is not recorded, so that a pass whose steps all succeed may still
store less than the complete rows.
-/

import LightWallet.Recorded
import LightWallet.Schema

namespace LightWallet

/-! ### The rows of an account -/

/-- The rows that a search thread writes for its account. -/
structure AccountRows where
  transactions : List XmrTransaction
  outputs : List XmrOutput
  inputs : List XmrInput
  deriving DecidableEq, Repr

/-- What the tables hold for an account. -/
def Database.rowsOf (db : Database) (accountId : Nat) : AccountRows where
  transactions := db.selectTransactions accountId
  outputs := db.selectOutputs accountId
  inputs := db.inputs.filter (·.accountId = accountId)

/-! ### Lookups that fail -/

section Lookups

variable (row : InputInfo → XmrOutput → XmrInput) (answers : Nat → Bool) (db : Database)

/-- A lookup that fails can only lose an input. -/
theorem collectInputs_length_le (index : Nat) (infos : List InputInfo) :
    (collectInputs row answers db index infos).length ≤
      (collectInputs row (fun _ => true) db index infos).length := by
  induction infos generalizing index with
  | nil => exact Nat.le_refl _
  | cons info rest inductionHypothesis =>
    have tail := inductionHypothesis (index + 1)
    cases found : db.outputExists info.outPubKey with
    | none =>
      rw [collectInputs_cons_none row answers fun _ => found,
        collectInputs_cons_none row (fun _ => true) fun _ => found]
      exact tail
    | some output =>
      rw [collectInputs_cons_some row (fun _ => true) rfl found]
      by_cases answer : answers index = true
      · rw [collectInputs_cons_some row answers answer found]
        exact Nat.succ_le_succ tail
      · rw [collectInputs_cons_none row answers fun here => absurd here answer]
        exact Nat.le_succ_of_le tail

theorem collectInputs_of_answers (index : Nat) (infos : List InputInfo)
    (answer : ∀ position info, infos[position]? = some info →
      db.outputExists info.outPubKey ≠ none → answers (index + position) = true) :
    collectInputs row answers db index infos =
      collectInputs row (fun _ => true) db index infos := by
  induction infos generalizing index with
  | nil => rfl
  | cons info rest inductionHypothesis =>
    have tail := inductionHypothesis (index + 1) fun position other member recorded => by
      have later := answer (position + 1) other member recorded
      rwa [← Nat.add_assoc, Nat.add_right_comm] at later
    cases found : db.outputExists info.outPubKey with
    | none =>
      rw [collectInputs_cons_none row answers fun _ => found,
        collectInputs_cons_none row (fun _ => true) fun _ => found, tail]
    | some output =>
      have here : answers index = true :=
        answer 0 info rfl (by rw [found]; exact Option.some_ne_none _)
      rw [collectInputs_cons_some row answers here found,
        collectInputs_cons_some row (fun _ => true) rfl found, tail]

/-- A lookup of a recorded output that fails loses an input. -/
theorem collectInputs_length_lt (index : Nat) (infos : List InputInfo)
    (silent : ∃ position info, infos[position]? = some info ∧
      db.outputExists info.outPubKey ≠ none ∧ ¬ answers (index + position) = true) :
    (collectInputs row answers db index infos).length <
      (collectInputs row (fun _ => true) db index infos).length := by
  induction infos generalizing index with
  | nil =>
    obtain ⟨position, info, member, -⟩ := silent
    cases member
  | cons info rest inductionHypothesis =>
    obtain ⟨position, other, member, recorded, hidden⟩ := silent
    cases position with
    | zero =>
      cases member
      obtain ⟨output, found⟩ := Option.ne_none_iff_exists'.mp recorded
      rw [Nat.add_zero] at hidden
      rw [collectInputs_cons_none row answers fun answer => absurd answer hidden,
        collectInputs_cons_some row (fun _ => true) rfl found]
      exact Nat.lt_succ_of_le (collectInputs_length_le row answers db (index + 1) rest)
    | succ position =>
      have tail := inductionHypothesis (index + 1) ⟨position, other, member, recorded, by
        rwa [Nat.add_right_comm, Nat.add_assoc]⟩
      cases found : db.outputExists info.outPubKey with
      | none =>
        rw [collectInputs_cons_none row answers fun _ => found,
        collectInputs_cons_none row (fun _ => true) fun _ => found]
        exact tail
      | some output =>
        rw [collectInputs_cons_some row (fun _ => true) rfl found]
        by_cases answer : answers index = true
        · rw [collectInputs_cons_some row answers answer found]
          exact Nat.succ_lt_succ tail
        · rw [collectInputs_cons_none row answers fun here => absurd here answer]
          exact Nat.lt_succ_of_lt tail

end Lookups

/-! ### Atomicity -/

section Atomicity

variable (wallet : Wallet) (status : Status) (tuple : TxTuple) (tx : Transaction)
  (outcomes : Outcomes) (scanned : Scanned)

/-- The tables without the rows the account has for the transaction. -/
def withoutTx (db : Database) : Database :=
  match db.txExists wallet.account.id tx.hash with
  | none => db
  | some old => (db.deleteTx old.id).2

/-- The rows of every identified input whose output is recorded in the given tables, or is an
output of the transaction itself. -/
def recordedInputs (db : Database) : List XmrInput :=
  foundInputs wallet tuple tx outcomes scanned (fun _ => true) db

/-- The tables with the complete new rows of the transaction. -/
def completeDb : Database :=
  storedDb wallet status tuple tx outcomes scanned
    (recordedInputs wallet tuple tx outcomes scanned (withoutTx wallet tx scanned.db))
    (withoutTx wallet tx scanned.db)

/-- The account's rows after the pass are those before it, or the complete new ones. -/
def Atomic : Prop :=
  let after := (recordTx wallet status tuple tx outcomes scanned).2.db
  after.rowsOf wallet.account.id = scanned.db.rowsOf wallet.account.id ∨
    after.rowsOf wallet.account.id =
      (completeDb wallet status tuple tx outcomes scanned).rowsOf wallet.account.id

instance : Decidable (Atomic wallet status tuple tx outcomes scanned) :=
  inferInstanceAs (Decidable (_ ∨ _))

/-- No lookup of a recorded output fails. -/
def LookupsAnswer (db : Database) : Prop :=
  ∀ position info, (identifiedInputs wallet tx scanned)[position]? = some info →
    (db.appendOutputs (storedOutputs wallet tuple tx outcomes scanned
      db.nextTransaction)).outputExists info.outPubKey ≠ none →
    outcomes.outputExistsAnswers position = true

/-- Nothing is stored for the transaction. -/
def NothingFound (answers : Nat → Bool) (db : Database) : Prop :=
  wallet.identifier.outputs tx = [] ∧
    foundInputs wallet tuple tx outcomes scanned answers db = []

/-- When a pass that opens its transaction is atomic. With rows of an earlier scan removed,
every step has to succeed and every lookup of a recorded output to answer, unless there is
nothing to store. With nothing removed, only the lookups matter, and only when every step
succeeds and something is stored. -/
def LosesNothing (db : Database) : Prop :=
  match existingTx wallet tx outcomes db with
  | none =>
    StepsSucceed wallet status tuple tx outcomes scanned db →
      NothingFound wallet tuple tx outcomes scanned outcomes.outputExistsAnswers db ∨
        LookupsAnswer wallet tuple tx outcomes scanned db
  | some old =>
    NothingFound wallet tuple tx outcomes scanned (fun _ => true) (db.deleteTx old.id).2 ∨
      (StepsSucceed wallet status tuple tx outcomes scanned (db.deleteTx old.id).2 ∧
        LookupsAnswer wallet tuple tx outcomes scanned (db.deleteTx old.id).2)

theorem foundInputs_of_answers {db : Database}
    (answer : LookupsAnswer wallet tuple tx outcomes scanned db) :
    foundInputs wallet tuple tx outcomes scanned outcomes.outputExistsAnswers db =
      recordedInputs wallet tuple tx outcomes scanned db :=
  collectInputs_of_answers _ _ _ 0 _ fun position info member recorded => by
    rw [Nat.zero_add]
    exact answer position info member recorded

theorem foundInputs_length_lt {db : Database}
    (silent : ¬ LookupsAnswer wallet tuple tx outcomes scanned db) :
    (foundInputs wallet tuple tx outcomes scanned outcomes.outputExistsAnswers db).length <
      (recordedInputs wallet tuple tx outcomes scanned db).length := by
  refine collectInputs_length_lt _ _ _ 0 _ ?_
  unfold LookupsAnswer at silent
  simp only [not_forall] at silent
  obtain ⟨position, info, member, recorded, hidden⟩ := silent
  exact ⟨position, info, member, recorded, by rwa [Nat.zero_add]⟩

/-- The rows found are the account's. -/
theorem collectInputs_accountId (answers : Nat → Bool) (db : Database) (timestamp index : Nat)
    (infos : List InputInfo) :
    ∀ row ∈ collectInputs (inputRow wallet timestamp) answers db index infos,
      row.accountId = wallet.account.id := by
  induction infos generalizing index with
  | nil => exact fun row member => by cases member
  | cons info rest inductionHypothesis =>
    intro row member
    unfold collectInputs at member
    split at member
    · exact inductionHypothesis (index + 1) row member
    · rcases List.mem_cons.mp member with rfl | later
      · rfl
      · exact inductionHypothesis (index + 1) row later

theorem storedDb_of_nothing {found : List XmrInput} (db : Database)
    (nothing : wallet.identifier.outputs tx = [] ∧ found = []) :
    storedDb wallet status tuple tx outcomes scanned found db = db := if_pos nothing

/-- Storing something adds one row of `Transactions` to the account. -/
theorem storedDb_selectTransactions (found : List XmrInput) (db : Database)
    (something : ¬ (wallet.identifier.outputs tx = [] ∧ found = [])) :
    (storedDb wallet status tuple tx outcomes scanned found db).selectTransactions
        wallet.account.id =
      db.selectTransactions wallet.account.id ++
        [{ storedTransaction wallet status tuple tx outcomes scanned found with
          id := db.nextTransaction }] := by
  rw [storedDb_of_some wallet status tuple tx outcomes scanned found db something]
  show (db.transactions ++ [_]).filter _ = _
  rw [List.filter_append, List.filter_cons_of_pos (by simp [storedTransaction, transactionRow])]
  rfl

/-- Storing adds one row of `Inputs` to the account for each input found. -/
theorem storedDb_inputs_length (found : List XmrInput) (db : Database)
    (ours : ∀ row ∈ found, row.accountId = wallet.account.id) :
    ((storedDb wallet status tuple tx outcomes scanned found db).rowsOf
        wallet.account.id).inputs.length =
      (db.rowsOf wallet.account.id).inputs.length + found.length := by
  by_cases nothing : wallet.identifier.outputs tx = [] ∧ found = []
  · rw [storedDb_of_nothing wallet status tuple tx outcomes scanned db nothing, nothing.2]
    rfl
  · rw [storedDb_of_some wallet status tuple tx outcomes scanned found db nothing]
    have kept : (Database.numbered (fun (row : XmrInput) id => { row with id }) db.nextInput
        (linkedInputs found db.nextTransaction)).filter
          (fun row => decide (row.accountId = wallet.account.id)) =
        Database.numbered (fun (row : XmrInput) id => { row with id }) db.nextInput
          (linkedInputs found db.nextTransaction) := by
      refine List.filter_eq_self.mpr fun row member => ?_
      obtain ⟨linked, original, id, -, -, rfl⟩ := Database.mem_numbered _ member
      obtain ⟨row, inFound, rfl⟩ := List.mem_map.mp original
      exact decide_eq_true (ours row inFound)
    show ((db.inputs ++ Database.numbered (fun (row : XmrInput) id => { row with id })
      db.nextInput (linkedInputs found db.nextTransaction)).filter _).length = _
    rw [List.filter_append, List.length_append, kept, Database.numbered_length, linkedInputs,
      List.length_map]
    rfl

theorem foundInputs_accountId (answers : Nat → Bool) (db : Database) :
    ∀ row ∈ foundInputs wallet tuple tx outcomes scanned answers db,
      row.accountId = wallet.account.id :=
  collectInputs_accountId wallet answers _ _ 0 _

/-- A lookup that loses an input leaves less than the complete rows. -/
theorem rowsOf_ne_of_silent {db : Database}
    (silent : ¬ LookupsAnswer wallet tuple tx outcomes scanned db) :
    (storedDb wallet status tuple tx outcomes scanned
        (foundInputs wallet tuple tx outcomes scanned outcomes.outputExistsAnswers db) db).rowsOf
        wallet.account.id ≠
      (storedDb wallet status tuple tx outcomes scanned
        (recordedInputs wallet tuple tx outcomes scanned db) db).rowsOf wallet.account.id := by
  intro same
  have shorter := foundInputs_length_lt wallet tuple tx outcomes scanned silent
  have lengths := congrArg (fun rows => rows.inputs.length) same
  have found := storedDb_inputs_length wallet status tuple tx outcomes scanned _ db
    (foundInputs_accountId wallet tuple tx outcomes scanned outcomes.outputExistsAnswers db)
  have recorded := storedDb_inputs_length wallet status tuple tx outcomes scanned
    (recordedInputs wallet tuple tx outcomes scanned db) db
    (foundInputs_accountId wallet tuple tx outcomes scanned (fun _ => true) db)
  omega

theorem txExists_eq_none_of_accepts {db : Database} {row : XmrTransaction}
    (hash : row.hash = tx.hash) (account : row.accountId = wallet.account.id)
    (accepts : db.acceptsTransaction row = true) :
    db.txExists wallet.account.id tx.hash = none := by
  refine Tables.find?_eq_none_of_forall fun old member => decide_eq_false ?_
  rintro ⟨sameAccount, sameHash⟩
  refine ((Database.acceptsTransaction_iff db row).mp accepts).2 old member ?_
  rw [sameHash, sameAccount, hash, account]

/-- What is stored is a row the account did not have. -/
theorem txExists_eq_none_of_steps {db : Database}
    (succeeds : StepsSucceed wallet status tuple tx outcomes scanned db)
    (something : ¬ NothingFound wallet tuple tx outcomes scanned outcomes.outputExistsAnswers db) :
    db.txExists wallet.account.id tx.hash = none := by
  by_cases outputs : wallet.identifier.outputs tx = []
  · have found := fun none => something ⟨outputs, none⟩
    exact txExists_eq_none_of_accepts wallet tx rfl rfl
      ((succeeds.1.ofInputs found).accepts outputs)
  · exact txExists_eq_none_of_accepts wallet tx rfl rfl (succeeds.1.ofOutputs outputs).accepts

/-- With nothing removed, the pass is atomic unless a lookup loses an input. -/
theorem atomic_iff_of_new (opens : Opens wallet tx outcomes scanned)
    (new : existingTx wallet tx outcomes scanned.db = none) :
    Atomic wallet status tuple tx outcomes scanned ↔
      LosesNothing wallet status tuple tx outcomes scanned scanned.db := by
  have cleared : clearedDb wallet tx outcomes scanned.db = scanned.db := by
    unfold clearedDb
    rw [new]
  have loses : LosesNothing wallet status tuple tx outcomes scanned scanned.db ↔
      (StepsSucceed wallet status tuple tx outcomes scanned scanned.db →
        NothingFound wallet tuple tx outcomes scanned outcomes.outputExistsAnswers scanned.db ∨
          LookupsAnswer wallet tuple tx outcomes scanned scanned.db) := by
    unfold LosesNothing
    rw [new]
  rw [loses]
  by_cases succeeds : StepsSucceed wallet status tuple tx outcomes scanned scanned.db
  · have stored := (recordTx_stores wallet status tuple tx outcomes scanned opens
      (by rwa [cleared])).2
    rw [cleared] at stored
    unfold Atomic
    rw [stored]
    by_cases nothing : NothingFound wallet tuple tx outcomes scanned
        outcomes.outputExistsAnswers scanned.db
    · rw [storedDb_of_nothing wallet status tuple tx outcomes scanned _ nothing]
      exact ⟨fun _ _ => .inl nothing, fun _ => .inl rfl⟩
    · have absent := txExists_eq_none_of_steps wallet status tuple tx outcomes scanned succeeds
        nothing
      have complete : withoutTx wallet tx scanned.db = scanned.db := by
        unfold withoutTx
        rw [absent]
      constructor
      · intro atomic _
        refine .inr ?_
        by_contra silent
        rcases atomic with before | after
        · have same := congrArg (fun rows => rows.transactions.length) before
          simp only [Database.rowsOf] at same
          rw [storedDb_selectTransactions wallet status tuple tx outcomes scanned _ _ nothing,
            List.length_append, List.length_singleton] at same
          omega
        · unfold completeDb at after
          rw [complete] at after
          exact rowsOf_ne_of_silent wallet status tuple tx outcomes scanned silent after
      · intro answers
        have answer := (answers succeeds).resolve_left nothing
        refine .inr ?_
        unfold completeDb
        rw [complete, foundInputs_of_answers wallet tuple tx outcomes scanned answer]
  · have untouched := (recordTx_clears wallet status tuple tx outcomes scanned opens
      (by rwa [cleared])).2
    rw [cleared] at untouched
    unfold Atomic
    rw [untouched]
    exact ⟨fun _ all => absurd all succeeds, fun _ => .inl rfl⟩

/-- A removed row is not among the rows of the account any more. -/
theorem rowsOf_deleteTx_ne {old : XmrTransaction} (member : old ∈ scanned.db.transactions)
    (ours : old.accountId = wallet.account.id) :
    (scanned.db.deleteTx old.id).2.rowsOf wallet.account.id ≠
      scanned.db.rowsOf wallet.account.id := by
  intro same
  have before : old ∈ (scanned.db.rowsOf wallet.account.id).transactions :=
    List.mem_filter.mpr ⟨member, decide_eq_true ours⟩
  rw [← same] at before
  exact (Database.mem_deleteTx_transactions.mp (List.mem_filter.mp before).1).2 rfl

/-- Nor is it once the new rows are stored, which get an id of their own. -/
theorem rowsOf_storedDb_ne (valid : scanned.db.Valid) {old : XmrTransaction}
    (member : old ∈ scanned.db.transactions) (ours : old.accountId = wallet.account.id)
    (found : List XmrInput) :
    (storedDb wallet status tuple tx outcomes scanned found
        (scanned.db.deleteTx old.id).2).rowsOf wallet.account.id ≠
      scanned.db.rowsOf wallet.account.id := by
  by_cases nothing : wallet.identifier.outputs tx = [] ∧ found = []
  · rw [storedDb_of_nothing wallet status tuple tx outcomes scanned _ nothing]
    exact rowsOf_deleteTx_ne wallet scanned member ours
  · intro same
    have before : old ∈ (scanned.db.rowsOf wallet.account.id).transactions :=
      List.mem_filter.mpr ⟨member, decide_eq_true ours⟩
    rw [← same] at before
    simp only [Database.rowsOf] at before
    rw [storedDb_selectTransactions wallet status tuple tx outcomes scanned _ _ nothing] at before
    rcases List.mem_append.mp before with kept | added
    · exact (Database.mem_deleteTx_transactions.mp (List.mem_filter.mp kept).1).2 rfl
    · have id := congrArg XmrTransaction.id (List.mem_singleton.mp added)
      exact absurd id (Nat.ne_of_lt (valid.transactionFresh old member))

/-- With the rows of an earlier scan removed, the pass is atomic only if everything is stored,
or there is nothing to store. -/
theorem atomic_iff_of_removed (valid : scanned.db.Valid) (opens : Opens wallet tx outcomes scanned)
    {old : XmrTransaction} (removed : existingTx wallet tx outcomes scanned.db = some old) :
    Atomic wallet status tuple tx outcomes scanned ↔
      LosesNothing wallet status tuple tx outcomes scanned scanned.db := by
  obtain ⟨member, ours, -⟩ := existingTx_mem wallet tx outcomes removed
  have cleared : clearedDb wallet tx outcomes scanned.db = (scanned.db.deleteTx old.id).2 := by
    unfold clearedDb
    rw [removed]
  have complete : withoutTx wallet tx scanned.db = (scanned.db.deleteTx old.id).2 := by
    have found : scanned.db.txExists wallet.account.id tx.hash = some old := by
      unfold existingTx at removed
      split at removed
      · exact removed
      · cases removed
    unfold withoutTx
    rw [found]
  have loses : LosesNothing wallet status tuple tx outcomes scanned scanned.db ↔
      NothingFound wallet tuple tx outcomes scanned (fun _ => true)
          (scanned.db.deleteTx old.id).2 ∨
        (StepsSucceed wallet status tuple tx outcomes scanned (scanned.db.deleteTx old.id).2 ∧
          LookupsAnswer wallet tuple tx outcomes scanned (scanned.db.deleteTx old.id).2) := by
    unfold LosesNothing
    rw [removed]
  have gone := rowsOf_storedDb_ne wallet status tuple tx outcomes scanned valid member ours
  rw [loses]
  unfold Atomic completeDb
  rw [complete]
  by_cases succeeds : StepsSucceed wallet status tuple tx outcomes scanned
      (scanned.db.deleteTx old.id).2
  · have stored := (recordTx_stores wallet status tuple tx outcomes scanned opens
      (by rwa [cleared])).2
    rw [cleared] at stored
    rw [stored]
    by_cases answer : LookupsAnswer wallet tuple tx outcomes scanned
        (scanned.db.deleteTx old.id).2
    · rw [foundInputs_of_answers wallet tuple tx outcomes scanned answer]
      exact ⟨fun _ => .inr ⟨succeeds, answer⟩, fun _ => .inr rfl⟩
    · have less := rowsOf_ne_of_silent wallet status tuple tx outcomes scanned answer
      constructor
      · rintro (before | after)
        · exact absurd before (gone _)
        · exact absurd after less
      · rintro (nothing | ⟨-, answers⟩)
        · have shorter := foundInputs_length_lt wallet tuple tx outcomes scanned answer
          unfold recordedInputs at shorter
          rw [nothing.2] at shorter
          exact absurd shorter (Nat.not_lt_zero _)
        · exact absurd answers answer
  · have left := (recordTx_clears wallet status tuple tx outcomes scanned opens
      (by rwa [cleared])).2
    rw [left, cleared]
    constructor
    · rintro (before | after)
      · exact absurd before (rowsOf_deleteTx_ne wallet scanned member ours)
      · refine .inl ?_
        by_contra something
        have lengths := congrArg (fun rows => rows.transactions.length) after
        have added := congrArg List.length (storedDb_selectTransactions wallet status tuple tx
          outcomes scanned (recordedInputs wallet tuple tx outcomes scanned
            (scanned.db.deleteTx old.id).2) (scanned.db.deleteTx old.id).2 something)
        rw [List.length_append, List.length_singleton] at added
        simp only [Database.rowsOf] at lengths
        omega
    · rintro (nothing | ⟨all, -⟩)
      · exact .inr (congrArg (Database.rowsOf · wallet.account.id)
          (storedDb_of_nothing wallet status tuple tx outcomes scanned _ nothing).symm)
      · exact absurd all succeeds

/-- A pass is atomic exactly when it does not open its transaction, or loses nothing. -/
theorem atomic_iff (valid : scanned.db.Valid) :
    Atomic wallet status tuple tx outcomes scanned ↔
      (Opens wallet tx outcomes scanned →
        LosesNothing wallet status tuple tx outcomes scanned scanned.db) := by
  by_cases opens : Opens wallet tx outcomes scanned
  · rw [forall_prop_of_true opens]
    cases removed : existingTx wallet tx outcomes scanned.db with
    | none => exact atomic_iff_of_new wallet status tuple tx outcomes scanned opens removed
    | some old =>
      exact atomic_iff_of_removed wallet status tuple tx outcomes scanned valid opens removed
  · have untouched : (recordTx wallet status tuple tx outcomes scanned).2.db = scanned.db := by
      by_cases something : outcomes.identifies = true →
          wallet.identifier.outputs tx ≠ [] ∨ identifiedInputs wallet tx scanned ≠ []
      · exact (recordTx_fails wallet status tuple tx outcomes scanned opens something).2
      · obtain ⟨identifies, nothing⟩ := Classical.not_imp.mp something
        obtain ⟨outputs, inputs⟩ := not_or.mp nothing
        rw [recordTx_skips wallet status tuple tx outcomes scanned identifies
          (not_not.mp outputs) (not_not.mp inputs)]
    unfold Atomic
    rw [untouched]
    exact ⟨fun _ open_ => absurd open_ opens, fun _ => .inl rfl⟩

end Atomicity

/-! ### A rescan that loses the rows of a transaction -/

/-- The only account. -/
def soleAccount : XmrAccount :=
  { id := 1, address := "4ApA", viewkeyHash := "c0de", scannedBlockHeight := 10 }

/-- The transaction that is scanned twice. -/
def soleTx : Transaction := { hash := "a1", txPubKey := "e1" }

/-- A wallet that owns one output of every transaction. -/
def soleWallet : Wallet where
  account := soleAccount
  identifier :=
    { outputs := fun tx => [{ pubKey := "out of " ++ tx.hash, amount := 5 }]
      inputs := fun _ _ => [] }

/-- Its block. -/
def soleTuple : TxTuple := { blkHeight := 10, blkTimestamp := 1600000000, isCoinbase := false }

/-- The tables after a first scan of the transaction. -/
def scannedOnce : Scanned :=
  (recordTx soleWallet { currentHeight := 100 } soleTuple soleTx { chainIndices := [7] }
    { db := { accounts := [soleAccount], nextAccount := 2 }, known := [] }).2

theorem atomic_iff_rescan :
    Atomic soleWallet { currentHeight := 100 } soleTuple soleTx { chainIndices := [7] }
        scannedOnce ↔
      (Opens soleWallet soleTx { chainIndices := [7] } scannedOnce →
        LosesNothing soleWallet { currentHeight := 100 } soleTuple soleTx
          { chainIndices := [7] } scannedOnce scannedOnce.db) :=
  atomic_iff soleWallet _ soleTuple soleTx _ scannedOnce (by decide +kernel)

/-- When `tx_exist` fails on the rescan, the rows of the first scan are lost. -/
theorem rescan_not_atomic :
    scannedOnce.db.Valid ∧
      ¬ Atomic soleWallet { currentHeight := 100 } soleTuple soleTx
        { chainIndices := [7], txExistAnswers := false } scannedOnce := by
  decide +kernel

end LightWallet
