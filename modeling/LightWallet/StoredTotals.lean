/-
This file settles when what is stored as sent by a transaction is the sum of its inputs.

The column is written with the row of the transaction, before the inputs are known if outputs are
found as well, and never afterwards. An input goes when its transaction is deleted, and also when
the transaction is deleted that has made the output it refers to: by a rescan, or because the
blockchain has it no more.
-/

import LightWallet.Balances

namespace LightWallet.StoredTotals

/-! ### What is stored -/

/-- What is stored as sent by each transaction is the sum of its inputs. -/
def TotalsMatch (db : Database) : Prop :=
  ∀ row ∈ db.transactions,
    row.totalSent.toNat = Tables.total (·.amount.toNat) (db.inputsForTx row.id)

instance (db : Database) : Decidable (TotalsMatch db) :=
  inferInstanceAs (Decidable (∀ _ ∈ _, _))

/-- An account is inserted; its row gets other heights; a search thread records a transaction; or
a check marks a transaction, or deletes it. Each of them is committed on its own. -/
inductive Event where
  | create (row : XmrAccount)
  | save (answers : Bool) (accountId scannedHeight startHeight blkTimestamp : Nat)
  | pass (wallet : Wallet) (status : Status) (tuple : TxTuple) (tx : Transaction)
      (outcomes : Outcomes) (known : KnownOutputs) (blkTimestamp : Option Nat)
  | marks (txId now : Nat)
  | deletes (txId : Nat)

/-- What an event does to the tables. -/
def step (db : Database) : Event → Database
  | .create row => Balances.createRow db row
  | .save answers accountId scannedHeight startHeight blkTimestamp =>
    Balances.saveRow db answers accountId scannedHeight startHeight blkTimestamp
  | .pass wallet status tuple tx outcomes known blkTimestamp =>
    (recordTx wallet status tuple tx outcomes ⟨db, known, blkTimestamp⟩).2.db
  | .marks txId now => (db.markTxSpendable txId now).2
  | .deletes txId => (db.deleteTx txId).2

/-! ### The condition -/

/-- Nothing that other transactions have spent goes with the transaction. -/
def DeletesCleanly (db : Database) (txId : Nat) : Prop :=
  ∀ input ∈ db.inputs, input.txId ≠ txId →
    ∀ output ∈ db.outputs, output.id = input.outputId → output.txId = txId → input.amount = 0

instance (db : Database) (txId : Nat) : Decidable (DeletesCleanly db txId) :=
  inferInstanceAs (Decidable (∀ _ ∈ _, _ → ∀ _ ∈ _, _ → _ → _))

/-- A transaction that receives spends nothing that is found, and what is found has a sum of 64
bits. -/
def SentRight (wallet : Wallet) (tx : Transaction) (found : List XmrInput) : Prop :=
  if wallet.identifier.outputs tx = [] then Tables.total (·.amount.toNat) found < 2 ^ 64
  else Tables.total (·.amount.toNat) found = 0

instance (wallet : Wallet) (tx : Transaction) (found : List XmrInput) :
    Decidable (SentRight wallet tx found) := by
  unfold SentRight
  infer_instance

/-- A pass that opens its transaction deletes the row of an earlier scan cleanly, and one that
stores rows does not both receive and spend. Other deletions are clean. -/
def Keeps (db : Database) : Event → Prop
  | .pass wallet status tuple tx outcomes known blkTimestamp =>
    (Opens wallet tx outcomes ⟨db, known, blkTimestamp⟩ →
      ∀ old, existingTx wallet tx outcomes db = some old → DeletesCleanly db old.id) ∧
    (Stores wallet status tuple tx outcomes ⟨db, known, blkTimestamp⟩ →
      SentRight wallet tx (passInputs wallet tuple tx outcomes ⟨db, known, blkTimestamp⟩))
  | .deletes txId => DeletesCleanly db txId
  | _ => True

/-! ### Deleting -/

theorem totalsMatch_deleteTx_iff {db : Database} (valid : db.Valid) (right : TotalsMatch db)
    (txId : Nat) : TotalsMatch (db.deleteTx txId).2 ↔ DeletesCleanly db txId := by
  let kept (input : XmrInput) : Bool :=
    input.txId ≠ txId ∧
      ¬ (db.outputs.any fun output => output.id = input.outputId ∧ output.txId = txId)
  have left (row : XmrTransaction) : (db.deleteTx txId).2.inputsForTx row.id =
      (db.inputsForTx row.id).filter kept := by
    show (db.inputs.filter kept).filter _ = (db.inputs.filter _).filter kept
    rw [List.filter_filter, List.filter_filter]
    exact List.filter_congr fun input _ => Bool.and_comm _ _
  have each {row : XmrTransaction} (member : row ∈ db.transactions) :
      row.totalSent.toNat =
          Tables.total (·.amount.toNat) ((db.deleteTx txId).2.inputsForTx row.id) ↔
        ∀ input ∈ db.inputsForTx row.id, kept input = false → input.amount.toNat = 0 := by
    rw [right row member, left, eq_comm, Tables.total_filter_eq_iff]
  constructor
  · intro after input inInputs other output inOutputs refers ofTx
    obtain ⟨row, inRows, same⟩ :=
      (Database.hasTransaction_iff _ _).mp (valid.inputTransaction input inInputs)
    have stays : row ∈ (db.deleteTx txId).2.transactions :=
      Database.mem_deleteTx_transactions.mpr ⟨inRows, fun here => other (same.symm.trans here)⟩
    have goes : kept input = false := by
      refine decide_eq_false fun both => both.2 (List.any_eq_true.mpr ⟨output, inOutputs, ?_⟩)
      exact decide_eq_true ⟨refers, ofTx⟩
    have zero := (each inRows).mp (after row stays) input
      (List.mem_filter.mpr ⟨inInputs, decide_eq_true same.symm⟩) goes
    exact UInt64.toNat_inj.mp zero
  · intro clean row stays
    obtain ⟨inRows, other⟩ := Database.mem_deleteTx_transactions.mp stays
    refine (each inRows).mpr fun input member goes => ?_
    obtain ⟨inInputs, ofRow⟩ := List.mem_filter.mp member
    have differs : input.txId ≠ txId := fun here =>
      other ((of_decide_eq_true ofRow).symm.trans here)
    obtain ⟨output, inOutputs, both⟩ := List.any_eq_true.mp
      (not_not.mp fun none => of_decide_eq_false goes ⟨differs, none⟩)
    obtain ⟨refers, ofTx⟩ := of_decide_eq_true both
    rw [clean input inInputs differs output inOutputs refers ofTx]
    rfl

theorem totalsMatch_markTxSpendable {db : Database} (right : TotalsMatch db) (txId now : Nat) :
    TotalsMatch (db.markTxSpendable txId now).2 := by
  intro row member
  obtain ⟨old, inRows, rfl⟩ := List.mem_map.mp member
  have same := right old inRows
  split <;> exact same

/-! ### Recording -/

section Pass

variable {wallet : Wallet} {status : Status} {tuple : TxTuple} {tx : Transaction}
  {outcomes : Outcomes} {scanned : Scanned}

/-- A pass that opens its transaction, and stores nothing, leaves the tables cleared. -/
theorem recordTx_opens (opens : Opens wallet tx outcomes scanned)
    (nothing : ¬ Stores wallet status tuple tx outcomes scanned) :
    (recordTx wallet status tuple tx outcomes scanned).2.db =
      clearedDb wallet tx outcomes scanned.db := by
  by_cases succeeds : StepsSucceed wallet status tuple tx outcomes scanned
      (clearedDb wallet tx outcomes scanned.db)
  · rw [(recordTx_stores wallet status tuple tx outcomes scanned opens succeeds).2]
    exact if_pos (not_not.mp fun something => nothing ⟨opens, succeeds, something⟩)
  · exact (recordTx_clears wallet status tuple tx outcomes scanned opens succeeds).2

theorem totalsMatch_clearedDb_iff (valid : scanned.db.Valid) (right : TotalsMatch scanned.db) :
    TotalsMatch (clearedDb wallet tx outcomes scanned.db) ↔
      ∀ old, existingTx wallet tx outcomes scanned.db = some old →
        DeletesCleanly scanned.db old.id := by
  unfold clearedDb
  cases existingTx wallet tx outcomes scanned.db with
  | none => exact iff_of_true right fun old impossible => nomatch impossible
  | some old =>
    refine (totalsMatch_deleteTx_iff valid right old.id).trans ⟨?_, fun clean => clean old rfl⟩
    rintro clean other ⟨⟩
    exact clean

theorem calcTotalSent_toNat (found : List XmrInput) :
    (calcTotalSent found).toNat = Tables.total (·.amount.toNat) found % 2 ^ 64 := by
  unfold calcTotalSent
  rw [Tables.foldl_add_eq, zero_add]
  induction found with
  | nil => rfl
  | cons input rest inductionHypothesis =>
    rw [Tables.total_cons, Tables.total_cons, UInt64.toNat_add, inductionHypothesis]
    omega

/-- What is stored as sent by the new row is the sum of what was found exactly if the transaction
does not both receive and spend. -/
theorem storedTransaction_totalSent_iff (found : List XmrInput) :
    (storedTransaction wallet status tuple tx outcomes scanned found).totalSent.toNat =
        Tables.total (·.amount.toNat) found ↔
      SentRight wallet tx found := by
  unfold SentRight
  show (if wallet.identifier.outputs tx = [] then calcTotalSent found else 0).toNat = _ ↔ _
  by_cases none : wallet.identifier.outputs tx = []
  · rw [if_pos none, if_pos none, calcTotalSent_toNat]
    exact ⟨fun same => same ▸ Nat.mod_lt _ (by decide), Nat.mod_eq_of_lt⟩
  · rw [if_neg none, if_neg none]
    exact eq_comm

/-- The inputs of transactions that were there before stay as they are. -/
theorem filledDb_inputsForTx {txId : Nat}
    (other : txId ≠ (clearedDb wallet tx outcomes scanned.db).nextTransaction) :
    (filledDb wallet status tuple tx outcomes scanned).inputsForTx txId =
      (clearedDb wallet tx outcomes scanned.db).inputsForTx txId := by
  show List.filter _ (_ ++ Database.numbered _ _ _) = _
  rw [List.filter_append]
  refine (congrArg _ (List.filter_eq_nil_iff.mpr fun input new => ?_)).trans (List.append_nil _)
  obtain ⟨here, -⟩ := of_mem_newInputs new
  simpa [here] using other.symm

/-- The inputs of the transaction are the new ones. -/
theorem total_filledDb_inputsForTx (valid : scanned.db.Valid) :
    Tables.total (·.amount.toNat)
        ((filledDb wallet status tuple tx outcomes scanned).inputsForTx
          (clearedDb wallet tx outcomes scanned.db).nextTransaction) =
      Tables.total (·.amount.toNat) (passInputs wallet tuple tx outcomes scanned) := by
  have validCleared : (clearedDb wallet tx outcomes scanned.db).Valid := clearedDb_valid valid
  have new : (filledDb wallet status tuple tx outcomes scanned).inputsForTx
      (clearedDb wallet tx outcomes scanned.db).nextTransaction =
        Database.numbered (fun (row : XmrInput) id => { row with id })
          (clearedDb wallet tx outcomes scanned.db).nextInput
          (linkedInputs (passInputs wallet tuple tx outcomes scanned)
            (clearedDb wallet tx outcomes scanned.db).nextTransaction) := by
    show List.filter _ (_ ++ Database.numbered _ _ _) = _
    rw [List.filter_append, List.filter_eq_nil_iff.mpr fun input old => ?_, List.nil_append]
    · refine List.filter_eq_self.mpr fun input inNew => ?_
      exact decide_eq_true (of_mem_newInputs inNew).1
    · simpa using Nat.ne_of_lt (validCleared.input_txId_lt old)
  rw [new]
  unfold Tables.total
  rw [Database.numbered_map (fun (row : XmrInput) id => { row with id }) (·.amount.toNat)
    fun _ _ => rfl]
  unfold linkedInputs
  rw [List.map_map]
  rfl

theorem totalsMatch_filledDb_iff (valid : scanned.db.Valid) :
    TotalsMatch (filledDb wallet status tuple tx outcomes scanned) ↔
      TotalsMatch (clearedDb wallet tx outcomes scanned.db) ∧
        SentRight wallet tx (passInputs wallet tuple tx outcomes scanned) := by
  have validCleared : (clearedDb wallet tx outcomes scanned.db).Valid := clearedDb_valid valid
  have ofNew := @storedTransaction_totalSent_iff wallet status tuple tx outcomes scanned
    (passInputs wallet tuple tx outcomes scanned)
  rw [← @total_filledDb_inputsForTx wallet status tuple tx outcomes scanned valid] at ofNew
  rw [← ofNew]
  constructor
  · intro right
    refine ⟨fun row member => ?_, right _ (mem_filledDb_transactions.mpr (.inr rfl))⟩
    rw [← @filledDb_inputsForTx wallet status tuple tx outcomes scanned _
      (Nat.ne_of_lt (validCleared.transactionFresh row member))]
    exact right row (mem_filledDb_transactions.mpr (.inl member))
  · rintro ⟨right, sent⟩ row member
    rcases mem_filledDb_transactions.mp member with old | rfl
    · rw [filledDb_inputsForTx (Nat.ne_of_lt (validCleared.transactionFresh row old))]
      exact right row old
    · exact sent

end Pass

/-! ### Runs -/

theorem step_valid {db : Database} {event : Event} (valid : db.Valid) : (step db event).Valid := by
  cases event with
  | create row => exact Balances.createRow_valid valid row
  | save answers accountId scannedHeight startHeight blkTimestamp =>
    exact Balances.saveRow_valid valid answers accountId scannedHeight startHeight blkTimestamp
  | pass wallet status tuple tx outcomes known blkTimestamp =>
    exact @recordTx_valid wallet status tuple tx outcomes ⟨db, known, blkTimestamp⟩ valid
  | marks txId now => exact valid.markTxSpendable txId now
  | deletes txId => exact valid.deleteTx txId

/-- A step from totals that match leads to totals that match exactly if it meets the condition. -/
theorem totalsMatch_step_iff {db : Database} {event : Event} (valid : db.Valid)
    (right : TotalsMatch db) : TotalsMatch (step db event) ↔ Keeps db event := by
  cases event with
  | create row =>
    refine iff_of_true ?_ trivial
    obtain ⟨accounts, nextAccount, after⟩ := Balances.createRow_eq db row
    show TotalsMatch (Balances.createRow db row)
    rw [after]
    exact right
  | save answers accountId scannedHeight startHeight blkTimestamp =>
    refine iff_of_true ?_ trivial
    obtain ⟨accounts, after⟩ :=
      Balances.saveRow_eq db answers accountId scannedHeight startHeight blkTimestamp
    show TotalsMatch (Balances.saveRow db answers accountId scannedHeight startHeight blkTimestamp)
    rw [after]
    exact right
  | pass wallet status tuple tx outcomes known blkTimestamp =>
    have cleared := @totalsMatch_clearedDb_iff wallet tx outcomes ⟨db, known, blkTimestamp⟩ valid
      right
    show TotalsMatch (recordTx wallet status tuple tx outcomes ⟨db, known, blkTimestamp⟩).2.db ↔ _
    unfold Keeps
    by_cases opens : Opens wallet tx outcomes ⟨db, known, blkTimestamp⟩
    · by_cases stores : Stores wallet status tuple tx outcomes ⟨db, known, blkTimestamp⟩
      · rcases recordTx_cases wallet status tuple tx outcomes ⟨db, known, blkTimestamp⟩ with
          ⟨nothing, -⟩ | ⟨-, -, filled⟩
        · exact absurd stores nothing
        · rw [filled, totalsMatch_filledDb_iff valid, cleared]
          exact and_congr ⟨fun clean _ => clean, fun clean => clean opens⟩
            ⟨fun sent _ => sent, fun sent => sent stores⟩
      · rw [recordTx_opens opens stores, cleared]
        exact ⟨fun clean => ⟨fun _ => clean, fun stored => absurd stored stores⟩,
          fun both => both.1 opens⟩
    · rw [(recordTx_closed wallet status tuple tx outcomes ⟨db, known, blkTimestamp⟩ opens).2]
      exact iff_of_true right ⟨fun opened => absurd opened opens,
        fun stores => absurd stores.opens opens⟩
  | marks txId now => exact iff_of_true (totalsMatch_markTxSpendable right txId now) trivial
  | deletes txId => exact totalsMatch_deleteTx_iff valid right txId

/-- A check is a run of marks and deletions, one committed after the other. -/
theorem step_refines (db : Database) (event : Balances.Event) :
    ∃ events : List Event, Balances.step db event = Runs.run step db events := by
  cases event with
  | create row => exact ⟨[.create row], rfl⟩
  | save answers accountId scannedHeight startHeight blkTimestamp =>
    exact ⟨[.save answers accountId scannedHeight startHeight blkTimestamp], rfl⟩
  | pass wallet status tuple tx outcomes known blkTimestamp =>
    exact ⟨[.pass wallet status tuple tx outcomes known blkTimestamp], rfl⟩
  | check backend accountId throwing =>
    refine Balances.step_check_invariant (fun after => ∃ events, after = Runs.run step db events)
      (fun after txId reached => ?_) (fun after txId now reached => ?_) backend accountId throwing
      ⟨[], rfl⟩
    · obtain ⟨events, rfl⟩ := reached
      refine ⟨events ++ [.deletes txId], ?_⟩
      rw [Runs.run_append]
      rfl
    · obtain ⟨events, rfl⟩ := reached
      refine ⟨events ++ [.marks txId now], ?_⟩
      rw [Runs.run_append]
      rfl

/-- In all states of a run the totals match exactly if every step meets the condition. The runs
are those of the service, with each check taken apart into what it commits. -/
theorem totalsMatch_iff (events : List Event) :
    ((∀ first rest, first ++ rest = events → TotalsMatch (Runs.run step {} first)) ↔
      Runs.Along step Keeps {} events) ∧
    ∀ (db : Database) (event : Balances.Event),
      ∃ events : List Event, Balances.step db event = Runs.run step db events :=
  ⟨Runs.reached_iff_along step Keeps Database.Valid TotalsMatch
    (fun _ _ valid => step_valid valid) (fun _ _ valid right => totalsMatch_step_iff valid right)
    events {} (by decide) fun _ member => absurd member List.not_mem_nil, step_refines⟩

/-! ### A payment with change -/

/-- `a1` pays 5 to the account; `b2` spends it, and pays the given change back. -/
def paysChange (change : List OutputInfo) : Identifier where
  outputs tx := if tx.hash = "a1" then [{ pubKey := "k1", amount := 5 }] else change
  inputs known tx :=
    if tx.hash = "b2" then
      (known.filter (·.1 = "k1")).map fun entry =>
        { keyImg := "i1", outPubKey := entry.1, amount := entry.2 }
    else []

/-- The row of the account. -/
def accountRow (id : Nat) : XmrAccount := { id, address := "4ApA", viewkeyHash := "c0de" }

/-- A scan of a transaction, with the cache at that point. -/
def scans (change : List OutputInfo) (hash : String) (known : KnownOutputs) : Event :=
  .pass { account := accountRow 1, identifier := paysChange change } { currentHeight := 100 }
    { blkHeight := 10, blkTimestamp := 1600000000, isCoinbase := false } { hash }
    { chainIndices := [7] } known none

/-- Both transactions are scanned. -/
def payment (change : List OutputInfo) : List Event :=
  [.create (accountRow 0), scans change "a1" [], scans change "b2" [("k1", 5)]]

/-- Without change, what is spent is stored with the row. -/
theorem totalsMatch_payment : TotalsMatch (Runs.run step {} (payment [])) :=
  (totalsMatch_iff (payment [])).1.mpr
    ⟨trivial, ⟨fun _ => by decide +kernel, fun _ => by decide +kernel⟩,
      ⟨fun _ => by decide +kernel, fun _ => by decide +kernel⟩, trivial⟩
    (payment []) [] (List.append_nil _)

/-- With change, nothing is stored as sent, while the input says 5. And after a rescan of `a1` the
input is gone with the output, while 5 is stored as sent still. -/
theorem not_totalsMatch :
    ¬ TotalsMatch (Runs.run step {} (payment [{ pubKey := "k2", amount := 2 }])) ∧
      ¬ TotalsMatch (Runs.run step {} (payment [] ++ [scans [] "a1" []])) := by
  decide +kernel

end LightWallet.StoredTotals
