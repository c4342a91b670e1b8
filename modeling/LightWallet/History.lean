/-
This file settles what becomes of the rows of a recorded transaction.

No statement of the service changes a row of `Outputs` or `Inputs`, and none but the
two marks changes a row of `Transactions`. A mark sets the time of the row to the
clock, though, so the row keeps the time that the scan has written exactly as long as
it is marked at no other second. And a row of `Inputs` refers to the output that is
spent, with which it goes: the rows of a transaction stay with it exactly as long as
none of the outputs that they refer to is deleted before it.
-/

import LightWallet.Depth
import LightWallet.Noninterference
import LightWallet.Payments
import LightWallet.Totals

namespace LightWallet.History

open Noninterference (Endpoint handle)

/-! ### Rows that only marks change -/

/-- What came before is not changed, but for the mark of a transaction and its time. Rows may go,
and those that are gone do not come back. -/
structure Frame (before after : Database) : Prop where
  nextTransaction : before.nextTransaction ≤ after.nextTransaction
  nextOutput : before.nextOutput ≤ after.nextOutput
  transactions : ∀ row ∈ after.transactions, row.id < before.nextTransaction →
    ∃ old ∈ before.transactions,
      row = { old with spendable := row.spendable, timestamp := row.timestamp }
  outputs : ∀ txId < before.nextTransaction, after.hasTransaction txId →
    after.outputsForTx txId = before.outputsForTx txId
  outputRows : ∀ out ∈ after.outputs, out.id < before.nextOutput → out ∈ before.outputs
  inputs : ∀ input : XmrInput, input.txId < before.nextTransaction →
    after.hasTransaction input.txId →
    (input ∈ after.inputs ↔ input ∈ before.inputs ∧ after.hasOutput input.outputId)

namespace Frame

variable {before middle after : Database}

theorem hasTransaction (frame : Frame before after) {txId : Nat}
    (numbered : txId < before.nextTransaction) (present : after.hasTransaction txId) :
    before.hasTransaction txId := by
  obtain ⟨row, member, rfl⟩ := (Database.hasTransaction_iff _ _).mp present
  obtain ⟨old, inRows, same⟩ := frame.transactions row member numbered
  exact (Database.hasTransaction_iff _ _).mpr ⟨old, inRows, (congrArg XmrTransaction.id same).symm⟩

theorem hasOutput (frame : Frame before after) {id : Nat} (numbered : id < before.nextOutput)
    (present : after.hasOutput id) : before.hasOutput id := by
  obtain ⟨out, member, rfl⟩ := (Database.hasOutput_iff _ _).mp present
  exact (Database.hasOutput_iff _ _).mpr ⟨out, frame.outputRows out member numbered, rfl⟩

/-- An output is there as long as its transaction. -/
theorem hasOutput_iff (frame : Frame before after) (valid : before.Valid)
    (afterValid : after.Valid) {out : XmrOutput} (member : out ∈ before.outputs) :
    after.hasOutput out.id ↔ after.hasTransaction out.txId := by
  constructor
  · intro present
    obtain ⟨other, inAfter, same⟩ := (Database.hasOutput_iff _ _).mp present
    have inBefore := frame.outputRows other inAfter (same ▸ valid.outputFresh out member)
    rw [← valid.outputIds.eq_of_key inBefore member same]
    exact afterValid.outputTransaction other inAfter
  · intro present
    obtain ⟨row, inRows, same⟩ :=
      (Database.hasTransaction_iff _ _).mp (valid.outputTransaction out member)
    have kept := frame.outputs out.txId (same ▸ valid.transactionFresh row inRows) present
    have ofTx : out ∈ before.outputsForTx out.txId :=
      List.mem_filter.mpr ⟨member, decide_eq_true rfl⟩
    rw [← kept] at ofTx
    exact (Database.hasOutput_iff _ _).mpr ⟨out, (List.mem_filter.mp ofTx).1, rfl⟩

theorem trans (valid : before.Valid) (first : Frame before middle) (second : Frame middle after) :
    Frame before after where
  nextTransaction := first.nextTransaction.trans second.nextTransaction
  nextOutput := first.nextOutput.trans second.nextOutput
  transactions row member numbered := by
    obtain ⟨between, inMiddle, changed⟩ :=
      second.transactions row member (numbered.trans_le first.nextTransaction)
    have sameId : between.id = row.id := (congrArg XmrTransaction.id changed).symm
    obtain ⟨old, inRows, same⟩ := first.transactions between inMiddle (sameId ▸ numbered)
    refine ⟨old, inRows, ?_⟩
    rw [changed, same]
  outputs txId numbered present := by
    have later := numbered.trans_le first.nextTransaction
    rw [second.outputs txId later present]
    exact first.outputs txId numbered (second.hasTransaction later present)
  outputRows out member numbered :=
    first.outputRows out (second.outputRows out member (numbered.trans_le first.nextOutput))
      numbered
  inputs input numbered present := by
    have later := numbered.trans_le first.nextTransaction
    rw [second.inputs input later present,
      first.inputs input numbered (second.hasTransaction later present)]
    constructor
    · rintro ⟨⟨inInputs, -⟩, output⟩
      exact ⟨inInputs, output⟩
    · rintro ⟨inInputs, output⟩
      have fresh := (valid.input_outputId_lt inInputs).trans_le first.nextOutput
      exact ⟨⟨inInputs, second.hasOutput fresh output⟩, output⟩

/-- Changes of accounts and payments alone. -/
theorem of_same (valid : before.Valid)
    (nextTransaction : after.nextTransaction = before.nextTransaction)
    (nextOutput : after.nextOutput = before.nextOutput)
    (transactions : after.transactions = before.transactions)
    (outputs : after.outputs = before.outputs) (inputs : after.inputs = before.inputs) :
    Frame before after where
  nextTransaction := nextTransaction.ge
  nextOutput := nextOutput.ge
  transactions row member _ := ⟨row, transactions ▸ member, rfl⟩
  outputs txId _ _ := by
    unfold Database.outputsForTx
    rw [outputs]
  outputRows out member _ := outputs ▸ member
  inputs input _ _ := by
    unfold Database.hasOutput
    rw [inputs, outputs]
    exact ⟨fun member => ⟨member, valid.inputOutput input member⟩, And.left⟩

theorem refl (valid : before.Valid) : Frame before before := of_same valid rfl rfl rfl rfl rfl

theorem markSpendable (valid : before.Valid) (txId now : Nat) (spendable : Bool) :
    Frame before (before.markSpendable txId now spendable).2 where
  nextTransaction := le_rfl
  nextOutput := le_rfl
  transactions row member _ := by
    obtain ⟨old, inRows, rfl⟩ := List.mem_map.mp member
    refine ⟨old, inRows, ?_⟩
    split <;> rfl
  outputs _ _ _ := rfl
  outputRows _ member _ := member
  inputs input _ _ := ⟨fun member => ⟨member, valid.inputOutput input member⟩, And.left⟩

theorem deleteTx (valid : before.Valid) (txId : Nat) : Frame before (before.deleteTx txId).2 where
  nextTransaction := le_rfl
  nextOutput := le_rfl
  transactions row member _ := ⟨row, (Database.mem_deleteTx_transactions.mp member).1, rfl⟩
  outputs other _ present := by
    obtain ⟨row, member, rfl⟩ := (Database.hasTransaction_iff _ _).mp present
    have kept := (Database.mem_deleteTx_transactions.mp member).2
    show (before.outputs.filter (·.txId ≠ txId)).filter (·.txId = row.id) = _
    rw [List.filter_filter]
    refine List.filter_congr fun output _ => ?_
    by_cases here : output.txId = row.id
    · simp [here, kept]
    · simp [here]
  outputRows out member _ := (Database.mem_deleteTx_outputs.mp member).1
  inputs input _ present := by
    obtain ⟨row, member, same⟩ := (Database.hasTransaction_iff _ _).mp present
    have kept := (Database.mem_deleteTx_transactions.mp member).2
    rw [Database.mem_deleteTx_inputs]
    constructor
    · rintro ⟨inInputs, -, stays⟩
      obtain ⟨output, inOutputs, id⟩ :=
        (Database.hasOutput_iff _ _).mp (valid.inputOutput input inInputs)
      exact ⟨inInputs, (Database.hasOutput_iff _ _).mpr ⟨output,
        Database.mem_deleteTx_outputs.mpr ⟨inOutputs, stays output inOutputs id⟩, id⟩⟩
    · rintro ⟨inInputs, hasOutput⟩
      obtain ⟨output, inOutputs, id⟩ := (Database.hasOutput_iff _ _).mp hasOutput
      obtain ⟨inRows, other⟩ := Database.mem_deleteTx_outputs.mp inOutputs
      refine ⟨inInputs, same ▸ kept, fun goes inGoes goesId => ?_⟩
      rwa [valid.outputIds.eq_of_key inGoes inRows (goesId.trans id.symm)]

/-- The new rows of a pass have new ids. -/
theorem filledDb {wallet : Wallet} {status : Status} {tuple : TxTuple} {tx : Transaction}
    {outcomes : Outcomes} {scanned : Scanned} (valid : scanned.db.Valid) :
    Frame (clearedDb wallet tx outcomes scanned.db)
      (filledDb wallet status tuple tx outcomes scanned) where
  nextTransaction := Nat.le_succ _
  nextOutput := Nat.le_add_right _ _
  transactions row member numbered := by
    rcases mem_filledDb_transactions.mp member with old | rfl
    · exact ⟨row, old, rfl⟩
    · exact absurd numbered (Nat.lt_irrefl _)
  outputs txId numbered _ := filledDb_outputsForTx (Nat.ne_of_lt numbered)
  outputRows out member numbered := by
    rcases mem_filledDb_outputs.mp member with old | new
    · exact old
    · obtain ⟨-, -, least, -⟩ := of_mem_newOutputs new
      exact absurd numbered (Nat.not_lt.mpr least)
  inputs input numbered _ := by
    have validCleared : (clearedDb wallet tx outcomes scanned.db).Valid := clearedDb_valid valid
    rw [mem_filledDb_inputs]
    constructor
    · rintro (old | new)
      · obtain ⟨output, inOutputs, id⟩ :=
          (Database.hasOutput_iff _ _).mp (validCleared.inputOutput input old)
        exact ⟨old, (Database.hasOutput_iff _ _).mpr
          ⟨output, mem_filledDb_outputs.mpr (.inl inOutputs), id⟩⟩
      · rw [(of_mem_newInputs new).1] at numbered
        exact absurd numbered (Nat.lt_irrefl _)
    · exact fun kept => .inl kept.1

theorem clearedDb {wallet : Wallet} {tx : Transaction} {outcomes : Outcomes}
    (valid : before.Valid) : Frame before (clearedDb wallet tx outcomes before) := by
  unfold LightWallet.clearedDb
  cases existingTx wallet tx outcomes before with
  | none => exact .refl valid
  | some old => exact .deleteTx valid old.id

end Frame

/-! ### How far a check gets -/

section Check

variable (backend : Backend)

/-- The transactions that a check handles before one of its statements throws. -/
def reached : List XmrTransaction → List Bool → List XmrTransaction
  | [], _ => []
  | tx :: rest, throwing =>
    if Changes backend tx then
      if throwing.headD false then [] else tx :: reached rest throwing.tail
    else tx :: reached rest throwing

theorem reached_sublist (txs : List XmrTransaction) (throwing : List Bool) :
    List.Sublist (reached backend txs throwing) txs := by
  induction txs generalizing throwing with
  | nil => exact .slnil
  | cons tx rest inductionHypothesis =>
    unfold reached
    split
    · split
      · exact List.nil_sublist _
      · exact (inductionHypothesis _).cons_cons tx
    · exact (inductionHypothesis _).cons_cons tx

/-- A check leaves the tables as the check of the transactions that it reaches does. -/
theorem check_db (txs : List XmrTransaction) {world : World} (valid : world.db.Valid)
    (rows : ∀ tx ∈ txs, tx ∈ world.db.transactions)
    (distinct : Tables.Unique XmrTransaction.id txs) :
    (selectTxsForAccountSpendabilityCheck backend txs world).2.db =
      checkDb backend (reached backend txs world.throwing) world.db := by
  induction txs generalizing world with
  | nil => rfl
  | cons tx rest inductionHypothesis =>
    obtain ⟨fresh, distinctRest⟩ := List.nodup_cons.mp distinct
    have member := rows tx List.mem_cons_self
    have later (after : World) (db : after.db = checkTx backend world.db tx) :
        (selectTxsForAccountSpendabilityCheck backend rest after).2.db =
          checkDb backend (tx :: reached backend rest after.throwing) world.db := by
      rw [inductionHypothesis (db ▸ checkTx_valid backend valid tx) (fun other inRest => ?_)
        distinctRest, db]
      · rfl
      · rw [db]
        exact mem_checkTx backend (rows other (List.mem_cons_of_mem _ inRest)) fun same =>
          fresh (List.mem_map.mpr ⟨other, inRest, same⟩)
    unfold selectTxsForAccountSpendabilityCheck
    by_cases changes : Changes backend tx
    · have unmarked : ¬ tx.spendable = true := ne_true_of_eq_false changes.1
      have reaches : reached backend (tx :: rest) world.throwing =
          if world.throws then [] else tx :: reached backend rest world.next.throwing := by
        rw [reached, if_pos changes]
        rfl
      rw [reaches]
      by_cases unlocked : isTxUnlocked backend.status tx.unlockTime tx.height = true
      · have marked : checkTx backend world.db tx =
            (world.db.markTxSpendable tx.id backend.status.now).2 := by
          unfold checkTx
          rw [if_neg unmarked, if_pos unlocked]
        simp only [if_neg unmarked, if_pos unlocked, Handler.bind_apply]
        by_cases throws : world.throws = true
        · unfold markTxSpendable
          rw [statement_throws _ _ throws, if_pos throws]
          rfl
        · unfold markTxSpendable
          rw [statement_runs _ _ throws, if_neg throws,
            markTxSpendable_count valid member changes.1]
          exact later _ marked.symm
      · have orphaned : Orphaned backend tx := changes.2.resolve_left unlocked
        have condition : (backend.txExist tx.hash).getD 0 ≠ tx.blockchainTxId := orphaned
        have deleted : checkTx backend world.db tx = (world.db.deleteTx tx.id).2 := by
          unfold checkTx
          rw [if_neg unmarked, if_neg unlocked, if_pos orphaned]
        simp only [if_neg unmarked, if_neg unlocked, if_pos condition, Handler.bind_apply]
        by_cases throws : world.throws = true
        · unfold deleteTx
          rw [statement_throws _ _ throws, if_pos throws]
          rfl
        · unfold deleteTx
          rw [statement_runs _ _ throws, if_neg throws, deleteTx_count valid member]
          exact later _ deleted.symm
    · rw [reached, if_neg changes]
      have continues := later world (checkTx_of_not_changes changes world.db).symm
      by_cases marked : tx.spendable = true
      · simp only [if_pos marked]
        exact continues
      · obtain ⟨locked, known⟩ :=
          not_or.mp fun works => changes ⟨eq_false_of_ne_true marked, works⟩
        have condition : ¬ (backend.txExist tx.hash).getD 0 ≠ tx.blockchainTxId := known
        simp only [if_neg marked, if_neg locked, if_neg condition]
        exact continues

/-- The check of an account, which first selects its transactions. -/
theorem select_check_db {world : World} (valid : world.db.Valid) (accountId : Nat) :
    ((selectTransactions accountId >>= selectTxsForAccountSpendabilityCheck backend)
        world).2.db =
      if world.throws then world.db
      else checkDb backend (reached backend (world.db.selectTransactions accountId)
        world.next.throwing) world.db := by
  rw [Handler.bind_apply]
  unfold selectTransactions query
  by_cases throws : world.throws = true
  · rw [statement_throws _ _ throws, if_pos throws]
    rfl
  · rw [statement_runs _ _ throws, if_neg throws]
    exact check_db backend _ valid (fun _ member => (List.mem_filter.mp member).1)
      (valid.transactionIds.filter _)

/-- The transactions that the check of an account handles: none when the statement that selects
them throws. -/
def handled (accountId : Nat) (throwing : List Bool) (db : Database) : List XmrTransaction :=
  if throwing.headD false then []
  else reached backend (db.selectTransactions accountId) throwing.tail

theorem mem_handled_iff {accountId : Nat} {throwing : List Bool} {db : Database}
    {row : XmrTransaction} :
    row ∈ handled backend accountId throwing db ↔
      throwing.headD false = false ∧
        row ∈ reached backend (db.selectTransactions accountId) throwing.tail := by
  unfold handled
  split
  · next throws =>
    exact iff_of_false List.not_mem_nil fun both =>
      absurd (throws.symm.trans both.1) (by decide)
  · next runs => exact (and_iff_right (eq_false_of_ne_true runs)).symm

theorem handled_sublist (accountId : Nat) (throwing : List Bool) (db : Database) :
    List.Sublist (handled backend accountId throwing db) (db.selectTransactions accountId) := by
  unfold handled
  split
  · exact List.nil_sublist _
  · exact reached_sublist backend _ _

theorem mem_of_handled {accountId : Nat} {throwing : List Bool} {db : Database}
    {row : XmrTransaction} (inHandled : row ∈ handled backend accountId throwing db) :
    row ∈ db.transactions :=
  (List.mem_filter.mp ((handled_sublist backend accountId throwing db).subset inHandled)).1

/-- The rows after the check of an account: what the check makes of those that it handles, and the
others. -/
theorem mem_check_iff {db : Database} (valid : db.Valid) (accountId : Nat) (throwing : List Bool)
    (row : XmrTransaction) :
    row ∈ (Balances.step db (.check backend accountId throwing)).transactions ↔
      ∃ old ∈ db.transactions,
        (old ∈ handled backend accountId throwing db ∧ rowAfterCheck backend old = some row) ∨
          (old ∉ handled backend accountId throwing db ∧ old = row) := by
  have checked : Balances.step db (.check backend accountId throwing) =
      checkDb backend (handled backend accountId throwing db) db := by
    refine (@select_check_db backend { db, throwing } valid accountId).trans ?_
    unfold handled
    by_cases throws : throwing.headD false = true
    · rw [if_pos throws]
      exact if_pos throws
    · rw [if_neg throws]
      exact if_neg throws
  have distinct : Tables.Unique XmrTransaction.id (handled backend accountId throwing db) :=
    (valid.transactionIds.filter _).sublist ((handled_sublist backend accountId throwing db).map _)
  rw [checked, checkDb_transactions backend _ valid (fun _ => mem_of_handled backend) distinct,
    List.mem_filterMap]
  refine exists_congr fun old => and_congr_right fun inRows => ?_
  have named : old.id ∈ (handled backend accountId throwing db).map XmrTransaction.id ↔
      old ∈ handled backend accountId throwing db := by
    refine ⟨fun inIds => ?_, List.mem_map_of_mem⟩
    obtain ⟨other, member, same⟩ := List.mem_map.mp inIds
    exact valid.transactionIds.eq_of_key (mem_of_handled backend member) inRows same ▸ member
  by_cases here : old ∈ handled backend accountId throwing db
  · simp [named, here]
  · simp [named, here]

end Check

/-! ### Requests that only read -/

/-- The computation leaves the tables alone. -/
def Reads {Result : Type} (handler : Handler Result) : Prop :=
  ∀ world, (handler world).2.db = world.db

namespace Reads

variable {Result Next : Type}

theorem of_keepsDb {handler : Handler Result} (keeps : KeepsDb handler) : Reads handler :=
  fun world => (keeps world).1

theorem pure (result : Result) : Reads (Pure.pure result) := fun _ => rfl

theorem bind {first : Handler Result} {rest : Result → Handler Next} (readsFirst : Reads first)
    (readsRest : ∀ result, Reads (rest result)) : Reads (first >>= rest) := fun world =>
  (readsRest _ _).trans (readsFirst world)

theorem query (onThrow : Result) (read : Database → Result) : Reads (query onThrow read) :=
  of_keepsDb (.query _ _)

theorem withThread (address : String) (absent : Result)
    (run : SearchThread → Result × SearchThread) : Reads (withThread address absent run) :=
  of_keepsDb (.withThread _ _ _)

theorem ite {condition : Prop} [Decidable condition] {first second : Handler Result}
    (readsFirst : Reads first) (readsSecond : Reads second) :
    Reads (if condition then first else second) := by
  split
  · exact readsFirst
  · exact readsSecond

end Reads

theorem spentByInputs_reads (inputs : List XmrInput) : Reads (spentByInputs inputs) := by
  induction inputs with
  | nil => exact .pure _
  | cons input rest inductionHypothesis =>
    refine .bind (.query _ _) fun found => ?_
    cases found with
    | none => exact inductionHypothesis
    | some out => exact .bind inductionHypothesis fun _ => .pure _

theorem readAddressTxs_reads (txs : List XmrTransaction) : Reads (readAddressTxs txs) := by
  induction txs with
  | nil => exact .pure _
  | cons tx rest inductionHypothesis =>
    refine .bind (.bind (.query _ _) fun inputs => ?_) fun entry =>
      .bind inductionHypothesis fun _ => .pure _
    cases inputs with
    | nil => exact .pure _
    | cons input more => exact .bind (spentByInputs_reads _) fun _ => .pure _

theorem knownSpent_reads (infos : List InputInfo) : Reads (knownSpent infos) := by
  induction infos with
  | nil => exact .pure _
  | cons info rest inductionHypothesis =>
    refine .bind (.query _ _) fun found => ?_
    cases found with
    | none => exact inductionHypothesis
    | some out => exact .bind inductionHypothesis fun _ => .pure _

theorem readOutputs_reads (outs : List XmrOutput) : Reads (readOutputs outs) := by
  induction outs with
  | nil => exact .pure _
  | cons out rest inductionHypothesis =>
    exact .bind (.query _ _) fun _ => .bind inductionHypothesis fun _ => .pure _

theorem readAddressOutputs_reads (txs : List XmrTransaction) :
    Reads (readAddressOutputs txs) := by
  induction txs with
  | nil => exact .pure _
  | cons tx rest inductionHypothesis =>
    exact .bind (.query _ _) fun _ => .bind (readOutputs_reads _) fun _ =>
      .bind inductionHypothesis fun _ => .pure _

section Requests

variable (backend : Backend)

theorem findTxInMempool_reads (thread : SearchThread) (receiveTime : Nat) (tx : Transaction) :
    Reads (findTxInMempool backend thread receiveTime tx) := by
  refine .bind (knownSpent_reads _) fun found => ?_
  split <;> exact .pure _

theorem findTxs_reads (thread : SearchThread) (txs : List (Nat × Transaction)) :
    Reads (findTxs backend thread txs) := by
  induction txs with
  | nil => exact .pure _
  | cons entry rest inductionHypothesis =>
    exact .bind (findTxInMempool_reads backend _ _ _) fun _ =>
      .bind inductionHypothesis fun _ => .pure _

theorem findTxsInMempool_reads (address : String) :
    Reads (findTxsInMempool backend address) := by
  refine .bind (.withThread _ _ _) fun thread => ?_
  cases thread with
  | none => exact .pure _
  | some thread => exact .bind (findTxs_reads backend _ _) fun _ => .pure _

theorem readUnspentOutputs_reads (dustThreshold : Nat) (tx : XmrTransaction)
    (outs : List XmrOutput) : Reads (readUnspentOutputs dustThreshold tx outs) := by
  induction outs with
  | nil => exact .pure _
  | cons out rest inductionHypothesis =>
    exact .ite inductionHypothesis
      (.bind (.query _ _) fun _ => .bind inductionHypothesis fun _ => .pure _)

theorem readUnspent_reads (dustThreshold : Nat) (txs : List XmrTransaction) :
    Reads (readUnspent backend dustThreshold txs) := by
  induction txs with
  | nil => exact .pure _
  | cons tx rest inductionHypothesis =>
    exact .ite (.bind (.query _ _) fun _ => .bind (readUnspentOutputs_reads _ _ _) fun _ =>
      .bind inductionHypothesis fun _ => .pure _) inductionHypothesis

theorem getUnspentOuts_reads (body : Option Json) : Reads (getUnspentOuts backend body) := by
  unfold getUnspentOuts
  split
  · exact .pure _
  · split
    · exact .pure _
    · refine .bind (.withThread _ _ _) fun live => .ite (.bind
        (.of_keepsDb (loginAndStartSearchThread_keepsDb backend _ _ _ _)) fun login => ?_)
        (.pure _)
      split
      · exact .pure _
      · exact .bind (.query _ _) fun _ => .bind (readUnspent_reads backend _ _) fun _ => .pure _

theorem storedSpendings_reads (accountId : Nat) (txHashStr : String) (response : Json) :
    Reads (storedSpendings accountId txHashStr response) := by
  refine .bind (.query _ _) fun stored => ?_
  split
  · exact .pure _
  · refine .bind (.query _ _) fun inputs => ?_
    split
    · exact .pure _
    · exact .bind (spentByInputs_reads _) fun _ => .pure _

theorem mempoolSpendings_reads (address viewKey : String) (tx : Transaction) (response : Json) :
    Reads (mempoolSpendings backend address viewKey tx response) := by
  refine .bind (.withThread _ _ _) fun known => ?_
  split
  · exact .pure _
  · exact .bind (knownSpent_reads _) fun _ => .pure _

theorem spendings_reads (address viewKey txHashStr : String) (tx : Transaction)
    (inMempool : Bool) (response : Json) :
    Reads (spendings backend address viewKey txHashStr tx inMempool response) := by
  refine .bind (.query _ _) fun row => ?_
  split
  · exact .pure _
  · exact .ite (mempoolSpendings_reads backend _ _ _ _) (storedSpendings_reads _ _ _)

theorem getTx_reads (body : Option Json) : Reads (getTx backend body) := by
  unfold getTx
  split
  · exact .pure _
  · split
    · exact .pure _
    · split
      · exact .pure _
      · split
        · exact .pure _
        · exact .bind (.withThread _ _ _) fun _ =>
            .ite (.ite (.bind (spendings_reads backend _ _ _ _ _ _) fun _ => .pure _) (.pure _))
              (.pure _)

end Requests

/-! ### Requests that change accounts and payments -/

/-- The tables are sound, and nothing but accounts and payments has changed. -/
structure Beside (before after : Database) : Prop where
  valid : after.Valid
  nextTransaction : after.nextTransaction = before.nextTransaction
  nextOutput : after.nextOutput = before.nextOutput
  transactions : after.transactions = before.transactions
  outputs : after.outputs = before.outputs
  inputs : after.inputs = before.inputs

namespace Beside

variable {before middle after : Database}

theorem refl (valid : before.Valid) : Beside before before := ⟨valid, rfl, rfl, rfl, rfl, rfl⟩

theorem trans (first : Beside before middle) (second : Beside middle after) :
    Beside before after where
  valid := second.valid
  nextTransaction := second.nextTransaction.trans first.nextTransaction
  nextOutput := second.nextOutput.trans first.nextOutput
  transactions := second.transactions.trans first.transactions
  outputs := second.outputs.trans first.outputs
  inputs := second.inputs.trans first.inputs

theorem frame (beside : Beside before after) (valid : before.Valid) : Frame before after :=
  .of_same valid beside.nextTransaction beside.nextOutput beside.transactions beside.outputs
    beside.inputs

theorem insertAccount (valid : before.Valid) {row : XmrAccount} {id : Nat}
    (inserted : before.insertAccount row = some (id, after)) : Beside before after := by
  have afterValid := valid.insertAccount inserted
  obtain ⟨-, -, rfl⟩ := Database.insertAccount_eq inserted
  exact ⟨afterValid, rfl, rfl, rfl, rfl, rfl⟩

theorem createRow (valid : before.Valid) (row : XmrAccount) :
    Beside before (Balances.createRow before row) := by
  unfold Balances.createRow
  cases inserted : before.insertAccount row with
  | none => exact .refl valid
  | some pair => exact .insertAccount valid inserted

theorem saveRow (valid : before.Valid) (answers : Bool)
    (accountId scannedHeight startHeight blkTimestamp : Nat) :
    Beside before
      (Balances.saveRow before answers accountId scannedHeight startHeight blkTimestamp) := by
  have afterValid :=
    Balances.saveRow_valid valid answers accountId scannedHeight startHeight blkTimestamp
  unfold Balances.saveRow at afterValid ⊢
  cases found : before.accounts.find? (·.id = accountId) with
  | none => exact .refl valid
  | some row =>
    rw [found] at afterValid
    cases answers with
    | false => exact .refl valid
    | true => exact ⟨afterValid, rfl, rfl, rfl, rfl, rfl⟩

theorem of_mayInsert {world later : World} (valid : world.db.Valid)
    (inserts : MayInsert world later) : Beside world.db later.db := by
  obtain ⟨-, same | ⟨row, id, inserted⟩⟩ := inserts
  · rw [same]
    exact .refl valid
  · exact .insertAccount valid inserted

theorem of_reads {Result : Type} {handler : Handler Result} (reads : Reads handler)
    {world : World} (beside : Beside before world.db) : Beside before (handler world).2.db := by
  rw [reads world]
  exact beside

end Beside

section Imports

variable (backend : Backend)

theorem setNewSearchedBlkNo_reads (address : String) (newValue : Nat) :
    Reads (setNewSearchedBlkNo address newValue) := by
  intro world
  have kept := Reads.withThread address false
    (fun thread => (true, thread.setSearchedBlkNo newValue)) world
  unfold setNewSearchedBlkNo
  simp only
  split <;> exact kept

/-- An import changes the row of the account. -/
theorem applyImport_beside {address : String} {original : XmrAccount} (updated : XmrAccount)
    {world : World} (valid : world.db.Valid) (finds : Finds address original world.db)
    (id : updated.id = original.id) (named : updated.address = original.address)
    (rowFailed positionFailed : String) (response success : Json) :
    Beside world.db
      (applyImport address original updated rowFailed positionFailed response success
        world).2.db := by
  have updates : Beside world.db (updateAccount original updated world).2.db := by
    unfold updateAccount
    by_cases throws : world.throws = true
    · rw [statement_throws _ _ throws]
      exact .refl valid
    · rw [statement_runs _ _ throws]
      obtain ⟨address, row, inAccounts, same, sameAddress⟩ := finds
      exact ⟨valid.updateAccount inAccounts same id
        (named.trans (address.trans sameAddress.symm)), rfl, rfl, rfl, rfl, rfl⟩
  unfold applyImport
  rw [Handler.bind_apply]
  split
  · refine Beside.of_reads (.bind (setNewSearchedBlkNo_reads _ _) fun moved => ?_) updates
    exact .ite (.bind (.withThread _ _ _) fun copied => .ite (.pure _) (.pure _)) (.pure _)
  · exact updates

/-- An import that has to be paid for changes the payment, or the account as well. -/
theorem paidImport_beside {address : String} {acc : XmrAccount} {world : World}
    (valid : world.db.Valid) (finds : Finds address acc world.db) (response : Json) :
    Beside world.db (paidImport backend address acc response world).2.db := by
  rcases Payments.paidImport_cases backend address acc response world with
    ⟨same, -⟩ | ⟨id, inserted, -⟩ | ⟨payment, txHash, due, response', selected, -, -, pays⟩
  · rw [same]
    exact .refl valid
  · have afterValid := valid.insertPayment inserted
    obtain ⟨-, -, after⟩ := Database.insertPayment_eq inserted
    rw [after] at afterValid ⊢
    exact ⟨afterValid, rfl, rfl, rfl, rfl, rfl⟩
  · have member := (Payments.selectPayment_mem (congrArg Prod.fst selected)).1
    have kept : due.db = world.db := by
      rw [← (Payments.selectPayment_keepsDb acc world).1, selected]
    rw [pays]
    rw [← kept] at valid finds member ⊢
    unfold receivePayment
    rw [Handler.bind_apply]
    have marks : Beside due.db
        (updatePayment payment { payment with requestFulfilled := true, txHash } due).2.db ∧
        (updatePayment payment { payment with requestFulfilled := true, txHash } due).2.db.accounts
          = due.db.accounts := by
      unfold updatePayment
      by_cases throws : due.throws = true
      · rw [statement_throws _ _ throws]
        exact ⟨.refl valid, rfl⟩
      · rw [statement_runs _ _ throws]
        exact ⟨⟨valid.updatePayment member rfl rfl, rfl, rfl, rfl, rfl, rfl⟩, rfl⟩
    generalize updatePayment payment { payment with requestFulfilled := true, txHash } due = answer
      at marks ⊢
    cases answer.1 with
    | false => exact marks.1
    | true =>
      have stillFinds : Finds address acc answer.2.db := by
        unfold Finds
        rw [marks.2]
        exact finds
      exact marks.1.trans
        (applyImport_beside (fromGenesis acc) marks.1.valid stillFinds rfl rfl _ _ _ _)

theorem importWalletRequest_beside {world : World} (valid : world.db.Valid)
    (body : Option Json) :
    Beside world.db (importWalletRequest backend body world).2.db := by
  unfold importWalletRequest
  cases parseRequest body ["address", "view_key"] .null with
  | error response => exact .refl valid
  | ok request =>
    cases read : readCredentials backend request with
    | error what =>
      simp only [read]
      exact .refl valid
    | ok credentials =>
      obtain ⟨address, viewKey⟩ := credentials
      simp only [read, Handler.bind_apply]
      have inserts : Beside world.db (selectAccount backend address viewKey true world).2.db :=
        .of_mayInsert valid (selectAccount_mayInsert backend address viewKey true world)
      cases found : (selectAccount backend address viewKey true world).1 with
      | none => exact inserts
      | some acc =>
        have finds := selectAccount_finds backend found
        by_cases free : backend.importFee = 0
        · simp only [if_pos free]
          exact inserts.trans
            (applyImport_beside (fromGenesis acc) inserts.valid finds rfl rfl _ _ _ _)
        · simp only [if_neg free]
          exact inserts.trans (paidImport_beside backend inserts.valid finds _)

theorem importRecentWalletRequest_beside {world : World} (valid : world.db.Valid)
    (body : Option Json) :
    Beside world.db (importRecentWalletRequest backend body world).2.db := by
  unfold importRecentWalletRequest
  cases parseRequest body ["address", "view_key", "no_blocks_to_import"]
      (.obj [("request_fulfilled", .bool false)]) with
  | error response => exact .refl valid
  | ok request =>
    cases read : readCredentials backend request with
    | error what =>
      simp only [read]
      exact .refl valid
    | ok credentials =>
      obtain ⟨address, viewKey⟩ := credentials
      simp only [read]
      cases (request.read "no_blocks_to_import").asString? with
      | none => exact .refl valid
      | some text =>
        cases converted : backend.lexicalCast text with
        | none =>
          simp only [converted]
          exact .refl valid
        | some requested =>
          simp only [converted, Handler.bind_apply]
          have inserts : Beside world.db (selectAccount backend address viewKey true world).2.db :=
            .of_mayInsert valid (selectAccount_mayInsert backend address viewKey true world)
          cases found : (selectAccount backend address viewKey true world).1 with
          | none => exact inserts
          | some acc =>
            have finds := selectAccount_finds backend found
            simp only [recentImport]
            split
            · exact inserts
            · exact inserts.trans (applyImport_beside (fromRecent backend _ acc) inserts.valid
                finds rfl rfl _ _ _ _)

theorem loginTo_reads (asked : LoginRequest) (created : Bool) (acc : XmrAccount) :
    Reads (loginTo backend asked created acc) :=
  .ite (.pure _) (.bind (.of_keepsDb (loginAndStartSearchThread_keepsDb backend _ _ _ _))
    fun _ => .pure _)

theorem login_beside {world : World} (valid : world.db.Valid) (body : Option Json) :
    Beside world.db (login backend body world).2.db := by
  unfold login
  cases parseRequest body ["address", "view_key"] .null with
  | error response => exact .refl valid
  | ok request =>
    cases read : readLogin request with
    | none =>
      simp only [read]
      exact .refl valid
    | some asked =>
      simp only [read, loginRequest]
      split
      · exact .refl valid
      · rw [Handler.bind_apply]
        have selects : Beside world.db
            (selectAccount backend asked.address asked.viewKey false world).2.db :=
          .of_mayInsert valid (selectAccount_mayInsert backend _ _ _ _)
        cases (selectAccount backend asked.address asked.viewKey false world).1 with
        | some acc => exact .of_reads (loginTo_reads backend _ _ _) selects
        | none =>
          simp only [Handler.bind_apply]
          have creates := selects.trans (.of_mayInsert selects.valid
            (createAccount_mayInsert backend asked.address asked.viewKey asked.generatedLocally
              (selectAccount backend asked.address asked.viewKey false world).2))
          cases (createAccount backend asked.address asked.viewKey asked.generatedLocally
              (selectAccount backend asked.address asked.viewKey false world).2).1 with
          | none => exact creates
          | some acc => exact .of_reads (loginTo_reads backend _ _ _) creates

end Imports

/-! ### Runs -/

/-- A request, with the search threads and the faults it meets; a mark or a deletion of its own;
or something else that happens to the tables: a new account, the end of a window, the pass of a
search thread over a transaction, a check. -/
inductive Event where
  | request (backend : Backend) (endpoint : Endpoint) (body : Option Json) (frame : World)
  | mark (txId now : Nat) (spendable : Bool)
  | delete (txId : Nat)
  | service (event : Balances.Event)

/-- What an event does to the tables. -/
def step (db : Database) : Event → Database
  | .request backend endpoint body frame => (handle backend endpoint body (frame.on db)).2.db
  | .mark txId now spendable => (db.markSpendable txId now spendable).2
  | .delete txId => (db.deleteTx txId).2
  | .service event => Balances.step db event

/-- The row of a transaction is as it was but for the mark. As long as it is there, its outputs
and its inputs are as they were. -/
structure Kept (start : Database) (tx : XmrTransaction) (db : Database) : Prop where
  row : ∀ row ∈ db.transactions, row.id = tx.id → row = { tx with spendable := row.spendable }
  outputs : db.hasTransaction tx.id → db.outputsForTx tx.id = start.outputsForTx tx.id
  inputs : db.hasTransaction tx.id → ∀ input : XmrInput, input.txId = tx.id →
    (input ∈ db.inputs ↔ input ∈ start.inputs)

/-! ### When a row is marked -/

/-- The check of an account, with its faults, that a request makes: it has parsed, and its login
has succeeded. -/
def checkOf (backend : Backend) (endpoint : Endpoint) (body : Option Json) (world : World) :
    Option (Nat × List Bool) :=
  match endpoint with
  | .getAddressTxs | .getAddressInfo =>
    match parseRequest body ["address", "view_key"] .null with
    | .error _ => none
    | .ok request =>
      match readCredentials backend request with
      | .error _ => none
      | .ok (address, viewKey) =>
        let login := loginAndStartSearchThread backend address viewKey {} .null world
        if login.1.1 then some (login.1.2.1.id, login.2.throwing) else none
  | _ => none

/-- The check of an account gets to a transaction that is not marked yet, and is unlocked. -/
def CheckMarks (backend : Backend) (accountId : Nat) (throwing : List Bool) (db : Database)
    (txId : Nat) : Prop :=
  throwing.headD false = false ∧
    ∃ row ∈ reached backend (db.selectTransactions accountId) throwing.tail, row.id = txId ∧
      row.spendable = false ∧ isTxUnlocked backend.status row.unlockTime row.height = true

/-- A transaction that is marked is marked at the second that its row already names. -/
def MarksInTime (tx : XmrTransaction) (db : Database) : Event → Prop
  | .request backend endpoint body frame =>
    ∀ accountId throwing, checkOf backend endpoint body (frame.on db) = some (accountId, throwing) →
      CheckMarks backend accountId throwing db tx.id → backend.status.now = tx.timestamp
  | .mark txId now _ => db.hasTransaction tx.id → txId = tx.id → now = tx.timestamp
  | .service (.check backend accountId throwing) =>
    CheckMarks backend accountId throwing db tx.id → backend.status.now = tx.timestamp
  | _ => True

/-- As long as the row is there, it has the time of the transaction. -/
def OnTime (tx : XmrTransaction) (db : Database) : Prop :=
  ∀ row ∈ db.transactions, row.id = tx.id → row.timestamp = tx.timestamp

/-! ### When a row is deleted -/

/-- The check of an account gets to a transaction that is not marked, is locked, and is not where
its row says any more. -/
def CheckDeletes (backend : Backend) (accountId : Nat) (throwing : List Bool) (db : Database)
    (txId : Nat) : Prop :=
  throwing.headD false = false ∧
    ∃ row ∈ reached backend (db.selectTransactions accountId) throwing.tail, row.id = txId ∧
      row.spendable = false ∧ ¬ isTxUnlocked backend.status row.unlockTime row.height = true ∧
      Orphaned backend row

/-- The event deletes a transaction: in a check, on its own, or before the pass of a search thread
writes the rows of that transaction again. -/
def Deletes (db : Database) : Event → Nat → Prop
  | .request backend endpoint body frame, gone =>
    ∃ accountId throwing, checkOf backend endpoint body (frame.on db) = some (accountId, throwing) ∧
      CheckDeletes backend accountId throwing db gone
  | .delete txId, gone => gone = txId
  | .service (.check backend accountId throwing), gone =>
    CheckDeletes backend accountId throwing db gone
  | .service (.pass wallet _ _ tx outcomes known blkTimestamp), gone =>
    Opens wallet tx outcomes ⟨db, known, blkTimestamp⟩ ∧
      ∃ old, existingTx wallet tx outcomes db = some old ∧ old.id = gone
  | _, _ => False

/-- Where the event deletes a transaction with an output that the given one spends, it deletes the
given one too. -/
def Spares (tx : XmrTransaction) (db : Database) (event : Event) : Prop :=
  ∀ input ∈ db.inputs, input.txId = tx.id → ∀ out ∈ db.outputs, out.id = input.outputId →
    Deletes db event out.txId → Deletes db event tx.id

/-- As long as the transaction is there, so are the outputs that it spends. -/
def SpentKept (start : Database) (tx : XmrTransaction) (db : Database) : Prop :=
  db.hasTransaction tx.id → ∀ input ∈ start.inputs, input.txId = tx.id →
    db.hasOutput input.outputId

section Step

variable {db : Database} {tx : XmrTransaction}

theorem withThread_idle {Result : Type} (address : String) (absent : Result)
    (run : SearchThread → Result × SearchThread) (world : World) :
    (withThread address absent run world).2.throwing = world.throwing ∧
      (withThread address absent run world).2.db = world.db := by
  unfold withThread
  split <;> exact ⟨rfl, rfl⟩

/-- What comes between the login and the check takes no statement. -/
theorem followRow_idle (address : String) (acc : XmrAccount) (world : World) :
    (followRow address acc world).2.throwing = world.throwing ∧
      (followRow address acc world).2.db = world.db := by
  have asks : (getSearchedBlkNo address world).2.throwing = world.throwing ∧
      (getSearchedBlkNo address world).2.db = world.db :=
    withThread_idle address none _ world
  unfold followRow
  rw [Handler.bind_apply]
  cases (getSearchedBlkNo address world).1 with
  | none => exact asks
  | some searchedBlkNo =>
    dsimp only
    split
    · rw [Handler.bind_apply, ← asks.1, ← asks.2]
      have sets := withThread_idle address false
        (fun thread => (true, thread.setSearchedBlkNo acc.scannedBlockHeight))
        (getSearchedBlkNo address world).2
      unfold setNewSearchedBlkNo
      simp only
      split <;> exact sets
    · exact asks

/-- A request that logs in and checks the account then. -/
theorem login_check (backend : Backend) {rest : Bool × XmrAccount × Json → Handler Answer}
    (fails : ∀ acc response, Reads (rest (false, acc, response)))
    (checks : ∀ acc response (world : World), world.db.Valid →
      (rest (true, acc, response) world).2.db =
        Balances.step world.db (.check backend acc.id world.throwing))
    (address viewKey : String) (response : Json) {world : World} (valid : world.db.Valid) :
    let login := loginAndStartSearchThread backend address viewKey {} .null world
    ((loginAndStartSearchThread backend address viewKey {} response >>= rest) world).2.db =
      if login.1.1 then
        Balances.step world.db (.check backend login.1.2.1.id login.2.throwing)
      else world.db := by
  obtain ⟨success, acc, middle, logged⟩ :=
    Balances.loginAndStartSearchThread_response backend address viewKey {} world
  obtain ⟨shown, forNull⟩ := logged .null
  obtain ⟨other, forResponse⟩ := logged response
  have kept := (loginAndStartSearchThread_keepsDb backend address viewKey {} .null world).1
  rw [Handler.bind_apply]
  simp only [forNull] at kept ⊢
  rw [forResponse]
  cases success with
  | false => exact (fails _ _ _).trans kept
  | true =>
    rw [checks acc other middle (kept ▸ valid), kept]
    rfl

theorem selected_db (backend : Backend) {world : World} (valid : world.db.Valid)
    (accountId : Nat) :
    ((selectTransactions accountId >>= selectTxsForAccountSpendabilityCheck backend)
        world).2.db = Balances.step world.db (.check backend accountId world.throwing) := by
  refine (select_check_db backend valid accountId).trans ?_
  exact (@select_check_db backend { db := world.db, throwing := world.throwing } valid
    accountId).symm

theorem readAddress_db (backend : Backend) (address : String) (acc : XmrAccount) {world : World}
    (valid : world.db.Valid) :
    (readAddress backend address acc world).2.db =
      Balances.step world.db (.check backend acc.id world.throwing) := by
  rw [← selected_db backend valid acc.id]
  unfold readAddress
  rw [Handler.bind_apply, Handler.bind_apply, Handler.bind_apply]
  generalize selectTxsForAccountSpendabilityCheck backend _ _ = checked
  cases checked.1 with
  | none => exact (Reads.bind (findTxsInMempool_reads backend address) fun _ => .pure _) _
  | some txs =>
    exact (Reads.bind (readAddressTxs_reads _) fun _ =>
      .bind (findTxsInMempool_reads backend address) fun _ => .pure _) _

theorem readInfo_db (backend : Backend) (acc : XmrAccount) {world : World}
    (valid : world.db.Valid) :
    (readInfo backend acc world).2.db =
      Balances.step world.db (.check backend acc.id world.throwing) := by
  rw [← selected_db backend valid acc.id]
  unfold readInfo
  rw [Handler.bind_apply, Handler.bind_apply, Handler.bind_apply]
  generalize selectTxsForAccountSpendabilityCheck backend _ _ = checked
  cases checked.1 with
  | none => rfl
  | some txs => exact (Reads.bind (readAddressOutputs_reads _) fun _ => .pure _) _

/-- What a request leaves that has parsed: the tables after the check, if its login succeeds. -/
def checkedDb (backend : Backend) (address viewKey : String) (world : World) : Database :=
  let login := loginAndStartSearchThread backend address viewKey {} .null world
  if login.1.1 then Balances.step world.db (.check backend login.1.2.1.id login.2.throwing)
  else world.db

theorem getAddressTxs_db (backend : Backend) {body : Option Json} {request : Json}
    {address viewKey : String} {world : World} (valid : world.db.Valid)
    (parsed : parseRequest body ["address", "view_key"] .null = .ok request)
    (read : readCredentials backend request = .ok (address, viewKey)) :
    (getAddressTxs backend body world).2.db = checkedDb backend address viewKey world := by
  unfold getAddressTxs
  rw [parsed]
  simp only [read]
  refine login_check backend (fun acc response => ?_) (fun acc response world valid => ?_)
    address viewKey addressTxsResponse valid
  · exact .pure threadMissing
  · exact readAddress_db backend address acc valid

theorem getAddressInfo_db (backend : Backend) {body : Option Json} {request : Json}
    {address viewKey : String} {world : World} (valid : world.db.Valid)
    (parsed : parseRequest body ["address", "view_key"] .null = .ok request)
    (read : readCredentials backend request = .ok (address, viewKey)) :
    (getAddressInfo backend body world).2.db = checkedDb backend address viewKey world := by
  unfold getAddressInfo
  rw [parsed]
  simp only [read]
  refine login_check backend (fun acc response => ?_) (fun acc response world valid => ?_)
    address viewKey addressInfoResponse valid
  · exact .pure threadMissing
  · have pings := withThread_idle address false (fun thread => (true, thread)) world
    have follows := followRow_idle address acc (searchThreadExist address world).2
    have throwing := follows.1.trans pings.1
    have db := follows.2.trans pings.2
    rw [← throwing, ← db]
    exact readInfo_db backend acc (db ▸ valid)

/-- A request changes nothing but accounts and payments, or checks an account. -/
theorem request_cases (backend : Backend) (endpoint : Endpoint) (body : Option Json)
    {world : World} (valid : world.db.Valid) :
    (checkOf backend endpoint body world = none ∧
        Beside world.db (handle backend endpoint body world).2.db) ∨
      ∃ accountId throwing, checkOf backend endpoint body world = some (accountId, throwing) ∧
        (handle backend endpoint body world).2.db =
          Balances.step world.db (.check backend accountId throwing) := by
  have reads {handler : Handler Answer} (keeps : Reads handler) :
      Beside world.db (handler world).2.db := .of_reads keeps (.refl valid)
  -- the two requests that check an account
  have checks {handler : Handler Answer}
      (rejects : (∀ request address viewKey,
        parseRequest body ["address", "view_key"] .null = .ok request →
        readCredentials backend request ≠ .ok (address, viewKey)) → Reads handler)
      (leaves : ∀ request address viewKey,
        parseRequest body ["address", "view_key"] .null = .ok request →
        readCredentials backend request = .ok (address, viewKey) →
        (handler world).2.db = checkedDb backend address viewKey world) :
      (checkOf backend .getAddressTxs body world = none ∧ Beside world.db (handler world).2.db) ∨
        ∃ accountId throwing,
          checkOf backend .getAddressTxs body world = some (accountId, throwing) ∧
          (handler world).2.db = Balances.step world.db (.check backend accountId throwing) := by
    unfold checkOf
    simp only
    cases parsed : parseRequest body ["address", "view_key"] .null with
    | error response =>
      refine .inl ⟨rfl, reads (rejects fun request _ _ isParsed => ?_)⟩
      rw [parsed] at isParsed
      cases isParsed
    | ok request =>
      cases read : readCredentials backend request with
      | error what =>
        simp only [read]
        refine .inl ⟨trivial, reads (rejects fun other _ _ isParsed => ?_)⟩
        rw [parsed] at isParsed
        cases isParsed
        rw [read]
        exact fun same => by cases same
      | ok credentials =>
        obtain ⟨address, viewKey⟩ := credentials
        simp only [read]
        rw [leaves request address viewKey parsed read]
        unfold checkedDb
        simp only
        split
        · exact .inr ⟨_, _, rfl, rfl⟩
        · exact .inl ⟨rfl, .refl valid⟩
  cases endpoint with
  | login => exact .inl ⟨rfl, login_beside backend valid body⟩
  | getUnspentOuts => exact .inl ⟨rfl, reads (getUnspentOuts_reads backend body)⟩
  | getTx => exact .inl ⟨rfl, reads (getTx_reads backend body)⟩
  | importWalletRequest => exact .inl ⟨rfl, importWalletRequest_beside backend valid body⟩
  | importRecentWalletRequest =>
    exact .inl ⟨rfl, importRecentWalletRequest_beside backend valid body⟩
  | getAddressTxs =>
    refine checks (fun rejected => ?_) fun _ _ _ => getAddressTxs_db backend valid
    show Reads (getAddressTxs backend body)
    unfold getAddressTxs
    cases parsed : parseRequest body ["address", "view_key"] .null with
    | error response => exact .pure _
    | ok request =>
      simp only
      split
      · exact .pure _
      · next read => exact absurd read (rejected request _ _ parsed)
  | getAddressInfo =>
    refine checks (fun rejected => ?_) fun _ _ _ => getAddressInfo_db backend valid
    show Reads (getAddressInfo backend body)
    unfold getAddressInfo
    cases parsed : parseRequest body ["address", "view_key"] .null with
    | error response => exact .pure _
    | ok request =>
      simp only
      split
      · exact .pure _
      · next read => exact absurd read (rejected request _ _ parsed)

/-! ### One step -/

theorem frame_step (valid : db.Valid) (event : Event) :
    (step db event).Valid ∧ Frame db (step db event) := by
  have check (backend : Backend) (accountId : Nat) (throwing : List Bool) :
      Frame db (Balances.step db (.check backend accountId throwing)) := by
    exact (Balances.step_check_invariant (fun after => after.Valid ∧ Frame db after)
      (fun _ txId kept => ⟨kept.1.deleteTx txId, kept.2.trans valid (.deleteTx kept.1 txId)⟩)
      (fun _ txId now kept => ⟨kept.1.markTxSpendable txId now,
        kept.2.trans valid (.markSpendable kept.1 txId now true)⟩) backend accountId throwing
      ⟨valid, .refl valid⟩).2
  cases event with
  | request backend endpoint body frame =>
    rcases request_cases backend endpoint body (show (frame.on db).db.Valid from valid) with
      ⟨-, beside⟩ | ⟨accountId, throwing, -, same⟩
    · exact ⟨beside.valid, beside.frame valid⟩
    · show Database.Valid (handle _ _ _ _).2.db ∧ Frame db (handle _ _ _ _).2.db
      rw [same]
      exact ⟨Balances.step_valid valid _, check backend accountId throwing⟩
  | mark txId now spendable =>
    exact ⟨valid.markSpendable txId now spendable, .markSpendable valid txId now spendable⟩
  | delete txId => exact ⟨valid.deleteTx txId, .deleteTx valid txId⟩
  | service event =>
    refine ⟨Balances.step_valid valid event, ?_⟩
    cases event with
    | create row => exact (Beside.createRow valid row).frame valid
    | save answers accountId scannedHeight startHeight blkTimestamp =>
      exact (Beside.saveRow valid answers accountId scannedHeight startHeight blkTimestamp).frame
        valid
    | pass wallet status tuple tx outcomes known blkTimestamp =>
      show Frame db (recordTx _ _ _ _ _ ⟨db, known, blkTimestamp⟩).2.db
      rcases recordTx_cases wallet status tuple tx outcomes ⟨db, known, blkTimestamp⟩ with
        ⟨-, same | cleared⟩ | ⟨stores, -, filled⟩
      · rw [same]
        exact .refl valid
      · rw [cleared]
        exact .clearedDb valid
      · rw [filled]
        exact (Frame.clearedDb valid).trans valid
          (@Frame.filledDb wallet status tuple tx outcomes ⟨db, known, blkTimestamp⟩ valid)
    | check backend accountId throwing => exact check backend accountId throwing

/-- Rows that the tables had before have the times they had. -/
theorem onTime_of_same {after : Database} (onTime : OnTime tx db)
    (same : ∀ row ∈ after.transactions, row.id = tx.id →
      ∃ old ∈ db.transactions, old.id = tx.id ∧ old.timestamp = row.timestamp) :
    OnTime tx after := by
  intro row member id
  obtain ⟨old, inRows, oldId, time⟩ := same row member id
  rw [← time]
  exact onTime old inRows oldId

theorem onTime_of_transactions {after : Database} (onTime : OnTime tx db)
    (transactions : after.transactions = db.transactions) : OnTime tx after :=
  onTime_of_same onTime fun row member id => ⟨row, transactions ▸ member, id, rfl⟩

theorem onTime_mark_iff (onTime : OnTime tx db) (txId now : Nat) (spendable : Bool) :
    OnTime tx (step db (.mark txId now spendable)) ↔
      MarksInTime tx db (.mark txId now spendable) := by
  constructor
  · rintro after present rfl
    obtain ⟨row, member, same⟩ := (Database.hasTransaction_iff _ _).mp present
    have marked := after _ (List.mem_map_of_mem member) (by rw [if_pos same]; exact same)
    rwa [if_pos same] at marked
  · intro inTime row member id
    obtain ⟨old, inRows, rfl⟩ := List.mem_map.mp member
    by_cases here : old.id = txId
    · rw [if_pos here] at id ⊢
      exact inTime ((Database.hasTransaction_iff _ _).mpr ⟨old, inRows, id⟩) (here.symm.trans id)
    · rw [if_neg here] at id ⊢
      exact onTime old inRows id

/-- A check keeps the time of a transaction exactly when it does not mark it at another second. -/
theorem onTime_check_iff (valid : db.Valid) (onTime : OnTime tx db) (backend : Backend)
    (accountId : Nat) (throwing : List Bool) :
    OnTime tx (Balances.step db (.check backend accountId throwing)) ↔
      (CheckMarks backend accountId throwing db tx.id → backend.status.now = tx.timestamp) := by
  unfold OnTime CheckMarks
  constructor
  · rintro after ⟨runs, row, inReached, id, unmarked, unlocked⟩
    have inHandled := (mem_handled_iff backend).mpr ⟨runs, inReached⟩
    refine after { row with spendable := true, timestamp := backend.status.now }
      ((mem_check_iff backend valid _ _ _).mpr
        ⟨row, mem_of_handled backend inHandled, .inl ⟨inHandled, ?_⟩⟩) id
    unfold rowAfterCheck
    rw [if_neg (ne_true_of_eq_false unmarked), if_pos unlocked]
  · intro inTime row member id
    obtain ⟨old, inRows, ⟨inHandled, becomes⟩ | ⟨-, rfl⟩⟩ :=
      (mem_check_iff backend valid _ _ _).mp member
    · have oldId : old.id = tx.id := (rowAfterCheck_id backend becomes).symm.trans id
      obtain ⟨runs, inReached⟩ := (mem_handled_iff backend).mp inHandled
      unfold rowAfterCheck at becomes
      split at becomes
      · cases becomes
        exact onTime row inRows id
      · next unmarked =>
        split at becomes
        · next unlocked =>
          cases becomes
          exact inTime ⟨runs, old, inReached, oldId, eq_false_of_ne_true unmarked, unlocked⟩
        · split at becomes
          · cases becomes
          · cases becomes
            exact onTime row inRows id
    · exact onTime old inRows id

/-- One step keeps the time of a recorded transaction exactly when it marks it in time. -/
theorem onTime_step_iff (valid : db.Valid) (numbered : tx.id < db.nextTransaction)
    (onTime : OnTime tx db) (event : Event) :
    OnTime tx (step db event) ↔ MarksInTime tx db event := by
  cases event with
  | request backend endpoint body frame =>
    show OnTime tx (handle backend endpoint body (frame.on db)).2.db ↔
      ∀ accountId throwing,
        checkOf backend endpoint body (frame.on db) = some (accountId, throwing) → _
    rcases request_cases backend endpoint body (show (frame.on db).db.Valid from valid) with
      ⟨none, beside⟩ | ⟨accountId, throwing, checks, same⟩
    · rw [none]
      exact iff_of_true (onTime_of_transactions onTime beside.transactions)
        fun _ _ some => absurd some (by simp)
    · rw [same, checks]
      refine (onTime_check_iff valid onTime backend accountId throwing).trans ?_
      constructor
      · rintro inTime _ _ ⟨⟩
        exact inTime
      · exact fun inTime => inTime accountId throwing rfl
  | mark txId now spendable => exact onTime_mark_iff onTime txId now spendable
  | delete txId =>
    exact iff_of_true (onTime_of_same onTime fun row member id =>
      ⟨row, (Database.mem_deleteTx_transactions.mp member).1, id, rfl⟩) trivial
  | service event =>
    cases event with
    | create row =>
      exact iff_of_true
        (onTime_of_transactions onTime (Beside.createRow valid row).transactions) trivial
    | save answers accountId scannedHeight startHeight blkTimestamp =>
      exact iff_of_true (onTime_of_transactions onTime (Beside.saveRow valid answers accountId
        scannedHeight startHeight blkTimestamp).transactions) trivial
    | pass wallet status tuple recorded outcomes known blkTimestamp =>
      refine iff_of_true (onTime_of_same onTime fun row member id => ?_) trivial
      have old {kept : XmrTransaction}
          (member : kept ∈ (clearedDb wallet recorded outcomes db).transactions)
          (id : kept.id = tx.id) :
          ∃ old ∈ db.transactions, old.id = tx.id ∧ old.timestamp = kept.timestamp :=
        ⟨kept, @Depth.mem_clearedDb wallet recorded outcomes ⟨db, known, blkTimestamp⟩ _ member, id,
          rfl⟩
      have member : row ∈ (recordTx wallet status tuple recorded outcomes
        ⟨db, known, blkTimestamp⟩).2.db.transactions := member
      rcases recordTx_cases wallet status tuple recorded outcomes ⟨db, known, blkTimestamp⟩ with
        ⟨-, same | cleared⟩ | ⟨stores, -, filled⟩
      · rw [same] at member
        exact ⟨row, member, id, rfl⟩
      · rw [cleared] at member
        exact old member id
      · rw [filled] at member
        rcases mem_filledDb_transactions.mp member with kept | rfl
        · exact old kept id
        · have least := (@Frame.clearedDb db wallet recorded outcomes valid).nextTransaction
          exact absurd numbered (Nat.not_lt.mpr (id ▸ least))
    | check backend accountId throwing =>
      exact onTime_check_iff valid onTime backend accountId throwing

/-! ### Which transactions stay -/

theorem rowAfterCheck_eq_none_iff {backend : Backend} {row : XmrTransaction} :
    rowAfterCheck backend row = none ↔
      row.spendable = false ∧ ¬ isTxUnlocked backend.status row.unlockTime row.height = true ∧
        Orphaned backend row := by
  unfold rowAfterCheck
  split
  · next marked => simp [marked]
  · next unmarked =>
    rw [and_iff_right (eq_false_of_ne_true unmarked)]
    split
    · next unlocked => simp [unlocked]
    · next locked =>
      rw [and_iff_right locked]
      split
      · next orphaned => simp [orphaned]
      · next known => simp [known]

theorem hasTransaction_check_iff (valid : db.Valid) (backend : Backend) (accountId : Nat)
    (throwing : List Bool) (id : Nat) :
    (Balances.step db (.check backend accountId throwing)).hasTransaction id ↔
      db.hasTransaction id ∧ ¬ CheckDeletes backend accountId throwing db id := by
  rw [Database.hasTransaction_iff, Database.hasTransaction_iff]
  unfold CheckDeletes
  constructor
  · rintro ⟨row, member, rfl⟩
    obtain ⟨old, inRows, ⟨inHandled, becomes⟩ | ⟨notHandled, rfl⟩⟩ :=
      (mem_check_iff backend valid _ _ _).mp member
    · have sameId := rowAfterCheck_id backend becomes
      refine ⟨⟨old, inRows, sameId.symm⟩, ?_⟩
      rintro ⟨runs, other, inReached, otherId, goes⟩
      have otherHandled := (mem_handled_iff backend).mpr ⟨runs, inReached⟩
      obtain rfl := valid.transactionIds.eq_of_key (mem_of_handled backend otherHandled) inRows
        (otherId.trans sameId)
      rw [rowAfterCheck_eq_none_iff.mpr goes] at becomes
      cases becomes
    · refine ⟨⟨old, inRows, rfl⟩, ?_⟩
      rintro ⟨runs, other, inReached, otherId, -⟩
      have otherHandled := (mem_handled_iff backend).mpr ⟨runs, inReached⟩
      obtain rfl := valid.transactionIds.eq_of_key (mem_of_handled backend otherHandled) inRows
        otherId
      exact notHandled otherHandled
  · rintro ⟨⟨old, inRows, rfl⟩, stays⟩
    by_cases inHandled : old ∈ handled backend accountId throwing db
    · obtain ⟨runs, inReached⟩ := (mem_handled_iff backend).mp inHandled
      cases becomes : rowAfterCheck backend old with
      | none =>
        exact absurd ⟨runs, old, inReached, rfl, rowAfterCheck_eq_none_iff.mp becomes⟩ stays
      | some row =>
        exact ⟨row, (mem_check_iff backend valid _ _ _).mpr
          ⟨old, inRows, .inl ⟨inHandled, becomes⟩⟩, rowAfterCheck_id backend becomes⟩
    · exact ⟨old, (mem_check_iff backend valid _ _ _).mpr
        ⟨old, inRows, .inr ⟨inHandled, rfl⟩⟩, rfl⟩

theorem hasTransaction_deleteTx_iff (txId id : Nat) :
    (db.deleteTx txId).2.hasTransaction id ↔ db.hasTransaction id ∧ id ≠ txId := by
  rw [Database.hasTransaction_iff, Database.hasTransaction_iff]
  constructor
  · rintro ⟨row, member, rfl⟩
    obtain ⟨inRows, other⟩ := Database.mem_deleteTx_transactions.mp member
    exact ⟨⟨row, inRows, rfl⟩, other⟩
  · rintro ⟨⟨row, inRows, rfl⟩, other⟩
    exact ⟨row, Database.mem_deleteTx_transactions.mpr ⟨inRows, other⟩, rfl⟩

theorem hasTransaction_clearedDb_iff (wallet : Wallet) (tx : Transaction) (outcomes : Outcomes)
    (id : Nat) :
    (clearedDb wallet tx outcomes db).hasTransaction id ↔
      db.hasTransaction id ∧
        ¬ ∃ old, existingTx wallet tx outcomes db = some old ∧ old.id = id := by
  unfold clearedDb
  cases existing : existingTx wallet tx outcomes db with
  | none => simp
  | some old =>
    refine (hasTransaction_deleteTx_iff old.id id).trans (and_congr_right fun _ => not_congr ?_)
    constructor
    · rintro rfl
      exact ⟨old, rfl, rfl⟩
    · rintro ⟨_, ⟨⟩, same⟩
      exact same.symm

/-- A pass that opens its transaction leaves the tables cleared, or with a new row besides. -/
theorem hasTransaction_pass_iff (valid : db.Valid) (wallet : Wallet) (status : Status)
    (tuple : TxTuple) (recorded : Transaction) (outcomes : Outcomes) (known : KnownOutputs)
    (blkTimestamp : Option Nat) {id : Nat} (numbered : id < db.nextTransaction) :
    (Balances.step db (.pass wallet status tuple recorded outcomes known
        blkTimestamp)).hasTransaction id ↔
      db.hasTransaction id ∧
        ¬ (Opens wallet recorded outcomes ⟨db, known, blkTimestamp⟩ ∧
          ∃ old, existingTx wallet recorded outcomes db = some old ∧ old.id = id) := by
  show (recordTx wallet status tuple recorded outcomes
    ⟨db, known, blkTimestamp⟩).2.db.hasTransaction id ↔ _
  by_cases opens : Opens wallet recorded outcomes ⟨db, known, blkTimestamp⟩
  · rw [and_iff_right opens, ← hasTransaction_clearedDb_iff]
    rcases recordTx_opened wallet status tuple recorded outcomes ⟨db, known, blkTimestamp⟩ opens
      with cleared | filled
    · rw [cleared]
    · rw [filled]
      have kept := @filledDb_hasTransaction_iff wallet status tuple recorded outcomes
        ⟨db, known, blkTimestamp⟩ id
      refine kept.trans (or_iff_left fun same => ?_)
      have least := (@Frame.clearedDb db wallet recorded outcomes valid).nextTransaction
      exact absurd numbered (Nat.not_lt.mpr (same ▸ least))
  · rw [(recordTx_closed wallet status tuple recorded outcomes ⟨db, known, blkTimestamp⟩ opens).2]
    exact (and_iff_left fun deletes => opens deletes.1).symm

theorem hasTransaction_of_transactions {after : Database}
    (transactions : after.transactions = db.transactions) (id : Nat) :
    after.hasTransaction id ↔ db.hasTransaction id := by
  unfold Database.hasTransaction
  rw [transactions]

/-- One step leaves a transaction exactly when it does not delete it. -/
theorem hasTransaction_step_iff (valid : db.Valid) (event : Event) {id : Nat}
    (numbered : id < db.nextTransaction) :
    (step db event).hasTransaction id ↔ db.hasTransaction id ∧ ¬ Deletes db event id := by
  cases event with
  | request backend endpoint body frame =>
    show (handle backend endpoint body (frame.on db)).2.db.hasTransaction id ↔
      _ ∧ ¬ ∃ accountId throwing,
        checkOf backend endpoint body (frame.on db) = some (accountId, throwing) ∧ _
    rcases request_cases backend endpoint body (show (frame.on db).db.Valid from valid) with
      ⟨none, beside⟩ | ⟨accountId, throwing, checks, same⟩
    · rw [none]
      refine (hasTransaction_of_transactions beside.transactions id).trans (and_iff_left ?_).symm
      rintro ⟨_, _, some, -⟩
      cases some
    · rw [same, checks]
      refine (hasTransaction_check_iff valid backend accountId throwing id).trans
        (and_congr_right fun _ => not_congr ?_)
      constructor
      · exact fun deletes => ⟨accountId, throwing, rfl, deletes⟩
      · rintro ⟨_, _, ⟨⟩, deletes⟩
        exact deletes
  | mark txId now spendable =>
    refine Iff.trans ?_ (and_iff_left fun deletes => deletes).symm
    show (db.markSpendable txId now spendable).2.hasTransaction id ↔ _
    rw [Database.hasTransaction_iff, Database.hasTransaction_iff]
    constructor
    · rintro ⟨row, member, rfl⟩
      obtain ⟨old, inRows, rfl⟩ := List.mem_map.mp member
      exact ⟨old, inRows, by split <;> rfl⟩
    · rintro ⟨row, inRows, rfl⟩
      exact ⟨_, List.mem_map_of_mem inRows, by split <;> rfl⟩
  | delete txId => exact hasTransaction_deleteTx_iff txId id
  | service event =>
    cases event with
    | create row =>
      exact (hasTransaction_of_transactions (Beside.createRow valid row).transactions id).trans
        (and_iff_left fun deletes => deletes).symm
    | save answers accountId scannedHeight startHeight blkTimestamp =>
      exact (hasTransaction_of_transactions (Beside.saveRow valid answers accountId scannedHeight
        startHeight blkTimestamp).transactions id).trans (and_iff_left fun deletes => deletes).symm
    | pass wallet status tuple recorded outcomes known blkTimestamp =>
      exact hasTransaction_pass_iff valid wallet status tuple recorded outcomes known blkTimestamp
        numbered
    | check backend accountId throwing =>
      exact hasTransaction_check_iff valid backend accountId throwing id

/-- One step keeps the outputs that a transaction spends exactly when it spares them. -/
theorem spentKept_step_iff {start : Database} (frame : Frame start db)
    (valid : db.Valid) (numbered : tx.id < start.nextTransaction)
    (spentKept : SpentKept start tx db) (event : Event) :
    SpentKept start tx (step db event) ↔ Spares tx db event := by
  obtain ⟨nextValid, next⟩ := frame_step valid event
  have later := numbered.trans_le frame.nextTransaction
  have outNumbered {out : XmrOutput} (member : out ∈ db.outputs) :
      out.txId < db.nextTransaction := by
    obtain ⟨row, inRows, same⟩ :=
      (Database.hasTransaction_iff _ _).mp (valid.outputTransaction out member)
    exact same ▸ valid.transactionFresh row inRows
  constructor
  · intro after input inInputs ofTx out inOutputs refers deletes
    by_contra stays
    have present : db.hasTransaction tx.id := ofTx ▸ valid.inputTransaction input inInputs
    have presentAfter := (hasTransaction_step_iff valid event later).mpr ⟨present, stays⟩
    have inStart : input ∈ start.inputs :=
      ((frame.inputs input (ofTx.symm ▸ numbered) (ofTx.symm ▸ present)).mp inInputs).1
    have kept := after presentAfter input inStart ofTx
    rw [← refers, next.hasOutput_iff valid nextValid inOutputs,
      hasTransaction_step_iff valid event (outNumbered inOutputs)] at kept
    exact kept.2 deletes
  · intro spares presentAfter input inStart ofTx
    obtain ⟨present, stays⟩ := (hasTransaction_step_iff valid event later).mp presentAfter
    have kept := spentKept present input inStart ofTx
    obtain ⟨out, inOutputs, refers⟩ := (Database.hasOutput_iff _ _).mp kept
    have inInputs : input ∈ db.inputs :=
      (frame.inputs input (ofTx.symm ▸ numbered) (ofTx.symm ▸ present)).mpr ⟨inStart, kept⟩
    rw [← refers, next.hasOutput_iff valid nextValid inOutputs,
      hasTransaction_step_iff valid event (outNumbered inOutputs)]
    refine ⟨valid.outputTransaction out inOutputs, fun deletes => stays ?_⟩
    exact spares input inInputs ofTx out inOutputs refers deletes

end Step

/-! ### Every run -/

theorem kept_iff {start db : Database} {tx : XmrTransaction} (startValid : start.Valid)
    (member : tx ∈ start.transactions) (valid : db.Valid) (frame : Frame start db) :
    Kept start tx db ↔ OnTime tx db ∧ SpentKept start tx db := by
  have numbered := startValid.transactionFresh tx member
  constructor
  · intro kept
    refine ⟨fun row inRows id => ?_, fun present input inStart ofTx => ?_⟩
    · have same := congrArg XmrTransaction.timestamp (kept.row row inRows id)
      exact same
    · exact valid.inputOutput input ((kept.inputs present input ofTx).mpr inStart)
  · rintro ⟨onTime, spentKept⟩
    refine ⟨fun row inRows id => ?_, fun present => frame.outputs tx.id numbered present,
      fun present input ofTx => ?_⟩
    · obtain ⟨old, inStart, same⟩ := frame.transactions row inRows (id.symm ▸ numbered)
      have oldId : old.id = tx.id := (congrArg XmrTransaction.id same).symm.trans id
      obtain rfl := startValid.transactionIds.eq_of_key inStart member oldId
      have time := onTime row inRows id
      rw [same]
      exact congrArg (fun timestamp => { old with spendable := row.spendable, timestamp }) time
    · rw [frame.inputs input (ofTx.symm ▸ numbered) (ofTx.symm ▸ present)]
      exact and_iff_left_of_imp fun inStart => spentKept present input inStart ofTx

/-- In every run from sound tables, a transaction that they hold is kept in every state exactly
when it is never marked at another second than the one it names, and no transaction with an output
that it spends is deleted before it. -/
theorem historyKept_iff {start : Database} (valid : start.Valid) {tx : XmrTransaction}
    (member : tx ∈ start.transactions) (events : List Event) :
    (∀ first rest, first ++ rest = events → Kept start tx (Runs.run step start first)) ↔
      Runs.Along step (fun db event => MarksInTime tx db event ∧ Spares tx db event) start
        events := by
  let framed (db : Database) : Prop := db.Valid ∧ Frame start db
  have initially : framed start := ⟨valid, .refl valid⟩
  have keeps : ∀ db event, framed db → framed (step db event) := fun db event isFramed =>
    have next := frame_step isFramed.1 event
    ⟨next.1, isFramed.2.trans valid next.2⟩
  have numbered := valid.transactionFresh tx member
  have onTime : OnTime tx start := fun row inRows id => by
    rw [valid.transactionIds.eq_of_key inRows member id]
  have spentKept : SpentKept start tx start := fun _ input inInputs _ =>
    valid.inputOutput input inInputs
  rw [← Runs.reached_iff_along step (fun db event => MarksInTime tx db event ∧ Spares tx db event)
    framed (fun db => OnTime tx db ∧ SpentKept start tx db) keeps
    (fun db event isFramed kept => and_congr
      (onTime_step_iff isFramed.1 (numbered.trans_le isFramed.2.nextTransaction) kept.1 event)
      (spentKept_step_iff isFramed.2 isFramed.1 numbered kept.2 event))
    events start initially ⟨onTime, spentKept⟩]
  refine forall_congr' fun first => forall_congr' fun rest => imp_congr_right fun _ => ?_
  have reached := Runs.run_invariant_of_step step framed keeps first start initially
  exact kept_iff valid member reached.1 reached.2

/-! ### A mark that comes later, and a rescan -/

/-- A transaction of a block of the year 2020, which is unlocked from block 70 on. -/
def received : XmrTransaction :=
  { id := 1, hash := "a1", accountId := 1, height := 60, unlockTime := 70, timestamp := 1600000000 }

/-- A transaction of a later block, which spends the output of the first one. -/
def spending : XmrTransaction :=
  { id := 2, hash := "b2", accountId := 1, height := 80, spendable := true,
    timestamp := 1600002400 }

/-- The input of the second transaction. -/
def spent : XmrInput :=
  { id := 1, accountId := 1, txId := 2, outputId := 1, keyImage := "f1", amount := 5,
    timestamp := 1600002400 }

/-- Both transactions in the tables. -/
def holding : Database where
  accounts := [{ id := 1, address := "4ApA", viewkeyHash := "c0de" }]
  transactions := [received, spending]
  outputs := [{ id := 1, accountId := 1, txId := 1, outPubKey := "e1", amount := 5 }]
  inputs := [spent]
  nextAccount := 2
  nextTransaction := 3
  nextOutput := 2
  nextInput := 2

/-- The transactions are asked for ten years later. -/
def asked : Event :=
  .request { Backend.empty with status := { currentHeight := 100, now := 1900000000 } }
    .getAddressTxs
    (some (.obj [("address", .str "4ApA"), ("view_key", .str "c0de")])) { db := {} }

/-- After an import, the search thread gets to the block of the first transaction again. -/
def rescanned : Event :=
  .service (.pass
    { account := { id := 1, address := "4ApA", viewkeyHash := "c0de" }
      identifier :=
        { outputs := fun tx => if tx.hash = "a1" then [{ pubKey := "e1", amount := 5 }] else []
          inputs := fun _ _ => [] } }
    { currentHeight := 100 }
    { blkHeight := 60, blkTimestamp := 1600000000, isCoinbase := false }
    { hash := "a1", unlockTime := 70 } { chainIndices := [7] } [] none)

theorem received_historyKept :
    (∀ first rest, first ++ rest = [asked, rescanned] →
        Kept holding received (Runs.run step holding first)) ↔
      Runs.Along step (fun db event => MarksInTime received db event ∧ Spares received db event)
        holding [asked, rescanned] :=
  @historyKept_iff holding (by decide) received List.mem_cons_self [asked, rescanned]

/-- The request changes the time of the first transaction. The rescan takes the row of `Inputs` from
the second one, whose own row stays. -/
theorem received_not_kept :
    holding.Valid ∧ received ∈ holding.transactions ∧ spending ∈ holding.transactions ∧
      ¬ Kept holding received (Runs.run step holding [asked]) ∧
      ¬ Kept holding spending (Runs.run step holding [rescanned]) := by
  refine ⟨by decide, by decide, by decide, fun kept => ?_, fun kept => ?_⟩
  · have marked : { received with spendable := true, timestamp := 1900000000 } ∈
        (Runs.run step holding [asked]).transactions := by
      decide +kernel
    have same := kept.row _ marked rfl
    exact absurd (congrArg XmrTransaction.timestamp same) (by decide)
  · have present : (Runs.run step holding [rescanned]).hasTransaction spending.id := by
      decide +kernel
    have gone : spent ∉ (Runs.run step holding [rescanned]).inputs := by decide +kernel
    exact gone ((kept.inputs present spent rfl).mpr List.mem_cons_self)

end LightWallet.History
