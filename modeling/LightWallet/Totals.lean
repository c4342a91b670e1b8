/-
This file settles when the two balance computations agree.

One request adds up the totals that are stored with the transactions, and the
inputs of each transaction. The other adds up the outputs of each transaction, and
the inputs that refer to them. Both read the tables the spendability check leaves:
when these are balanced, the sums are the same.
-/

import LightWallet.Balances
import LightWallet.Lookups
import LightWallet.Requests

namespace LightWallet.Balances

/-! ### Reading when no statement throws -/

theorem totalAmount_eq (spent : List SpentOutput) :
    totalAmount spent = Tables.total SpentOutput.amount spent := by
  unfold totalAmount
  rw [Tables.foldl_add_eq, zero_add]

/-- Every input counts, when the outputs they refer to are stored. -/
theorem spentByInputs_quiet {world : World} (quiet : world.Quiet) (inputs : List XmrInput)
    (stored : ∀ input ∈ inputs, world.db.hasOutput input.outputId) :
    ∃ spent, spentByInputs inputs world = (spent, world) ∧
      totalAmount spent = Tables.total XmrInput.amount inputs := by
  induction inputs with
  | nil => exact ⟨[], rfl, rfl⟩
  | cons input rest inductionHypothesis =>
    obtain ⟨spent, read, amounts⟩ :=
      inductionHypothesis fun other member => stored other (List.mem_cons_of_mem _ member)
    obtain ⟨out, found⟩ : ∃ out, world.db.outputByPrimaryId input.outputId = some out := by
      obtain ⟨output, member, id⟩ :=
        (Database.hasOutput_iff _ _).mp (stored input List.mem_cons_self)
      refine Option.ne_none_iff_exists'.mp fun none => ?_
      exact List.find?_eq_none.mp none output member (decide_eq_true id)
    refine ⟨spentOutput input out :: spent, ?_, ?_⟩
    · unfold spentByInputs
      rw [Handler.bind_apply, selectByPrimaryId, query_quiet _ _ quiet, found]
      simp only [Handler.bind_apply]
      rw [read]
      rfl
    · rw [totalAmount_eq] at amounts ⊢
      rw [Tables.total_cons, Tables.total_cons, amounts]
      rfl

theorem readAddressTx_quiet {world : World} (quiet : world.Quiet) (valid : world.db.Valid)
    (tx : XmrTransaction) :
    ∃ entry, readAddressTx tx world = (entry, world) ∧ entry.tx = tx ∧
      entry.totalSent = Tables.total XmrInput.amount (world.db.inputsForTx tx.id) := by
  unfold readAddressTx
  rw [Handler.bind_apply, selectInputsForTx, query_quiet _ _ quiet]
  have stored : ∀ input ∈ world.db.inputsForTx tx.id, world.db.hasOutput input.outputId :=
    fun input member => valid.inputOutput input (List.mem_filter.mp member).1
  cases inputs : world.db.inputsForTx tx.id with
  | nil => exact ⟨⟨tx, none⟩, rfl, rfl, rfl⟩
  | cons input rest =>
    rw [inputs] at stored
    obtain ⟨spent, read, amounts⟩ := spentByInputs_quiet quiet _ stored
    refine ⟨⟨tx, some spent⟩, ?_, rfl, amounts⟩
    simp only [Handler.bind_apply]
    rw [read]
    rfl

theorem readAddressTxs_quiet {world : World} (quiet : world.Quiet) (valid : world.db.Valid)
    (txs : List XmrTransaction) :
    ∃ entries, readAddressTxs txs world = (entries, world) ∧
      entries.map AddressTx.tx = txs ∧
      entries.map AddressTx.totalSent =
        txs.map fun tx => Tables.total XmrInput.amount (world.db.inputsForTx tx.id) := by
  induction txs with
  | nil => exact ⟨[], rfl, rfl, rfl⟩
  | cons tx rest inductionHypothesis =>
    obtain ⟨entry, read, same, sent⟩ := readAddressTx_quiet quiet valid tx
    obtain ⟨entries, readRest, sameRest, sentRest⟩ := inductionHypothesis
    refine ⟨entry :: entries, ?_, ?_, ?_⟩
    · unfold readAddressTxs
      rw [Handler.bind_apply, read]
      simp only [Handler.bind_apply]
      rw [readRest]
      rfl
    · rw [List.map_cons, same, sameRest]
    · rw [List.map_cons, List.map_cons, sent, sentRest]

theorem readOutputs_quiet {world : World} (quiet : world.Quiet) (outs : List XmrOutput) :
    readOutputs outs world =
      (outs.map fun out => (out, world.db.inputsForOut out.id), world) := by
  induction outs with
  | nil => rfl
  | cons out rest inductionHypothesis =>
    unfold readOutputs
    rw [Handler.bind_apply, selectInputsForOut, query_quiet _ _ quiet]
    simp only [Handler.bind_apply]
    rw [inductionHypothesis]
    rfl

theorem readAddressOutputs_quiet {world : World} (quiet : world.Quiet)
    (txs : List XmrTransaction) :
    readAddressOutputs txs world =
      ((txs.flatMap fun tx => world.db.outputsForTx tx.id).map fun out =>
        (out, world.db.inputsForOut out.id), world) := by
  induction txs with
  | nil => rfl
  | cons tx rest inductionHypothesis =>
    unfold readAddressOutputs
    rw [Handler.bind_apply, selectOutputsForTx, query_quiet _ _ quiet]
    simp only [Handler.bind_apply]
    rw [readOutputs_quiet quiet]
    simp only
    rw [inductionHypothesis, List.flatMap_cons, List.map_append]
    rfl

/-! ### The sums -/

/-- The balance of an account, as the rows of its transactions give it. -/
structure Totals where
  received : UInt64
  sent : UInt64

/-- The totals of an account: of its transactions' rows, and of its inputs. -/
def Totals.of (db : Database) (accountId : Nat) : Totals where
  received := Tables.total XmrTransaction.totalReceived (db.selectTransactions accountId)
  sent := Tables.total XmrInput.amount (db.inputs.filter (·.accountId = accountId))

section Sums

variable {db : Database}

/-- The transactions of an account refer to all the account's inputs, and to no others. -/
theorem total_inputsForTx (valid : db.Valid) (balanced : Balanced db) (accountId : Nat) :
    Tables.total (fun tx => Tables.total XmrInput.amount (db.inputsForTx tx.id))
        (db.selectTransactions accountId) = (Totals.of db accountId).sent := by
  refine (Tables.total_group XmrTransaction.id XmrInput.txId XmrInput.amount
    (db.selectTransactions accountId) db.inputs (valid.transactionIds.filter _)).trans ?_
  refine congrArg (Tables.total XmrInput.amount) (List.filter_congr fun input member => ?_)
  obtain ⟨tx, inRows, id⟩ :=
    (Database.hasTransaction_iff _ _).mp (valid.inputTransaction input member)
  have account := balanced.inputOwner input member tx inRows id
  refine decide_eq_decide.mpr ⟨fun selected => ?_, fun ours => ?_⟩
  · obtain ⟨other, inSelected, same⟩ := List.mem_map.mp selected
    obtain ⟨inOthers, otherAccount⟩ := List.mem_filter.mp inSelected
    obtain rfl := valid.transactionIds.eq_of_key inOthers inRows (same.trans id.symm)
    exact account.trans (of_decide_eq_true otherAccount)
  · exact List.mem_map.mpr
      ⟨tx, List.mem_filter.mpr ⟨inRows, decide_eq_true (account.symm.trans ours)⟩, id⟩

theorem total_outputsForTx (balanced : Balanced db) (accountId : Nat) :
    Tables.total (fun tx => Tables.total XmrOutput.amount (db.outputsForTx tx.id))
        (db.selectTransactions accountId) = (Totals.of db accountId).received :=
  Tables.total_congr fun tx member => (balanced.received tx (List.mem_filter.mp member).1).symm

/-- The outputs of the account's transactions are the account's outputs. -/
theorem mem_accountOutputs (valid : db.Valid) (balanced : Balanced db) (accountId : Nat)
    {output : XmrOutput} :
    output ∈ ((db.selectTransactions accountId).flatMap fun tx => db.outputsForTx tx.id) ↔
      output ∈ db.outputs ∧ output.accountId = accountId := by
  constructor
  · intro member
    obtain ⟨tx, selected, inOutputs⟩ := List.mem_flatMap.mp member
    obtain ⟨inRows, account⟩ := List.mem_filter.mp selected
    obtain ⟨stored, txId⟩ := List.mem_filter.mp inOutputs
    refine ⟨stored, ?_⟩
    rw [balanced.outputOwner output stored tx inRows (of_decide_eq_true txId).symm]
    exact of_decide_eq_true account
  · rintro ⟨stored, account⟩
    obtain ⟨tx, inRows, id⟩ :=
      (Database.hasTransaction_iff _ _).mp (valid.outputTransaction output stored)
    have owner := balanced.outputOwner output stored tx inRows id
    refine List.mem_flatMap.mpr ⟨tx, List.mem_filter.mpr ⟨inRows, ?_⟩,
      List.mem_filter.mpr ⟨stored, decide_eq_true id.symm⟩⟩
    exact decide_eq_true (owner.symm.trans account)

/-- The outputs of an account's transactions, each with the inputs that refer to it. -/
def readOutputsOf (db : Database) (accountId : Nat) : List (XmrOutput × List XmrInput) :=
  ((db.selectTransactions accountId).flatMap fun tx => db.outputsForTx tx.id).map fun out =>
    (out, db.inputsForOut out.id)

/-- No output belongs to two transactions. -/
theorem accountOutputs_unique (valid : db.Valid) (txs : List XmrTransaction)
    (distinct : Tables.Unique XmrTransaction.id txs) :
    Tables.Unique XmrOutput.id (txs.flatMap fun tx => db.outputsForTx tx.id) := by
  induction txs with
  | nil => exact Tables.unique_nil _
  | cons tx rest inductionHypothesis =>
    obtain ⟨fresh, distinctRest⟩ := List.nodup_cons.mp distinct
    rw [List.flatMap_cons]
    refine Tables.unique_append.mpr
      ⟨valid.outputIds.filter _, inductionHypothesis distinctRest, ?_⟩
    intro output inFirst other inRest same
    obtain ⟨stored, txId⟩ := List.mem_filter.mp inFirst
    obtain ⟨later, inLater, inOthers⟩ := List.mem_flatMap.mp inRest
    obtain ⟨storedOther, txIdOther⟩ := List.mem_filter.mp inOthers
    obtain rfl := valid.outputIds.eq_of_key stored storedOther same
    refine fresh (List.mem_map.mpr ⟨later, inLater, ?_⟩)
    exact (of_decide_eq_true txIdOther).symm.trans (of_decide_eq_true txId)

/-- The inputs that refer to an output of the account are the account's inputs. -/
theorem total_inputsForOut (valid : db.Valid) (balanced : Balanced db) (accountId : Nat) :
    Tables.total (fun output => Tables.total XmrInput.amount (db.inputsForOut output.id))
        ((db.selectTransactions accountId).flatMap fun tx => db.outputsForTx tx.id) =
      (Totals.of db accountId).sent := by
  refine (Tables.total_group XmrOutput.id XmrInput.outputId XmrInput.amount _ db.inputs
    (accountOutputs_unique valid _ (valid.transactionIds.filter _))).trans ?_
  refine congrArg (Tables.total XmrInput.amount) (List.filter_congr fun input member => ?_)
  obtain ⟨output, stored, id⟩ := (Database.hasOutput_iff _ _).mp (valid.inputOutput input member)
  have account := balanced.linked input member output stored id
  refine decide_eq_decide.mpr ⟨fun referred => ?_, fun ours => ?_⟩
  · obtain ⟨other, inOutputs, same⟩ := List.mem_map.mp referred
    obtain ⟨storedOther, owner⟩ := (mem_accountOutputs valid balanced accountId).mp inOutputs
    obtain rfl := valid.outputIds.eq_of_key storedOther stored (same.trans id.symm)
    exact account.trans owner
  · exact List.mem_map.mpr ⟨output,
      (mem_accountOutputs valid balanced accountId).mpr ⟨stored, account.symm.trans ours⟩, id⟩

end Sums

/-! ### The transactions that are checked -/

section Checked

variable (backend : Backend)

theorem checkAccount_balanced {db : Database} (valid : db.Valid) (balanced : Balanced db)
    (accountId : Nat) : Balanced (checkAccount backend accountId db) := by
  have quiet : World.Quiet { db } := rfl
  have kept := check_invariant Balanced (fun _ txId kept => kept.deleteTx txId)
    (fun _ txId now kept => kept.markTxSpendable txId now) backend
    (db.selectTransactions accountId) { db } balanced
  rw [checkAccount_quiet quiet valid] at kept
  exact kept

theorem rowAfterCheck_map {Key : Type} (key : XmrTransaction → Key)
    (fixed : ∀ tx spendable timestamp unlockTime,
      key { tx with spendable, timestamp, unlockTime } = key tx) (tx : XmrTransaction) :
    (rowAfterCheck backend tx).map key = (txAfterCheck backend tx).map key := by
  unfold rowAfterCheck txAfterCheck
  split
  · rfl
  · split
    · exact congrArg some ((fixed tx _ _ tx.unlockTime).trans (fixed tx _ tx.timestamp _).symm)
    · split
      · rfl
      · exact congrArg some (fixed tx tx.spendable tx.timestamp _).symm

/-- What is handed on of the transactions of an account agrees with their rows, but for the
columns that the check sets. -/
theorem checkedTxs_map {Key : Type} (key : XmrTransaction → Key)
    (fixed : ∀ tx spendable timestamp unlockTime,
      key { tx with spendable, timestamp, unlockTime } = key tx) {db : Database}
    (valid : db.Valid) (accountId : Nat) :
    ((db.selectTransactions accountId).filterMap (txAfterCheck backend)).map key =
      ((checkAccount backend accountId db).selectTransactions accountId).map key := by
  unfold Database.selectTransactions
  rw [checkAccount_transactions valid]
  induction db.transactions with
  | nil => rfl
  | cons row rest inductionHypothesis =>
    by_cases ours : row.accountId = accountId
    · simp only [List.filter_cons, List.filterMap_cons, ours, decide_true, if_true]
      have same := rowAfterCheck_map backend key fixed row
      cases after : rowAfterCheck backend row with
      | none =>
        rw [after, Option.map_none, eq_comm, Option.map_eq_none_iff] at same
        rw [same]
        exact inductionHypothesis
      | some kept =>
        rw [after, Option.map_some, eq_comm, Option.map_eq_some_iff] at same
        obtain ⟨handed, isHanded, sameKey⟩ := same
        have account := (rowAfterCheck_accountId backend after).trans ours
        rw [isHanded]
        simp only [List.filter_cons, account, decide_true, if_true, List.map_cons, sameKey,
          inductionHypothesis]
    · simp only [List.filter_cons, List.filterMap_cons, ours, decide_false, if_false,
        Bool.false_eq_true]
      exact inductionHypothesis

/-! ### What the requests read -/

/-- The account with what is left of it after the check. -/
def totalsOf (accountId : Nat) (db : Database) : Totals :=
  Totals.of (checkAccount backend accountId db) accountId

/-- What is read, whatever the tables are. -/
theorem readAddress_eq {world : World} (quiet : world.Quiet) (valid : world.db.Valid)
    (address : String) (acc : XmrAccount) :
    ∃ entries,
      (readAddress backend address acc world).1 =
        { entries := some entries
          mempool := (findTxsInMempool backend address
            (world.on (checkAccount backend acc.id world.db))).1 } ∧
      entries.map AddressTx.tx =
        (world.db.selectTransactions acc.id).filterMap (txAfterCheck backend) ∧
      entries.map AddressTx.totalSent =
        ((world.db.selectTransactions acc.id).filterMap (txAfterCheck backend)).map fun tx =>
          Tables.total XmrInput.amount
            ((checkAccount backend acc.id world.db).inputsForTx tx.id) := by
  have quietAfter : (world.on (checkAccount backend acc.id world.db)).Quiet := quiet
  obtain ⟨entries, read, same, sent⟩ := readAddressTxs_quiet quietAfter
    (checkAccount_valid valid acc.id)
    ((world.db.selectTransactions acc.id).filterMap (txAfterCheck backend))
  refine ⟨entries, ?_, same, sent⟩
  unfold readAddress
  rw [Handler.bind_apply, selectTransactions, query_quiet _ _ quiet]
  simp only [Handler.bind_apply]
  rw [checkAccount_quiet quiet valid]
  simp only [Handler.bind_apply]
  rw [read]
  rfl

theorem readAddress_quiet {world : World} (quiet : world.Quiet) (valid : world.db.Valid)
    (balanced : Balanced world.db) (address : String) (acc : XmrAccount) :
    ∃ entries, (readAddress backend address acc world).1.entries = some entries ∧
      totalReceivedByTxs entries = (totalsOf backend acc.id world.db).received ∧
      (entries.map AddressTx.totalSent).sum = (totalsOf backend acc.id world.db).sent := by
  have validAfter : (checkAccount backend acc.id world.db).Valid := checkAccount_valid valid acc.id
  have balancedAfter := checkAccount_balanced backend valid balanced acc.id
  obtain ⟨entries, read, same, sent⟩ := readAddress_eq backend quiet valid address acc
  refine ⟨entries, congrArg AddressTxs.entries read, ?_, ?_⟩
  · unfold totalReceivedByTxs
    rw [Tables.foldl_add_eq, zero_add]
    rw [show Tables.total (fun entry : AddressTx => entry.tx.totalReceived) entries =
      ((entries.map AddressTx.tx).map XmrTransaction.totalReceived).sum by
        rw [List.map_map]; rfl]
    rw [same, checkedTxs_map backend _ (fun _ _ _ _ => rfl) valid]
    rfl
  · rw [sent]
    have byId : ∀ txs : List XmrTransaction,
        (txs.map fun tx => Tables.total XmrInput.amount
          ((checkAccount backend acc.id world.db).inputsForTx tx.id)) =
        (txs.map XmrTransaction.id).map fun id => Tables.total XmrInput.amount
          ((checkAccount backend acc.id world.db).inputsForTx id) := fun txs => by
      rw [List.map_map]
      rfl
    show (List.map (fun tx : XmrTransaction => Tables.total XmrInput.amount
      ((checkAccount backend acc.id world.db).inputsForTx tx.id)) _).sum = _
    rw [byId, checkedTxs_map backend _ (fun _ _ _ _ => rfl) valid, ← byId]
    exact total_inputsForTx validAfter balancedAfter acc.id

theorem readInfo_quiet {world : World} (quiet : world.Quiet) (valid : world.db.Valid)
    (balanced : Balanced world.db) (acc : XmrAccount) :
    ∃ outputs, (readInfo backend acc world).1 = some outputs ∧
      totalReceivedByOutputs outputs = (totalsOf backend acc.id world.db).received ∧
      totalAmount (spentByOutputs outputs) = (totalsOf backend acc.id world.db).sent := by
  have validAfter : (checkAccount backend acc.id world.db).Valid := checkAccount_valid valid acc.id
  have balancedAfter := checkAccount_balanced backend valid balanced acc.id
  have quietAfter : (world.on (checkAccount backend acc.id world.db)).Quiet := quiet
  -- the outputs are those of the rows that are left
  have outputs : ((world.db.selectTransactions acc.id).filterMap (txAfterCheck backend)).flatMap
        (fun tx => (checkAccount backend acc.id world.db).outputsForTx tx.id) =
      ((checkAccount backend acc.id world.db).selectTransactions acc.id).flatMap
        fun tx => (checkAccount backend acc.id world.db).outputsForTx tx.id := by
    have byId : ∀ txs : List XmrTransaction,
        (txs.flatMap fun tx => (checkAccount backend acc.id world.db).outputsForTx tx.id) =
        (txs.map XmrTransaction.id).flatMap
          fun id => (checkAccount backend acc.id world.db).outputsForTx id := fun txs =>
      (List.flatMap_map _ _ _).symm
    rw [byId, checkedTxs_map backend _ (fun _ _ _ _ => rfl) valid, ← byId]
  refine ⟨readOutputsOf (checkAccount backend acc.id world.db) acc.id, ?_, ?_, ?_⟩
  · unfold readInfo
    rw [Handler.bind_apply, selectTransactions, query_quiet _ _ quiet]
    simp only [Handler.bind_apply]
    rw [checkAccount_quiet quiet valid]
    simp only [Handler.bind_apply]
    rw [readAddressOutputs_quiet quietAfter]
    show some (List.map _ (List.flatMap (fun tx : XmrTransaction =>
      (checkAccount backend acc.id world.db).outputsForTx tx.id) _)) = _
    rw [outputs]
    rfl
  · unfold totalReceivedByOutputs readOutputsOf
    rw [Tables.foldl_add_eq, zero_add, Tables.total_map]
    exact (Tables.total_flatMap _ _ _).trans (total_outputsForTx balancedAfter acc.id)
  · rw [totalAmount_eq]
    unfold spentByOutputs readOutputsOf
    rw [List.flatMap_map, Tables.total_flatMap]
    refine Eq.trans (Tables.total_congr fun output _ => ?_)
      (total_inputsForOut validAfter balancedAfter acc.id)
    exact Tables.total_map _ _ _

end Checked

/-! ### The logins of the two requests -/

/-- When no statement throws, the computation leaves the tables alone. -/
def KeepsTables {Result : Type} (handler : Handler Result) : Prop :=
  ∀ world : World, world.Quiet → (handler world).2.Quiet ∧ (handler world).2.db = world.db

theorem KeepsTables.pure {Result : Type} (result : Result) : KeepsTables (Pure.pure result) :=
  fun _ quiet => ⟨quiet, rfl⟩

theorem KeepsTables.bind {Result Next : Type} {first : Handler Result}
    {rest : Result → Handler Next} (keepsFirst : KeepsTables first)
    (keepsRest : ∀ result, KeepsTables (rest result)) : KeepsTables (first >>= rest) :=
  fun world quiet =>
    have after := keepsFirst world quiet
    have last := keepsRest (first world).1 (first world).2 after.1
    ⟨last.1, last.2.trans after.2⟩

theorem KeepsTables.query {Result : Type} (onThrow : Result) (read : Database → Result) :
    KeepsTables (query onThrow read) := by
  intro world quiet
  rw [query_quiet _ _ quiet]
  exact ⟨quiet, rfl⟩

theorem KeepsTables.withThread {Result : Type} (address : String) (absent : Result)
    (run : SearchThread → Result × SearchThread) :
    KeepsTables (withThread address absent run) := by
  intro world quiet
  unfold LightWallet.withThread
  split <;> exact ⟨quiet, rfl⟩

theorem KeepsTables.ite {Result : Type} {condition : Prop} [Decidable condition]
    {first second : Handler Result} (keepsFirst : KeepsTables first)
    (keepsSecond : KeepsTables second) :
    KeepsTables (if condition then first else second) := by
  split
  · exact keepsFirst
  · exact keepsSecond

section Requests

variable (backend : Backend)

theorem constructTxSearch_keepsTables (acc : XmrAccount) :
    KeepsTables (constructTxSearch backend acc) :=
  .ite (.bind (.query _ _) fun _ => .pure _) (.pure _)

theorem startTxSearchThread_keepsTables (acc : XmrAccount) (txSearch : SearchThread) :
    KeepsTables (startTxSearchThread backend acc txSearch) :=
  .bind (.withThread _ _ _) fun _ =>
    .ite (.pure _) (.ite (fun _ quiet => ⟨quiet, rfl⟩) (.pure _))

theorem loginAndStartSearchThread_keepsTables (address viewKey : String) (acc : XmrAccount)
    (response : Json) :
    KeepsTables (loginAndStartSearchThread backend address viewKey acc response) := by
  refine .bind (.query _ _) fun row => ?_
  cases row with
  | none => exact .pure _
  | some row =>
    refine .ite (.bind (.withThread _ _ _) fun live => .ite (.pure _)
      (.bind (constructTxSearch_keepsTables backend _) fun built => ?_)) (.pure _)
    cases built with
    | none => exact .pure _
    | some txSearch =>
      exact .bind (startTxSearchThread_keepsTables backend _ _) fun started =>
        .ite (.pure _) (.pure _)

theorem followRow_keepsTables (address : String) (acc : XmrAccount) :
    KeepsTables (followRow address acc) := by
  refine .bind (.withThread _ _ _) fun searched => ?_
  cases searched with
  | none => exact .pure _
  | some searchedBlkNo =>
    refine .ite (.bind (fun world quiet => ?_) fun _ => .pure _) (.pure _)
    have kept := KeepsTables.withThread address false
      (fun thread => (true, thread.setSearchedBlkNo acc.scannedBlockHeight)) world quiet
    unfold setNewSearchedBlkNo
    simp only
    split <;> exact kept

/-- Whether a login succeeds, and which account it reads, does not depend on the response. -/
theorem loginAndStartSearchThread_response (address viewKey : String) (acc : XmrAccount)
    (world : World) :
    ∃ success found after, ∀ response, ∃ shown,
      loginAndStartSearchThread backend address viewKey acc response world =
        ((success, found, shown), after) := by
  unfold loginAndStartSearchThread
  simp only [Handler.bind_apply]
  cases (selectAccountRow address world).1 with
  | none => exact ⟨_, _, _, fun response => ⟨_, rfl⟩⟩
  | some row =>
    by_cases same : backend.makeHash viewKey = row.viewkeyHash
    · simp only [if_pos same, Handler.bind_apply]
      generalize searchThreadExist _ _ = existing
      by_cases live : existing.1 = true
      · simp only [if_pos live]
        exact ⟨_, _, _, fun response => ⟨_, rfl⟩⟩
      · simp only [if_neg live, Handler.bind_apply]
        generalize constructTxSearch backend _ _ = built
        cases built.1 with
        | none => exact ⟨_, _, _, fun response => ⟨_, rfl⟩⟩
        | some txSearch =>
          simp only [Handler.bind_apply]
          generalize startTxSearchThread backend _ _ _ = started
          by_cases starts : started.1 = true
          · simp only [if_pos starts]
            exact ⟨_, _, _, fun response => ⟨_, rfl⟩⟩
          · simp only [if_neg starts]
            exact ⟨_, _, _, fun response => ⟨_, rfl⟩⟩
    · simp only [if_neg same]
      exact ⟨_, _, _, fun response => ⟨_, rfl⟩⟩

end Requests

/-! ### What the two requests report -/

/-- A value of the response. -/
def Answer.get? : Answer → String → Option Json
  | .closed _ body, key => body.get? key
  | .escaped, _ => none

/-- The value shows the amount: as text, or as the number zero. -/
def Shows (json : Json) (amount : UInt64) : Prop :=
  json = .ofText amount.toNat ∨ json = .ofNat 0 ∧ amount = 0

/-- The answer of `get_address_txs` reports the total received, and transactions whose totals sent
add up to the given amount. -/
def ReportedByTxs (answer : Answer) (received sent : UInt64) : Prop :=
  Answer.get? answer "total_received" = some (.ofText received.toNat) ∧
    ∃ txs amounts, Answer.get? answer "transactions" = some (.arr txs) ∧
      List.Forall₂ (fun tx amount => ∃ shown, Json.get? tx "total_sent" = some shown ∧
        Shows shown amount) txs amounts ∧
      amounts.sum = sent

/-- The answer of `get_address_info` reports the two totals. -/
def ReportedByInfo (answer : Answer) (received sent : UInt64) : Prop :=
  Answer.get? answer "total_received" = some (.ofText received.toNat) ∧
    Answer.get? answer "total_sent" = some (.ofText sent.toNat)

section Reports

variable (backend : Backend)

/-- The login that both requests begin with. -/
def loggedIn (address viewKey : String) (world : World) : (Bool × XmrAccount × Json) × World :=
  loginAndStartSearchThread backend address viewKey {} .null world

/-- No transaction of the mempool is shown for the account. -/
def NoMempoolTxs (address viewKey : String) (world : World) : Prop :=
  let login := loggedIn backend address viewKey world
  (readAddress backend address login.1.2.1 login.2).1.mempool.getD [] = []

/-- When the login succeeds and no transaction of the mempool is the account's, both requests
report the same totals. -/
def TotalsAgree (request : Json) (world : World) : Prop :=
  ∀ address viewKey, readCredentials backend request = .ok (address, viewKey) →
    (loggedIn backend address viewKey world).1.1 = true →
    NoMempoolTxs backend address viewKey world →
    ∃ received sent, ReportedByTxs (getAddressTxs backend (some request) world).1 received sent ∧
      ReportedByInfo (getAddressInfo backend (some request) world).1 received sent

theorem parseRequest_of_credentials {request : Json} {address viewKey : String}
    (credentials : readCredentials backend request = .ok (address, viewKey)) (response : Json) :
    parseRequest (some request) ["address", "view_key"] response = .ok request := by
  have has {key text : String} (read : (request.read key).asString? = some text) :
      request.has key = true := by
    unfold Json.read at read
    unfold Json.has
    cases value : request.get? key with
    | none =>
      rw [value] at read
      cases read
    | some value => rfl
  unfold readCredentials at credentials
  split at credentials
  · next isAddress isViewKey =>
    unfold parseRequest
    simp [has isAddress, has isViewKey]
  · cases credentials
  · cases credentials

theorem shows_totalSent (entry : AddressTx) :
    ∃ shown, Json.get? entry.toJson "total_sent" = some shown ∧ Shows shown entry.totalSent := by
  obtain ⟨tx, spent⟩ := entry
  cases spent with
  | none => exact ⟨.ofNat 0, by simp [AddressTx.toJson], .inr ⟨rfl, rfl⟩⟩
  | some spent =>
    exact ⟨.ofText (totalAmount spent).toNat, by simp [AddressTx.toJson], .inl rfl⟩

/-- Without transactions of the mempool, the answer reports what was read. -/
theorem addressTxsAnswer_reports (response : Json) {read : AddressTxs} {entries : List AddressTx}
    (isRead : read.entries = some entries) (none : read.mempool.getD [] = []) :
    ReportedByTxs (addressTxsAnswer response read) (totalReceivedByTxs entries)
      (entries.map AddressTx.totalSent).sum := by
  unfold addressTxsAnswer
  rw [isRead, none]
  refine ⟨?_, entries.map AddressTx.toJson, entries.map AddressTx.totalSent, ?_, ?_, rfl⟩
  · simp [Answer.get?, sessionClose]
  · simp [Answer.get?, sessionClose, numberMempool]
  · rw [List.forall₂_map_left_iff, List.forall₂_map_right_iff, List.forall₂_same]
    exact fun entry _ => shows_totalSent entry

theorem addressInfoAnswer_reports (response : Json)
    (outputs : List (XmrOutput × List XmrInput)) :
    ReportedByInfo (addressInfoAnswer response (some outputs)) (totalReceivedByOutputs outputs)
      (totalAmount (spentByOutputs outputs)) := by
  constructor <;> simp [addressInfoAnswer, Answer.get?, sessionClose]

/-- On balanced tables the two requests report the same totals. -/
theorem totalsAgree_of_balanced {world : World} (quiet : world.Quiet) (valid : world.db.Valid)
    (balanced : Balanced world.db) (request : Json) : TotalsAgree backend request world := by
  intro address viewKey credentials succeeds noMempool
  obtain ⟨success, acc, after, login⟩ :=
    loginAndStartSearchThread_response backend address viewKey {} world
  obtain ⟨shownTxs, loginTxs⟩ := login addressTxsResponse
  obtain ⟨shownInfo, loginInfo⟩ := login addressInfoResponse
  obtain ⟨shownNull, loginNull⟩ := login .null
  have kept := loginAndStartSearchThread_keepsTables backend address viewKey {} .null world quiet
  unfold NoMempoolTxs loggedIn at noMempool
  unfold loggedIn at succeeds
  rw [loginNull] at kept succeeds noMempool
  obtain ⟨quietAfter, sameDb⟩ := kept
  simp only at quietAfter sameDb succeeds noMempool
  subst succeeds
  have balancedAfter : Balanced after.db := sameDb ▸ balanced
  have validAfter : after.db.Valid := sameDb ▸ valid
  have parsed := parseRequest_of_credentials backend credentials .null
  refine ⟨(totalsOf backend acc.id world.db).received, (totalsOf backend acc.id world.db).sent,
    ?_, ?_⟩
  · obtain ⟨entries, read, received, sent⟩ :=
      readAddress_quiet backend quietAfter validAfter balancedAfter address acc
    rw [sameDb] at received sent
    unfold getAddressTxs
    rw [parsed]
    simp only
    rw [credentials]
    simp only [Handler.bind_apply]
    rw [loginTxs]
    simp only [Handler.bind_apply, Handler.pure_apply]
    rw [← received, ← sent]
    exact addressTxsAnswer_reports _ read noMempool
  · have pinged := KeepsTables.withThread address false (fun thread => (true, thread)) after
      quietAfter
    have followed := followRow_keepsTables address acc _ pinged.1
    have sameFollowed := followed.2.trans (pinged.2.trans sameDb)
    obtain ⟨outputs, read, received, sent⟩ := readInfo_quiet backend followed.1
      (sameFollowed ▸ valid) (sameFollowed ▸ balanced) acc
    rw [sameFollowed] at received sent
    unfold getAddressInfo
    rw [parsed]
    simp only
    rw [credentials]
    simp only [Handler.bind_apply]
    rw [loginInfo]
    simp only [Handler.bind_apply, Handler.pure_apply]
    rw [← received, ← sent]
    refine Eq.mpr (congrArg (fun outputs => ReportedByInfo (addressInfoAnswer _ outputs) _ _) read)
      (addressInfoAnswer_reports _ outputs)

end Reports

/-- After every run of steps that look up outputs of their own account, both requests report the
same totals. -/
theorem totals_agree (events : List Event) (own : Runs.Along step StepLooksUpOwn {} events)
    (backend : Backend) (request : Json) (world : World)
    (reached : world.db = Runs.run step {} events) (quiet : world.Quiet) :
    TotalsAgree backend request world := by
  obtain ⟨valid, balanced⟩ := balanced_run events own
  rw [← reached] at valid balanced
  exact totalsAgree_of_balanced backend quiet valid balanced request

/-! ### Two accounts with the same keys -/

/-- Transaction `a1` pays 5 to a key that both accounts own, and transaction `b2` spends it. -/
def sharedKeys : Identifier where
  outputs tx := if tx.hash = "a1" then [{ pubKey := "k1", amount := 5 }] else []
  inputs known tx :=
    if tx.hash = "b2" then
      (known.filter (·.1 = "k1")).map fun entry =>
        { keyImg := "i1", outPubKey := entry.1, amount := entry.2 }
    else []

/-- An account under the given address. -/
def account (id : Nat) (address : String) : XmrAccount := { id, address, viewkeyHash := "c0de" }

/-- A pass over a transaction, with the cache at that point. -/
def records (account : XmrAccount) (hash : String) (known : KnownOutputs) : Event :=
  .pass { account, identifier := sharedKeys } { currentHeight := 100 }
    { blkHeight := 10, blkTimestamp := 1600000000, isCoinbase := false } { hash }
    { chainIndices := [7] } known none

/-- A chain of height 100, and an empty mempool. -/
def backend : Backend := { Backend.empty with status := { currentHeight := 100 } }

/-- The body of a request of the account. -/
def request (address : String) : Json :=
  .obj [("address", .str address), ("view_key", .str "c0de")]

/-- One account receives the output and spends it. -/
def ownSpent : List Event :=
  [.create (account 0 "4ApA"), records (account 1 "4ApA") "a1" [],
    records (account 1 "4ApA") "b2" [("k1", 5)], .check backend 1 []]

theorem totals_agree_ownSpent :
    ∃ received sent,
      ReportedByTxs (getAddressTxs backend (some (request "4ApA"))
        { db := Runs.run step {} ownSpent }).1 received sent ∧
      ReportedByInfo (getAddressInfo backend (some (request "4ApA"))
        { db := Runs.run step {} ownSpent }).1 received sent :=
  totals_agree ownSpent (by decide +kernel) backend (request "4ApA")
    { db := Runs.run step {} ownSpent } rfl rfl "4ApA" "c0de" rfl (by decide +kernel) rfl

/-- A second account with the same keys: its scan of `a1` stores nothing, since the key of the
output is taken, but the key is in its cache, and its scan of `b2` finds the other's output. -/
def othersSpent : List Event :=
  [.create (account 0 "4ApA"), .create (account 0 "4iPA"), records (account 1 "4ApA") "a1" [],
    records (account 2 "4iPA") "a1" [], records (account 2 "4iPA") "b2" [("k1", 5)]]

/-- The text under a key. -/
def text? (json : Json) (key : String) : Option String := json.get? key >>= Json.asString?

/-- The items of a list. -/
def items : Json → List Json
  | .arr values => values
  | _ => []

theorem totals_differ :
    World.Quiet { db := Runs.run step {} othersSpent } ∧
      ¬ TotalsAgree backend (request "4iPA") { db := Runs.run step {} othersSpent } := by
  refine ⟨rfl, fun agree => ?_⟩
  obtain ⟨received, sent, ⟨-, txs, amounts, listed, shown, sum⟩, -, reported⟩ :=
    agree "4iPA" "c0de" rfl (by decide +kernel) rfl
  -- the one transaction shows 5, while the balance shows nothing sent
  have sentByTxs : ((Answer.get? (getAddressTxs backend (some (request "4iPA"))
      { db := Runs.run step {} othersSpent }).1 "transactions").map fun txs =>
        (items txs).map (text? · "total_sent")) = some [some "5"] := by decide +kernel
  have sentByInfo : ((Answer.get? (getAddressInfo backend (some (request "4iPA"))
      { db := Runs.run step {} othersSpent }).1 "total_sent") >>= Json.asString?) =
        some "0" := by decide +kernel
  rw [listed] at sentByTxs
  rw [reported] at sentByInfo
  obtain ⟨tx, rfl, isFive⟩ := List.map_eq_singleton_iff.mp (Option.some.inj sentByTxs)
  rcases shown with _ | ⟨⟨amount, isShown, shows⟩, ⟨⟩⟩
  unfold text? at isFive
  rw [isShown] at isFive
  rcases shows with rfl | ⟨rfl, -⟩
  · simp only [List.sum_cons, List.sum_nil, add_zero] at sum
    subst sum
    exact absurd (Option.some.inj (isFive.symm.trans sentByInfo)) (by decide)
  · cases isFive

end LightWallet.Balances
