/-
This file settles when the details of a transaction agree with the list of transactions.

The list takes what it says of a stored transaction from the tables, and what it says of one in the
mempool from a fresh identification, with the amounts that are stored for the outputs. The request
for the details looks for the transaction in the blockchain first. If it is there, the spendings
are read off the tables, where they may be missing still; if it is in the mempool, they are
identified as in the list, but the amounts shown are those of the search thread's cache.
-/

import LightWallet.Depth
import LightWallet.KnownOutputs
import LightWallet.Lookups
import LightWallet.MempoolListing
import Mathlib

namespace LightWallet.TxDetails

open Balances (Shows)
open MempoolListing (outputsIdentified)

/-! ### What is reported of a transaction -/

/-- The columns of an entry of `spent_outputs` that are compared. -/
structure Spent where
  keyImage : String
  amount : UInt64
  txPubKey : String
  outIndex : Nat
  deriving DecidableEq, Repr

/-- The columns of an entry. -/
def spentOf (spent : SpentOutput) : Spent where
  keyImage := spent.keyImage
  amount := spent.amount
  txPubKey := spent.txPubKey
  outIndex := spent.outIndex

/-- The account's part in a transaction. -/
structure Details where
  totalReceived : UInt64
  totalSent : UInt64
  spent : List Spent
  deriving DecidableEq, Repr

/-- A response, or an entry of one, reports the account's part. Nothing spent may be left out. -/
structure Reports (json : Json) (details : Details) : Prop where
  totalReceived : json.get? "total_received" = some (.ofText details.totalReceived.toNat)
  totalSent : ∃ shown, json.get? "total_sent" = some shown ∧ Shows shown details.totalSent
  spent : ∃ entries : List SpentOutput, entries.map spentOf = details.spent ∧
    (json.get? "spent_outputs" = some (.arr (entries.map SpentOutput.toJson)) ∨
      entries = [] ∧ json.get? "spent_outputs" = none)

/-- An entry of the list and the answer to the request for the details report the same. -/
def Agree (listed : Json) (answer : Answer) : Prop :=
  ∃ details response, Reports listed details ∧ answer = .closed codeOk response ∧
    Reports response details

/-! ### What is listed -/

/-- A transaction is listed from its row, or from the mempool. -/
inductive Source where
  | stored (row : XmrTransaction)
  | pooled (tx : Transaction)

/-- The hash of the transaction. -/
def Source.hash : Source → String
  | .stored row => row.hash
  | .pooled tx => tx.hash

section Sources

variable (backend : Backend) (thread : SearchThread) (accountId : Nat) (db : Database)

/-- The rows that the check hands on, and the transactions of the mempool that the account has a
part in. -/
def sources : List Source :=
  ((db.selectTransactions accountId).filterMap (txAfterCheck backend)).map .stored ++
    (backend.mempoolTxs.filter
      (MempoolListing.Listed backend thread (checkAccount backend accountId db))).map
        fun entry => .pooled entry.2

/-- The spendings that the tables have for a row of `Transactions`. -/
def storedSpent (tables : Database) (txId : Nat) : List SpentOutput :=
  (tables.inputsForTx txId).filterMap fun input =>
    (tables.outputByPrimaryId input.outputId).map (spentOutput input)

/-- The spendings that the tables have for a transaction of the account, if it has a row. -/
def storedFor (tables : Database) (hash : String) : List SpentOutput :=
  ((tables.txExists accountId hash).map fun row => storedSpent tables row.id).getD []

/-- The spendings that are identified in a transaction, with the amounts given. -/
def identified (amount : InputInfo → XmrOutput → UInt64) (tables : Database) (tx : Transaction) :
    List SpentOutput :=
  (MempoolListing.recordedInputs backend thread tables tx).map (identifiedSpent amount)

/-- The amounts in the search thread's cache. -/
def cached (info : InputInfo) (_ : XmrOutput) : UInt64 := info.amount

/-- The transaction is in the mempool, and the spendings that are identified in it, with the amounts
in the cache, are those stored for the row. -/
def IdentifiedAsStored (tables : Database) (row : XmrTransaction) : Prop :=
  ∃ entry ∈ backend.mempoolTxs, entry.2.hash = row.hash ∧
    (identified backend thread cached tables entry.2).map spentOf =
      (storedSpent tables row.id).map spentOf ∧
    totalStored (MempoolListing.recordedInputs backend thread tables entry.2) =
      totalAmount (storedSpent tables row.id)

/-- When the details agree. A row's transaction is in the blockchain; else it is in the mempool,
with the same spendings. A transaction of the mempool is not in the blockchain, and the cache has
the stored amount for each output it may spend; else the tables already have its spendings. -/
def Met (tables : Database) : Source → Prop
  | .stored row =>
    backend.getTx row.hash ≠ none ∨ IdentifiedAsStored backend thread tables row
  | .pooled tx =>
    if backend.getTx tx.hash = none then
      ∀ found ∈ MempoolListing.recordedInputs backend thread tables tx,
        found.1.amount = found.2.amount
    else
      (storedFor accountId tables tx.hash).map spentOf =
        (identified backend thread (fun _ out => out.amount) tables tx).map spentOf

instance (tables : Database) (row : XmrTransaction) :
    Decidable (IdentifiedAsStored backend thread tables row) :=
  inferInstanceAs (Decidable (∃ entry ∈ _, _))

instance (tables : Database) : ∀ source, Decidable (Met backend thread accountId tables source)
  | .stored row =>
    inferInstanceAs (Decidable (_ ∨ IdentifiedAsStored backend thread tables row))
  | .pooled tx =>
    inferInstanceAs (Decidable (if backend.getTx tx.hash = none then
        ∀ found ∈ MempoolListing.recordedInputs backend thread tables tx,
          found.1.amount = found.2.amount
      else (storedFor accountId tables tx.hash).map spentOf = _))

end Sources

/-! ### The transactions there are -/

/-- The blockchain and the mempool hold transactions of which there is only one under each hash;
the hexadecimal form of a hash is read back. -/
structure Ledger (backend : Backend) (exist : Transaction → Prop) : Prop where
  unique : ∀ first second, exist first → exist second → first.hash = second.hash → first = second
  readsBack : ∀ tx, exist tx → backend.hexToPod tx.hash = some tx.hash
  chain : ∀ hash tx, backend.getTx hash = some tx → exist tx ∧ tx.hash = hash
  mempool : ∀ entry ∈ backend.mempoolTxs, exist entry.2

/-- What is recorded for the account is identified with its keys, in transactions there are. -/
def Recorded (backend : Backend) (exist : Transaction → Prop) (address viewKey : String)
    (accountId : Nat) : Balances.Event → Prop
  | .pass wallet _ _ tx _ _ _ =>
    wallet.account.id = accountId →
      wallet.identifier = backend.identifier address viewKey ∧ exist tx
  | _ => True

/-- What the rows of the account have received is what is identified in their transactions. -/
def TotalsRight (backend : Backend) (exist : Transaction → Prop) (address viewKey : String)
    (accountId : Nat) (db : Database) : Prop :=
  ∀ row ∈ db.transactions, row.accountId = accountId → ∃ tx, exist tx ∧ tx.hash = row.hash ∧
    row.totalReceived = calcTotalXmr ((backend.identifier address viewKey).outputs tx)

/-- The account has a row, the view key is its own, and its search thread was made with it. No
statement throws, and the monitor leaves the threads alone. -/
structure Live (backend : Backend) (address viewKey : String) (row : XmrAccount)
    (thread : SearchThread) (world : World) : Prop where
  quiet : world.Quiet
  uncleaned : world.cleaned = []
  valid : world.db.Valid
  stored : row ∈ world.db.accounts
  named : row.address = address
  viewkey : backend.makeHash viewKey = row.viewkeyHash
  live : world.thread? address = some thread
  threadAddress : thread.address = address
  threadViewkey : thread.viewkey = viewKey
  parses : backend.parsesAccount address viewKey = true

/-- A request for the details of a transaction. -/
def txRequest (address viewKey hash : String) : Json :=
  .obj [("address", .str address), ("view_key", .str viewKey), ("tx_hash", .str hash)]

/-! ### Reading the tables -/

section Reading

variable {world : World}

theorem spentByInputs_eq (quiet : world.Quiet) (inputs : List XmrInput) :
    spentByInputs inputs world =
      (inputs.filterMap fun input =>
        (world.db.outputByPrimaryId input.outputId).map (spentOutput input), world) := by
  induction inputs with
  | nil => rfl
  | cons input rest inductionHypothesis =>
    unfold spentByInputs
    rw [Handler.bind_apply, selectByPrimaryId, query_quiet _ _ quiet]
    dsimp only
    cases output : world.db.outputByPrimaryId input.outputId with
    | none =>
      rw [List.filterMap_cons_none (by rw [output]; rfl)]
      exact inductionHypothesis
    | some out =>
      rw [List.filterMap_cons_some (by rw [output]; rfl)]
      dsimp only
      rw [Handler.bind_apply, inductionHypothesis]
      rfl

/-- The entry of a row, with the spendings that the tables have for it. -/
def entryOf (tables : Database) (tx : XmrTransaction) : AddressTx where
  tx := tx
  spent := if tables.inputsForTx tx.id = [] then none else some (storedSpent tables tx.id)

theorem readAddressTx_eq (quiet : world.Quiet) (tx : XmrTransaction) :
    readAddressTx tx world = (entryOf world.db tx, world) := by
  unfold readAddressTx entryOf storedSpent
  rw [Handler.bind_apply, selectInputsForTx, query_quiet _ _ quiet]
  dsimp only
  cases inputs : world.db.inputsForTx tx.id with
  | nil => rfl
  | cons input rest =>
    dsimp only
    rw [Handler.bind_apply, spentByInputs_eq quiet, if_neg (List.cons_ne_nil input rest)]
    rfl

theorem readAddressTxs_eq (quiet : world.Quiet) (txs : List XmrTransaction) :
    readAddressTxs txs world = (txs.map (entryOf world.db), world) := by
  induction txs with
  | nil => rfl
  | cons tx rest inductionHypothesis =>
    unfold readAddressTxs
    rw [Handler.bind_apply, readAddressTx_eq quiet, Handler.bind_apply, inductionHypothesis]
    rfl

theorem storedSpent_of_none {tables : Database} {txId : Nat}
    (none : tables.inputsForTx txId = []) : storedSpent tables txId = [] := by
  unfold storedSpent
  rw [none]
  rfl

end Reading

/-! ### What the entries report -/

theorem shows_unique {json : Json} {first second : UInt64} (one : Shows json first)
    (other : Shows json second) : first = second := by
  rcases one with text | ⟨number, rfl⟩
  · rcases other with same | ⟨number, -⟩
    · exact UInt64.toNat_inj.mp (Nat.repr_injective (Json.str.inj (text.symm.trans same)))
    · cases text.symm.trans number
  · rcases other with text | ⟨-, rfl⟩
    · cases number.symm.trans text
    · rfl

theorem ofText_injective {first second : UInt64}
    (same : Json.ofText first.toNat = Json.ofText second.toNat) : first = second :=
  shows_unique (.inl rfl) (.inl same)

theorem spentOf_eq_of_toJson {first second : SpentOutput} (same : first.toJson = second.toJson) :
    spentOf first = spentOf second := by
  have field (key : String) := congrArg (Json.get? · key) same
  have amount := field "amount"
  have keyImage := field "key_image"
  have txPubKey := field "tx_pub_key"
  have outIndex := field "out_index"
  simp only [SpentOutput.toJson, Json.get?_obj_cons] at amount keyImage txPubKey outIndex
  simp at amount keyImage txPubKey outIndex
  have sameIndex : first.outIndex = second.outIndex :=
    Int.ofNat.inj (Json.num.inj outIndex)
  unfold spentOf
  rw [ofText_injective amount, keyImage, txPubKey, sameIndex]

theorem map_spentOf_eq_of_toJson {first second : List SpentOutput}
    (same : first.map SpentOutput.toJson = second.map SpentOutput.toJson) :
    first.map spentOf = second.map spentOf := by
  induction first generalizing second with
  | nil =>
    rw [List.map_eq_nil_iff.mp same.symm]
  | cons spent rest inductionHypothesis =>
    cases second with
    | nil => cases same
    | cons other others =>
      obtain ⟨head, tail⟩ := List.cons.inj same
      rw [List.map_cons, List.map_cons, spentOf_eq_of_toJson head, inductionHypothesis tail]

/-- What is reported is determined by the values. -/
theorem Reports.unique {json : Json} {first second : Details} (one : Reports json first)
    (other : Reports json second) : first = second := by
  obtain ⟨received, sent, spent⟩ := first
  obtain ⟨received', sent', spent'⟩ := second
  obtain rfl : received = received' :=
    ofText_injective (Option.some.inj (one.totalReceived.symm.trans other.totalReceived))
  obtain rfl : sent = sent' := by
    obtain ⟨shown, isShown, shows⟩ := one.totalSent
    obtain ⟨shown', isShown', shows'⟩ := other.totalSent
    obtain rfl := Option.some.inj (isShown.symm.trans isShown')
    exact shows_unique shows shows'
  obtain rfl : spent = spent' := by
    obtain ⟨entries, rfl, shown⟩ := one.spent
    obtain ⟨entries', rfl, shown'⟩ := other.spent
    rcases shown with shown | ⟨rfl, absent⟩
    · rcases shown' with shown' | ⟨rfl, absent'⟩
      · exact map_spentOf_eq_of_toJson (Json.arr.inj (Option.some.inj (shown.symm.trans shown')))
      · cases shown.symm.trans absent'
    · rcases shown' with shown' | ⟨rfl, -⟩
      · cases absent.symm.trans shown'
      · rfl
  rfl

/-- An entry agrees with a response exactly if they report the same. -/
theorem agree_iff {listed response : Json} {first second : Details}
    (reportsListed : Reports listed first) (reportsResponse : Reports response second) :
    Agree listed (sessionClose response) ↔ first = second := by
  constructor
  · rintro ⟨details, shown, reports, closed, reportsShown⟩
    obtain rfl := (Answer.closed.inj closed).2
    exact (reportsListed.unique reports).trans (reportsShown.unique reportsResponse)
  · rintro rfl
    exact ⟨first, response, reportsListed, rfl, reportsResponse⟩

/-- The part that the tables have for a row. -/
def storedDetails (tables : Database) (row : XmrTransaction) : Details where
  totalReceived := row.totalReceived
  totalSent := totalAmount (storedSpent tables row.id)
  spent := (storedSpent tables row.id).map spentOf

theorem entryOf_reports (tables : Database) (row : XmrTransaction) :
    Reports (entryOf tables row).toJson (storedDetails tables row) := by
  unfold entryOf storedDetails
  by_cases none : tables.inputsForTx row.id = []
  · rw [if_pos none, storedSpent_of_none none]
    refine ⟨by simp [AddressTx.toJson], ⟨.ofNat 0, by simp [AddressTx.toJson], .inr ⟨rfl, rfl⟩⟩,
      [], rfl, .inr ⟨rfl, by simp [AddressTx.toJson]⟩⟩
  · rw [if_neg none]
    refine ⟨by simp [AddressTx.toJson], ⟨_, by simp [AddressTx.toJson], .inl rfl⟩, _, rfl, .inl ?_⟩
    simp [AddressTx.toJson]

/-- The part that is identified in a transaction of the mempool, with the amounts given. -/
def pooledDetails (backend : Backend) (thread : SearchThread)
    (amount : InputInfo → XmrOutput → UInt64) (tables : Database) (tx : Transaction) : Details where
  totalReceived := calcTotalXmr (outputsIdentified backend thread tx)
  totalSent := totalStored (MempoolListing.recordedInputs backend thread tables tx)
  spent := (identified backend thread amount tables tx).map spentOf

/-- Assigning to another key changes none of this. -/
theorem Reports.set {json : Json} {details : Details} (reports : Reports json details)
    {key : String} (notReceived : key ≠ "total_received") (notSent : key ≠ "total_sent")
    (notSpent : key ≠ "spent_outputs") (value : Json) : Reports (json.set key value) details where
  totalReceived := by
    rw [Json.get?_set, if_neg notReceived]
    exact reports.totalReceived
  totalSent := by
    rw [Json.get?_set, if_neg notSent]
    exact reports.totalSent
  spent := by
    rw [Json.get?_set, if_neg notSpent]
    exact reports.spent

theorem describes_reports {backend : Backend} {thread : SearchThread} {tables : Database}
    {entry : Nat × Transaction} {json : Json}
    (describes : MempoolListing.Renders backend thread tables entry json) :
    Reports json
      (pooledDetails backend thread (fun _ out => out.amount) tables entry.2) where
  totalReceived := by
    rw [describes.totalReceived, ← MempoolTotals.calcTotalXmr_ofNat]
    rfl
  totalSent := by
    refine ⟨_, describes.totalSent, ?_⟩
    rw [← MempoolListing.totalStored_ofNat]
    exact .inl rfl
  spent := by
    refine ⟨identified backend thread (fun _ out => out.amount) tables entry.2, rfl, ?_⟩
    rw [describes.spentOutputs]
    unfold identified
    by_cases none : MempoolListing.recordedInputs backend thread tables entry.2 = []
    · rw [if_pos none, none]
      exact .inr ⟨rfl, rfl⟩
    · rw [if_neg none, List.map_map]
      exact .inl rfl

theorem numberMempool_forall₂ {Relation : (Nat × Transaction) → Json → Prop}
    (numbered : ∀ entry json id, Relation entry json → Relation entry (json.set "id" id))
    (last : Nat) {txs : List (Nat × Transaction)} {entries : List MempoolTx}
    (related : List.Forall₂ (fun entry tx => Relation entry tx.toJson) txs entries) :
    List.Forall₂ Relation txs (numberMempool last entries) := by
  induction related generalizing last with
  | nil => exact .nil
  | cons head _ inductionHypothesis =>
    exact .cons (numbered _ _ _ head) (inductionHypothesis (last + 1))

/-! ### Accesses to the search thread -/

section Live

variable {backend : Backend} {address viewKey : String} {row : XmrAccount}
  {thread : SearchThread} {world : World}

/-- An access that leaves the thread as it is leaves everything as it is. -/
theorem Live.withThread {Result : Type} (live : Live backend address viewKey row thread world)
    (absent : Result) (run : SearchThread → Result × SearchThread)
    (same : (run thread).2 = thread) :
    ∃ after, LightWallet.withThread address absent run world = ((run thread).1, after) ∧
      after.db = world.db ∧ Live backend address viewKey row thread after := by
  refine ⟨world.putThread address thread, ?_, rfl, { live with live := ?_ }⟩
  · unfold LightWallet.withThread
    rw [live.live, visited_of_uncleaned live.uncleaned]
    dsimp only
    rw [same]
  · rw [putThread_thread?, live.live]
    rfl

theorem Live.on (live : Live backend address viewKey row thread world) {db : Database}
    (valid : db.Valid) (accounts : db.accounts = world.db.accounts) :
    Live backend address viewKey row thread (world.on db) where
  quiet := live.quiet
  uncleaned := live.uncleaned
  valid := valid
  stored := accounts ▸ live.stored
  named := live.named
  viewkey := live.viewkey
  live := live.live
  threadAddress := live.threadAddress
  threadViewkey := live.threadViewkey
  parses := live.parses

theorem Live.selectAccountRow (live : Live backend address viewKey row thread world) :
    LightWallet.selectAccountRow address world = (some row, world) := by
  rw [selectAccountRow_runs address live.quiet.runs, live.quiet.next,
    selectAccount_of_mem live.valid live.stored live.named]

theorem Live.identifier (live : Live backend address viewKey row thread world) :
    backend.identifier thread.address thread.viewkey = backend.identifier address viewKey := by
  rw [live.threadAddress, live.threadViewkey]

/-! ### The list -/

/-- The request logs in. -/
theorem Live.login (live : Live backend address viewKey row thread world) (response : Json) :
    ∃ shown after, loginAndStartSearchThread backend address viewKey {} response world =
        ((true, { row with viewkey := viewKey }, shown), after) ∧
      after.db = world.db ∧ Live backend address viewKey row thread after := by
  obtain ⟨after, present, db, liveAfter⟩ :=
    live.withThread false (fun thread => (true, thread)) rfl
  refine ⟨(response.set "status" (.str "success")).set "new_address" (.bool false), after, ?_, db,
    liveAfter⟩
  unfold loginAndStartSearchThread
  rw [Handler.bind_apply, live.selectAccountRow]
  dsimp only
  rw [if_pos live.viewkey, Handler.bind_apply]
  unfold searchThreadExist
  rw [show ({ row with viewkey := viewKey } : XmrAccount).address = address from live.named,
    present]
  rfl

theorem checkAccount_accounts {db : Database} (valid : db.Valid) (accountId : Nat) :
    (checkAccount backend accountId db).accounts = db.accounts := by
  have quiet : ({ db } : World).Quiet := rfl
  have kept := check_invariant (fun after => after.accounts = db.accounts) (fun _ _ same => same)
    (fun _ _ _ same => same) backend (db.selectTransactions accountId) { db } rfl
  rw [checkAccount_quiet quiet valid] at kept
  exact kept

/-- What the request reads: the entries of the rows, and those of the mempool, which describe its
transactions. -/
theorem Live.readAddress (live : Live backend address viewKey row thread world)
    {acc : XmrAccount} (id : acc.id = row.id) :
    ∃ mempool after, LightWallet.readAddress backend address acc world =
        ({ entries := some (((world.db.selectTransactions row.id).filterMap
            (txAfterCheck backend)).map (entryOf (checkAccount backend row.id world.db))),
           mempool := some mempool }, after) ∧
      List.Forall₂ (fun entry tx => MempoolListing.Renders backend thread
          (checkAccount backend row.id world.db) entry tx.toJson)
        (backend.mempoolTxs.filter (MempoolListing.Listed backend thread
          (checkAccount backend row.id world.db))) mempool ∧
      (∀ entry ∈ mempool, entry.toJson.get? "mempool" = some (.bool true)) ∧
      after.db = checkAccount backend row.id world.db ∧
      Live backend address viewKey row thread after := by
  have checked : Live backend address viewKey row thread
      (world.on (checkAccount backend row.id world.db)) :=
    live.on (checkAccount_valid live.valid row.id) (checkAccount_accounts live.valid row.id)
  obtain ⟨after, found, db, liveAfter⟩ :=
    checked.withThread none (fun thread => (some thread, thread)) rfl
  obtain ⟨mempool, listed, describe⟩ :=
    @MempoolListing.findTxs_renders backend thread after liveAfter.quiet backend.mempoolTxs
  rw [db] at describe
  have shown := @MempoolListing.findTxs_mempool backend thread backend.mempoolTxs after
  rw [listed] at shown
  refine ⟨mempool, after, ?_, describe, shown, db, liveAfter⟩
  unfold LightWallet.readAddress
  rw [id, Handler.bind_apply, selectTransactions, query_quiet _ _ live.quiet, Handler.bind_apply,
    checkAccount_quiet live.quiet live.valid]
  dsimp only
  rw [Handler.bind_apply, readAddressTxs_eq checked.quiet]
  unfold findTxsInMempool
  rw [Handler.bind_apply, Handler.bind_apply]
  rw [found]
  dsimp only
  rw [Handler.bind_apply, listed]
  rfl

/-- The part that the list has for a transaction. -/
def listedDetails (backend : Backend) (thread : SearchThread) (tables : Database) :
    Source → Details
  | .stored row => storedDetails tables row
  | .pooled tx => pooledDetails backend thread (fun _ out => out.amount) tables tx

/-- The answer lists what the request reads. -/
theorem Live.getAddressTxs_eq (live : Live backend address viewKey row thread world)
    {request : Json}
    (credentials : readCredentials backend request = .ok (address, viewKey)) :
    ∃ response mempool after, LightWallet.getAddressTxs backend (some request) world =
        (addressTxsAnswer response
          { entries := some (((world.db.selectTransactions row.id).filterMap
              (txAfterCheck backend)).map (entryOf (checkAccount backend row.id world.db))),
            mempool := some mempool }, after) ∧
      List.Forall₂ (fun entry tx => MempoolListing.Renders backend thread
          (checkAccount backend row.id world.db) entry tx.toJson)
        (backend.mempoolTxs.filter (MempoolListing.Listed backend thread
          (checkAccount backend row.id world.db))) mempool ∧
      (∀ entry ∈ mempool, entry.toJson.get? "mempool" = some (.bool true)) ∧
      after.db = checkAccount backend row.id world.db ∧
      Live backend address viewKey row thread after := by
  obtain ⟨shown, entered, login, db, liveEntered⟩ := live.login addressTxsResponse
  obtain ⟨mempool, after, read, describe, ofMempool, dbAfter, liveAfter⟩ :=
    @Live.readAddress backend address viewKey row thread entered liveEntered
      { row with viewkey := viewKey } rfl
  rw [db] at read describe dbAfter
  refine ⟨accountHeader backend { row with viewkey := viewKey }
    (shown.set "total_received" (.ofNat 0)), mempool, after, ?_, describe, ofMempool, dbAfter,
    liveAfter⟩
  unfold LightWallet.getAddressTxs
  rw [Balances.parseRequest_of_credentials backend credentials .null]
  dsimp only
  rw [credentials]
  dsimp only
  rw [Handler.bind_apply, login]
  dsimp only
  rw [Handler.bind_apply, read]
  rfl

/-- The list has one entry for each row that the check hands on, and for each transaction of the
mempool that the account has a part in, and reports this part. -/
theorem Live.getAddressTxs (live : Live backend address viewKey row thread world) {request : Json}
    (credentials : readCredentials backend request = .ok (address, viewKey)) :
    ∃ answer after listed, LightWallet.getAddressTxs backend (some request) world =
        (answer, after) ∧
      Balances.Answer.get? answer "transactions" = some (.arr listed) ∧
      List.Forall₂ (fun source json => json.get? "hash" = some (.str source.hash) ∧
          Reports json
            (listedDetails backend thread (checkAccount backend row.id world.db) source))
        (sources backend thread row.id world.db) listed ∧
      after.db = checkAccount backend row.id world.db ∧
      Live backend address viewKey row thread after := by
  obtain ⟨response, mempool, after, answers, describe, -, dbAfter, liveAfter⟩ :=
    live.getAddressTxs_eq credentials
  let entries := ((world.db.selectTransactions row.id).filterMap (txAfterCheck backend)).map
    (entryOf (checkAccount backend row.id world.db))
  let last := ((entries.getLast?).map (·.tx.blockchainTxId)).getD 0
  refine ⟨_, after, entries.map AddressTx.toJson ++ numberMempool last mempool, answers, ?_, ?_,
    dbAfter, liveAfter⟩
  · unfold addressTxsAnswer
    simp [Balances.Answer.get?, sessionClose, entries, last]
  · refine List.rel_append ?_ ?_
    · rw [List.map_map, List.forall₂_map_left_iff, List.forall₂_map_right_iff]
      exact List.forall₂_same.mpr fun tx _ =>
        ⟨by simp [entryOf, AddressTx.toJson, Source.hash]; split <;> simp,
          entryOf_reports _ tx⟩
    · rw [List.forall₂_map_left_iff]
      refine numberMempool_forall₂ (fun entry json id related => ?_) last
        (describe.imp fun entry tx describes => ?_)
      · refine ⟨?_, related.2.set (by decide) (by decide) (by decide) id⟩
        rw [Json.get?_set, if_neg (by decide)]
        exact related.1
      · exact ⟨describes.hash, describes_reports describes⟩

end Live

/-! ### The details -/

/-- What the tables have for a transaction of the blockchain, and what is identified as received. -/
def chainDetails (backend : Backend) (thread : SearchThread) (accountId : Nat) (tables : Database)
    (tx : Transaction) (hash : String) : Details where
  totalReceived := calcTotalXmr (outputsIdentified backend thread tx)
  totalSent := totalAmount (storedFor accountId tables hash)
  spent := (storedFor accountId tables hash).map spentOf

/-- The part that the request for the details reports of a transaction that it has found. -/
def shownDetails (backend : Backend) (thread : SearchThread) (accountId : Nat) (tables : Database)
    (tx : Transaction) (hash : String) (inMempool : Bool) : Details :=
  if inMempool then pooledDetails backend thread cached tables tx
  else chainDetails backend thread accountId tables tx hash

theorem Reports.setSpent {json : Json} {details : Details} (reports : Reports json details)
    (total : UInt64) (spent : List SpentOutput) :
    Reports (setSpent total spent json)
      { details with totalSent := total, spent := spent.map spentOf } where
  totalReceived := by
    unfold LightWallet.setSpent
    rw [Json.get?_set, if_neg (by decide), Json.get?_set, if_neg (by decide)]
    exact reports.totalReceived
  totalSent := by
    refine ⟨.ofText total.toNat, ?_, .inl rfl⟩
    unfold LightWallet.setSpent
    rw [Json.get?_set, if_neg (by decide), Json.get?_set, if_pos rfl]
  spent := by
    refine ⟨spent, rfl, .inl ?_⟩
    unfold LightWallet.setSpent
    rw [Json.get?_set, if_pos rfl]

theorem txJson_reports (txHash : String) (tx : Transaction) (receiveTime : Option Nat)
    (total : UInt64) :
    Reports ((txJson txHash tx receiveTime).set "total_received" (.ofText total.toNat))
      ⟨total, 0, []⟩ where
  totalReceived := by rw [Json.get?_set, if_pos rfl]
  totalSent := by
    refine ⟨.ofText 0, ?_, .inl rfl⟩
    rw [Json.get?_set, if_neg (by decide)]
    simp [txJson]
    rfl
  spent := ⟨[], rfl, .inr ⟨rfl, by simp [txJson]⟩⟩

theorem Reports.finishTx {json : Json} {details : Details} (reports : Reports json details)
    (backend : Backend) (txHash : String) :
    Reports (finishTx backend txHash json) details := by
  unfold LightWallet.finishTx
  exact (((reports.set (by decide) (by decide) (by decide) _).set (by decide) (by decide)
    (by decide) _).set (by decide) (by decide) (by decide) _).set (by decide) (by decide)
      (by decide) _

section Live

variable {backend : Backend} {address viewKey : String} {row : XmrAccount}
  {thread : SearchThread} {world : World}

/-- The spendings of a transaction of the blockchain are those of its row. -/
theorem Live.storedSpendings (live : Live backend address viewKey row thread world)
    (accountId : Nat) (hash : String) {json : Json} {received : UInt64}
    (reports : Reports json ⟨received, 0, []⟩) :
    Reports (LightWallet.storedSpendings accountId hash json world).1
      ⟨received, totalAmount (storedFor accountId world.db hash),
        (storedFor accountId world.db hash).map spentOf⟩ := by
  unfold LightWallet.storedSpendings storedFor
  rw [Handler.bind_apply, txExists, query_quiet _ _ live.quiet]
  dsimp only
  cases world.db.txExists accountId hash with
  | none => exact reports
  | some stored =>
    dsimp only [Option.map_some, Option.getD_some]
    have named : Reports (json.set "payment_id" (.str stored.paymentId)) _ :=
      reports.set (by decide) (by decide) (by decide) _
    have stamped : Reports ((json.set "payment_id" (.str stored.paymentId)).set "timestamp"
        (.ofNat (stored.timestamp * 1000))) _ :=
      named.set (by decide) (by decide) (by decide) _
    rw [Handler.bind_apply, selectInputsForTx, query_quiet _ _ live.quiet]
    dsimp only
    cases inputs : world.db.inputsForTx stored.id with
    | nil =>
      rw [storedSpent_of_none inputs]
      exact stamped
    | cons input rest =>
      dsimp only
      rw [Handler.bind_apply, spentByInputs_eq live.quiet, ← inputs]
      exact stamped.setSpent _ _

/-- The spendings of a transaction of the mempool are identified, with the amounts of the cache. -/
theorem Live.mempoolSpendings (live : Live backend address viewKey row thread world)
    (tx : Transaction) {json : Json} {received : UInt64}
    (reports : Reports json ⟨received, 0, []⟩) :
    Reports (LightWallet.mempoolSpendings backend address viewKey tx json world).1
      ⟨received, totalStored (MempoolListing.recordedInputs backend thread world.db tx),
        (identified backend thread cached world.db tx).map spentOf⟩ := by
  obtain ⟨after, found, db, liveAfter⟩ :=
    live.withThread none (fun thread => (some thread.known, thread)) rfl
  have recorded : knownSpent ((backend.identifier address viewKey).inputs thread.known tx) after =
      (MempoolListing.recordedInputs backend thread world.db tx, after) := by
    rw [← db, ← live.identifier]
    exact MempoolListing.knownSpent_recorded liveAfter.quiet _
  unfold LightWallet.mempoolSpendings getKnownOutputsKeys
  rw [Handler.bind_apply, found]
  dsimp only
  rw [Handler.bind_apply, recorded]
  exact reports.setSpent _ _

/-- A transaction that is found is reported. -/
theorem Live.identifyTx (live : Live backend address viewKey row thread world)
    (hash : String) (tx : Transaction) (receiveTime : Option Nat) :
    ∃ response, (LightWallet.identifyTx backend address viewKey hash hash tx receiveTime.isSome
        (txJson hash tx receiveTime) world).1 = sessionClose response ∧
      Reports response
        (shownDetails backend thread row.id world.db tx hash receiveTime.isSome) := by
  obtain ⟨after, present, db, liveAfter⟩ :=
    live.withThread false (fun thread => (true, thread)) rfl
  have received : calcTotalXmr ((backend.identifier address viewKey).outputs tx) =
      calcTotalXmr (outputsIdentified backend thread tx) := by
    unfold outputsIdentified
    rw [live.identifier]
  have reports := txJson_reports hash tx receiveTime
    (calcTotalXmr (outputsIdentified backend thread tx))
  unfold LightWallet.identifyTx getXmrAddressViewkey searchThreadExist
  rw [Handler.bind_apply, present]
  dsimp only
  rw [if_pos rfl, if_pos live.parses, Handler.bind_apply, received]
  refine ⟨_, rfl, Reports.finishTx ?_ backend hash⟩
  unfold spendings shownDetails
  rw [Handler.bind_apply, liveAfter.selectAccountRow]
  dsimp only
  cases receiveTime with
  | none =>
    have shown := liveAfter.storedSpendings row.id hash reports
    rw [db] at shown
    exact shown
  | some time =>
    have shown := liveAfter.mempoolSpendings tx reports
    rw [db] at shown
    exact shown

/-- The request for the details of a transaction that there is. -/
theorem Live.getTx (live : Live backend address viewKey row thread world) {hash : String}
    (readsBack : backend.hexToPod hash = some hash) :
    (lookUpRequested backend hash = none →
        ∃ response, (LightWallet.getTx backend (some (txRequest address viewKey hash)) world).1 =
          sessionCloseError response (" Cant get tx details for" ++ hash)) ∧
      ∀ tx receiveTime, lookUpRequested backend hash = some (tx, receiveTime) →
        ∃ response, (LightWallet.getTx backend (some (txRequest address viewKey hash)) world).1 =
            sessionClose response ∧
          Reports response
            (shownDetails backend thread row.id world.db tx hash receiveTime.isSome) := by
  have asked : readTxRequest (txRequest address viewKey hash) = some (address, viewKey, hash) := by
    simp [readTxRequest, txRequest, Json.read, Json.asString?]
  have parsed : parseRequest (some (txRequest address viewKey hash))
      ["address", "view_key", "tx_hash"] .null = .ok (txRequest address viewKey hash) := by
    simp [parseRequest, txRequest, Json.has]
  unfold LightWallet.getTx
  rw [parsed]
  dsimp only
  rw [asked]
  dsimp only
  rw [readsBack]
  dsimp only
  constructor
  · intro none
    rw [none]
    exact ⟨_, rfl⟩
  · intro tx receiveTime found
    rw [found]
    exact live.identifyTx hash tx receiveTime

end Live

/-! ### What the rows have received -/

section Received

variable {backend : Backend} {exist : Transaction → Prop} {address viewKey : String}
  {accountId : Nat} {db after : Database}

theorem TotalsRight.of_rows (right : TotalsRight backend exist address viewKey accountId db)
    (old : ∀ row ∈ after.transactions, ∃ before ∈ db.transactions,
      before.accountId = row.accountId ∧ before.hash = row.hash ∧
        before.totalReceived = row.totalReceived) :
    TotalsRight backend exist address viewKey accountId after := by
  intro row member ours
  obtain ⟨before, inRows, account, hash, received⟩ := old row member
  rw [← hash, ← received]
  exact right before inRows (account.trans ours)

theorem TotalsRight.sublist (right : TotalsRight backend exist address viewKey accountId db)
    (old : ∀ row ∈ after.transactions, row ∈ db.transactions) :
    TotalsRight backend exist address viewKey accountId after :=
  right.of_rows fun row member => ⟨row, old row member, rfl, rfl, rfl⟩

theorem TotalsRight.markTxSpendable
    (right : TotalsRight backend exist address viewKey accountId db) (txId now : Nat) :
    TotalsRight backend exist address viewKey accountId (db.markTxSpendable txId now).2 := by
  refine right.of_rows fun row member => ?_
  obtain ⟨before, inRows, rfl⟩ := List.mem_map.mp member
  refine ⟨before, inRows, ?_⟩
  split <;> exact ⟨rfl, rfl, rfl⟩

/-- A step keeps the totals right: the one row that a pass may add has the total of what the pass
identifies. -/
theorem totalsRight_step {event : Balances.Event}
    (right : TotalsRight backend exist address viewKey accountId db)
    (recorded : Recorded backend exist address viewKey accountId event) :
    TotalsRight backend exist address viewKey accountId (Balances.step db event) := by
  cases event with
  | create row =>
    refine right.sublist fun other member => ?_
    rwa [← Depth.createRow_transactions db row]
  | save answers id scannedHeight startHeight blkTimestamp =>
    refine right.sublist fun other member => ?_
    rwa [← Depth.saveRow_transactions db answers id scannedHeight startHeight blkTimestamp]
  | pass wallet status tuple tx outcomes known blkTimestamp =>
    have cleared : TotalsRight backend exist address viewKey accountId
        (clearedDb wallet tx outcomes db) :=
      right.sublist fun other member =>
        @Depth.mem_clearedDb wallet tx outcomes ⟨db, known, blkTimestamp⟩ other member
    show TotalsRight backend exist address viewKey accountId (recordTx _ _ _ _ _ _).2.db
    rcases recordTx_cases wallet status tuple tx outcomes ⟨db, known, blkTimestamp⟩ with
      ⟨-, same | clears⟩ | ⟨-, -, filled⟩
    · rw [same]
      exact right
    · rw [clears]
      exact cleared
    · rw [filled]
      intro row member ours
      rcases mem_filledDb_transactions.mp member with old | rfl
      · exact cleared row old ours
      · obtain ⟨keys, exists'⟩ := recorded ours
        refine ⟨tx, exists', rfl, ?_⟩
        rw [← keys]
        rfl
  | check checker id throwing =>
    exact Balances.step_check_invariant (TotalsRight backend exist address viewKey accountId)
      (fun before txId kept => kept.sublist fun row member =>
        (Database.mem_deleteTx_transactions.mp member).1)
      (fun before txId now kept => kept.markTxSpendable txId now) checker id throwing right

/-- They are right after every run of events that record what is there for the account. -/
theorem totalsRight_run (events : List Balances.Event)
    (recorded : ∀ event ∈ events, Recorded backend exist address viewKey accountId event) :
    TotalsRight backend exist address viewKey accountId (Runs.run Balances.step {} events) :=
  Runs.run_invariant Balances.step
    (fun _ event => Recorded backend exist address viewKey accountId event)
    (TotalsRight backend exist address viewKey accountId)
    (fun _ _ right recordedStep => totalsRight_step right recordedStep) events {}
    (fun _ member => absurd member List.not_mem_nil)
    (Runs.along_of_forall recorded)

end Received

/-! ### Rows that the check hands on -/

/-- The row that is handed on tells what the row in the tables does. -/
theorem txAfterCheck_some {backend : Backend} {old row : XmrTransaction}
    (handed : txAfterCheck backend old = some row) :
    (row.id = old.id ∧ row.hash = old.hash ∧ row.totalReceived = old.totalReceived) ∧
      ∃ kept, rowAfterCheck backend old = some kept ∧ kept.id = old.id ∧ kept.hash = old.hash ∧
        kept.accountId = old.accountId := by
  unfold txAfterCheck at handed
  unfold rowAfterCheck
  by_cases spendable : old.spendable = true
  · rw [if_pos spendable] at handed ⊢
    cases handed
    exact ⟨⟨rfl, rfl, rfl⟩, _, rfl, rfl, rfl, rfl⟩
  rw [if_neg spendable] at handed ⊢
  by_cases unlocked : isTxUnlocked backend.status old.unlockTime old.height = true
  · rw [if_pos unlocked] at handed ⊢
    cases handed
    exact ⟨⟨rfl, rfl, rfl⟩, _, rfl, rfl, rfl, rfl⟩
  rw [if_neg unlocked] at handed ⊢
  by_cases orphaned : Orphaned backend old
  · rw [if_pos orphaned] at handed
    cases handed
  · rw [if_neg orphaned] at handed ⊢
    cases handed
    exact ⟨⟨rfl, rfl, rfl⟩, _, rfl, rfl, rfl, rfl⟩

/-- The tables that the check leaves have one row under its hash. -/
theorem storedFor_checked {backend : Backend} {accountId : Nat} {db : Database} (valid : db.Valid)
    {old row : XmrTransaction} (selected : old ∈ db.selectTransactions accountId)
    (handed : txAfterCheck backend old = some row) :
    storedFor accountId (checkAccount backend accountId db) row.hash =
      storedSpent (checkAccount backend accountId db) row.id := by
  obtain ⟨⟨id, hash, -⟩, kept, keeps, keptId, keptHash, keptAccount⟩ := txAfterCheck_some handed
  obtain ⟨inRows, ours⟩ := List.mem_filter.mp selected
  have ours : old.accountId = accountId := of_decide_eq_true ours
  have stays : kept ∈ (checkAccount backend accountId db).transactions := by
    rw [checkAccount_transactions valid]
    exact List.mem_filterMap.mpr ⟨old, inRows, by rw [if_pos ours, keeps]⟩
  have found : (checkAccount backend accountId db).txExists accountId row.hash = some kept := by
    refine Tables.find?_eq_some_of_unique stays ?_ fun other inChecked holds => ?_
    · exact decide_eq_true ⟨keptAccount.trans ours, keptHash.trans hash.symm⟩
    · obtain ⟨account, same⟩ := of_decide_eq_true holds
      refine (checkAccount_valid valid accountId).transactionHashes.eq_of_key inChecked stays ?_
      exact Prod.ext (same.trans (hash.trans keptHash.symm))
        (account.trans (keptAccount.trans ours).symm)
  unfold storedFor
  rw [found, Option.map_some, Option.getD_some, keptId, id]

/-! ### When both report the same -/

theorem totalAmount_congr {first second : List SpentOutput}
    (same : first.map spentOf = second.map spentOf) : totalAmount first = totalAmount second := by
  have summed (spent : List SpentOutput) : totalAmount spent =
      (spent.map spentOf).foldl (fun total entry => total + entry.amount) 0 := by
    rw [List.foldl_map]
    rfl
  rw [summed, summed, same]

/-- The total that is reported of the mempool is that of the stored amounts. -/
theorem totalStored_eq (backend : Backend) (thread : SearchThread) (tables : Database)
    (tx : Transaction) : totalStored (MempoolListing.recordedInputs backend thread tables tx) =
      totalAmount (identified backend thread (fun _ out => out.amount) tables tx) := by
  unfold totalAmount identified
  rw [List.foldl_map]
  rfl

/-- The amounts are the only difference that there can be. -/
theorem identified_cached_iff (backend : Backend) (thread : SearchThread) (tables : Database)
    (tx : Transaction) :
    (identified backend thread (fun _ out => out.amount) tables tx).map spentOf =
        (identified backend thread cached tables tx).map spentOf ↔
      ∀ found ∈ MempoolListing.recordedInputs backend thread tables tx,
        found.1.amount = found.2.amount := by
  unfold identified
  rw [List.map_map, List.map_map, List.map_inj_left]
  refine forall_congr' fun found => imp_congr_right fun _ => ?_
  refine ⟨fun same => (congrArg Spent.amount same).symm, fun same => ?_⟩
  simp only [Function.comp_apply, spentOf, identifiedSpent, cached, same]

section Found

variable {backend : Backend} {hash : String}

theorem lookUpRequested_chain {tx : Transaction} (found : backend.getTx hash = some tx) :
    lookUpRequested backend hash = some (tx, none) := by
  unfold lookUpRequested
  rw [found]

theorem lookUpRequested_mempool (absent : backend.getTx hash = none) :
    (∃ entry ∈ backend.mempoolTxs, entry.2.hash = hash ∧
        lookUpRequested backend hash = some (entry.2, some entry.1)) ∨
      (∀ entry ∈ backend.mempoolTxs, entry.2.hash ≠ hash) ∧
        lookUpRequested backend hash = none := by
  unfold lookUpRequested
  rw [absent]
  dsimp only
  cases found : backend.mempoolTxs.find? (·.2.hash = hash) with
  | none =>
    refine .inr ⟨fun entry member same => ?_, rfl⟩
    exact List.find?_eq_none.mp found entry member (decide_eq_true same)
  | some entry =>
    have named := List.find?_some found
    exact .inl ⟨entry, List.mem_of_find?_eq_some found, of_decide_eq_true named, rfl⟩

end Found

section Agreement

variable {backend : Backend} {exist : Transaction → Prop} {address viewKey : String}
  {row : XmrAccount} {thread : SearchThread} {world : World}

/-- An error agrees with nothing. -/
theorem not_agree_of_error {listed response : Json} {reason : String} :
    ¬ Agree listed (sessionCloseError response reason) := by
  rintro ⟨details, shown, -, closed, -⟩
  unfold sessionCloseError at closed
  exact absurd (Answer.closed.inj closed).1 (by decide)

/-- A row's details agree. -/
theorem Live.agree_stored_iff (live : Live backend address viewKey row thread world)
    (ledger : Ledger backend exist) {stored : XmrTransaction} {json : Json}
    (reports : Reports json (storedDetails world.db stored)) {tx : Transaction} (exists' : exist tx)
    (named : tx.hash = stored.hash)
    (received : stored.totalReceived =
      calcTotalXmr ((backend.identifier address viewKey).outputs tx))
    (own : storedFor row.id world.db stored.hash = storedSpent world.db stored.id) :
    Agree json (LightWallet.getTx backend (some (txRequest address viewKey stored.hash)) world).1 ↔
      Met backend thread row.id world.db (.stored stored) := by
  have readsBack : backend.hexToPod stored.hash = some stored.hash := by
    rw [← named]
    exact ledger.readsBack tx exists'
  obtain ⟨missing, shown⟩ := live.getTx readsBack
  have identifies : calcTotalXmr (outputsIdentified backend thread tx) = stored.totalReceived := by
    rw [received, ← live.identifier]
    rfl
  unfold Met
  dsimp only
  cases chain : backend.getTx stored.hash with
  | some found =>
    obtain ⟨foundExists, foundNamed⟩ := ledger.chain _ found chain
    obtain rfl := ledger.unique _ _ exists' foundExists (named.trans foundNamed.symm)
    obtain ⟨response, answers, reportsResponse⟩ := shown tx none (lookUpRequested_chain chain)
    rw [answers, agree_iff reports reportsResponse]
    refine iff_of_true ?_ (.inl (Option.some_ne_none tx))
    show storedDetails world.db stored = chainDetails backend thread row.id world.db tx stored.hash
    unfold storedDetails chainDetails
    rw [own, identifies]
  | none =>
    rcases lookUpRequested_mempool chain with ⟨entry, member, same, looks⟩ | ⟨absent, looks⟩
    · obtain rfl := ledger.unique _ _ (ledger.mempool entry member) exists' (same.trans named.symm)
      obtain ⟨response, answers, reportsResponse⟩ := shown _ _ looks
      rw [answers, agree_iff reports reportsResponse]
      show storedDetails world.db stored = pooledDetails backend thread cached world.db entry.2 ↔ _
      unfold storedDetails pooledDetails
      rw [Details.mk.injEq, identifies]
      constructor
      · rintro ⟨-, sent, spent⟩
        exact .inr ⟨entry, member, same, spent.symm, sent.symm⟩
      · rintro (mined | ⟨other, inMempool, otherNamed, spent, sent⟩)
        · exact absurd rfl mined
        · have alike : other.2 = entry.2 :=
            ledger.unique _ _ (ledger.mempool other inMempool) exists'
              (otherNamed.trans named.symm)
          rw [alike] at spent sent
          exact ⟨rfl, sent.symm, spent.symm⟩
    · obtain ⟨response, answers⟩ := missing looks
      rw [answers]
      refine iff_of_false not_agree_of_error ?_
      rintro (mined | ⟨entry, member, same, -⟩)
      · exact mined rfl
      · exact absent entry member same

/-- The details of a transaction of the mempool agree. -/
theorem Live.agree_pooled_iff (live : Live backend address viewKey row thread world)
    (ledger : Ledger backend exist) {entry : Nat × Transaction}
    (member : entry ∈ backend.mempoolTxs) {json : Json}
    (reports : Reports json
      (pooledDetails backend thread (fun _ out => out.amount) world.db entry.2)) :
    Agree json
        (LightWallet.getTx backend (some (txRequest address viewKey entry.2.hash)) world).1 ↔
      Met backend thread row.id world.db (.pooled entry.2) := by
  have exists' := ledger.mempool entry member
  obtain ⟨-, shown⟩ := live.getTx (ledger.readsBack _ exists')
  unfold Met
  dsimp only
  cases chain : backend.getTx entry.2.hash with
  | some found =>
    obtain ⟨foundExists, foundNamed⟩ := ledger.chain _ found chain
    obtain rfl := ledger.unique _ _ exists' foundExists foundNamed.symm
    obtain ⟨response, answers, reportsResponse⟩ := shown _ none (lookUpRequested_chain chain)
    rw [answers, agree_iff reports reportsResponse, if_neg (Option.some_ne_none _)]
    show pooledDetails backend thread _ world.db entry.2 =
      chainDetails backend thread row.id world.db entry.2 entry.2.hash ↔ _
    unfold pooledDetails chainDetails
    rw [Details.mk.injEq, totalStored_eq]
    constructor
    · rintro ⟨-, -, spent⟩
      exact spent.symm
    · intro spent
      exact ⟨rfl, totalAmount_congr spent.symm, spent.symm⟩
  | none =>
    rw [if_pos rfl]
    rcases lookUpRequested_mempool chain with ⟨other, inMempool, same, looks⟩ | ⟨absent, -⟩
    · have alike : other.2 = entry.2 :=
        ledger.unique _ _ (ledger.mempool other inMempool) exists' same
      obtain ⟨response, answers, reportsResponse⟩ := shown _ _ looks
      rw [answers, agree_iff reports reportsResponse, alike]
      show pooledDetails backend thread _ world.db entry.2 =
        pooledDetails backend thread cached world.db entry.2 ↔ _
      unfold pooledDetails
      rw [Details.mk.injEq, ← identified_cached_iff]
      simp only [true_and]
    · exact absurd rfl (absent entry member)

/-- The list, with what decides for each transaction whether its details agree. -/
theorem Live.agree_each (live : Live backend address viewKey row thread world)
    (ledger : Ledger backend exist)
    (right : TotalsRight backend exist address viewKey row.id world.db) {request : Json}
    (credentials : readCredentials backend request = .ok (address, viewKey)) :
    ∃ listed,
      Balances.Answer.get? (LightWallet.getAddressTxs backend (some request) world).1
          "transactions" = some (.arr listed) ∧
        List.Forall₂ (fun source json => json.get? "hash" = some (.str source.hash) ∧
            (Agree json (LightWallet.getTx backend (some (txRequest address viewKey source.hash))
                (LightWallet.getAddressTxs backend (some request) world).2).1 ↔
              Met backend thread row.id (checkAccount backend row.id world.db) source))
          (sources backend thread row.id world.db) listed := by
  obtain ⟨answer, after, listed, runs, shown, reported, db, liveAfter⟩ :=
    live.getAddressTxs credentials
  rw [runs]
  refine ⟨listed, shown, ?_⟩
  have inSources := (List.forall₂_and_left _ _).mpr ⟨fun source member => member, reported⟩
  refine inSources.imp fun source json both => ?_
  obtain ⟨member, named, reports⟩ := both
  refine ⟨named, ?_⟩
  rw [← db] at reports ⊢
  rcases List.mem_append.mp member with fromRows | fromMempool
  · obtain ⟨stored, handed, rfl⟩ := List.mem_map.mp fromRows
    obtain ⟨old, selected, check⟩ := List.mem_filterMap.mp handed
    obtain ⟨⟨-, hash, total⟩, -⟩ := txAfterCheck_some check
    obtain ⟨inRows, ours⟩ := List.mem_filter.mp selected
    obtain ⟨tx, exists', txNamed, received⟩ := right old inRows (of_decide_eq_true ours)
    have own := storedFor_checked live.valid selected check
    rw [← db] at own
    exact liveAfter.agree_stored_iff ledger reports exists' (txNamed.trans hash.symm)
      (total.trans received) own
  · obtain ⟨entry, kept, rfl⟩ := List.mem_map.mp fromMempool
    exact liveAfter.agree_pooled_iff ledger (List.mem_filter.mp kept).1 reports

end Agreement

/-! ### Every reachable state -/

/-- The details of every transaction that is listed agree with the list. -/
def DetailsAgree (backend : Backend) (address viewKey : String) (request : Json) (world : World) :
    Prop :=
  ∃ listed,
    Balances.Answer.get? (LightWallet.getAddressTxs backend (some request) world).1
        "transactions" = some (.arr listed) ∧
      ∀ json ∈ listed, ∃ hash, json.get? "hash" = some (.str hash) ∧
        Agree json (LightWallet.getTx backend (some (txRequest address viewKey hash))
          (LightWallet.getAddressTxs backend (some request) world).2).1

/-- What holds of related items together holds of all of the one list if it does of the other. -/
theorem forall_iff_of_forall₂ {Left Right : Type} {related : Left → Right → Prop}
    (holdsRight : Right → Prop) (holdsLeft : Left → Prop)
    (together : ∀ left right, related left right → (holdsRight right ↔ holdsLeft left))
    {lefts : List Left} {rights : List Right} (each : List.Forall₂ related lefts rights) :
    (∀ right ∈ rights, holdsRight right) ↔ ∀ left ∈ lefts, holdsLeft left := by
  induction each with
  | nil => simp
  | cons head _ inductionHypothesis =>
    rw [List.forall_mem_cons, List.forall_mem_cons, together _ _ head, inductionHypothesis]

theorem Live.detailsAgree_of_each {backend : Backend} {exist : Transaction → Prop}
    {address viewKey : String} {row : XmrAccount} {thread : SearchThread} {world : World}
    (live : Live backend address viewKey row thread world) (ledger : Ledger backend exist)
    (right : TotalsRight backend exist address viewKey row.id world.db) {request : Json}
    (credentials : readCredentials backend request = .ok (address, viewKey)) :
    DetailsAgree backend address viewKey request world ↔
      ∀ source ∈ sources backend thread row.id world.db,
        Met backend thread row.id (checkAccount backend row.id world.db) source := by
  obtain ⟨listed, shown, each⟩ := live.agree_each ledger right credentials
  have all := forall_iff_of_forall₂ (fun json => ∃ hash, json.get? "hash" = some (.str hash) ∧
      Agree json (LightWallet.getTx backend (some (txRequest address viewKey hash))
        (LightWallet.getAddressTxs backend (some request) world).2).1)
    (Met backend thread row.id (checkAccount backend row.id world.db))
    (fun source json both => ?_) each
  · rw [← all]
    constructor
    · rintro ⟨others, same, agree⟩
      obtain rfl := Json.arr.inj (Option.some.inj (shown.symm.trans same))
      exact agree
    · exact fun agree => ⟨listed, shown, agree⟩
  · rw [← both.2]
    constructor
    · rintro ⟨hash, isHash, agrees⟩
      obtain rfl := Json.str.inj (Option.some.inj (both.1.symm.trans isHash))
      exact agrees
    · exact fun agrees => ⟨source.hash, both.1, agrees⟩

/-- In every state that is reached by recording transactions there are, the details of all listed
transactions agree with the list exactly if the condition is met for each of them. -/
theorem detailsAgree_iff {backend : Backend} {exist : Transaction → Prop}
    (ledger : Ledger backend exist) {address viewKey : String} {row : XmrAccount}
    {thread : SearchThread} {world : World} (events : List Balances.Event)
    (recorded : ∀ event ∈ events, Recorded backend exist address viewKey row.id event)
    (reached : world.db = Runs.run Balances.step {} events)
    (live : Live backend address viewKey row thread world) {request : Json}
    (credentials : readCredentials backend request = .ok (address, viewKey)) :
    DetailsAgree backend address viewKey request world ↔
      ∀ source ∈ sources backend thread row.id world.db,
        Met backend thread row.id (checkAccount backend row.id world.db) source := by
  have right := totalsRight_run events recorded
  rw [← reached] at right
  exact live.detailsAgree_of_each ledger right credentials

/-! ### A spending in the mempool -/

/-- Transaction `a1` is in the blockchain. Transaction `b2` spends its output and is in the mempool;
it may have got into the blockchain since the mempool was read. -/
def shop (mined : Bool) : Backend :=
  { Balances.backend with
    identifier := fun _ _ => Balances.sharedKeys
    getTx := fun hash => if hash = "a1" ∨ mined ∧ hash = "b2" then some { hash } else none
    mempoolTxs := [(1600000000, { hash := "b2" })] }

/-- There are no other transactions. -/
def Sold (tx : Transaction) : Prop := tx = { hash := "a1" } ∨ tx = { hash := "b2" }

theorem shop_ledger (mined : Bool) : Ledger (shop mined) Sold where
  unique := by
    rintro first second (rfl | rfl) (rfl | rfl) same
    · rfl
    · exact absurd same (by decide)
    · exact absurd same (by decide)
    · rfl
  readsBack := fun _ _ => rfl
  chain hash tx found := by
    obtain ⟨named, same⟩ := Option.ite_none_right_eq_some.mp found
    obtain rfl := Option.some.inj same
    refine ⟨named.imp ?_ fun both => ?_, rfl⟩
    · rintro rfl
      rfl
    · rw [both.2]
  mempool entry member := .inr (by rw [List.mem_singleton.mp member])

/-- The output of `a1` is recorded. -/
def bought : List Balances.Event :=
  [.create (Balances.account 0 "4ApA"), Balances.records (Balances.account 1 "4ApA") "a1" []]

theorem bought_recorded (mined : Bool) :
    ∀ event ∈ bought, Recorded (shop mined) Sold "4ApA" "c0de" 1 event := by
  intro event member
  rcases List.mem_cons.mp member with rfl | rest
  · trivial
  · rw [List.mem_singleton.mp rest]
    exact fun _ => ⟨rfl, .inl rfl⟩

/-- `b2` is not scanned yet, and the cache has the output. -/
def customer : World where
  db := Runs.run Balances.step {} bought
  searchingThreads := [("4ApA", MempoolListing.poolThread)]

theorem customer_live (mined : Bool) :
    Live (shop mined) "4ApA" "c0de" (Balances.account 1 "4ApA") MempoolListing.poolThread
      customer where
  quiet := rfl
  uncleaned := rfl
  valid := by decide +kernel
  stored := by decide +kernel
  named := rfl
  viewkey := rfl
  live := rfl
  threadAddress := rfl
  threadViewkey := rfl
  parses := rfl

/-- While `b2` is in the mempool, the details of both transactions agree. -/
theorem detailsAgree_iff_customer :
    DetailsAgree (shop false) "4ApA" "c0de" (Balances.request "4ApA") customer :=
  (detailsAgree_iff (shop_ledger false) bought (bought_recorded false) rfl (customer_live false)
    rfl).mpr (by decide +kernel)

/-- When `b2` is mined and not scanned yet, the list has its spending and the details have none. -/
theorem not_detailsAgree :
    ¬ DetailsAgree (shop true) "4ApA" "c0de" (Balances.request "4ApA") customer := by
  have right : TotalsRight (shop true) Sold "4ApA" "c0de" 1 customer.db :=
    totalsRight_run bought (bought_recorded true)
  rw [(customer_live true).detailsAgree_of_each (shop_ledger true) right rfl]
  decide +kernel

end LightWallet.TxDetails
