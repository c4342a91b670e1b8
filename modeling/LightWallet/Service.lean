/-
This file holds what a request works on: the database, the map of search
threads, and what the service reads off the blockchain, the mempool and its
configuration.

A request is a function on the world. Each statement it runs takes one entry of
the list of faults, and answers as the code does on an exception when that entry
says so. Each access to the map of search threads takes one entry of another
list, which says whether the monitor has removed the account's thread before it.
-/

import LightWallet.Json
import LightWallet.SearchThread
import LightWallet.Unlocking

namespace LightWallet

/-! ### The world -/

/-- What a request reads that is not in the database: the configuration, the blockchain, the
mempool, and functions of the libraries the service is built on. -/
structure Backend where
  status : Status
  importFee : Nat := 0
  maxNumberOfBlocksToImport : Nat := 132000
  lastBlockTimestamp : Nat := 0
  makeHash : String → String
  conversionError : Json → String
  lexicalCast : String → Option Nat
  hexToPod : String → Option String
  parsesAccount : String → String → Bool
  identifier : String → String → Identifier
  startsThread : Bool := true
  getTx : String → Option Transaction
  txExist : String → Option Nat
  txBlockHeight : String → Option Nat
  mempoolTxs : List (Nat × Transaction) := []
  randomPaymentId8 : String := ""
  podToHex : String → String
  integratedAddressOf : String → String
  blockTxs : Nat → Option (List Transaction)
  hexToPaymentId : String → Option String
  integratedPaymentId : Transaction → String
  amountPaid : Transaction → UInt64
  hardForkVersion : Nat := 0
  dynamicBaseFeeEstimate : Nat := 0

/-- `get_account_integrated_address_as_str` of a text, which is empty when the text is no payment
id. The overload for a payment id is the library's. -/
def Backend.integratedAddress (backend : Backend) (paymentId8Str : String) : String :=
  match backend.hexToPaymentId paymentId8Str with
  | none => ""
  | some paymentId8 => backend.integratedAddressOf paymentId8

/-- A backend of an empty blockchain, on which every hash is the hashed text. -/
def Backend.empty : Backend where
  status := { currentHeight := 0 }
  makeHash text := text
  conversionError _ := ""
  lexicalCast _ := none
  hexToPod := some
  parsesAccount _ _ := true
  identifier _ _ := { outputs := fun _ => [], inputs := fun _ _ => [] }
  getTx _ := none
  txExist _ := none
  txBlockHeight _ := none
  podToHex pod := pod
  integratedAddressOf pod := pod
  blockTxs _ := none
  hexToPaymentId := some
  integratedPaymentId _ := ""
  amountPaid _ := 0

/-- `moved` is not the code's: the search positions that requests have set, the latest first. -/
structure World where
  db : Database
  searchingThreads : List (String × SearchThread) := []
  throwing : List Bool := []
  cleaned : List Bool := []
  moved : List (String × Nat) := []

/-- The world with another database. -/
abbrev World.on (world : World) (db : Database) : World := { world with db }

/-- A computation on the world. -/
def Handler (Result : Type) : Type := World → Result × World

instance : Monad Handler where
  pure result := fun world => (result, world)
  bind first rest := fun world => rest (first world).1 (first world).2

namespace Handler

variable {Result Next : Type}

@[simp] theorem pure_apply (result : Result) (world : World) :
    (pure result : Handler Result) world = (result, world) := rfl

@[simp] theorem bind_apply (first : Handler Result) (rest : Result → Handler Next)
    (world : World) : (first >>= rest) world = rest (first world).1 (first world).2 := rfl

theorem bind_assoc {Last : Type} (first : Handler Result) (second : Result → Handler Next)
    (third : Next → Handler Last) :
    first >>= second >>= third = first >>= fun result => second result >>= third := rfl

end Handler

/-! ### Statements -/

/-- The next statement throws. -/
def World.throws (world : World) : Bool := world.throwing.headD false

/-- The world with the next entry of the list of faults taken. -/
def World.next (world : World) : World := { world with throwing := world.throwing.tail }

/-- Run a statement, unless it throws. -/
def statement {Result : Type} (onThrow : Result) (run : Database → Result × Database) :
    Handler Result := fun world =>
  if world.throws then (onThrow, world.next)
  else ((run world.db).1, { world.next with db := (run world.db).2 })

theorem statement_throws {Result : Type} (onThrow : Result)
    (run : Database → Result × Database) {world : World} (throws : world.throws = true) :
    statement onThrow run world = (onThrow, world.next) := if_pos throws

theorem statement_runs {Result : Type} (onThrow : Result)
    (run : Database → Result × Database) {world : World} (runs : ¬ world.throws = true) :
    statement onThrow run world =
      ((run world.db).1, { world.next with db := (run world.db).2 }) := if_neg runs

/-- A statement that only reads. -/
def query {Result : Type} (onThrow : Result) (read : Database → Result) : Handler Result :=
  statement onThrow fun db => (read db, db)

/-- `select` of an account. -/
def selectAccountRow (address : String) : Handler (Option XmrAccount) :=
  query none (·.selectAccount address)

/-- The first argument is what the vector holds, which is empty also after an exception. -/
def selectTransactions (accountId : Nat) : Handler (List XmrTransaction) :=
  query [] (·.selectTransactions accountId)

/-- The rows of `Outputs` of an account. -/
def selectOutputs (accountId : Nat) : Handler (List XmrOutput) :=
  query [] (·.selectOutputs accountId)

/-- The rows of `Payments` of an account. -/
def selectPayments (accountId : Nat) : Handler (List XmrPayment) :=
  query [] (·.selectPayments accountId)

/-- `select_for_tx` of `Outputs`. -/
def selectOutputsForTx (txId : Nat) : Handler (List XmrOutput) := query [] (·.outputsForTx txId)

/-- `select_for_tx` of `Inputs`. -/
def selectInputsForTx (txId : Nat) : Handler (List XmrInput) := query [] (·.inputsForTx txId)

/-- `select_for_out`. -/
def selectInputsForOut (outputId : Nat) : Handler (List XmrInput) :=
  query [] (·.inputsForOut outputId)

/-- `select_by_primary_id`, of an output. -/
def selectByPrimaryId (outputId : Nat) : Handler (Option XmrOutput) :=
  query none (·.outputByPrimaryId outputId)

/-- `tx_exists`. -/
def txExists (accountId : Nat) (hash : String) : Handler (Option XmrTransaction) :=
  query none (·.txExists accountId hash)

/-- `output_exists`. -/
def outputExists (outPubKey : String) : Handler (Option XmrOutput) :=
  query none (·.outputExists outPubKey)

/-- A statement that inserts a row and gives its id, unless it is refused. -/
def insertRow (insert : Database → Option (Nat × Database)) : Handler (Option Nat) :=
  statement none fun db => ((insert db).map (·.1), ((insert db).map (·.2)).getD db)

theorem insertRow_refused {insert : Database → Option (Nat × Database)} {world : World}
    (refused : world.throws = true ∨ insert world.db = none) :
    insertRow insert world = (none, world.next) := by
  unfold insertRow
  by_cases throws : world.throws = true
  · exact statement_throws _ _ throws
  · rw [statement_runs _ _ throws, refused.resolve_left throws]
    rfl

theorem insertRow_inserts {insert : Database → Option (Nat × Database)} {world : World}
    {id : Nat} {db : Database} (runs : ¬ world.throws = true)
    (inserted : insert world.db = some (id, db)) :
    insertRow insert world = (some id, { world.next with db }) := by
  unfold insertRow
  rw [statement_runs _ _ runs, inserted]
  rfl

/-- The id of the new account. -/
def insertAccount (row : XmrAccount) : Handler (Option Nat) := insertRow (·.insertAccount row)

/-- The id of the new payment. -/
def insertPayment (row : XmrPayment) : Handler (Option Nat) := insertRow (·.insertPayment row)

/-- Whether exactly one row was changed. -/
def updateAccount (original new : XmrAccount) : Handler Bool :=
  statement false fun db => db.update true original new

/-- Whether exactly one row was changed. -/
def updatePayment (original new : XmrPayment) : Handler Bool :=
  statement false fun db =>
    ((db.updatePayment original new).1 = 1, (db.updatePayment original new).2)

/-- The number of rows deleted. -/
def deleteTx (txId : Nat) : Handler Nat := statement 0 (·.deleteTx txId)

/-- The number of rows changed. -/
def markTxSpendable (txId now : Nat) : Handler Nat := statement 0 (·.markTxSpendable txId now)

/-! ### The map of search threads -/

/-- The search threads that the next access to the map finds. -/
def World.remaining (world : World) (address : String) : List (String × SearchThread) :=
  if world.cleaned.headD false then world.searchingThreads.filter (·.1 ≠ address)
  else world.searchingThreads

/-- The search thread of an address that the next access to the map finds. -/
def World.thread? (world : World) (address : String) : Option SearchThread :=
  ((world.remaining address).find? (·.1 = address)).map (·.2)

/-- The world after an access that has not found the thread, or has left it as it was. -/
def World.visited (world : World) (address : String) : World :=
  { world with
    searchingThreads := world.remaining address
    cleaned := world.cleaned.tail }

/-- Put a changed search thread back. -/
def World.putThread (world : World) (address : String) (thread : SearchThread) : World :=
  { world with
    searchingThreads := world.searchingThreads.map fun entry =>
      if entry.1 = address then (address, thread) else entry }

/-- Go to the search thread of an address, if the monitor has left it there. -/
def withThread {Result : Type} (address : String) (absent : Result)
    (run : SearchThread → Result × SearchThread) : Handler Result := fun world =>
  match world.thread? address with
  | none => (absent, world.visited address)
  | some thread => ((run thread).1, (world.visited address).putThread address (run thread).2)

/-- `search_thread_exist`. -/
def searchThreadExist (address : String) : Handler Bool :=
  withThread address false fun thread => (true, thread)

/-- `set_new_searched_blk_no`. -/
def setNewSearchedBlkNo (address : String) (newValue : Nat) : Handler Bool := fun world =>
  let (found, world) :=
    withThread address false (fun thread => (true, thread.setSearchedBlkNo newValue)) world
  (found, if found then { world with moved := (address, newValue) :: world.moved } else world)

/-- `update_acc`. -/
def updateAcc (address : String) (acc : XmrAccount) : Handler Bool :=
  withThread address false fun thread => (true, thread.updateAcc acc)

/-- `get_searched_blk_no`. -/
def getSearchedBlkNo (address : String) : Handler (Option Nat) :=
  withThread address none fun thread => (some thread.searchedBlkNo, thread)

/-- `get_known_outputs_keys`. -/
def getKnownOutputsKeys (address : String) : Handler (Option KnownOutputs) :=
  withThread address none fun thread => (some thread.known, thread)

/-- `get_xmr_address_viewkey`; what it returns is not used. -/
def getXmrAddressViewkey (address : String) : Handler Bool := searchThreadExist address

/-- The constructor of `TxSearch`, which reads the known outputs from the database. It throws
when the address or the view key do not parse. -/
def constructTxSearch (backend : Backend) (acc : XmrAccount) : Handler (Option SearchThread) :=
  if backend.parsesAccount acc.address acc.viewkey then do
    let outs ← selectOutputs acc.id
    pure (some
      { acc
        address := acc.address
        viewkey := acc.viewkey
        known := outs.map fun out => (out.outPubKey, out.amount)
        searchedBlkNo := acc.scannedBlockHeight })
  else pure none

/-- `start_tx_search_thread`. -/
def startTxSearchThread (backend : Backend) (acc : XmrAccount) (txSearch : SearchThread) :
    Handler Bool := do
  if ← searchThreadExist acc.address then
    pure true
  else if backend.startsThread then
    fun world => (true,
      { world with searchingThreads := world.searchingThreads ++ [(acc.address, txSearch)] })
  else pure false

/-! ### The spendability check -/

/-- `select_txs_for_account_spendability_check`: transactions that are unlocked are marked as
spendable for good, and those that are not are deleted when the blockchain does not have them
under the stored id. The check is given up when a statement does not change exactly one row. -/
def selectTxsForAccountSpendabilityCheck (backend : Backend) :
    List XmrTransaction → Handler (Option (List XmrTransaction))
  | [] => pure (some [])
  | tx :: rest => do
    let keep (tx : XmrTransaction) : Handler (Option (List XmrTransaction)) := do
      let checked ← selectTxsForAccountSpendabilityCheck backend rest
      pure (checked.map (tx :: ·))
    if tx.spendable then
      keep tx
    else if isTxUnlocked backend.status tx.unlockTime tx.height then
      if (← markTxSpendable tx.id backend.status.now) ≠ 1 then pure none
      else keep { tx with spendable := true }
    else if (backend.txExist tx.hash).getD 0 ≠ tx.blockchainTxId then
      if (← deleteTx tx.id) ≠ 1 then pure none
      else selectTxsForAccountSpendabilityCheck backend rest
    else
      keep { tx with
        unlockTime :=
          if tx.unlockTime = 0 then tx.height + defaultTxSpendableAge else tx.unlockTime }

end LightWallet
