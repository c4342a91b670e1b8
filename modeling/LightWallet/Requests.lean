/-
This file holds the requests that log in, and those that read an account: its
transactions, its balance, its unspent outputs, and a single transaction. What
they read off the tables is kept apart from the response it is rendered to, so
that the totals of a response can be spoken of.
-/

import LightWallet.Login

namespace LightWallet

/-! ### What is read off the tables -/

/-- An entry of `spent_outputs`. -/
structure SpentOutput where
  amount : UInt64
  keyImage : String
  txPubKey : String
  outIndex : Nat
  mixin : Nat
  deriving DecidableEq, Repr

/-- The entry as it is in the response. -/
def SpentOutput.toJson (spent : SpentOutput) : Json :=
  .obj [("amount", .ofText spent.amount.toNat), ("key_image", .str spent.keyImage),
    ("tx_pub_key", .str spent.txPubKey), ("out_index", .ofNat spent.outIndex),
    ("mixin", .ofNat spent.mixin)]

/-- The entry of a row of `Inputs` and the row of `Outputs` it refers to. -/
def spentOutput (input : XmrInput) (out : XmrOutput) : SpentOutput where
  amount := input.amount
  keyImage := input.keyImage
  txPubKey := out.txPubKey
  outIndex := out.outIndex
  mixin := out.mixin

/-- The sum of the amounts, modulo `2 ^ 64`. -/
def totalAmount (spent : List SpentOutput) : UInt64 :=
  spent.foldl (fun total entry => total + entry.amount) 0

/-- The loop over the inputs of a transaction: those count whose output is found. -/
def spentByInputs : List XmrInput → Handler (List SpentOutput)
  | [] => pure []
  | input :: rest => do
    match ← selectByPrimaryId input.outputId with
    | none => spentByInputs rest
    | some out => do
      let spent ← spentByInputs rest
      pure (spentOutput input out :: spent)

/-- A transaction of `get_address_txs`; `spent` is empty when no inputs were read. -/
structure AddressTx where
  tx : XmrTransaction
  spent : Option (List SpentOutput)
  deriving DecidableEq, Repr

/-- `total_sent` of the transaction; nothing when no inputs were read. -/
def AddressTx.totalSent (entry : AddressTx) : UInt64 := (entry.spent.map totalAmount).getD 0

/-- The body of the loop over the transactions. -/
def readAddressTx (tx : XmrTransaction) : Handler AddressTx := do
  match ← selectInputsForTx tx.id with
  | [] => pure { tx, spent := none }
  | input :: rest => do
    let spent ← spentByInputs (input :: rest)
    pure { tx, spent := some spent }

/-- The loop over the transactions. -/
def readAddressTxs : List XmrTransaction → Handler (List AddressTx)
  | [] => pure []
  | tx :: rest => do
    let entry ← readAddressTx tx
    let entries ← readAddressTxs rest
    pure (entry :: entries)

/-- The loop over the outputs of a transaction, each with the inputs that refer to it. -/
def readOutputs : List XmrOutput → Handler (List (XmrOutput × List XmrInput))
  | [] => pure []
  | out :: rest => do
    let ins ← selectInputsForOut out.id
    let outs ← readOutputs rest
    pure ((out, ins) :: outs)

/-- The outputs of all transactions, as `get_address_info` walks through them. -/
def readAddressOutputs : List XmrTransaction → Handler (List (XmrOutput × List XmrInput))
  | [] => pure []
  | tx :: rest => do
    let outs ← selectOutputsForTx tx.id
    let read ← readOutputs outs
    let more ← readAddressOutputs rest
    pure (read ++ more)

/-! ### The totals -/

/-- `total_received` of `get_address_txs`, from the rows of `Transactions`. -/
def totalReceivedByTxs (entries : List AddressTx) : UInt64 :=
  entries.foldl (fun total entry => total + entry.tx.totalReceived) 0

/-- `total_received_unlocked` of `get_address_txs`. -/
def totalReceivedUnlocked (entries : List AddressTx) : UInt64 :=
  totalReceivedByTxs (entries.filter (·.tx.spendable))

/-- `total_received` of `get_address_info`, from the rows of `Outputs`. -/
def totalReceivedByOutputs (outputs : List (XmrOutput × List XmrInput)) : UInt64 :=
  outputs.foldl (fun total entry => total + entry.1.amount) 0

/-- The inputs that refer to the outputs, in the order of `spent_outputs`. -/
def spentByOutputs (outputs : List (XmrOutput × List XmrInput)) : List SpentOutput :=
  outputs.flatMap fun entry => entry.2.map (spentOutput · entry.1)

/-! ### The mempool -/

/-- A transaction of the mempool that the account has a part in. -/
structure MempoolTx where
  totalReceived : UInt64
  totalSent : UInt64
  toJson : Json

section Requests

variable (backend : Backend)

/-- The loop over identified inputs whose output is looked up by its public key. -/
def knownSpent : List InputInfo → Handler (List (InputInfo × XmrOutput))
  | [] => pure []
  | info :: rest => do
    match ← outputExists info.outPubKey with
    | none => knownSpent rest
    | some out => do
      let found ← knownSpent rest
      pure ((info, out) :: found)

/-- The sum of the stored amounts. -/
def totalStored (found : List (InputInfo × XmrOutput)) : UInt64 :=
  found.foldl (fun total entry => total + entry.2.amount) 0

/-- An entry of `spent_outputs` with the given amount. -/
def identifiedSpent (amount : InputInfo → XmrOutput → UInt64)
    (entry : InputInfo × XmrOutput) : SpentOutput where
  amount := amount entry.1 entry.2
  keyImage := entry.1.keyImg
  txPubKey := entry.2.txPubKey
  outIndex := entry.2.outIndex
  mixin := entry.2.mixin

/-- The keys that every transaction of the mempool is shown with. -/
def mempoolJson (receiveTime : Nat) (tx : Transaction) (totalReceived totalSent : UInt64)
    (unlockTime : Json) : Json :=
  .obj [("id", .ofNat 0), ("hash", .str tx.hash), ("tx_pub_key", .str tx.txPubKey),
    ("timestamp", .ofNat (receiveTime * 1000)),
    ("total_received", .ofText totalReceived.toNat), ("total_sent", .ofText totalSent.toNat),
    ("unlock_time", unlockTime), ("height", .ofNat backend.status.currentHeight),
    ("payment_id", .str tx.paymentId), ("coinbase", .bool false),
    ("is_rct", .bool (tx.version = 2)),
    ("rct_type", .ofNat (if tx.version = 2 then tx.rctType else 0)),
    ("mixin", .ofNat (if tx.isCoinbase then 0 else tx.mixinNo)), ("mempool", .bool true)]

/-- One turn of the loop of `TxSearch::find_txs_in_mempool`. -/
def findTxInMempool (thread : SearchThread) (receiveTime : Nat) (tx : Transaction) :
    Handler (Option MempoolTx) := do
  let identifier := backend.identifier thread.address thread.viewkey
  let outputs := identifier.outputs tx
  let totalReceived := calcTotalXmr outputs
  let found ← knownSpent (identifier.inputs thread.known tx)
  let totalSent := totalStored found
  let spendKeys := Json.arr (found.map fun entry =>
    (identifiedSpent (fun _ out => out.amount) entry).toJson)
  match outputs, found with
  | [], [] => pure none
  | _ :: _, [] =>
    pure (some ⟨totalReceived, 0,
      mempoolJson backend receiveTime tx totalReceived 0 (.str "0")⟩)
  | _ :: _, _ :: _ =>
    pure (some ⟨totalReceived, totalSent,
      (mempoolJson backend receiveTime tx totalReceived totalSent (.str "0")).set
        "spent_outputs" spendKeys⟩)
  | [], _ :: _ =>
    pure (some ⟨0, totalSent,
      (mempoolJson backend receiveTime tx 0 totalSent (.ofNat 0)).set
        "spent_outputs" spendKeys⟩)

/-- The loop over the transactions of the mempool. -/
def findTxs (thread : SearchThread) : List (Nat × Transaction) → Handler (List MempoolTx)
  | [] => pure []
  | (receiveTime, tx) :: rest => do
    let entry ← findTxInMempool backend thread receiveTime tx
    let entries ← findTxs thread rest
    pure (entry.toList ++ entries)

/-- `find_txs_in_mempool`; nothing without a search thread. -/
def findTxsInMempool (address : String) : Handler (Option (List MempoolTx)) := do
  match ← withThread address none fun thread => (some thread, thread) with
  | none => pure none
  | some thread => do
    let entries ← findTxs backend thread backend.mempoolTxs
    pure (some entries)

/-! ### `login` -/

/-- The values of a request to log in, or nothing when one of them has another type. -/
structure LoginRequest where
  address : String
  viewKey : String
  createAccount : Bool
  generatedLocally : Bool
  createOnly : Bool
  deriving DecidableEq, Repr

/-- The values of the request; without `generated_locally` it counts as false. -/
def readLogin (request : Json) : Option LoginRequest := do
  let address ← (request.read "address").asString?
  let viewKey ← (request.read "view_key").asString?
  let createAccount ← (request.read "create_account").asBool?
  let generatedLocally ←
    (if request.has "generated_locally" then (request.read "generated_locally").asBool?
      else some false)
  pure
    { address, viewKey, createAccount, generatedLocally
      createOnly := (request.read "create_only").asBool?.getD false }

/-- The end of `login`, with the account that was found or created. -/
def loginTo (asked : LoginRequest) (newAccountCreated : Bool) (acc : XmrAccount) :
    Handler Answer := do
  let response := (Json.null.set "generated_locally" (.bool acc.generatedLocally)).set
    "start_height" (.ofNat acc.startHeight)
  let succeed (response : Json) : Answer :=
    sessionClose ((response.set "status" (.str "success")).set "new_address"
      (.bool newAccountCreated))
  if asked.createOnly then pure (succeed response)
  else do
    let (success, _, response) ←
      loginAndStartSearchThread backend asked.address asked.viewKey acc response
    pure (if success then succeed response else sessionClose response)

/-- The account is selected, or created when there is none. -/
def loginRequest (asked : LoginRequest) : Handler Answer :=
  if asked.createAccount = false ∧ asked.createOnly = false then
    pure (sessionClose (Json.ofError "Not making an account"))
  else do
    match ← selectAccount backend asked.address asked.viewKey false with
    | some acc => loginTo backend asked false acc
    | none =>
      match ← createAccount backend asked.address asked.viewKey asked.generatedLocally with
      | none => pure (sessionClose (Json.ofError "Account creation failed"))
      | some acc => loginTo backend asked true acc

/-- `login`. -/
def login (body : Option Json) : Handler Answer :=
  match parseRequest body ["address", "view_key"] .null with
  | .error response => pure (sessionClose response)
  | .ok request =>
    match readLogin request with
    | none => pure (sessionClose .null)
    | some asked => loginRequest backend asked

/-! ### `get_address_txs` -/

/-- The answer when there is no search thread, or the login fails. -/
def threadMissing : Answer := sessionClose (Json.ofError "Search thread does not exist.")

/-- The transaction as it is in the response. -/
def AddressTx.toJson (entry : AddressTx) : Json :=
  let json : Json := .obj
    [("id", .ofNat entry.tx.blockchainTxId), ("coinbase", .bool entry.tx.coinbase),
      ("tx_pub_key", .str entry.tx.txPubKey), ("hash", .str entry.tx.hash),
      ("height", .ofNat entry.tx.height), ("mixin", .ofNat entry.tx.mixin),
      ("payment_id", .str entry.tx.paymentId), ("unlock_time", .ofNat entry.tx.unlockTime),
      ("total_sent", .ofNat 0), ("total_received", .ofText entry.tx.totalReceived.toNat),
      ("timestamp", .ofNat (entry.tx.timestamp * 1000)), ("mempool", .bool false)]
  match entry.spent with
  | none => json
  | some spent =>
    (json.set "total_sent" (.ofText (totalAmount spent).toNat)).set "spent_outputs"
      (.arr (spent.map SpentOutput.toJson))

/-- What `get_address_txs` has read: the transactions, unless the check of their spendability was
given up, and those in the mempool, unless the search thread is gone. -/
structure AddressTxs where
  entries : Option (List AddressTx)
  mempool : Option (List MempoolTx)

/-- What `get_address_txs` reads of the account. -/
def readAddress (address : String) (acc : XmrAccount) : Handler AddressTxs := do
  let txs ← selectTransactions acc.id
  match ← selectTxsForAccountSpendabilityCheck backend txs with
  | none => do
    let mempool ← findTxsInMempool backend address
    pure { entries := none, mempool }
  | some checked => do
    let entries ← readAddressTxs checked
    let mempool ← findTxsInMempool backend address
    pure { entries := some entries, mempool }

/-- The transactions of the mempool get ids after the last one stored. -/
def numberMempool : Nat → List MempoolTx → List Json
  | _, [] => []
  | last, entry :: rest =>
    entry.toJson.set "id" (.ofNat (last + 1)) :: numberMempool (last + 1) rest

/-- The response of `get_address_txs`. Totals that were not calculated are numbers, and adding
the mempool's to them throws. -/
def addressTxsAnswer (response : Json) (read : AddressTxs) : Answer :=
  match read.entries, read.mempool.getD [] with
  | none, [] => sessionClose response
  | none, _ :: _ => .escaped
  | some entries, mempool =>
    let received := (mempool.map (·.totalReceived)).foldl (· + ·) 0
    let sent := (mempool.map (·.totalSent)).foldl (· + ·) 0
    let last := ((entries.getLast?).map (·.tx.blockchainTxId)).getD 0
    sessionClose
      (((response.set "total_received"
        (.ofText (totalReceivedByTxs entries + received - sent).toNat)).set
        "total_received_unlocked"
        (.ofText (totalReceivedUnlocked entries + received - sent).toNat)).set "transactions"
        (.arr (entries.map AddressTx.toJson ++ numberMempool last mempool)))

/-- What the response says of the account. -/
def accountHeader (acc : XmrAccount) (response : Json) : Json :=
  (((response.set "start_height" (.ofNat acc.startHeight)).set "scanned_block_height"
    (.ofNat acc.scannedBlockHeight)).set "scanned_block_timestamp"
    (.ofNat acc.scannedBlockTimestamp)).set "blockchain_height"
    (.ofNat backend.status.currentHeight)

/-- The response of `get_address_txs` to begin with. -/
def addressTxsResponse : Json :=
  .obj [("total_received", .ofNat 0), ("total_received_unlocked", .ofNat 0),
    ("scanned_height", .ofNat 0), ("scanned_block_height", .ofNat 0),
    ("scanned_block_timestamp", .ofNat 0), ("start_height", .ofNat 0),
    ("blockchain_height", .ofNat 0), ("transactions", .arr [])]

/-- `get_address_txs`. -/
def getAddressTxs (body : Option Json) : Handler Answer :=
  match parseRequest body ["address", "view_key"] .null with
  | .error response => pure (sessionClose response)
  | .ok request =>
    match readCredentials backend request with
    | .error _ => pure (sessionCloseError .null "")
    | .ok (address, viewKey) => do
      match ← loginAndStartSearchThread backend address viewKey {} addressTxsResponse with
      | (false, _, _) => pure threadMissing
      | (true, acc, response) => do
        let response :=
          accountHeader backend acc (response.set "total_received" (.ofNat 0))
        let read ← readAddress backend address acc
        pure (addressTxsAnswer response read)

/-! ### `get_address_info` -/

/-- The response of `get_address_info` to begin with. -/
def addressInfoResponse : Json :=
  .obj [("locked_funds", .str "0"), ("total_received", .str "0"), ("total_sent", .str "0"),
    ("scanned_height", .ofNat 0), ("scanned_block_height", .ofNat 0),
    ("scanned_block_timestamp", .ofNat 0), ("start_height", .ofNat 0),
    ("blockchain_height", .ofNat 0), ("spent_outputs", .null)]

/-- The search position is set back when it is more than ten blocks past the row. -/
def followRow (address : String) (acc : XmrAccount) : Handler Unit := do
  match ← getSearchedBlkNo address with
  | none => pure ()
  | some searchedBlkNo =>
    if searchedBlkNo > acc.scannedBlockHeight + 10 then do
      let _ ← setNewSearchedBlkNo address acc.scannedBlockHeight
      pure ()
    else pure ()

/-- What `get_address_info` has read, unless the check of the spendability was given up. -/
def readInfo (acc : XmrAccount) : Handler (Option (List (XmrOutput × List XmrInput))) := do
  let txs ← selectTransactions acc.id
  match ← selectTxsForAccountSpendabilityCheck backend txs with
  | none => pure none
  | some checked => do
    let outputs ← readAddressOutputs checked
    pure (some outputs)

/-- The answer of `get_address_info` to what was read. -/
def addressInfoAnswer (response : Json) : Option (List (XmrOutput × List XmrInput)) → Answer
  | none => sessionClose response
  | some outputs =>
    sessionClose
      (((response.set "total_received" (.ofText (totalReceivedByOutputs outputs).toNat)).set
        "total_sent" (.ofText (totalAmount (spentByOutputs outputs)).toNat)).set "spent_outputs"
        (.arr ((spentByOutputs outputs).map SpentOutput.toJson)))

/-- `get_address_info`. -/
def getAddressInfo (body : Option Json) : Handler Answer :=
  match parseRequest body ["address", "view_key"] .null with
  | .error response => pure (sessionClose response)
  | .ok request =>
    match readCredentials backend request with
    | .error _ => pure (sessionClose .null)
    | .ok (address, viewKey) => do
      match ← loginAndStartSearchThread backend address viewKey {} addressInfoResponse with
      | (false, _, _) => pure threadMissing
      | (true, acc, response) => do
        -- the ping only prolongs the life of the thread
        let _ ← searchThreadExist address
        followRow address acc
        let response :=
          accountHeader backend acc (response.set "total_received" (.str "0"))
        let read ← readInfo backend acc
        pure (addressInfoAnswer response read)

/-! ### `get_unspent_outs` -/

/-- `rct` of an output: it depends on the type of the ring signatures. -/
def rctOf (tx : XmrTransaction) (out : XmrOutput) : String :=
  if !tx.isRct then ""
  else if tx.rctType = 0 then "coinbase"
  else if tx.rctType = 5 then out.rctOutpk ++ out.rctMask ++ out.rctAmount
  else if tx.rctType = 6 then out.rctOutpk ++ out.rctAmount.take 16
  else out.rctOutpk ++ out.rctMask ++ out.rctAmount

/-- The entry of an output, with the images of the inputs that refer to it. -/
def unspentJson (tx : XmrTransaction) (out : XmrOutput) (ins : List XmrInput) : Json :=
  .obj [("amount", .ofText out.amount.toNat), ("public_key", .str out.outPubKey),
    ("index", .ofNat out.outIndex), ("global_index", .ofNat out.globalIndex),
    ("rct", .str (rctOf tx out)), ("tx_id", .ofNat out.txId), ("tx_hash", .str tx.hash),
    ("tx_prefix_hash", .str tx.prefixHash), ("tx_pub_key", .str tx.txPubKey),
    ("timestamp", .ofNat (out.timestamp * 1000)), ("height", .ofNat tx.height),
    ("spend_key_images", .arr (ins.map (.str ·.keyImage)))]

/-- The loop over the outputs of an unlocked transaction. -/
def readUnspentOutputs (dustThreshold : Nat) (tx : XmrTransaction) :
    List XmrOutput → Handler (List (UInt64 × Json))
  | [] => pure []
  | out :: rest =>
    if out.amount.toNat < dustThreshold then readUnspentOutputs dustThreshold tx rest
    else do
      let ins ← selectInputsForOut out.id
      let outs ← readUnspentOutputs dustThreshold tx rest
      pure ((out.amount, unspentJson tx out ins) :: outs)

/-- The loop over the transactions, which skips those that are locked. -/
def readUnspent (dustThreshold : Nat) : List XmrTransaction → Handler (List (UInt64 × Json))
  | [] => pure []
  | tx :: rest =>
    if isTxUnlocked backend.status tx.unlockTime tx.height then do
      let outs ← selectOutputsForTx tx.id
      let unspent ← readUnspentOutputs dustThreshold tx outs
      let more ← readUnspent dustThreshold rest
      pure (unspent ++ more)
    else readUnspent dustThreshold rest

/-- The address, the view key and the dust threshold of the request. The other values are read,
but not used. -/
def readUnspentRequest (request : Json) : Option (String × String × Nat) := do
  let address ← (request.read "address").asString?
  let viewKey ← (request.read "view_key").asString?
  let _ ← (request.read "mixin").asUint64?
  let _ ← (request.read "use_dust").asBool?
  let dustThreshold ← (request.read "dust_threshold").asString? >>= backend.lexicalCast
  let _ ← (request.read "amount").asString? >>= backend.lexicalCast
  pure (address, viewKey, dustThreshold)

/-- The response of `get_unspent_outs` to begin with. -/
def unspentOutsResponse : Json :=
  .obj [("amount", .str "0"), ("fork_version", .ofNat backend.hardForkVersion),
    ("outputs", .arr [])]

/-- The answer of `get_unspent_outs` to what was read. -/
def unspentOutsAnswer (response : Json) (unspent : List (UInt64 × Json)) : Answer :=
  let amount : UInt64 := (unspent.map (·.1)).foldl (· + ·) 0
  sessionClose
    (((response.set "outputs" (.arr (unspent.map (·.2)))).set "amount"
      (.ofText amount.toNat)).set "per_byte_fee" (.ofNat backend.dynamicBaseFeeEstimate))

/-- `get_unspent_outs` asks for the search thread before it logs in. -/
def getUnspentOuts (body : Option Json) : Handler Answer :=
  match parseRequest body
      ["address", "view_key", "mixin", "use_dust", "dust_threshold", "amount"] .null with
  | .error response => pure (sessionClose response)
  | .ok request =>
    match readUnspentRequest backend request with
    | none => pure (sessionClose .null)
    | some (address, viewKey, dustThreshold) => do
      if ← searchThreadExist address then
        match ← loginAndStartSearchThread backend address viewKey {}
            (unspentOutsResponse backend) with
        | (false, _, response) => pure (sessionClose response)
        | (true, acc, response) => do
          let txs ← selectTransactions acc.id
          let unspent ← readUnspent backend dustThreshold txs
          pure (unspentOutsAnswer backend response unspent)
      else pure threadMissing

/-! ### `get_tx` -/

/-- The transaction a request names, with the time at which it got into the mempool when it is
not in the blockchain. -/
def lookUpRequested (txHash : String) : Option (Transaction × Option Nat) :=
  match backend.getTx txHash with
  | some tx => some (tx, none)
  | none =>
    (backend.mempoolTxs.find? (·.2.hash = txHash)).map fun entry => (entry.2, some entry.1)

/-- What the response says of the transaction itself. -/
def txJson (txHash : String) (tx : Transaction) (receiveTime : Option Nat) : Json :=
  .obj [("status", .str "error"), ("error", .str "Some error occured"), ("tx_hash", .str txHash),
    ("pub_key", .str tx.txPubKey), ("coinbase", .bool tx.isCoinbase),
    ("xmr_outputs", .ofNat tx.xmrOutputs.toNat), ("xmr_inputs", .ofNat tx.xmrInputs.toNat),
    ("mixin_no", .ofNat tx.mixinNo), ("num_of_outputs", .ofNat tx.numberOfOutputs),
    ("num_of_inputs", .ofNat tx.numberOfInputs), ("tx_version", .ofNat tx.version),
    ("rct_type", .ofNat tx.rctType), ("fee", .ofNat (if tx.isCoinbase then 0 else tx.fee.toNat)),
    ("size", .ofNat tx.size), ("total_sent", .str "0"), ("total_received", .str "0"),
    ("payment_id", .str ""), ("timestamp", .ofNat (receiveTime.getD 0))]

/-- What the response says of the spendings. -/
def setSpent (total : UInt64) (spent : List SpentOutput) (response : Json) : Json :=
  (response.set "total_sent" (.ofText total.toNat)).set "spent_outputs"
    (.arr (spent.map SpentOutput.toJson))

/-- The spendings of a transaction of the blockchain, from the rows of the account. -/
def storedSpendings (accountId : Nat) (txHashStr : String) (response : Json) : Handler Json := do
  match ← txExists accountId txHashStr with
  | none => pure response
  | some stored => do
    let response := (response.set "payment_id" (.str stored.paymentId)).set "timestamp"
      (.ofNat (stored.timestamp * 1000))
    match ← selectInputsForTx stored.id with
    | [] => pure response
    | input :: rest => do
      let spent ← spentByInputs (input :: rest)
      pure (setSpent (totalAmount spent) spent response)

/-- The spendings of a transaction of the mempool, from the outputs the search thread knows. -/
def mempoolSpendings (address viewKey : String) (tx : Transaction) (response : Json) :
    Handler Json := do
  match ← getKnownOutputsKeys address with
  | none => pure response
  | some known => do
    let found ← knownSpent ((backend.identifier address viewKey).inputs known tx)
    pure (setSpent (totalStored found) (found.map (identifiedSpent fun info _ => info.amount))
      response)

/-- What the response says of the account's part in the transaction. -/
def spendings (address viewKey txHashStr : String) (tx : Transaction) (inMempool : Bool)
    (response : Json) : Handler Json := do
  match ← selectAccountRow address with
  | none => pure response
  | some acc =>
    if inMempool then mempoolSpendings backend address viewKey tx response
    else storedSpendings acc.id txHashStr response

/-- The end of the response. -/
def finishTx (txHash : String) (response : Json) : Json :=
  let height := backend.txBlockHeight txHash
  ((((response.set "tx_height" (.num ((height.map Int.ofNat).getD (-1)))).set "no_confirmations"
    (.num ((height.map fun height => (backend.status.currentHeight : Int) - height).getD
      (-1)))).set "status" (.str "OK")).set "error" (.str ""))

/-- The part that needs a search thread. The view key of the request identifies the outputs, but
it is not compared with the stored hash. -/
def identifyTx (address viewKey txHashStr txHash : String) (tx : Transaction)
    (inMempool : Bool) (response : Json) : Handler Answer := do
  if ← getXmrAddressViewkey address then
    if backend.parsesAccount address viewKey then do
      let totalReceived := calcTotalXmr ((backend.identifier address viewKey).outputs tx)
      let response ← spendings backend address viewKey txHashStr tx inMempool
        (response.set "total_received" (.ofText totalReceived.toNat))
      pure (sessionClose (finishTx backend txHash response))
    else pure (sessionCloseError response ("Cant create coreacc for " ++ address))
  else pure (sessionClose (finishTx backend txHash response))

/-- The address, the view key and the hash of the request. -/
def readTxRequest (request : Json) : Option (String × String × String) := do
  let address ← (request.read "address").asString?
  let viewKey ← (request.read "view_key").asString?
  let txHash ← (request.read "tx_hash").asString?
  pure (address, viewKey, txHash)

/-- `get_tx`. -/
def getTx (body : Option Json) : Handler Answer :=
  match parseRequest body ["address", "view_key", "tx_hash"] .null with
  | .error response => pure (sessionClose response)
  | .ok request =>
    match readTxRequest request with
    | none => pure (sessionClose .null)
    | some (address, viewKey, txHashStr) =>
      match backend.hexToPod txHashStr with
      | none =>
        pure (sessionClose (.obj [("error", .str "Some error occured"),
          ("status", .str ("Cant parse tx hash! : " ++ txHashStr))]))
      | some txHash =>
        match lookUpRequested backend txHash with
        | none =>
          pure (sessionCloseError
            (.obj [("status", .str "error"), ("error", .str "Some error occured")])
            (" Cant get tx details for" ++ txHashStr))
        | some (tx, receiveTime) =>
          identifyTx backend address viewKey txHashStr txHash tx receiveTime.isSome
            (txJson txHash tx receiveTime)

end Requests

end LightWallet
