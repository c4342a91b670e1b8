/-
This file holds the two requests that import past transactions. Both end with
the same three updates, one after the other and without a transaction: the row
of the account, the search position, and the search thread's copy of the
account. When the import has to be paid for, the row of the payment is marked
before them.
-/

import LightWallet.Login

namespace LightWallet

section Imports

variable (backend : Backend)

/-! ### The payment -/

/-- The transactions of the blocks from ten below the tip on. Below height ten the difference
wraps around, and the loop has no block to visit. -/
def recentBlockTxs : Option (List Transaction) :=
  if backend.status.currentHeight < 10 then some []
  else
    ((List.range' (backend.status.currentHeight - 10) 11).mapM backend.blockTxs).map List.flatten

/-- `search_if_payment_made`: the first transaction of the mempool and the recent blocks that
carries the payment id and pays the amount. -/
def searchIfPaymentMade (paymentId : String) (desiredAmount : Nat) : Option String := do
  let blockTxs ← recentBlockTxs backend
  let expected ← backend.hexToPaymentId paymentId
  let tx ← (backend.mempoolTxs.map (·.2) ++ blockTxs).find? fun tx =>
    backend.integratedPaymentId tx = expected ∧ desiredAmount ≤ (backend.amountPaid tx).toNat
  pure tx.hash

/-- `select_payment`: the account's payment record; without one an empty record, which has no id;
with several, nothing. -/
def selectPayment (acc : XmrAccount) : Handler (Option (Option XmrPayment)) := do
  match ← selectPayments acc.id with
  | [] => pure (some none)
  | [payment] => pure (some (some payment))
  | _ :: _ :: _ => pure none

/-! ### The three updates -/

/-- The row of the account, the search position and the thread's copy, in this order; each
failure has its own exit. -/
def applyImport (address : String) (original updated : XmrAccount)
    (rowFailed positionFailed : String) (response success : Json) : Handler Answer := do
  if ← updateAccount original updated then
    if ← setNewSearchedBlkNo address updated.scannedBlockHeight then
      if ← updateAcc address updated then
        pure (sessionClose success)
      else pure (sessionCloseError response "updating acc in search thread failed!")
    else pure (sessionCloseError response positionFailed)
  else pure (sessionCloseError response rowFailed)

/-- The account as it is imported from the first block on. -/
def fromGenesis (acc : XmrAccount) : XmrAccount :=
  { acc with scannedBlockHeight := 0, startHeight := 0 }

/-! ### `import_wallet_request` -/

/-- The import that costs nothing. -/
def freeImport (address : String) (acc : XmrAccount) (response : Json) : Handler Answer :=
  applyImport address acc (fromGenesis acc) "Updating scanned_block_height failed!"
    "Updating searched_blk_no failed!" response
    ((((response.set "request_fulfilled" (.bool true)).set "status"
      (.str "Import will start shortly")).set "new_request" (.bool true)).set "error" (.str ""))

/-- The record of a payment that is asked for. -/
def newPayment (acc : XmrAccount) : XmrPayment where
  accountId := acc.id
  paymentId := backend.podToHex backend.randomPaymentId8
  importFee := backend.importFee
  requestFulfilled := false
  txHash := ""
  paymentAddress := backend.integratedAddressOf backend.randomPaymentId8

/-- Ask for a payment. -/
def requestPayment (acc : XmrAccount) (response : Json) : Handler Answer := do
  let payment := newPayment backend acc
  match ← insertPayment payment with
  | none => pure (sessionCloseError response "Failed to create new payment record!")
  | some id =>
    pure (sessionClose
      (((((((response.set "payment_id" (.ofNat id)).set "import_fee"
        (.ofText payment.importFee)).set "new_request" (.bool true)).set "request_fulfilled"
        (.bool payment.requestFulfilled)).set "payment_address" (.str payment.paymentAddress)).set
        "status" (.str "Payment not yet received")).set "error" (.str "")))

/-- Mark the payment, and apply the import it has paid for. -/
def receivePayment (address : String) (acc : XmrAccount) (payment : XmrPayment)
    (txHash : String) (response : Json) : Handler Answer := do
  if ← updatePayment payment { payment with requestFulfilled := true, txHash } then
    applyImport address acc (fromGenesis acc) "Updating scanned_block_height failed!"
      "updating searched_blk_no failed!" response
      ((((response.set "request_fulfilled" (.bool true)).set "status"
        (.str "Payment received. Thank you.")).set "new_request" (.bool true)).set "error"
        (.str ""))
  else pure (sessionCloseError response "Updating payment db failed!")

/-- The response while a payment is awaited. -/
def awaitingPayment (payment : XmrPayment) (response : Json) : Json :=
  (((((response.set "payment_id" (.str payment.paymentId)).set "import_fee"
    (.ofText payment.importFee)).set "new_request" (.bool false)).set "request_fulfilled"
    (.bool payment.requestFulfilled)).set "payment_address"
    (.str (backend.integratedAddress payment.paymentId))).set "status"
    (.str "Payment not yet received")

/-- Look for the payment of a record that is not fulfilled. -/
def checkPayment (address : String) (acc : XmrAccount) (payment : XmrPayment)
    (response : Json) : Handler Answer :=
  if backend.integratedAddress payment.paymentId = "" then
    pure (sessionCloseError response "get_account_integrated_address_as_str failed!")
  else
    let response := awaitingPayment backend payment response
    match searchIfPaymentMade backend payment.paymentId payment.importFee with
    | none => pure (sessionClose response)
    | some txHash => receivePayment address acc payment txHash response

/-- The import that has to be paid for. -/
def paidImport (address : String) (acc : XmrAccount) (response : Json) : Handler Answer := do
  match ← selectPayment acc with
  | none => pure (sessionCloseError response "Selecting payment details failed!")
  | some none => requestPayment backend acc response
  | some (some payment) =>
    if payment.requestFulfilled then
      pure (sessionClose
        (((((response.set "request_fulfilled" (.bool true)).set "import_fee" (.ofNat 0)).set
          "status" (.str "Wallet already imported or in the progress.")).set "new_request"
          (.bool false)).set "error" (.str "")))
    else checkPayment backend address acc payment response

/-- The response before anything is known about the account. -/
def importResponse : Json :=
  .obj [("request_fulfilled", .bool false), ("import_fee", .ofText backend.importFee),
    ("status", .str "error"), ("error", .str "Some error occured")]

/-- `import_wallet_request`. -/
def importWalletRequest (body : Option Json) : Handler Answer :=
  match parseRequest body ["address", "view_key"] .null with
  | .error response => pure (sessionCloseError response "Cant parse json body!")
  | .ok request =>
    match readCredentials backend request with
    | .error what => pure (sessionCloseError .null what)
    | .ok (address, viewKey) => do
      let response := importResponse backend
      match ← selectAccount backend address viewKey true with
      | none => pure (sessionCloseError response "The account login or creation failed!")
      | some acc =>
        if backend.importFee = 0 then freeImport address acc response
        else paidImport backend address acc response

/-! ### `import_recent_wallet_request` -/

/-- The number of blocks to go back: no more than is allowed, and no more than there are. -/
def noBlocksToImport (requested : Nat) : Nat :=
  min (min requested backend.maxNumberOfBlocksToImport) backend.status.currentHeight

/-- The account as it is imported for the given number of blocks. A free import starts from the
tip, any other from the last scanned block. -/
def fromRecent (blocks : Nat) (acc : XmrAccount) : XmrAccount :=
  { acc with
    scannedBlockHeight :=
      (if backend.importFee = 0 then backend.status.currentHeight else acc.scannedBlockHeight) -
        blocks }

/-- The import of the last blocks. -/
def recentImport (address : String) (requested : Nat) (acc : XmrAccount) (response : Json) :
    Handler Answer :=
  let blocks := noBlocksToImport backend requested
  if acc.scannedBlockHeight < blocks then
    pure (sessionCloseError response "scanned_block_height < no_blocks_to_import!")
  else
    applyImport address acc (fromRecent backend blocks acc) "Updating account failed!"
      "Updating searched_blk_no failed!" response
      ((response.set "request_fulfilled" (.bool true)).set "status"
        (.str "Updating account with for importing recent txs successeful."))

/-- `import_recent_wallet_request`. -/
def importRecentWalletRequest (body : Option Json) : Handler Answer :=
  let response : Json := .obj [("request_fulfilled", .bool false)]
  match parseRequest body ["address", "view_key", "no_blocks_to_import"] response with
  | .error response => pure (sessionCloseError response "Cant parse json body!")
  | .ok request =>
    match readCredentials backend request with
    | .error what => pure (sessionCloseError response what)
    | .ok (address, viewKey) =>
      match (request.read "no_blocks_to_import").asString? with
      -- the handler of the exception reads the value as a string once more
      | none => pure .escaped
      | some text =>
        match backend.lexicalCast text with
        | none =>
          pure (sessionCloseError response ("Cant parse " ++ text ++ " into number"))
        | some requested => do
          match ← selectAccount backend address viewKey true with
          | none => pure (sessionCloseError response "The account login or creation failed!")
          | some acc => recentImport backend address requested acc response

end Imports

/-! ### The three updates, one by one -/

theorem updateAccount_throws (original new : XmrAccount) {world : World}
    (throws : world.throws = true) : updateAccount original new world = (false, world.next) :=
  statement_throws _ _ throws

theorem updateAccount_runs (original new : XmrAccount) {world : World}
    (runs : ¬ world.throws = true) :
    updateAccount original new world =
      (decide ((world.db.updateAccount original new).1 = 1),
        { world.next with db := (world.db.updateAccount original new).2 }) :=
  statement_runs _ _ runs

theorem setNewSearchedBlkNo_absent {address : String} {world : World} (newValue : Nat)
    (absent : world.thread? address = none) :
    setNewSearchedBlkNo address newValue world = (false, world.visited address) := by
  unfold setNewSearchedBlkNo withThread
  rw [absent]
  rfl

theorem setNewSearchedBlkNo_live {address : String} {world : World} {thread : SearchThread}
    (newValue : Nat) (live : world.thread? address = some thread) :
    setNewSearchedBlkNo address newValue world =
      (true, { (world.visited address).putThread address (thread.setSearchedBlkNo newValue) with
        moved := (address, newValue) :: world.moved }) := by
  unfold setNewSearchedBlkNo withThread
  rw [live]
  rfl

theorem updateAcc_absent {address : String} {world : World} (acc : XmrAccount)
    (absent : world.thread? address = none) :
    updateAcc address acc world = (false, world.visited address) := by
  unfold updateAcc withThread
  rw [absent]

theorem updateAcc_live {address : String} {world : World} {thread : SearchThread}
    (acc : XmrAccount) (live : world.thread? address = some thread) :
    updateAcc address acc world =
      (true, (world.visited address).putThread address (thread.updateAcc acc)) := by
  unfold updateAcc withThread
  rw [live]

/-- Once the row is written and the position is moved, the account is reset whatever becomes of
the copy. -/
theorem applyImport_applies {address : String} {original updated : XmrAccount} {world : World}
    {rowFailed positionFailed : String} {response success : Json}
    (runs : ¬ world.throws = true) (changes : (world.db.updateAccount original updated).1 = 1)
    (live : world.thread? address ≠ none) :
    (applyImport address original updated rowFailed positionFailed response success
        world).2.db = (world.db.updateAccount original updated).2 ∧
      (applyImport address original updated rowFailed positionFailed response success
        world).2.moved = (address, updated.scannedBlockHeight) :: world.moved := by
  obtain ⟨thread, found⟩ := Option.ne_none_iff_exists'.mp live
  let written : World :=
    { world.next with db := (world.db.updateAccount original updated).2 }
  have liveStill : written.thread? address = some thread := found
  have moves := setNewSearchedBlkNo_live updated.scannedBlockHeight liveStill
  unfold applyImport
  rw [Handler.bind_apply, updateAccount_runs original updated runs]
  simp only [changes, decide_true, if_true, Handler.bind_apply]
  rw [moves]
  simp only [if_true, Handler.bind_apply]
  -- the copy of the account touches neither the database nor the record of positions
  have last : KeepsDb (do
      if ← updateAcc address updated then pure (sessionClose success)
      else pure (sessionCloseError response "updating acc in search thread failed!")) :=
    .bind (.withThread address false _) fun _ => .ite (.pure _) (.pure _)
  exact last _

end LightWallet
