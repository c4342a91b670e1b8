/-
This file settles how often a request closes its session.

It holds the requests that do not read an account, and puts all twelve handlers of POST
requests side by side. A handler's session is the list of what the handler does with it: the
codes and bodies it closes it with, in order, and at the end an exception that
leaves the handler. Most handlers close the session once, whatever they are sent.
-/

import LightWallet.Failures
import LightWallet.Imports

namespace LightWallet.Sessions

/-! ### The requests that do not read an account -/

/-- A random output: its index among the outputs of its amount, and its key. -/
structure RandomOut where
  globalAmountIndex : Nat
  outKey : String

/-- The random outputs of one amount. -/
structure OutsForAmount where
  amount : Nat
  outs : List RandomOut

/-- A transaction that a client submits. -/
structure SubmittedTx where
  hash : String
  keyImages : List String

/-- What the calls answer that the other requests do not make. -/
structure Calls where
  threadHasKey : String → String → Bool
  randomOutputs : List Nat → Nat → Option (List OutsForAmount)
  outputRctField : Nat → Nat → String × String × String
  parseHexstr : String → Option String
  parseTx : String → Option SubmittedTx
  keyImages : Transaction → List String
  commitTx : String → Except String Unit
  parsesSecretKey : String → Bool
  parsesAddress : String → Bool
  paymentIdAsString : Transaction → String
  gitCommitHash : String := ""
  gitCommitDatetime : String := ""
  gitBranchName : String := ""
  versionFull : String := ""
  isTestnet : Bool := false
  netType : Nat := 0

section Handlers

variable (backend : Backend) (calls : Calls)

/-- `ping`. -/
def ping (body : Option Json) : Handler Answer :=
  match parseRequest body ["address", "view_key"] .null with
  | .error response => pure (sessionClose response)
  | .ok request =>
    match readCredentials backend request with
    | .error _ => pure (sessionCloseError .null "")
    | .ok (address, viewKey) =>
      if calls.threadHasKey address viewKey then do
        if ← searchThreadExist address then
          pure (sessionClose (Json.null.set "status" (.str "success")))
        else pure (sessionClose (Json.ofError "Pinging search thread failed."))
      else pure (sessionCloseError .null "")

/-! ### `get_random_outs` -/

/-- What a loop over a value visits: a value that is neither an array nor an object is visited
itself. -/
def visited : Json → List Json
  | .null => []
  | .arr items => items
  | .obj fields => fields.map (·.2)
  | value => [value]

/-- The amounts of a request. A text that is no number is an exception that is caught, and a
value that is no text is one that is not. -/
inductive Amounts where
  | read (amounts : List Nat)
  | badCast
  | thrown
  deriving DecidableEq, Repr

/-- The loop over the amounts, which stops at the first that cannot be read. -/
def readAmounts : List Json → Amounts
  | [] => .read []
  | item :: rest =>
    match item.asString? with
    | none => .thrown
    | some text =>
      match backend.lexicalCast text with
      | none => .badCast
      | some amount =>
        match readAmounts rest with
        | .read amounts => .read (amount :: amounts)
        | stopped => stopped

/-- A random output as it is in the response. -/
def randomOutJson (amount : Nat) (out : RandomOut) : Json :=
  let (rctPk, rctMask, rctAmount) := calls.outputRctField out.globalAmountIndex amount
  .obj [("global_index", .ofNat out.globalAmountIndex), ("public_key", .str out.outKey),
    ("rct", .str (rctPk ++ rctMask ++ rctAmount))]

/-- The outputs of an amount as they are in the response. -/
def amountOutsJson (outs : OutsForAmount) : Json :=
  .obj [("amount", .ofText outs.amount),
    ("outputs", .arr (outs.outs.map (randomOutJson calls outs.amount)))]

/-- Without outputs, `amount_outs` is what reading the key has made it. -/
def randomOutsJson (response : Json) (amounts : List Nat) (count : Nat) : Json :=
  match calls.randomOutputs amounts count with
  | none =>
    (response.set "status" (.str "error")).set "error"
      (.str "Error getting random outputs from monero deamon")
  | some [] => response.set "amount_outs" .null
  | some (outs :: more) =>
    response.set "amount_outs" (.arr ((outs :: more).map (amountOutsJson calls)))

/-- The response to a request for too many outputs. -/
def ringSizeTooLarge : Json :=
  (Json.null.set "status" (.str "error")).set "error" (.str "Request ring size too large")

/-- `get_random_outs`, with every close of the session. -/
def getRandomOuts (body : Option Json) : List Answer :=
  match parseRequest body [] .null with
  | .error response => [sessionClose response]
  | .ok request =>
    match (request.read "count").asUint64? with
    | none => [sessionClose .null]
    | some count =>
      -- the handler goes on after it has closed the session
      let answered := if count > 41 then [sessionClose ringSizeTooLarge] else []
      let response := if count > 41 then ringSizeTooLarge else .null
      match readAmounts backend (visited (request.read "amounts")) with
      | .thrown => answered ++ [.escaped]
      | .badCast => answered ++ [sessionClose response]
      | .read amounts => answered ++ [sessionClose (randomOutsJson calls response amounts count)]

/-! ### `submit_raw_tx` -/

/-- A key image of the transaction is in a transaction of the mempool. -/
def findKeyImagesInMempool (tx : SubmittedTx) : Bool :=
  tx.keyImages.any fun image =>
    backend.mempoolTxs.any fun entry => (calls.keyImages entry.2).contains image

/-- The body is parsed, and `tx` is read, outside of any `try`. -/
def submitRawTx (body : Option Json) : Answer :=
  match body with
  | none => .escaped
  | some request =>
    match (request.read "tx").asString? with
    | none => .escaped
    | some rawTxBlob =>
      match calls.parseHexstr rawTxBlob with
      | none => sessionCloseError .null "Tx faild parse_hexstr_to_binbuff"
      | some txBlob =>
        match calls.parseTx txBlob with
        | none => sessionCloseError .null "Tx faild parse_and_validate_tx_from_blob"
        | some tx =>
          if findKeyImagesInMempool backend calls tx then
            sessionCloseError .null ("Tx uses your outputs that area already in the mempool. " ++
              "Please wait till your previous tx(s) get mined")
          else
            match calls.commitTx rawTxBlob with
            | .error message => sessionCloseError .null message
            | .ok () => sessionClose (Json.null.set "tx_hash" (.str tx.hash))

/-! ### `confirm_tx_sent` -/

/-- The address, the view key, the amount and the hash of the request. -/
def readConfirmRequest (request : Json) : Option (String × String × Nat × String) := do
  let address ← (request.read "address").asString?
  let viewKey ← (request.read "view_key").asString?
  let amount ← (request.read "amount").asUint64?
  let txHash ← (request.read "txid").asString?
  pure (address, viewKey, amount, txHash)

/-- The response of `confirm_tx_sent` to begin with. -/
def confirmTxResponse : Json :=
  .obj [("found", .bool false), ("correct", .bool false), ("error", .bool false)]

/-- An error of `confirm_tx_sent`. -/
def confirmError (response : Json) (status : String) : Answer :=
  sessionClose ((response.set "error" (.bool true)).set "status" (.str status))

/-- What the response says of a transaction that is found. -/
def confirmTx (address viewKey : String) (amount : Nat) (tx : Transaction) : Answer :=
  if backend.parsesAccount address viewKey then
    let totalReceived := calcTotalXmr ((backend.identifier address viewKey).outputs tx)
    if totalReceived = 0 then sessionClose confirmTxResponse
    else
      sessionClose
        (((((confirmTxResponse.set "found" (.bool true)).set "correct"
          (.bool (amount ≤ totalReceived.toNat))).set "amount" (.ofNat amount)).set
          "total_received" (.ofNat totalReceived.toNat)).set "payment_id"
          (.str (calls.paymentIdAsString tx)))
  else sessionCloseError confirmTxResponse ("Cant create coreacc for " ++ address)

/-- `confirm_tx_sent`. -/
def confirmTxSent (body : Option Json) : Answer :=
  match parseRequest body ["address", "view_key", "amount", "txid"] confirmTxResponse with
  | .error response => confirmError response "bad request"
  | .ok request =>
    match readConfirmRequest request with
    | none => confirmError confirmTxResponse "json error"
    | some (address, viewKey, amount, txHashStr) =>
      match backend.hexToPod txHashStr with
      | none => confirmError confirmTxResponse ("Cant parse tx hash! : " ++ txHashStr)
      | some txHash =>
        if calls.parsesSecretKey viewKey then
          if calls.parsesAddress address then
            match lookUpRequested backend txHash with
            | none => sessionClose confirmTxResponse
            | some (tx, _) => confirmTx backend calls address viewKey amount tx
          else confirmError confirmTxResponse "address parse error"
        else confirmError confirmTxResponse "viewkey parse error"

/-! ### `get_version` -/

/-- The version of the interface: 1 above the low 16 bits, and 6 in them. -/
def rpcVersion : Nat := 1 * 2 ^ 16 + 6

/-- The body is not read. -/
def getVersion : Answer :=
  sessionClose
    (.obj [("last_git_commit_hash", .str calls.gitCommitHash),
      ("last_git_commit_date", .str calls.gitCommitDatetime),
      ("git_branch_name", .str calls.gitBranchName),
      ("monero_version_full", .str calls.versionFull), ("api", .ofNat rpcVersion),
      ("testnet", .bool calls.isTestnet), ("network_type", .ofNat calls.netType),
      ("blockchain_height", .ofNat backend.status.currentHeight)])

/-! ### `get_address_txs`, while other workers go on -/

/-- `find_txs_in_mempool` looks whether there is a search thread, and then gets it, without the
mutex of the map. When the monitor erases it in between, getting it throws. -/
def findTxsInMempool (erased : Bool) (address : String) :
    Handler (Option (Option (List MempoolTx))) := do
  match ← withThread address none fun thread => (some thread, thread) with
  | none => pure (some none)
  | some thread =>
    if erased then pure none
    else do
      let entries ← findTxs backend thread backend.mempoolTxs
      pure (some (some entries))

/-- A statement that changes a row, unless another worker has left it nothing to change. -/
def changeRow (missed : Bool) (change : Handler Nat) : Handler Nat :=
  if missed then statement 0 fun db => (0, db) else change

/-- The spendability check among other workers: the first argument says of each of its statements
whether it changes no row, because another worker has marked or deleted the row since it was
selected. -/
def selectTxsForAccountSpendabilityCheck :
    List Bool → List XmrTransaction → Handler (Option (List XmrTransaction))
  | _, [] => pure (some [])
  | missed, tx :: rest => do
    let keep (missed : List Bool) (tx : XmrTransaction) :
        Handler (Option (List XmrTransaction)) := do
      let checked ← selectTxsForAccountSpendabilityCheck missed rest
      pure (checked.map (tx :: ·))
    if tx.spendable then
      keep missed tx
    else if isTxUnlocked backend.status tx.unlockTime tx.height then
      if (← changeRow (missed.headD false) (markTxSpendable tx.id backend.status.now)) ≠ 1 then
        pure none
      else keep missed.tail { tx with spendable := true }
    else if (backend.txExist tx.hash).getD 0 ≠ tx.blockchainTxId then
      if (← changeRow (missed.headD false) (deleteTx tx.id)) ≠ 1 then pure none
      else selectTxsForAccountSpendabilityCheck missed.tail rest
    else
      keep missed { tx with
        unlockTime :=
          if tx.unlockTime = 0 then tx.height + defaultTxSpendableAge else tx.unlockTime }

/-- What `get_address_txs` reads, unless getting the search thread throws. -/
def readAddress (erased : Bool) (missed : List Bool) (address : String) (acc : XmrAccount) :
    Handler (Option AddressTxs) := do
  let txs ← selectTransactions acc.id
  match ← selectTxsForAccountSpendabilityCheck backend missed txs with
  | none => do
    let mempool ← findTxsInMempool backend erased address
    pure (mempool.map (AddressTxs.mk none))
  | some checked => do
    let entries ← readAddressTxs checked
    let mempool ← findTxsInMempool backend erased address
    pure (mempool.map (AddressTxs.mk (some entries)))

/-- The handler, with what becomes of the search thread and of the rows that the check changes. -/
def getAddressTxs (erased : Bool) (missed : List Bool) (body : Option Json) : Handler Answer :=
  match parseRequest body ["address", "view_key"] .null with
  | .error response => pure (sessionClose response)
  | .ok request =>
    match readCredentials backend request with
    | .error _ => pure (sessionCloseError .null "")
    | .ok (address, viewKey) => do
      match ← loginAndStartSearchThread backend address viewKey {} addressTxsResponse with
      | (false, _, _) => pure threadMissing
      | (true, acc, response) => do
        let response :=
          accountHeader backend acc (response.set "total_received" (.ofNat 0))
        match ← readAddress backend erased missed address acc with
        | none => pure .escaped
        | some read => pure (addressTxsAnswer response read)

/-! ### The handlers of POST requests -/

/-- The handlers that are registered. -/
inductive PostRequest where
  | login
  | ping
  | getAddressTxs
  | getAddressInfo
  | getUnspentOuts
  | getRandomOuts
  | submitRawTx
  | importWalletRequest
  | importRecentWalletRequest
  | confirmTxSent
  | getTx
  | getVersion
  deriving DecidableEq

/-- What a handler does with its session. -/
def PostRequest.handle (erased : Bool) (missed : List Bool) (body : Option Json) (world : World) :
    PostRequest → List Answer
  | .login => [(LightWallet.login backend body world).1]
  | .ping => [(Sessions.ping backend calls body world).1]
  | .getAddressTxs => [(Sessions.getAddressTxs backend erased missed body world).1]
  | .getAddressInfo => [(LightWallet.getAddressInfo backend body world).1]
  | .getUnspentOuts => [(LightWallet.getUnspentOuts backend body world).1]
  | .getRandomOuts => Sessions.getRandomOuts backend calls body
  | .submitRawTx => [Sessions.submitRawTx backend calls body]
  | .importWalletRequest => [(LightWallet.importWalletRequest backend body world).1]
  | .importRecentWalletRequest => [(LightWallet.importRecentWalletRequest backend body world).1]
  | .confirmTxSent => [Sessions.confirmTxSent backend calls body]
  | .getTx => [(LightWallet.getTx backend body world).1]
  | .getVersion => [Sessions.getVersion backend calls]

/-- The session is closed once, and no exception leaves the handler. -/
def AnsweredOnce (session : List Answer) : Prop := ∃ code body, session = [.closed code body]

end Handlers

/-! ### Handlers that close the session -/

/-- The handler has closed the session, and no exception has escaped. -/
def Answer.Closes (answer : Answer) : Prop := ∃ code body, answer = .closed code body

theorem answeredOnce_singleton (answer : Answer) :
    AnsweredOnce [answer] ↔ Answer.Closes answer := by
  simp [AnsweredOnce, Answer.Closes]

/-- The computation closes the session in every world. -/
def Closes (handler : Handler Answer) : Prop := ∀ world, Answer.Closes (handler world).1

theorem sessionClose_closes (response : Json) : Answer.Closes (sessionClose response) :=
  ⟨_, _, rfl⟩

theorem sessionCloseError_closes (response : Json) (message : String) :
    Answer.Closes (sessionCloseError response message) := ⟨_, _, rfl⟩

namespace Closes

variable {Result : Type}

theorem pure {answer : Answer} (closes : Answer.Closes answer) :
    Closes (Pure.pure answer) := fun _ => closes

theorem close (response : Json) : Closes (Pure.pure (sessionClose response)) :=
  .pure (sessionClose_closes response)

theorem closeError (response : Json) (message : String) :
    Closes (Pure.pure (sessionCloseError response message)) :=
  .pure (sessionCloseError_closes response message)

theorem bind {first : Handler Result} {rest : Result → Handler Answer}
    (closes : ∀ result, Closes (rest result)) : Closes (first >>= rest) :=
  fun world => closes (first world).1 (first world).2

theorem ite {condition : Prop} [Decidable condition] {first second : Handler Answer}
    (closesFirst : Closes first) (closesSecond : Closes second) :
    Closes (if condition then first else second) := by
  split
  · exact closesFirst
  · exact closesSecond

end Closes

section Handlers

variable (backend : Backend) (calls : Calls) (body : Option Json)

theorem ping_closes : Closes (ping backend calls body) := by
  unfold ping
  split
  · exact .close _
  · split
    · exact .closeError _ _
    · exact .ite (.bind fun live => .ite (.close _) (.close _)) (.closeError _ _)

theorem loginTo_closes (asked : LoginRequest) (newAccountCreated : Bool) (acc : XmrAccount) :
    Closes (loginTo backend asked newAccountCreated acc) :=
  .ite (.close _) (.bind fun (success, _, response) => .pure (by
    split
    · exact sessionClose_closes _
    · exact sessionClose_closes _))

theorem login_closes : Closes (login backend body) := by
  unfold login
  split
  · exact .close _
  · split
    · exact .close _
    · unfold loginRequest
      refine .ite (.close _) (.bind fun selected => ?_)
      cases selected with
      | some acc => exact loginTo_closes backend _ _ acc
      | none =>
        refine .bind fun created => ?_
        cases created with
        | some acc => exact loginTo_closes backend _ _ acc
        | none => exact .close _

theorem addressInfoAnswer_closes (response : Json)
    (outputs : Option (List (XmrOutput × List XmrInput))) :
    Answer.Closes (addressInfoAnswer response outputs) := by
  cases outputs with
  | none => exact sessionClose_closes _
  | some outputs => exact sessionClose_closes _

theorem getAddressInfo_closes : Closes (getAddressInfo backend body) := by
  unfold getAddressInfo
  split
  · exact .close _
  · split
    · exact .close _
    · refine .bind fun (success, acc, response) => ?_
      cases success with
      | false => exact .close _
      | true =>
        exact .bind fun _ => .bind fun _ => .bind fun read =>
          .pure (addressInfoAnswer_closes _ read)

theorem getUnspentOuts_closes : Closes (getUnspentOuts backend body) := by
  unfold getUnspentOuts
  split
  · exact .close _
  · split
    · exact .close _
    · refine .bind fun live => .ite (.bind fun (success, acc, response) => ?_) (.close _)
      cases success with
      | false => exact .close _
      | true => exact .bind fun txs => .bind fun unspent => .close _

theorem applyImport_closes (address : String) (original updated : XmrAccount)
    (rowFailed positionFailed : String) (response success : Json) :
    Closes (applyImport address original updated rowFailed positionFailed response success) :=
  .bind fun _ => .ite (.bind fun _ => .ite (.bind fun _ => .ite (.close _) (.closeError _ _))
    (.closeError _ _)) (.closeError _ _)

theorem paidImport_closes (address : String) (acc : XmrAccount) (response : Json) :
    Closes (paidImport backend address acc response) := by
  refine .bind fun selected => ?_
  rcases selected with _ | _ | payment
  · exact .closeError _ _
  · refine .bind fun inserted => ?_
    cases inserted with
    | none => exact .closeError _ _
    | some id => exact .close _
  · refine .ite (.close _) ?_
    unfold checkPayment
    refine .ite (.closeError _ _) ?_
    dsimp only
    split
    · exact .close _
    · exact .bind fun _ => .ite (applyImport_closes _ _ _ _ _ _ _) (.closeError _ _)

theorem importWalletRequest_closes : Closes (importWalletRequest backend body) := by
  unfold importWalletRequest
  split
  · exact .closeError _ _
  · split
    · exact .closeError _ _
    · refine .bind fun selected => ?_
      cases selected with
      | none => exact .closeError _ _
      | some acc =>
        exact .ite (applyImport_closes _ _ _ _ _ _ _) (paidImport_closes backend _ acc _)

theorem recentImport_closes (address : String) (requested : Nat) (acc : XmrAccount)
    (response : Json) : Closes (recentImport backend address requested acc response) :=
  .ite (.closeError _ _) (applyImport_closes _ _ _ _ _ _ _)

theorem getTx_closes : Closes (getTx backend body) := by
  unfold getTx
  split
  · exact .close _
  · split
    · exact .close _
    · split
      · exact .close _
      · split
        · exact .closeError _ _
        · exact .bind fun live => .ite
            (.ite (.bind fun response => .close _) (.closeError _ _)) (.close _)

theorem confirmTxSent_closes : Answer.Closes (confirmTxSent backend calls body) := by
  unfold confirmTxSent
  split
  · exact sessionClose_closes _
  · split
    · exact sessionClose_closes _
    · split
      · exact sessionClose_closes _
      · split
        · split
          · split
            · exact sessionClose_closes _
            · unfold confirmTx
              split
              · dsimp only
                split
                · exact sessionClose_closes _
                · exact sessionClose_closes _
              · exact sessionCloseError_closes _ _
          · exact sessionClose_closes _
        · exact sessionClose_closes _

/-! ### The handlers that may not -/

/-- What stands before the first text that is no number is text. -/
def ReadsTexts (items : List Json) : Prop :=
  ∀ before item after, items = before ++ item :: after →
    (∀ other ∈ before, (other.asString? >>= backend.lexicalCast).isSome) → item.asString?.isSome

theorem readAmounts_ne_thrown_iff (items : List Json) :
    readAmounts backend items ≠ .thrown ↔ ReadsTexts backend items := by
  induction items with
  | nil =>
    refine ⟨fun _ before item after split => ?_, fun _ => by simp [readAmounts]⟩
    exact absurd split (by simp)
  | cons item rest inductionHypothesis =>
    unfold readAmounts
    cases isText : item.asString? with
    | none =>
      refine ⟨fun no => absurd rfl no, fun texts => ?_⟩
      have text := texts [] item rest rfl (by simp)
      rw [isText] at text
      cases text
    | some text =>
      dsimp only
      cases cast : backend.lexicalCast text with
      | none =>
        refine ⟨fun _ before other after split numbers => ?_, fun _ => by simp⟩
        cases before with
        | nil =>
          obtain ⟨rfl, -⟩ := List.cons.inj split
          rw [isText]
          rfl
        | cons first more =>
          obtain ⟨rfl, -⟩ := List.cons.inj split
          have number := numbers item List.mem_cons_self
          rw [isText] at number
          simp [cast] at number
      | some amount =>
        have number : (item.asString? >>= backend.lexicalCast).isSome := by
          rw [isText]
          simp [cast]
        have same : (match readAmounts backend rest with
            | .read amounts => .read (amount :: amounts)
            | stopped => stopped) ≠ Amounts.thrown ↔ readAmounts backend rest ≠ .thrown := by
          cases readAmounts backend rest <;> simp
        refine same.trans (inductionHypothesis.trans ?_)
        constructor
        · intro texts before other after split numbers
          cases before with
          | nil =>
            obtain ⟨rfl, -⟩ := List.cons.inj split
            rw [isText]
            rfl
          | cons first more =>
            obtain ⟨rfl, rest⟩ := List.cons.inj split
            exact texts more other after rest fun one member =>
              numbers one (List.mem_cons_of_mem _ member)
        · intro texts before other after split numbers
          refine texts (item :: before) other after (by rw [split]; rfl) fun one member => ?_
          rcases List.mem_cons.mp member with rfl | member
          · exact number
          · exact numbers one member

/-- The number of outputs is within the bound, and the amounts are texts. -/
def RandomOutsRight : Prop :=
  ∀ request count, body = some request → (request.read "count").asUint64? = some count →
    count ≤ 41 ∧ ReadsTexts backend (visited (request.read "amounts"))

theorem getRandomOuts_iff :
    AnsweredOnce (getRandomOuts backend calls body) ↔ RandomOutsRight backend body := by
  unfold RandomOutsRight getRandomOuts
  cases body with
  | none => exact ⟨fun _ request count isNone => (nomatch isNone), fun _ => ⟨_, _, rfl⟩⟩
  | some request =>
    show AnsweredOnce (match (request.read "count").asUint64? with
      | none => _
      | some count => _) ↔ _
    cases isCount : (request.read "count").asUint64? with
    | none =>
      refine ⟨fun _ other count same counts => ?_, fun _ => ⟨_, _, rfl⟩⟩
      obtain rfl := Option.some.inj same
      rw [isCount] at counts
      cases counts
    | some count =>
      have only : (∀ other number, some request = some other →
          (other.read "count").asUint64? = some number →
            number ≤ 41 ∧ ReadsTexts backend (visited (other.read "amounts"))) ↔
          count ≤ 41 ∧ ReadsTexts backend (visited (request.read "amounts")) := by
        refine ⟨fun right => right request count rfl isCount, ?_⟩
        rintro right other number ⟨⟩ counts
        rw [isCount] at counts
        obtain rfl := Option.some.inj counts
        exact right
      rw [only, ← readAmounts_ne_thrown_iff]
      by_cases large : count > 41
      · -- the session is closed a second time, or an exception follows
        refine ⟨?_, fun right => absurd right.1 (by omega)⟩
        rintro ⟨code, body, once⟩
        dsimp only at once
        rw [if_pos large] at once
        cases amounts : readAmounts backend (visited (request.read "amounts")) <;>
          (rw [amounts] at once; simp at once)
      · dsimp only
        rw [if_neg large]
        cases amounts : readAmounts backend (visited (request.read "amounts")) with
        | thrown => simp [AnsweredOnce]
        | badCast => exact ⟨fun _ => ⟨by omega, by simp⟩, fun _ => ⟨_, _, rfl⟩⟩
        | read values => exact ⟨fun _ => ⟨by omega, by simp⟩, fun _ => ⟨_, _, rfl⟩⟩

/-- The body is a JSON value with a text under `tx`. -/
def SubmitsText : Prop := ∃ request, body = some request ∧ (request.read "tx").asString?.isSome

theorem submitRawTx_iff :
    Answer.Closes (submitRawTx backend calls body) ↔ SubmitsText body := by
  unfold SubmitsText submitRawTx
  cases body with
  | none =>
    refine ⟨?_, ?_⟩
    · rintro ⟨code, body, closes⟩
      cases closes
    · rintro ⟨request, isNone, -⟩
      cases isNone
  | some request =>
    dsimp only
    cases text : (request.read "tx").asString? with
    | none =>
      refine ⟨?_, ?_⟩
      · rintro ⟨code, body, closes⟩
        cases closes
      · rintro ⟨other, ⟨⟩, isText⟩
        rw [text] at isText
        cases isText
    | some blob =>
      refine ⟨fun _ => ⟨request, rfl, by rw [text]; rfl⟩, fun _ => ?_⟩
      dsimp only
      split
      · exact sessionCloseError_closes _ _
      · split
        · exact sessionCloseError_closes _ _
        · split
          · exact sessionCloseError_closes _ _
          · split
            · exact sessionCloseError_closes _ _
            · exact sessionClose_closes _

/-- When a request is accepted, the number of blocks is a text. -/
def ImportsText : Prop :=
  ∀ request credentials, parseRequest body ["address", "view_key", "no_blocks_to_import"]
      (.obj [("request_fulfilled", .bool false)]) = .ok request →
    readCredentials backend request = .ok credentials →
    (request.read "no_blocks_to_import").asString?.isSome

theorem importRecentWalletRequest_iff (world : World) :
    Answer.Closes (importRecentWalletRequest backend body world).1 ↔ ImportsText backend body := by
  unfold ImportsText importRecentWalletRequest
  show Answer.Closes ((match parseRequest body ["address", "view_key", "no_blocks_to_import"]
      (.obj [("request_fulfilled", .bool false)]) with
    | .error response => _
    | .ok request => _ : Handler Answer) world).1 ↔ _
  cases parsed : parseRequest body ["address", "view_key", "no_blocks_to_import"]
      (.obj [("request_fulfilled", .bool false)]) with
  | error response =>
    exact ⟨fun _ request credentials isOk => (nomatch isOk), fun _ => sessionCloseError_closes _ _⟩
  | ok request =>
    dsimp only
    cases read : readCredentials backend request with
    | error what =>
      refine ⟨?_, fun _ => sessionCloseError_closes _ _⟩
      rintro - other credentials ⟨⟩ isOk
      rw [read] at isOk
      cases isOk
    | ok pair =>
      dsimp only
      cases text : (request.read "no_blocks_to_import").asString? with
      | none =>
        refine ⟨?_, fun texts => ?_⟩
        · rintro ⟨code, body, closes⟩
          cases closes
        · have isText := texts request pair rfl read
          rw [text] at isText
          cases isText
      | some blocks =>
        refine ⟨?_, fun _ => ?_⟩
        · rintro - other credentials ⟨⟩ -
          rw [text]
          rfl
        · dsimp only
          cases backend.lexicalCast blocks with
          | none => exact sessionCloseError_closes _ _
          | some requested =>
            refine Closes.bind (fun selected => ?_) world
            cases selected with
            | none => exact .closeError _ _
            | some acc => exact recentImport_closes backend _ _ acc _

/-! ### The transactions of an address -/

/-- A statement of the check throws, or changes no row. -/
def GivesUp (missed : List Bool) (txs : List XmrTransaction) (world : World) : Prop :=
  true ∈ world.throwing.take (Failures.checkStatements backend txs).length ∨
    true ∈ missed.take (Failures.checkStatements backend txs).length

instance (missed : List Bool) (txs : List XmrTransaction) (world : World) :
    Decidable (GivesUp backend missed txs world) := inferInstanceAs (Decidable (_ ∈ _ ∨ _ ∈ _))

/-- One of the flags is set, if the first one is or a later one. -/
theorem mem_take_succ (flags : List Bool) (count : Nat) :
    true ∈ flags.take (count + 1) ↔
      flags.headD false = true ∨ true ∈ flags.tail.take count := by
  cases flags with
  | nil => simp
  | cons flag rest => simp [eq_comm]

theorem givesUp_of_idle {tx : XmrTransaction} (idle : ¬ Changes backend tx) (missed : List Bool)
    (rest : List XmrTransaction) (world : World) :
    GivesUp backend missed (tx :: rest) world ↔ GivesUp backend missed rest world := by
  unfold GivesUp Failures.checkStatements
  rw [List.filter_cons_of_neg (by simpa using idle)]

theorem givesUp_of_changes {tx : XmrTransaction} (changes : Changes backend tx)
    (missed : List Bool) (rest : List XmrTransaction) (world : World) :
    GivesUp backend missed (tx :: rest) world ↔
      (world.throws = true ∨ missed.headD false = true) ∨
        GivesUp backend missed.tail rest world.next := by
  unfold GivesUp Failures.checkStatements World.throws World.next
  rw [List.filter_cons_of_pos (by simpa using changes), List.map_cons, List.length_cons,
    mem_take_succ, mem_take_succ]
  exact or_or_or_comm

@[simp] theorem changeRow_false (change : Handler Nat) : changeRow false change = change :=
  if_neg Bool.false_ne_true

/-- What goes on only after a statement that has changed its row: it throws, or has missed the row,
or what follows gives up. -/
theorem changeRow_none_iff {missed : Bool} {change : Database → Nat × Database}
    {rest : Handler (Option (List XmrTransaction))} {world : World}
    (one : (change world.db).1 = 1) :
    ((changeRow missed (statement 0 change) >>= fun count =>
        if count ≠ 1 then pure none else rest) world).1 = none ↔
      (world.throws = true ∨ missed = true) ∨
        (rest { world.next with db := (change world.db).2 }).1 = none := by
  unfold changeRow
  rw [Handler.bind_apply]
  by_cases throws : world.throws = true
  · rw [apply_ite (fun handler : Handler Nat => handler world), statement_throws _ _ throws,
      statement_throws _ _ throws, ite_self]
    exact iff_of_true rfl (.inl (.inl throws))
  · cases missed with
    | true =>
      rw [if_pos rfl, statement_runs _ _ throws]
      exact iff_of_true rfl (.inl (.inr rfl))
    | false =>
      rw [if_neg Bool.false_ne_true, statement_runs _ _ throws, one, if_neg (not_not.mpr rfl)]
      exact (or_iff_right (by simp [throws])).symm

/-- The check is given up when one of its statements throws, or has missed its row. -/
theorem check_eq_none_iff (missed : List Bool) (txs : List XmrTransaction) {world : World}
    (valid : world.db.Valid) (rows : ∀ tx ∈ txs, tx ∈ world.db.transactions)
    (distinct : Tables.Unique XmrTransaction.id txs) :
    (selectTxsForAccountSpendabilityCheck backend missed txs world).1 = none ↔
      GivesUp backend missed txs world := by
  induction txs generalizing world missed with
  | nil => simp [GivesUp, Failures.checkStatements, selectTxsForAccountSpendabilityCheck]
  | cons tx rest inductionHypothesis =>
    obtain ⟨fresh, distinctRest⟩ := List.nodup_cons.mp distinct
    have member := rows tx List.mem_cons_self
    have keeps (kept : XmrTransaction) (missed : List Bool) (after : World) :
        ((selectTxsForAccountSpendabilityCheck backend missed rest >>= fun checked =>
          pure (checked.map (kept :: ·))) after).1 = none ↔
          (selectTxsForAccountSpendabilityCheck backend missed rest after).1 = none :=
      Option.map_eq_none_iff
    have later (missed : List Bool) (after : World)
        (same : after.db = checkTx backend world.db tx) :
        (selectTxsForAccountSpendabilityCheck backend missed rest after).1 = none ↔
          GivesUp backend missed rest after := by
      refine inductionHypothesis missed (same ▸ checkTx_valid backend valid tx)
        (fun other inRest => ?_) distinctRest
      rw [same]
      exact mem_checkTx backend (rows other (List.mem_cons_of_mem _ inRest)) fun same =>
        fresh (List.mem_map.mpr ⟨other, inRest, same⟩)
    unfold selectTxsForAccountSpendabilityCheck
    by_cases spendable : tx.spendable = true
    · have idle : ¬ Changes backend tx := fun changes => by
        rw [changes.1] at spendable
        cases spendable
      rw [givesUp_of_idle backend idle, ← later missed world (if_pos spendable).symm]
      simp only [if_pos spendable]
      exact keeps tx missed world
    · have unmarked := eq_false_of_ne_true spendable
      by_cases unlocked : isTxUnlocked backend.status tx.unlockTime tx.height = true
      · rw [givesUp_of_changes backend ⟨unmarked, .inl unlocked⟩]
        simp only [if_neg spendable, if_pos unlocked]
        refine (changeRow_none_iff (markTxSpendable_count valid member unmarked _)).trans
          (or_congr_right ((keeps _ _ _).trans (later _ _ ?_)))
        unfold checkTx
        rw [if_neg spendable, if_pos unlocked]
      · by_cases orphaned : Orphaned backend tx
        · have condition : (backend.txExist tx.hash).getD 0 ≠ tx.blockchainTxId := orphaned
          rw [givesUp_of_changes backend ⟨unmarked, .inr orphaned⟩]
          simp only [if_neg spendable, if_neg unlocked, if_pos condition]
          refine (changeRow_none_iff (deleteTx_count valid member)).trans
            (or_congr_right (later _ _ ?_))
          unfold checkTx
          rw [if_neg spendable, if_neg unlocked, if_pos orphaned]
        · have idle : ¬ Changes backend tx := fun changes => changes.2.elim unlocked orphaned
          have condition : ¬ (backend.txExist tx.hash).getD 0 ≠ tx.blockchainTxId := orphaned
          rw [givesUp_of_idle backend idle,
            ← later missed world (checkTx_of_not_changes idle world.db).symm]
          simp only [if_neg spendable, if_neg unlocked, if_neg condition]
          exact keeps _ missed world

/-! ### The search thread that is looked up -/

/-- The computation leaves the map of search threads alone. -/
def KeepsThread {Result : Type} (handler : Handler Result) : Prop :=
  ∀ world address, (handler world).2.thread? address = world.thread? address

theorem keepsThread_pure {Result : Type} (result : Result) :
    KeepsThread (pure result : Handler Result) := fun _ _ => rfl

theorem keepsThread_bind {Result Next : Type} {first : Handler Result}
    {rest : Result → Handler Next} (keepsFirst : KeepsThread first)
    (keepsRest : ∀ result, KeepsThread (rest result)) : KeepsThread (first >>= rest) :=
  fun world address => (keepsRest _ _ address).trans (keepsFirst world address)

theorem keepsThread_statement {Result : Type} (onThrow : Result)
    (run : Database → Result × Database) : KeepsThread (statement onThrow run) := by
  intro world address
  unfold statement
  split
  · rfl
  · rfl

theorem keepsThread_query {Result : Type} (onThrow : Result) (read : Database → Result) :
    KeepsThread (query onThrow read) := keepsThread_statement onThrow fun db => (read db, db)

theorem changeRow_keepsThread (missed : Bool) (change : Database → Nat × Database) :
    KeepsThread (changeRow missed (statement 0 change)) := by
  unfold changeRow
  split
  · exact keepsThread_statement _ _
  · exact keepsThread_statement _ _

theorem check_keepsThread (missed : List Bool) (txs : List XmrTransaction) :
    KeepsThread (selectTxsForAccountSpendabilityCheck backend missed txs) := by
  induction txs generalizing missed with
  | nil => exact keepsThread_pure _
  | cons tx rest inductionHypothesis =>
    have keep (missed : List Bool) (kept : XmrTransaction) :
        KeepsThread (selectTxsForAccountSpendabilityCheck backend missed rest >>= fun checked =>
          pure (checked.map (kept :: ·))) :=
      keepsThread_bind (inductionHypothesis missed) fun _ => keepsThread_pure _
    unfold selectTxsForAccountSpendabilityCheck
    dsimp only
    split
    · exact keep _ _
    · split
      · refine keepsThread_bind (changeRow_keepsThread _ _) fun count => ?_
        split
        · exact keepsThread_pure _
        · exact keep _ _
      · split
        · refine keepsThread_bind (changeRow_keepsThread _ _) fun count => ?_
          split
          · exact keepsThread_pure _
          · exact inductionHypothesis _
        · exact keep _ _

theorem spentByInputs_keepsThread (inputs : List XmrInput) :
    KeepsThread (spentByInputs inputs) := by
  induction inputs with
  | nil => exact keepsThread_pure _
  | cons input rest inductionHypothesis =>
    refine keepsThread_bind (keepsThread_query _ _) fun found => ?_
    cases found with
    | none => exact inductionHypothesis
    | some out => exact keepsThread_bind inductionHypothesis fun _ => keepsThread_pure _

theorem readAddressTxs_keepsThread (txs : List XmrTransaction) :
    KeepsThread (readAddressTxs txs) := by
  induction txs with
  | nil => exact keepsThread_pure _
  | cons tx rest inductionHypothesis =>
    refine keepsThread_bind (keepsThread_bind (keepsThread_query _ _) fun inputs => ?_) fun entry =>
      keepsThread_bind inductionHypothesis fun _ => keepsThread_pure _
    cases inputs with
    | nil => exact keepsThread_pure _
    | cons input more =>
      exact keepsThread_bind (spentByInputs_keepsThread _) fun _ => keepsThread_pure _

theorem getThread_absent {address : String} {world : World}
    (absent : world.thread? address = none) :
    withThread address none (fun thread => (some thread, thread)) world =
      (none, world.visited address) := by
  unfold withThread
  rw [absent]

theorem getThread_found {address : String} {world : World} {thread : SearchThread}
    (live : world.thread? address = some thread) :
    withThread address none (fun thread => (some thread, thread)) world =
      (some thread, (world.visited address).putThread address thread) := by
  unfold withThread
  rw [live]

/-- A search thread that is not erased is searched. -/
theorem findTxsInMempool_kept {erased : Bool} {address : String} {world : World}
    (kept : erased = true → world.thread? address = none) :
    findTxsInMempool backend erased address world =
      (some (LightWallet.findTxsInMempool backend address world).1,
        (LightWallet.findTxsInMempool backend address world).2) := by
  unfold findTxsInMempool LightWallet.findTxsInMempool
  rw [Handler.bind_apply, Handler.bind_apply]
  cases live : world.thread? address with
  | none =>
    rw [getThread_absent live]
    rfl
  | some thread =>
    rw [getThread_found live]
    cases erased with
    | true =>
      have absent := kept rfl
      rw [live] at absent
      cases absent
    | false => rfl

theorem findTxsInMempool_erased {address : String} {world : World}
    (live : world.thread? address ≠ none) :
    (findTxsInMempool backend true address world).1 = none := by
  obtain ⟨thread, found⟩ := Option.ne_none_iff_exists'.mp live
  unfold findTxsInMempool
  rw [Handler.bind_apply, getThread_found found]
  rfl

/-- Without other workers the check is that of the requests. -/
theorem check_nil (txs : List XmrTransaction) :
    selectTxsForAccountSpendabilityCheck backend [] txs =
      LightWallet.selectTxsForAccountSpendabilityCheck backend txs := by
  induction txs with
  | nil => rfl
  | cons tx rest inductionHypothesis =>
    unfold selectTxsForAccountSpendabilityCheck LightWallet.selectTxsForAccountSpendabilityCheck
    simp only [List.headD_nil, changeRow_false, List.tail_nil, inductionHypothesis]

/-- Without them, and with nothing erased, the address is read as the requests read it. -/
theorem readAddress_nil {address : String} {acc : XmrAccount} {world : World} :
    (readAddress backend false [] address acc world).1 =
      some (LightWallet.readAddress backend address acc world).1 := by
  unfold readAddress LightWallet.readAddress
  rw [Handler.bind_apply, Handler.bind_apply, Handler.bind_apply, Handler.bind_apply, check_nil]
  generalize LightWallet.selectTxsForAccountSpendabilityCheck backend _ _ = check
  cases check.1 with
  | none =>
    simp only [Handler.bind_apply]
    rw [findTxsInMempool_kept backend fun isErased => absurd isErased Bool.false_ne_true]
    rfl
  | some txs =>
    simp only [Handler.bind_apply]
    rw [findTxsInMempool_kept backend fun isErased => absurd isErased Bool.false_ne_true]
    rfl

theorem readAddress_erased {missed : List Bool} {address : String} {acc : XmrAccount}
    {world : World} (live : world.thread? address ≠ none) :
    (readAddress backend true missed address acc world).1 = none := by
  have selected : ((selectTransactions acc.id world).2).thread? address = world.thread? address :=
    keepsThread_query [] (·.selectTransactions acc.id) world address
  unfold readAddress
  simp only [Handler.bind_apply]
  generalize selectTransactions acc.id world = selection at selected ⊢
  have checked := check_keepsThread backend missed selection.1 selection.2 address
  generalize selectTxsForAccountSpendabilityCheck backend missed selection.1 selection.2 = check
    at checked ⊢
  cases check.1 with
  | none =>
    have live : check.2.thread? address ≠ none := (checked.trans selected) ▸ live
    simp only [Handler.bind_apply]
    rw [findTxsInMempool_erased backend live]
    rfl
  | some txs =>
    have read := readAddressTxs_keepsThread txs check.2 address
    have live : (readAddressTxs txs check.2).2.thread? address ≠ none :=
      ((read.trans checked).trans selected) ▸ live
    simp only [Handler.bind_apply]
    rw [findTxsInMempool_erased backend live]
    rfl

/-- The search thread is not erased while it is looked up, and when the check is given up there is
no transaction in the mempool to add to the totals. -/
def AddressShown (erased : Bool) (missed : List Bool) (address : String) (acc : XmrAccount)
    (world : World) : Prop :=
  let (txs, selected) := selectTransactions acc.id world
  (erased = true → world.thread? address = none) ∧
    (GivesUp backend missed txs selected →
      (LightWallet.findTxsInMempool backend address
        (selectTxsForAccountSpendabilityCheck backend missed txs selected).2).1.getD [] = [])

/-- A request that logs in is shown its address. -/
def AddressTxsRight (erased : Bool) (missed : List Bool) (world : World) : Prop :=
  ∀ request address viewKey, parseRequest body ["address", "view_key"] .null = .ok request →
    readCredentials backend request = .ok (address, viewKey) →
    let login := loginAndStartSearchThread backend address viewKey {} addressTxsResponse world
    login.1.1 = true → AddressShown backend erased missed address login.1.2.1 login.2

theorem addressTxsAnswer_closes_iff (response : Json) (read : AddressTxs) :
    Answer.Closes (addressTxsAnswer response read) ↔
      (read.entries = none → read.mempool.getD [] = []) := by
  unfold addressTxsAnswer
  split
  · next mempool => exact ⟨fun _ _ => mempool, fun _ => sessionClose_closes _⟩
  · next entries mempool =>
    refine ⟨?_, fun empty => ?_⟩
    · rintro ⟨code, body, closes⟩
      cases closes
    · have none := empty entries
      rw [mempool] at none
      cases none
  · next entries => exact ⟨fun _ none => (nomatch entries.symm.trans none),
      fun _ => sessionClose_closes _⟩

/-- What is read of an address can be shown, unless the check is given up and the mempool is not
empty. -/
theorem readAddress_shown_iff {erased : Bool} {missed : List Bool} {address : String}
    {acc : XmrAccount} {world : World} (valid : world.db.Valid)
    (stays : erased = true → world.thread? address = none) :
    ∃ read, (readAddress backend erased missed address acc world).1 = some read ∧
      ((read.entries = none → read.mempool.getD [] = []) ↔
        AddressShown backend erased missed address acc world) := by
  have kept : (selectTransactions acc.id world).2.db = world.db :=
    (KeepsDb.query [] (·.selectTransactions acc.id) world).1
  have selected : (selectTransactions acc.id world).2.thread? address = world.thread? address :=
    keepsThread_query [] (·.selectTransactions acc.id) world address
  have answers : (selectTransactions acc.id world).1 = [] ∨
      (selectTransactions acc.id world).1 = world.db.selectTransactions acc.id :=
    query_result rfl
  have rows : ∀ tx ∈ (selectTransactions acc.id world).1,
      tx ∈ (selectTransactions acc.id world).2.db.transactions := by
    intro tx member
    rw [kept]
    rcases answers with none | some
    · rw [none] at member
      cases member
    · rw [some] at member
      exact (List.mem_filter.mp member).1
  have distinct : Tables.Unique XmrTransaction.id (selectTransactions acc.id world).1 := by
    rcases answers with none | some
    · rw [none]
      exact Tables.unique_nil _
    · rw [some]
      exact valid.transactionIds.filter _
  unfold AddressShown readAddress
  simp only [Handler.bind_apply]
  generalize selectTransactions acc.id world = selection at kept rows distinct selected ⊢
  have givenUp := check_eq_none_iff backend missed selection.1 (kept ▸ valid) rows distinct
  have checked := check_keepsThread backend missed selection.1 selection.2 address
  rw [← givenUp]
  generalize selectTxsForAccountSpendabilityCheck backend missed selection.1 selection.2 = check
    at checked ⊢
  cases check.1 with
  | none =>
    simp only [Handler.bind_apply]
    rw [findTxsInMempool_kept backend fun isErased =>
      (checked.trans selected).trans (stays isErased)]
    exact ⟨_, rfl, fun empty => ⟨stays, fun _ => empty rfl⟩, fun shown _ => shown.2 trivial⟩
  | some txs =>
    have read := readAddressTxs_keepsThread txs check.2 address
    simp only [Handler.bind_apply]
    rw [findTxsInMempool_kept backend fun isErased =>
      ((read.trans checked).trans selected).trans (stays isErased)]
    exact ⟨_, rfl, fun _ => ⟨stays, nofun⟩, fun _ => nofun⟩

theorem shown_iff {world : World} (valid : world.db.Valid) (erased : Bool) (missed : List Bool)
    (address : String) (acc : XmrAccount) (response : Json) :
    Answer.Closes ((match (readAddress backend erased missed address acc world).1 with
      | none => pure .escaped
      | some read => pure (addressTxsAnswer response read) : Handler Answer)
        (readAddress backend erased missed address acc world).2).1 ↔
      AddressShown backend erased missed address acc world := by
  by_cases vanishes : erased = true ∧ world.thread? address ≠ none
  · obtain ⟨rfl, live⟩ := vanishes
    rw [readAddress_erased backend live]
    refine ⟨?_, fun shown => absurd (shown.1 rfl) live⟩
    rintro ⟨code, body, closes⟩
    cases closes
  · have stays : erased = true → world.thread? address = none := fun isErased =>
      not_not.mp fun live => vanishes ⟨isErased, live⟩
    obtain ⟨read, isRead, shown⟩ := @readAddress_shown_iff backend erased missed address acc world
      valid stays
    rw [isRead]
    exact (addressTxsAnswer_closes_iff _ _).trans shown

theorem getAddressTxs_iff {world : World} (valid : world.db.Valid) (erased : Bool)
    (missed : List Bool) :
    Answer.Closes (getAddressTxs backend erased missed body world).1 ↔
      AddressTxsRight backend body erased missed world := by
  unfold AddressTxsRight getAddressTxs
  cases parsed : parseRequest body ["address", "view_key"] .null with
  | error response =>
    exact ⟨fun _ request address viewKey isOk => (nomatch isOk), fun _ => sessionClose_closes _⟩
  | ok request =>
    dsimp only
    cases read : readCredentials backend request with
    | error what =>
      refine ⟨?_, fun _ => sessionCloseError_closes _ _⟩
      rintro - other address viewKey ⟨⟩ isOk
      rw [read] at isOk
      cases isOk
    | ok pair =>
      obtain ⟨address, viewKey⟩ := pair
      have only : (∀ other name key, (.ok request : Except Json Json) = .ok other →
          readCredentials backend other = .ok (name, key) →
          let login := loginAndStartSearchThread backend name key {} addressTxsResponse world
          login.1.1 = true → AddressShown backend erased missed name login.1.2.1 login.2) ↔
          ((loginAndStartSearchThread backend address viewKey {} addressTxsResponse world).1.1 =
              true →
            AddressShown backend erased missed address
              (loginAndStartSearchThread backend address viewKey {} addressTxsResponse
                world).1.2.1
              (loginAndStartSearchThread backend address viewKey {} addressTxsResponse
                world).2) := by
        refine ⟨fun right => right request address viewKey rfl read, ?_⟩
        rintro right other name key ⟨⟩ isOk
        rw [read] at isOk
        obtain ⟨rfl, rfl⟩ := Prod.mk.inj (Except.ok.inj isOk)
        exact right
      rw [only]
      simp only [Handler.bind_apply]
      have kept := (loginAndStartSearchThread_keepsDb backend address viewKey {}
        addressTxsResponse world).1
      generalize loginAndStartSearchThread backend address viewKey {} addressTxsResponse world =
        login at kept ⊢
      obtain ⟨⟨success, acc, response⟩, after⟩ := login
      cases success with
      | false => exact ⟨fun _ => nofun, fun _ => sessionClose_closes _⟩
      | true =>
        rw [show (true = true → AddressShown backend erased missed address acc after) ↔
          AddressShown backend erased missed address acc after from
            ⟨fun shown => shown rfl, fun shown _ => shown⟩]
        simp only [Handler.bind_apply]
        exact shown_iff backend (kept ▸ valid) erased missed address acc _

/-- While nothing is erased or missed, the handler is that of the requests. -/
theorem getAddressTxs_undisturbed (world : World) :
    (getAddressTxs backend false [] body world).1 =
      (LightWallet.getAddressTxs backend body world).1 := by
  unfold getAddressTxs LightWallet.getAddressTxs
  cases parseRequest body ["address", "view_key"] .null with
  | error response => rfl
  | ok request =>
    dsimp only
    cases readCredentials backend request with
    | error what => rfl
    | ok pair =>
      obtain ⟨address, viewKey⟩ := pair
      simp only [Handler.bind_apply]
      generalize loginAndStartSearchThread backend address viewKey {} addressTxsResponse world =
        login
      obtain ⟨⟨success, acc, response⟩, after⟩ := login
      cases success with
      | false => rfl
      | true =>
        simp only [Handler.bind_apply]
        rw [readAddress_nil backend]
        rfl

/-- When the handler answers once. -/
def PostRequest.Right (erased : Bool) (missed : List Bool) (world : World) : PostRequest → Prop
  | .getAddressTxs => AddressTxsRight backend body erased missed world
  | .getRandomOuts => RandomOutsRight backend body
  | .submitRawTx => SubmitsText body
  | .importRecentWalletRequest => ImportsText backend body
  | _ => True

end Handlers

/-! ### A session that is closed twice -/

/-- A daemon that has no outputs and takes every transaction. -/
def daemon : Calls where
  threadHasKey _ _ := true
  randomOutputs _ _ := none
  outputRctField _ _ := ("", "", "")
  parseHexstr := some
  parseTx text := some { hash := text, keyImages := [] }
  keyImages _ := []
  commitTx _ := .ok ()
  parsesSecretKey _ := true
  parsesAddress _ := true
  paymentIdAsString _ := ""

end LightWallet.Sessions
