/-
This file settles which requests with a wrong view key learn nothing about the
account they name. Two databases are compared that differ only in what is stored
for that account. Most requests answer the same on both; the file gives the exact
condition under which `login` and `get_tx` do.
-/

import LightWallet.Imports
import LightWallet.Lookups
import LightWallet.Requests

namespace LightWallet.Noninterference

/-! ### The property -/

/-- The endpoints that take an address and a view key. -/
inductive Endpoint where
  | login
  | getAddressTxs
  | getAddressInfo
  | getUnspentOuts
  | getTx
  | importWalletRequest
  | importRecentWalletRequest
  deriving DecidableEq, Repr

/-- The handler of an endpoint. -/
def handle (backend : Backend) : Endpoint → Option Json → Handler Answer
  | .login => LightWallet.login backend
  | .getAddressTxs => LightWallet.getAddressTxs backend
  | .getAddressInfo => LightWallet.getAddressInfo backend
  | .getUnspentOuts => LightWallet.getUnspentOuts backend
  | .getTx => LightWallet.getTx backend
  | .importWalletRequest => LightWallet.importWalletRequest backend
  | .importRecentWalletRequest => LightWallet.importRecentWalletRequest backend

/-- The request names an address together with a view key. -/
def Names (request : Json) (address viewKey : String) : Prop :=
  (request.read "address").asString? = some address ∧
    (request.read "view_key").asString? = some viewKey

/-- The answer says that a login or an import has succeeded. -/
def ReportsSuccess : Answer → Prop
  | .closed _ body =>
    body.get? "status" = some (.str "success") ∨
      body.get? "request_fulfilled" = some (.bool true)
  | .escaped => False

/-- The row without what the service has found out for the account. -/
def withoutHistory (accountId : Nat) (row : XmrAccount) : XmrAccount :=
  if row.id = accountId then
    { row with
      scannedBlockHeight := 0
      scannedBlockTimestamp := 0
      startHeight := 0
      generatedLocally := false }
  else row

/-- The databases differ only in the data stored for one account; its address and the hash of its
view key are the same. -/
structure SameBut (accountId : Nat) (first second : Database) : Prop where
  accounts : first.accounts.map (withoutHistory accountId) =
    second.accounts.map (withoutHistory accountId)
  transactions : first.transactions.filter (·.accountId ≠ accountId) =
    second.transactions.filter (·.accountId ≠ accountId)
  outputs : first.outputs.filter (·.accountId ≠ accountId) =
    second.outputs.filter (·.accountId ≠ accountId)
  inputs : first.inputs.filter (·.accountId ≠ accountId) =
    second.inputs.filter (·.accountId ≠ accountId)
  payments : first.payments.filter (·.accountId ≠ accountId) =
    second.payments.filter (·.accountId ≠ accountId)

/-- The account of the address has another view key. -/
def Guarded (backend : Backend) (accountId : Nat) (address viewKey : String) (db : Database) :
    Prop :=
  ∃ row, db.selectAccount address = some row ∧ row.id = accountId ∧
    backend.makeHash viewKey ≠ row.viewkeyHash

/-- A request that names an account together with a wrong view key is answered alike on databases
that differ only in the data of the account, and not with a success. The search threads and the
faults are the same on both. -/
def Noninterfering (backend : Backend) (endpoint : Endpoint) (request : Json) (frame : World) :
    Prop :=
  ∀ address viewKey accountId first second, Names request address viewKey →
    first.Valid → second.Valid → SameBut accountId first second →
    Guarded backend accountId address viewKey first →
    Guarded backend accountId address viewKey second →
    (handle backend endpoint (some request) (frame.on first)).1 =
        (handle backend endpoint (some request) (frame.on second)).1 ∧
      ¬ ReportsSuccess (handle backend endpoint (some request) (frame.on first)).1

/-! ### The condition -/

/-- `login` hands out an existing account without comparing the view key. It is protected if no
account is to be made, or reading the account once more throws, or the login that follows is not
skipped and reads the row, whose hash it compares. -/
def LoginProtected (request : Json) (frame : World) : Prop :=
  ∀ asked, parseRequest (some request) ["address", "view_key"] .null = .ok request →
    readLogin request = some asked →
    (asked.createAccount = false ∧ asked.createOnly = false) ∨ frame.next.throws = true ∨
      asked.createOnly = false ∧ ¬ frame.next.next.throws = true

/-- None of the account's rows is read for a transaction of the blockchain. -/
def StoredUnread (frame : World) : Prop := frame.throws = true ∨ frame.next.throws = true

/-- None of the account's rows is read for a transaction of the mempool: reading the account
throws, or the thread is gone by then, or every lookup of an identified input throws. -/
def MempoolUnread (identifier : Identifier) (tx : Transaction) (address : String)
    (frame : World) : Prop :=
  frame.throws = true ∨
    ∀ thread, frame.thread? address = some thread →
      (frame.visited address).thread? address ≠ none →
      ∀ index < (identifier.inputs thread.known tx).length,
        frame.throwing.getD (index + 1) false = true

/-- `get_tx` does not compare the view key at all. It is protected if the transaction is not
found, or the address has no search thread, or the view key does not parse, or no row of the
account is read. -/
def TxProtected (backend : Backend) (request : Json) (frame : World) : Prop :=
  ∀ address viewKey txHashStr txHash tx receiveTime,
    parseRequest (some request) ["address", "view_key", "tx_hash"] .null = .ok request →
    readTxRequest request = some (address, viewKey, txHashStr) →
    backend.hexToPod txHashStr = some txHash →
    lookUpRequested backend txHash = some (tx, receiveTime) →
    frame.thread? address ≠ none →
    backend.parsesAccount address viewKey = true →
    match receiveTime with
    | none => StoredUnread frame
    | some _ => MempoolUnread (backend.identifier address viewKey) tx address frame

/-- The condition on an endpoint; those that are not named need none. -/
def Protected (backend : Backend) : Endpoint → Json → World → Prop
  | .login, request, frame => LoginProtected request frame
  | .getTx, request, frame => TxProtected backend request frame
  | _, _, _ => True

/-! ### Answers that do not depend on the account -/

/-- One answer, which reports no success, is given on all databases in which the account has
another view key. -/
def Blind (backend : Backend) (accountId : Nat) (address viewKey : String)
    (handler : Handler Answer) (frame : World) : Prop :=
  ∃ answer, ¬ ReportsSuccess answer ∧ ∀ db, Guarded backend accountId address viewKey db →
    (handler (frame.on db)).1 = answer

theorem noninterfering_of_blind {backend : Backend} {endpoint : Endpoint} {request : Json}
    {frame : World}
    (blind : ∀ accountId address viewKey, Names request address viewKey →
      Blind backend accountId address viewKey (handle backend endpoint (some request)) frame) :
    Noninterfering backend endpoint request frame := by
  intro address viewKey accountId first second names _ _ _ guardedFirst guardedSecond
  obtain ⟨answer, unsuccessful, same⟩ := blind accountId address viewKey names
  rw [same first guardedFirst, same second guardedSecond]
  exact ⟨rfl, unsuccessful⟩

section Guard

variable {backend : Backend} {accountId : Nat} {address viewKey : String} {world : World}

/-- The row is read, or reading it throws. -/
theorem selectAccountRow_guarded (guarded : Guarded backend accountId address viewKey world.db) :
    (world.throws = true ∧ selectAccountRow address world = (none, world.next)) ∨
      ¬ world.throws = true ∧ ∃ row, selectAccountRow address world = (some row, world.next) ∧
        backend.makeHash viewKey ≠ row.viewkeyHash := by
  obtain ⟨row, found, -, differs⟩ := guarded
  by_cases throws : world.throws = true
  · exact .inl ⟨throws, selectAccountRow_throws address throws⟩
  · refine .inr ⟨throws, row, ?_, differs⟩
    rw [selectAccountRow_runs address throws, found]

theorem loginAndStartSearchThread_guarded
    (guarded : Guarded backend accountId address viewKey world.db) (acc : XmrAccount)
    (response : Json) :
    ∃ read, loginAndStartSearchThread backend address viewKey acc response world =
      ((false, read, if world.throws then response
        else Json.ofError "Viewkey provided is incorrect"), world.next) := by
  unfold loginAndStartSearchThread
  rw [Handler.bind_apply]
  rcases selectAccountRow_guarded guarded with ⟨throws, read⟩ | ⟨runs, row, read, differs⟩
  · rw [read, if_pos throws]
    exact ⟨acc, rfl⟩
  · rw [read, if_neg runs]
    simp only [differs, if_false]
    exact ⟨row, rfl⟩

theorem checkViewkey_guarded {row : XmrAccount}
    (differs : backend.makeHash viewKey ≠ row.viewkeyHash) :
    checkViewkey backend viewKey row = none := if_neg differs

/-- The address is taken, so that no account can be created. -/
theorem createAccount_guarded (guarded : Guarded backend accountId address viewKey world.db)
    (generatedLocally : Bool) :
    (world.throws = true ∧ createAccount backend address viewKey generatedLocally world =
        (none, world.next.next)) ∨
      ¬ world.throws = true ∧ ∃ row, createAccount backend address viewKey generatedLocally world =
          (some row, world.next) ∧ world.db.selectAccount address = some row ∧
        backend.makeHash viewKey ≠ row.viewkeyHash := by
  obtain ⟨row, found, -, differs⟩ := guarded
  by_cases throws : world.throws = true
  · refine .inl ⟨throws, createAccount_refused backend viewKey generatedLocally ?_ (.inr ?_)⟩
    · rw [selectAccountRow_throws address throws]
    · rw [found]
      exact Option.some_ne_none row
  · refine .inr ⟨throws, row, createAccount_reads backend viewKey generatedLocally ?_, found,
      differs⟩
    rw [selectAccountRow_runs address throws, found]

/-- No account is handed out for a wrong view key. -/
theorem selectAccount_guarded (guarded : Guarded backend accountId address viewKey world.db)
    (createIfNotfound : Bool) :
    (selectAccount backend address viewKey createIfNotfound world).1 = none := by
  rcases selectAccountRow_guarded guarded with ⟨throws, read⟩ | ⟨runs, row, read, differs⟩
  · have unread := congrArg Prod.fst read
    cases createIfNotfound with
    | false =>
      unfold selectAccount
      rw [Handler.bind_apply, read]
      rfl
    | true =>
      have guardedNext : Guarded backend accountId address viewKey world.next.db := guarded
      rcases createAccount_guarded guardedNext true with
        ⟨again, refused⟩ | ⟨again, row, reads, -, differs⟩
      · rw [selectAccount_uncreated backend unread (congrArg Prod.fst refused)]
      · unfold selectAccount
        rw [Handler.bind_apply, read]
        simp only [if_true, Handler.bind_apply]
        rw [reads]
        simp only [Handler.bind_apply]
        split
        · exact checkViewkey_guarded differs
        · rfl
  · rw [selectAccount_reads backend viewKey createIfNotfound (congrArg Prod.fst read)]
    exact checkViewkey_guarded differs

end Guard

/-! ### Requests that are protected -/

section Blind

variable {backend : Backend} {accountId : Nat} {address viewKey : String} {request : Json}
  {frame : World}

theorem unsuccessful_of_status {body : Json} {status : String} (code : Nat)
    (reports : body.get? "status" = some (.str status)) (differs : status ≠ "success")
    (unfulfilled : body.get? "request_fulfilled" ≠ some (.bool true)) :
    ¬ ReportsSuccess (.closed code body) := by
  rintro (success | fulfilled)
  · rw [reports] at success
    exact differs (Json.str.inj (Option.some.inj success))
  · exact unfulfilled fulfilled

theorem unsuccessful_of_no_status {body : Json} (code : Nat)
    (silent : body.get? "status" = none)
    (unfulfilled : body.get? "request_fulfilled" ≠ some (.bool true)) :
    ¬ ReportsSuccess (.closed code body) := by
  rintro (success | fulfilled)
  · rw [silent] at success
    cases success
  · exact unfulfilled fulfilled

/-- One answer for every database. -/
theorem blind_constant {handler : Handler Answer} {answer : Answer}
    (unsuccessful : ¬ ReportsSuccess answer)
    (constant : ∀ db, Guarded backend accountId address viewKey db →
      (handler (frame.on db)).1 = answer) :
    Blind backend accountId address viewKey handler frame := ⟨answer, unsuccessful, constant⟩

/-- A request that misses a value is refused without a look at the database. -/
theorem blind_of_parsed {values : List String} {response : Json} {refuse : Json → Answer}
    {rest : Json → Handler Answer}
    (unfulfilled : response.get? "request_fulfilled" ≠ some (.bool true))
    (refuses : ∀ refusal, refusal.get? "status" = some (.str "error") →
      refusal.get? "request_fulfilled" ≠ some (.bool true) → ¬ ReportsSuccess (refuse refusal))
    (blind : parseRequest (some request) values response = .ok request →
      Blind backend accountId address viewKey (rest request) frame) :
    Blind backend accountId address viewKey
      (match parseRequest (some request) values response with
        | .error refusal => pure (refuse refusal)
        | .ok request => rest request) frame := by
  cases missing : values.find? fun value => !request.has value with
  | none =>
    have parsed : parseRequest (some request) values response = .ok request := by
      simp only [parseRequest, missing]
    simp only [parsed]
    exact blind parsed
  | some value =>
    have refused : parseRequest (some request) values response =
        .error ((response.set "status" (.str "error")).set "reason"
          (.str (value ++ " value not provided"))) := by
      simp only [parseRequest, missing]
    simp only [refused]
    exact blind_constant (refuses _ (by simp) (by simpa using unfulfilled)) fun _ _ => rfl

theorem readCredentials_names (names : Names request address viewKey) :
    readCredentials backend request = .ok (address, viewKey) := by
  unfold readCredentials
  rw [names.1, names.2]

theorem threadMissing_unsuccessful : ¬ ReportsSuccess threadMissing :=
  unsuccessful_of_status codeOk (by rfl) (by decide) (by simp [Json.ofError])

theorem sessionClose_unsuccessful (refusal : Json)
    (reports : refusal.get? "status" = some (.str "error"))
    (unfulfilled : refusal.get? "request_fulfilled" ≠ some (.bool true)) :
    ¬ ReportsSuccess (sessionClose refusal) :=
  unsuccessful_of_status codeOk reports (by decide) unfulfilled

theorem sessionCloseError_unsuccessful (message : String) (refusal : Json)
    (reports : refusal.get? "status" = some (.str "error"))
    (unfulfilled : refusal.get? "request_fulfilled" ≠ some (.bool true)) :
    ¬ ReportsSuccess (sessionCloseError refusal message) :=
  unsuccessful_of_status unprocessableEntity (by simpa using reports) (by decide)
    (by simpa using unfulfilled)

/-- The two requests for the state of an account answer alike when the login fails. -/
theorem blind_of_login {response : Json} {rest : XmrAccount → Json → Handler Answer} :
    Blind backend accountId address viewKey (do
      match ← loginAndStartSearchThread backend address viewKey {} response with
      | (false, _, _) => pure threadMissing
      | (true, acc, response) => rest acc response) frame := by
  refine blind_constant threadMissing_unsuccessful fun db guarded => ?_
  obtain ⟨read, refuses⟩ := @loginAndStartSearchThread_guarded backend accountId address viewKey
    (frame.on db) guarded {} response
  rw [Handler.bind_apply, refuses]
  rfl

theorem getAddressTxs_blind (names : Names request address viewKey) :
    Blind backend accountId address viewKey (getAddressTxs backend (some request)) frame := by
  refine blind_of_parsed (by simp [Json.get?]) sessionClose_unsuccessful fun _ => ?_
  simp only [readCredentials_names names]
  exact blind_of_login

theorem getAddressInfo_blind (names : Names request address viewKey) :
    Blind backend accountId address viewKey (getAddressInfo backend (some request)) frame := by
  refine blind_of_parsed (by simp [Json.get?]) sessionClose_unsuccessful fun _ => ?_
  simp only [readCredentials_names names]
  exact blind_of_login

theorem null_unsuccessful : ¬ ReportsSuccess (sessionClose .null) :=
  unsuccessful_of_no_status codeOk rfl (by simp [Json.get?])

theorem readUnspentRequest_names (names : Names request address viewKey)
    {asked : String × String × Nat} (read : readUnspentRequest backend request = some asked) :
    asked.1 = address ∧ asked.2.1 = viewKey := by
  unfold readUnspentRequest at read
  simp only [names.1, names.2, Option.bind_eq_bind, Option.bind_some, Option.pure_def,
    Option.bind_eq_some_iff, Option.some.injEq] at read
  obtain ⟨-, -, -, -, dust, -, -, -, rfl⟩ := read
  exact ⟨rfl, rfl⟩

theorem getUnspentOuts_blind (names : Names request address viewKey) :
    Blind backend accountId address viewKey (getUnspentOuts backend (some request)) frame := by
  refine blind_of_parsed (by simp [Json.get?]) sessionClose_unsuccessful fun _ => ?_
  cases read : readUnspentRequest backend request with
  | none => exact blind_constant null_unsuccessful fun _ _ => rfl
  | some asked =>
    obtain ⟨address', viewKey', dustThreshold⟩ := asked
    obtain ⟨rfl, rfl⟩ := readUnspentRequest_names names read
    cases live : frame.thread? address' with
    | none =>
      refine blind_constant threadMissing_unsuccessful fun db _ => ?_
      have absent : (frame.on db).thread? address' = none := live
      simp only [Handler.bind_apply]
      rw [searchThreadExist_absent absent]
      rfl
    | some thread =>
      refine ⟨sessionClose (if frame.throws then unspentOutsResponse backend
        else Json.ofError "Viewkey provided is incorrect"), ?_, fun db guarded => ?_⟩
      · split
        · exact unsuccessful_of_no_status codeOk (by simp [unspentOutsResponse])
            (by simp [unspentOutsResponse])
        · exact sessionClose_unsuccessful _ (by simp [Json.ofError]) (by simp [Json.ofError])
      · have found : (frame.on db).thread? address' = some thread := live
        obtain ⟨read, refuses⟩ := @loginAndStartSearchThread_guarded backend accountId address'
          viewKey' (((frame.on db).visited address').putThread address' thread)
          guarded {} (unspentOutsResponse backend)
        simp only [Handler.bind_apply]
        rw [searchThreadExist_found found]
        simp only [if_true, Handler.bind_apply]
        rw [refuses]
        rfl

theorem importWalletRequest_blind (names : Names request address viewKey) :
    Blind backend accountId address viewKey (importWalletRequest backend (some request))
      frame := by
  refine blind_of_parsed (by simp [Json.get?]) (sessionCloseError_unsuccessful _) fun _ => ?_
  simp only [readCredentials_names names]
  refine ⟨sessionCloseError (importResponse backend) "The account login or creation failed!",
    ?_, fun db guarded => ?_⟩
  · exact sessionCloseError_unsuccessful _ _ (by simp [importResponse]) (by simp [importResponse])
  · simp only [Handler.bind_apply]
    rw [@selectAccount_guarded backend accountId address viewKey (frame.on db) guarded true]
    rfl

theorem importRecentWalletRequest_blind (names : Names request address viewKey) :
    Blind backend accountId address viewKey (importRecentWalletRequest backend (some request))
      frame := by
  refine blind_of_parsed (by simp) (sessionCloseError_unsuccessful _) fun _ => ?_
  simp only [readCredentials_names names]
  cases string : (request.read "no_blocks_to_import").asString? with
  | none => exact blind_constant id fun _ _ => rfl
  | some text =>
    cases number : backend.lexicalCast text with
    | none =>
      simp only [number]
      refine ⟨sessionCloseError _ _, ?_, fun _ _ => rfl⟩
      exact unsuccessful_of_no_status unprocessableEntity (by simp) (by simp)
    | some requested =>
      simp only [number]
      refine ⟨sessionCloseError (.obj [("request_fulfilled", .bool false)])
        "The account login or creation failed!", ?_, fun db guarded => ?_⟩
      · exact unsuccessful_of_no_status unprocessableEntity (by simp) (by simp)
      · simp only [Handler.bind_apply]
        rw [@selectAccount_guarded backend accountId address viewKey (frame.on db) guarded
          true]
        rfl

end Blind

/-! ### `login` -/

section Login

variable {backend : Backend} {accountId : Nat} {address viewKey : String} {request : Json}
  {frame : World} {asked : LoginRequest}

theorem readLogin_names (names : Names request address viewKey)
    (read : readLogin request = some asked) :
    asked.address = address ∧ asked.viewKey = viewKey := by
  unfold readLogin at read
  simp only [names.1, names.2, Option.bind_eq_bind, Option.bind_some, Option.pure_def,
    Option.bind_eq_some_iff, Option.some.injEq] at read
  obtain ⟨-, -, -, -, rfl⟩ := read
  exact ⟨rfl, rfl⟩

/-- Whether or not the first select reads the row, the account is not handed out by it, and the
second one decides. -/
theorem loginRequest_guarded {world : World}
    (guarded : Guarded backend accountId asked.address asked.viewKey world.db)
    (makes : ¬ (asked.createAccount = false ∧ asked.createOnly = false)) :
    (world.next.throws = true ∧ (loginRequest backend asked world).1 =
        sessionClose (Json.ofError "Account creation failed")) ∨
      ¬ world.next.throws = true ∧ ∃ row, world.db.selectAccount asked.address = some row ∧
        (loginRequest backend asked world).1 =
          (loginTo backend asked true row world.next.next).1 := by
  have unselected : selectAccount backend asked.address asked.viewKey false world =
      (none, world.next) := by
    rcases selectAccountRow_guarded guarded with ⟨throws, read⟩ | ⟨runs, row, read, differs⟩
    · unfold selectAccount
      rw [Handler.bind_apply, read]
      rfl
    · rw [selectAccount_reads backend asked.viewKey false (congrArg Prod.fst read),
        checkViewkey_guarded differs]
  have guardedNext : Guarded backend accountId asked.address asked.viewKey world.next.db := guarded
  unfold loginRequest
  rw [if_neg makes, Handler.bind_apply, unselected]
  simp only [Handler.bind_apply]
  rcases createAccount_guarded guardedNext asked.generatedLocally with
    ⟨throws, refused⟩ | ⟨runs, row, reads, found, -⟩
  · rw [refused]
    exact .inl ⟨throws, rfl⟩
  · rw [reads]
    exact .inr ⟨runs, row, found, rfl⟩

theorem loginTo_refuses {world : World} {row : XmrAccount}
    (guarded : Guarded backend accountId asked.address asked.viewKey world.db)
    (continues : asked.createOnly = false) (runs : ¬ world.throws = true) :
    (loginTo backend asked true row world).1 =
      sessionClose (Json.ofError "Viewkey provided is incorrect") := by
  obtain ⟨read, refuses⟩ := @loginAndStartSearchThread_guarded backend accountId asked.address
    asked.viewKey world guarded row ((Json.null.set "generated_locally"
      (.bool row.generatedLocally)).set "start_height" (.ofNat row.startHeight))
  unfold loginTo
  simp only [continues, Bool.false_eq_true, if_false, Handler.bind_apply]
  rw [refuses, if_neg runs]
  rfl

theorem login_blind (names : Names request address viewKey)
    (isProtected : LoginProtected request frame) :
    Blind backend accountId address viewKey (login backend (some request)) frame := by
  refine blind_of_parsed (by simp [Json.get?]) sessionClose_unsuccessful fun parsed => ?_
  cases read : readLogin request with
  | none => exact blind_constant null_unsuccessful fun _ _ => rfl
  | some asked =>
    obtain ⟨rfl, rfl⟩ := readLogin_names names read
    have refusal (reason : String) : ¬ ReportsSuccess (sessionClose (Json.ofError reason)) :=
      sessionClose_unsuccessful _ (by simp [Json.ofError]) (by simp [Json.ofError])
    by_cases makes : asked.createAccount = false ∧ asked.createOnly = false
    · refine blind_constant (refusal "Not making an account") fun db _ => ?_
      show (loginRequest backend asked _).1 = _
      unfold loginRequest
      rw [if_pos makes]
      rfl
    · by_cases throws : frame.next.throws = true
      · refine blind_constant (refusal "Account creation failed") fun db guarded => ?_
        rcases @loginRequest_guarded backend accountId asked (frame.on db) guarded makes with
          ⟨-, fails⟩ | ⟨runs, -⟩
        · exact fails
        · exact absurd throws runs
      · obtain ⟨continues, runs⟩ :=
          ((isProtected asked parsed read).resolve_left makes).resolve_left throws
        refine blind_constant (refusal "Viewkey provided is incorrect") fun db guarded => ?_
        rcases @loginRequest_guarded backend accountId asked (frame.on db) guarded makes with
          ⟨fails, -⟩ | ⟨-, row, -, logs⟩
        · exact absurd fails throws
        · exact logs.trans (@loginTo_refuses backend accountId asked
            (frame.on db).next.next row guarded continues runs)

end Login

/-! ### `get_tx` -/

/-- Nothing is found exactly if every lookup throws or finds no row. -/
theorem knownSpent_eq_nil_iff (inputs : List InputInfo) (world : World) :
    (knownSpent inputs world).1 = [] ↔
      ∀ index info, inputs[index]? = some info →
        world.throwing.getD index false = true ∨ world.db.outputExists info.outPubKey = none := by
  induction inputs generalizing world with
  | nil => simp [knownSpent]
  | cons info rest inductionHypothesis =>
    have left : (outputExists info.outPubKey world).2 = world.next := query_world _ _ world
    have tail (index : Nat) :
        world.throwing.getD (index + 1) false = world.next.throwing.getD index false := by
      unfold World.next
      cases world.throwing <;> rfl
    have step : (knownSpent (info :: rest) world).1 = [] ↔
        (outputExists info.outPubKey world).1 = none ∧ (knownSpent rest world.next).1 = [] := by
      have read : knownSpent (info :: rest) world = _ :=
        Handler.bind_apply (outputExists info.outPubKey) _ world
      rw [read, left]
      cases (outputExists info.outPubKey world).1 with
      | none => simp
      | some out => simp
    have first : (outputExists info.outPubKey world).1 = none ↔
        world.throwing.getD 0 false = true ∨ world.db.outputExists info.outPubKey = none := by
      have head : world.throwing.getD 0 false = world.throws := by
        unfold World.throws
        cases world.throwing <;> rfl
      rw [head]
      unfold outputExists query
      by_cases throws : world.throws = true
      · rw [statement_throws _ _ throws]
        simp [throws]
      · rw [statement_runs _ _ throws]
        simp [throws]
    rw [step, first, inductionHypothesis]
    constructor
    · rintro ⟨here, later⟩ index other found
      cases index with
      | zero =>
        cases found
        exact here
      | succ index =>
        rw [tail]
        exact later index other found
    · intro all
      refine ⟨all 0 info rfl, fun index other found => ?_⟩
      have := all (index + 1) other found
      rwa [tail] at this

section GetTx

variable {backend : Backend} {accountId : Nat} {address viewKey txHashStr txHash : String}
  {request : Json} {frame : World} {tx : Transaction} {thread : SearchThread}

/-- Without a search thread, or with a view key that does not parse, no row is read. -/
theorem identifyTx_unread (backend : Backend) (tx : Transaction) (inMempool : Bool)
    (response : Json) {world : World}
    (idle : world.thread? address = none ∨ ¬ backend.parsesAccount address viewKey = true) :
    (identifyTx backend address viewKey txHashStr txHash tx inMempool response world).1 =
      if world.thread? address = none then sessionClose (finishTx backend txHash response)
      else sessionCloseError response ("Cant create coreacc for " ++ address) := by
  unfold identifyTx getXmrAddressViewkey
  rw [Handler.bind_apply]
  cases live : world.thread? address with
  | none =>
    rw [searchThreadExist_absent live]
    rfl
  | some thread =>
    have parses : ¬ backend.parsesAccount address viewKey = true :=
      idle.resolve_left (by rw [live]; exact Option.some_ne_none thread)
    rw [searchThreadExist_found live]
    simp only [if_true, parses]
    rfl

/-- With a search thread and a view key that parses, the answer is the account's part. -/
theorem identifyTx_reads (backend : Backend) (tx : Transaction) (inMempool : Bool)
    (response : Json) {world : World} (live : world.thread? address = some thread)
    (parses : backend.parsesAccount address viewKey = true) :
    (identifyTx backend address viewKey txHashStr txHash tx inMempool response world).1 =
      sessionClose (finishTx backend txHash
        (spendings backend address viewKey txHashStr tx inMempool
          (response.set "total_received"
            (.ofText (calcTotalXmr ((backend.identifier address viewKey).outputs tx)).toNat))
          ((world.visited address).putThread address thread)).1) := by
  unfold identifyTx getXmrAddressViewkey
  rw [Handler.bind_apply, searchThreadExist_found live]
  simp only [if_true, parses, Handler.bind_apply]
  rfl

/-- The stored part of a transaction, when the account's row is read. -/
theorem spendings_stored (response : Json) {world : World} {row : XmrAccount}
    (runs : ¬ world.throws = true) (found : world.db.selectAccount address = some row) :
    (spendings backend address viewKey txHashStr tx false response world).1 =
      (storedSpendings row.id txHashStr response world.next).1 := by
  unfold spendings
  rw [Handler.bind_apply, selectAccountRow_runs address runs, found]
  rfl

theorem spendings_unread (inMempool : Bool) (response : Json) {world : World}
    (throws : world.throws = true) :
    (spendings backend address viewKey txHashStr tx inMempool response world).1 = response := by
  unfold spendings
  rw [Handler.bind_apply, selectAccountRow_throws address throws]
  rfl

/-- The part of a transaction of the mempool, when the account's row is read. -/
theorem spendings_mempool (response : Json) {world : World} {row : XmrAccount}
    (runs : ¬ world.throws = true) (found : world.db.selectAccount address = some row) :
    (spendings backend address viewKey txHashStr tx true response
        ((world.visited address).putThread address thread)).1 =
      if (world.visited address).thread? address = none then response
      else
        let spent := (knownSpent ((backend.identifier address viewKey).inputs thread.known tx)
          ((((world.visited address).putThread address thread).next.visited
            address).putThread address thread)).1
        setSpent (totalStored spent) (spent.map (identifiedSpent fun info _ => info.amount))
          response := by
  let mid := (world.visited address).putThread address thread
  have runsMid : ¬ mid.throws = true := runs
  have foundMid : mid.db.selectAccount address = some row := found
  have again : mid.next.thread? address =
      ((world.visited address).thread? address).map fun _ => thread :=
    putThread_thread? (world.visited address) address thread
  unfold spendings
  rw [Handler.bind_apply, selectAccountRow_runs address runsMid, foundMid]
  simp only [if_true]
  unfold mempoolSpendings
  rw [Handler.bind_apply]
  cases second : (world.visited address).thread? address with
  | none =>
    rw [second] at again
    rw [getKnownOutputsKeys_absent again]
    rfl
  | some other =>
    rw [second] at again
    rw [getKnownOutputsKeys_found again]
    rfl

theorem finishTx_status (response : Json) :
    (finishTx backend txHash response).get? "status" = some (.str "OK") := by
  unfold finishTx
  simp

theorem finishTx_unsuccessful {response : Json}
    (unfulfilled : response.get? "request_fulfilled" ≠ some (.bool true)) :
    ¬ ReportsSuccess (sessionClose (finishTx backend txHash response)) := by
  refine unsuccessful_of_status codeOk (finishTx_status response) (by decide) ?_
  unfold finishTx
  simpa using unfulfilled

theorem txJson_unfulfilled (receiveTime : Option Nat) :
    (txJson txHash tx receiveTime).get? "request_fulfilled" ≠ some (.bool true) := by
  simp [txJson]

theorem setSpent_unfulfilled {total : UInt64} {spent : List SpentOutput} {response : Json}
    (unfulfilled : response.get? "request_fulfilled" ≠ some (.bool true)) :
    (setSpent total spent response).get? "request_fulfilled" ≠ some (.bool true) := by
  unfold setSpent
  simpa using unfulfilled

theorem readTxRequest_names (names : Names request address viewKey)
    {asked : String × String × String} (read : readTxRequest request = some asked) :
    asked.1 = address ∧ asked.2.1 = viewKey := by
  unfold readTxRequest at read
  simp only [names.1, names.2, Option.bind_eq_bind, Option.bind_some, Option.pure_def,
    Option.bind_eq_some_iff, Option.some.injEq] at read
  obtain ⟨hash, -, rfl⟩ := read
  exact ⟨rfl, rfl⟩

/-- When no row of the account is read for a transaction of the blockchain, its part is the same
for every database. -/
theorem spendings_stored_blind (response : Json) (unread : StoredUnread frame) {db : Database}
    (guarded : Guarded backend accountId address viewKey db) :
    (spendings backend address viewKey txHashStr tx false response
      (((frame.on db).visited address).putThread address thread)).1 = response := by
  by_cases throws : frame.throws = true
  · exact spendings_unread false response throws
  · obtain ⟨row, found, -, -⟩ := guarded
    let mid := ((frame.on db).visited address).putThread address thread
    have again : mid.next.throws = true := unread.resolve_left throws
    have nothing : txExists row.id txHashStr mid.next = (none, mid.next.next) :=
      statement_throws _ _ again
    rw [@spendings_stored backend address viewKey txHashStr tx response mid row throws found]
    unfold storedSpendings
    rw [Handler.bind_apply, nothing]
    rfl

/-- The same for a transaction of the mempool. -/
theorem spendings_mempool_blind (response : Json) (live : frame.thread? address = some thread)
    (unread : MempoolUnread (backend.identifier address viewKey) tx address frame) :
    ∃ answered, (response.get? "request_fulfilled" ≠ some (.bool true) →
        answered.get? "request_fulfilled" ≠ some (.bool true)) ∧
      ∀ db, Guarded backend accountId address viewKey db →
        (spendings backend address viewKey txHashStr tx true response
          (((frame.on db).visited address).putThread address thread)).1 =
            answered := by
  by_cases throws : frame.throws = true
  · exact ⟨response, id, fun db _ => spendings_unread true response throws⟩
  · by_cases gone : (frame.visited address).thread? address = none
    · refine ⟨response, id, fun db ⟨row, found, _, _⟩ => ?_⟩
      rw [@spendings_mempool backend address viewKey txHashStr tx thread response
        (frame.on db) row throws found]
      exact if_pos gone
    · refine ⟨setSpent 0 [] response, setSpent_unfulfilled, fun db ⟨row, found, _, _⟩ => ?_⟩
      rw [@spendings_mempool backend address viewKey txHashStr tx thread response
        (frame.on db) row throws found]
      refine (if_neg gone).trans ?_
      have nothing : (knownSpent ((backend.identifier address viewKey).inputs thread.known tx)
          ((((((frame.on db).visited address).putThread address
            thread).next).visited address).putThread address thread)).1 = [] := by
        rw [knownSpent_eq_nil_iff]
        intro index info inInputs
        refine .inl ?_
        have throwing := unread.resolve_left throws thread live gone index
          (List.getElem?_eq_some_iff.mp inInputs).1
        rw [← throwing]
        show frame.throwing.tail.getD index false = _
        cases frame.throwing <;> rfl
      simp only [nothing]
      rfl

theorem getTx_blind (names : Names request address viewKey)
    (isProtected : TxProtected backend request frame) :
    Blind backend accountId address viewKey (getTx backend (some request)) frame := by
  refine blind_of_parsed (by simp [Json.get?]) sessionClose_unsuccessful fun parsed => ?_
  cases read : readTxRequest request with
  | none => exact blind_constant null_unsuccessful fun _ _ => rfl
  | some asked =>
    obtain ⟨address', viewKey', txHashStr⟩ := asked
    obtain ⟨rfl, rfl⟩ := readTxRequest_names names read
    cases hashed : backend.hexToPod txHashStr with
    | none =>
      simp only [hashed]
      refine ⟨sessionClose _, ?_, fun _ _ => rfl⟩
      refine @unsuccessful_of_status _ ("Cant parse tx hash! : " ++ txHashStr) codeOk (by simp)
        (fun same => ?_) (by simp)
      exact absurd (congrArg (·.toList.head?) same) (by simp)
    | some txHash =>
      cases found : lookUpRequested backend txHash with
      | none =>
        simp only [hashed, found]
        refine ⟨sessionCloseError _ _, ?_, fun _ _ => rfl⟩
        exact sessionCloseError_unsuccessful _ _ (by simp) (by simp)
      | some entry =>
        obtain ⟨tx, receiveTime⟩ := entry
        simp only [hashed, found]
        have unfulfilled := @txJson_unfulfilled txHash tx receiveTime
        by_cases idle : frame.thread? address' = none ∨
            ¬ backend.parsesAccount address' viewKey' = true
        · refine ⟨if frame.thread? address' = none then
              sessionClose (finishTx backend txHash (txJson txHash tx receiveTime))
            else sessionCloseError (txJson txHash tx receiveTime)
              ("Cant create coreacc for " ++ address'), ?_,
            fun db _ => @identifyTx_unread address' viewKey' txHashStr txHash backend tx
              receiveTime.isSome (txJson txHash tx receiveTime) (frame.on db) idle⟩
          split
          · exact finishTx_unsuccessful unfulfilled
          · exact sessionCloseError_unsuccessful _ _ (by simp [txJson]) unfulfilled
        · obtain ⟨live, parses⟩ := not_or.mp idle
          have unread := isProtected address' viewKey' txHashStr txHash tx receiveTime parsed read
            hashed found live (not_not.mp parses)
          obtain ⟨thread, live⟩ := Option.ne_none_iff_exists'.mp live
          have reads (db : Database) := @identifyTx_reads address' viewKey' txHashStr txHash thread
            backend tx receiveTime.isSome (txJson txHash tx receiveTime) (frame.on db) live
            (not_not.mp parses)
          cases receiveTime with
          | none =>
            refine ⟨_, ?_, fun db guarded => (reads db).trans (congrArg
              (fun response => sessionClose (finishTx backend txHash response))
              (spendings_stored_blind _ unread guarded))⟩
            exact finishTx_unsuccessful (by simpa using unfulfilled)
          | some time =>
            obtain ⟨answered, stays, same⟩ := @spendings_mempool_blind backend accountId address'
              viewKey' txHashStr frame tx thread ((txJson txHash tx (some time)).set
                "total_received" (.ofText (calcTotalXmr ((backend.identifier address'
                  viewKey').outputs tx)).toNat)) live unread
            refine ⟨_, ?_, fun db guarded => (reads db).trans (congrArg
              (fun response => sessionClose (finishTx backend txHash response))
              (same db guarded))⟩
            exact finishTx_unsuccessful (stays (by simpa using unfulfilled))

end GetTx

/-! ### Databases that an unprotected request tells apart -/

/-- The row of an account whose view key is another one. -/
def foreignAccount (backend : Backend) (address viewKey : String) (startHeight : Nat) :
    XmrAccount where
  id := 1
  address := address
  viewkeyHash := backend.makeHash viewKey ++ "0"
  startHeight := startHeight

/-- A database with the account and what is stored for it. -/
def holding (row : XmrAccount) (txs : List XmrTransaction) (outs : List XmrOutput) : Database where
  accounts := [row]
  transactions := txs
  outputs := outs
  nextAccount := 2
  nextTransaction := 2
  nextOutput := 2

section Holding

variable (backend : Backend) (address viewKey : String)

theorem holding_valid (startHeight : Nat) (txs : List XmrTransaction) (outs : List XmrOutput)
    (atMostOneTx : txs = [] ∧ outs = [] ∨ ∃ tx, txs = [tx] ∧ tx.id = 1 ∧ tx.accountId = 1 ∧
      (outs = [] ∨ ∃ out, outs = [out] ∧ out.id = 1 ∧ out.txId = 1)) :
    (holding (foreignAccount backend address viewKey startHeight) txs outs).Valid := by
  rcases atMostOneTx with ⟨rfl, rfl⟩ | ⟨tx, rfl, id, account, rfl | ⟨out, rfl, outId, outTx⟩⟩
  all_goals
    constructor <;> simp [holding, foreignAccount, Tables.Unique, Database.hasAccount,
      Database.hasTransaction, Database.hasOutput, *]

theorem holding_guarded (startHeight : Nat) (txs : List XmrTransaction)
    (outs : List XmrOutput) :
    Guarded backend 1 address viewKey
      (holding (foreignAccount backend address viewKey startHeight) txs outs) := by
  refine ⟨foreignAccount backend address viewKey startHeight, ?_, rfl, fun same => ?_⟩
  · simp [holding, foreignAccount, Database.selectAccount]
  · have longer := congrArg String.length same
    simp [foreignAccount] at longer

theorem holding_sameBut (first second : Nat) (firstTxs secondTxs : List XmrTransaction)
    (firstOuts secondOuts : List XmrOutput)
    (ours : (∀ tx ∈ firstTxs ++ secondTxs, tx.accountId = 1) ∧
      ∀ out ∈ firstOuts ++ secondOuts, out.accountId = 1) :
    SameBut 1 (holding (foreignAccount backend address viewKey first) firstTxs firstOuts)
      (holding (foreignAccount backend address viewKey second) secondTxs secondOuts) := by
  have none {Row : Type} {accountId : Row → Nat} {rows : List Row}
      (all : ∀ row ∈ rows, accountId row = 1) : rows.filter (accountId · ≠ 1) = [] := by
    rw [List.filter_eq_nil_iff]
    intro row member
    simp [all row member]
  refine ⟨by simp [holding, foreignAccount, withoutHistory], ?_, ?_, rfl, rfl⟩
  · exact (none fun tx member => ours.1 tx (List.mem_append_left _ member)).trans
      (none fun tx member => ours.1 tx (List.mem_append_right _ member)).symm
  · exact (none fun out member => ours.2 out (List.mem_append_left _ member)).trans
      (none fun out member => ours.2 out (List.mem_append_right _ member)).symm

end Holding

/-- A request that is noninterfering answers alike on two such databases, without a success. -/
theorem Noninterfering.ofHolding {backend : Backend} {address viewKey : String} {request : Json}
    {endpoint : Endpoint} {frame : World}
    (noninterfering : Noninterfering backend endpoint request frame)
    (names : Names request address viewKey) (heights : Nat × Nat)
    (txs : List XmrTransaction × List XmrTransaction) (outs : List XmrOutput × List XmrOutput)
    (validFirst :
      (holding (foreignAccount backend address viewKey heights.1) txs.1 outs.1).Valid)
    (validSecond :
      (holding (foreignAccount backend address viewKey heights.2) txs.2 outs.2).Valid)
    (ours : (∀ tx ∈ txs.1 ++ txs.2, tx.accountId = 1) ∧
      ∀ out ∈ outs.1 ++ outs.2, out.accountId = 1) :
    let answer (db : Database) := (handle backend endpoint (some request) (frame.on db)).1
    answer (holding (foreignAccount backend address viewKey heights.1) txs.1 outs.1) =
        answer (holding (foreignAccount backend address viewKey heights.2) txs.2 outs.2) ∧
      ¬ ReportsSuccess
        (answer (holding (foreignAccount backend address viewKey heights.1) txs.1 outs.1)) :=
  noninterfering address viewKey 1 _ _ names validFirst validSecond
    (holding_sameBut backend address viewKey heights.1 heights.2 _ _ _ _ ours)
    (holding_guarded backend address viewKey heights.1 _ _)
    (holding_guarded backend address viewKey heights.2 _ _)

/-! ### The condition is needed -/

section Needed

variable {backend : Backend} {request : Json} {frame : World}

theorem names_of_readLogin {asked : LoginRequest} (read : readLogin request = some asked) :
    Names request asked.address asked.viewKey := by
  unfold readLogin at read
  simp only [Option.bind_eq_bind, Option.pure_def, Option.bind_eq_some_iff,
    Option.some.injEq] at read
  obtain ⟨address, named, viewKey, keyed, -, -, -, -, rfl⟩ := read
  exact ⟨named, keyed⟩

/-- The response of a login that goes on with an account it has not checked. -/
theorem loginTo_leaks {asked : LoginRequest} {world : World} {row : XmrAccount}
    (unchecked : asked.createOnly = true ∨ world.throws = true) :
    ReportsSuccess (loginTo backend asked true row world).1 ∨
      (loginTo backend asked true row world).1 =
        sessionClose ((Json.null.set "generated_locally" (.bool row.generatedLocally)).set
          "start_height" (.ofNat row.startHeight)) := by
  unfold loginTo
  cases only : asked.createOnly with
  | true =>
    simp only [if_true]
    exact .inl (.inl (by simp))
  | false =>
    have throws : world.throws = true := unchecked.resolve_left (by simp [only])
    simp only [Bool.false_eq_true, if_false, Handler.bind_apply]
    refine .inr ?_
    unfold loginAndStartSearchThread
    rw [Handler.bind_apply, selectAccountRow_throws _ throws]
    rfl

/-- What `login` answers on a database that holds only the account. -/
theorem login_holding {asked : LoginRequest} (startHeight : Nat)
    (parsed : parseRequest (some request) ["address", "view_key"] .null = .ok request)
    (read : readLogin request = some asked)
    (makes : ¬ (asked.createAccount = false ∧ asked.createOnly = false))
    (runs : ¬ frame.next.throws = true) :
    let row := foreignAccount backend asked.address asked.viewKey startHeight
    (login backend (some request) (frame.on (holding row [] []))).1 =
      (loginTo backend asked true row (frame.on (holding row [] [])).next.next).1 := by
  intro row
  have guarded := holding_guarded backend asked.address asked.viewKey startHeight [] []
  have found : (holding row [] []).selectAccount asked.address = some row := by
    simp [row, holding, foreignAccount, Database.selectAccount]
  unfold login
  simp only [parsed, read]
  rcases @loginRequest_guarded backend 1 asked (frame.on (holding row [] [])) guarded makes with
    ⟨throws, -⟩ | ⟨-, other, same, logs⟩
  · exact absurd throws runs
  · rw [logs]
    cases found.symm.trans same
    rfl

theorem loginProtected_of_noninterfering
    (noninterfering : Noninterfering backend .login request frame) :
    LoginProtected request frame := by
  intro asked parsed read
  by_contra unprotected
  rw [not_or, not_or] at unprotected
  obtain ⟨makes, runs, checked⟩ := unprotected
  have unchecked : asked.createOnly = true ∨ frame.next.next.throws = true := by
    by_cases throws : frame.next.next.throws = true
    · exact .inr throws
    · exact .inl (by simpa [throws] using checked)
  have answer := fun startHeight =>
    @login_holding backend request frame asked startHeight parsed read makes runs
  obtain ⟨same, unsuccessful⟩ := noninterfering.ofHolding (names_of_readLogin read) (0, 1)
    ([], []) ([], []) (holding_valid backend _ _ 0 [] [] (.inl ⟨rfl, rfl⟩))
    (holding_valid backend _ _ 1 [] [] (.inl ⟨rfl, rfl⟩)) ⟨by simp, by simp⟩
  have answers := (answer 0).symm.trans (same.trans (answer 1))
  have fails := fun success => unsuccessful ((congrArg ReportsSuccess (answer 0)).mpr success)
  have leaks := fun (db : Database) (row : XmrAccount) =>
    @loginTo_leaks backend asked (frame.on db).next.next row unchecked
  have first := (leaks _ _).resolve_left fails
  have second := (leaks _ _).resolve_left fun success =>
    fails ((congrArg ReportsSuccess answers).mpr success)
  -- the two responses carry different start heights
  have heights := congrArg (fun answer => match answer with
    | .closed _ body => body.get? "start_height"
    | .escaped => none) (first.symm.trans (answers.trans second))
  simp [sessionClose, foreignAccount, Json.ofNat] at heights

theorem names_of_readTxRequest {asked : String × String × String}
    (read : readTxRequest request = some asked) : Names request asked.1 asked.2.1 := by
  unfold readTxRequest at read
  simp only [Option.bind_eq_bind, Option.pure_def, Option.bind_eq_some_iff,
    Option.some.injEq] at read
  obtain ⟨address, named, viewKey, keyed, -, -, rfl⟩ := read
  exact ⟨named, keyed⟩

/-- The payment id that is stored for a transaction of the blockchain is in the response. -/
theorem storedSpendings_leaks {db : Database} {stored : XmrTransaction} {world : World}
    {txHashStr : String} (onDb : world.db = db) (runs : ¬ world.throws = true)
    (found : db.txExists 1 txHashStr = some stored) (unspent : db.inputs = [])
    (response : Json) :
    (storedSpendings 1 txHashStr response world).1 =
      (response.set "payment_id" (.str stored.paymentId)).set "timestamp"
        (.ofNat (stored.timestamp * 1000)) := by
  have read : txExists 1 txHashStr world = (some stored, world.next) := by
    unfold txExists query
    rw [statement_runs _ _ runs]
    subst onDb
    exact congrArg (·, world.next) found
  have none : (selectInputsForTx stored.id world.next).1 = [] := by
    rcases query_result (rfl : (selectInputsForTx stored.id world.next).1 = _) with empty | rows
    · exact empty
    · rw [rows]
      show world.db.inputs.filter _ = []
      rw [onDb, unspent]
      rfl
  unfold storedSpendings
  rw [Handler.bind_apply, read]
  simp only [Handler.bind_apply]
  rw [none]
  rfl

/-- What `get_tx` answers once it has got as far as the rows of the account. -/
theorem getTx_reads {address viewKey txHashStr txHash : String} {tx : Transaction}
    {receiveTime : Option Nat} {thread : SearchThread}
    (parsed : parseRequest (some request) ["address", "view_key", "tx_hash"] .null = .ok request)
    (read : readTxRequest request = some (address, viewKey, txHashStr))
    (hashed : backend.hexToPod txHashStr = some txHash)
    (found : lookUpRequested backend txHash = some (tx, receiveTime))
    (live : frame.thread? address = some thread)
    (parses : backend.parsesAccount address viewKey = true) (db : Database) :
    (getTx backend (some request) (frame.on db)).1 =
      sessionClose (finishTx backend txHash
        (spendings backend address viewKey txHashStr tx receiveTime.isSome
          ((txJson txHash tx receiveTime).set "total_received"
            (.ofText (calcTotalXmr ((backend.identifier address viewKey).outputs tx)).toNat))
          (((frame.on db).visited address).putThread address thread)).1) := by
  unfold getTx
  simp only [parsed, read, hashed, found]
  exact @identifyTx_reads address viewKey txHashStr txHash thread backend tx receiveTime.isSome
    (txJson txHash tx receiveTime) (frame.on db) live parses

/-- Assigning the last keys leaves the others as they are. -/
theorem finishTx_get? (backend : Backend) (txHash : String) (response : Json) {key : String}
    (other : key ∉ ["tx_height", "no_confirmations", "status", "error"]) :
    (finishTx backend txHash response).get? key = response.get? key := by
  simp only [List.mem_cons, List.not_mem_nil, or_false, not_or] at other
  obtain ⟨height, confirmations, status, error⟩ := other
  unfold finishTx
  simp [Ne.symm height, Ne.symm confirmations, Ne.symm status, Ne.symm error]

theorem stored_of_noninterfering {address viewKey txHashStr txHash : String} {tx : Transaction}
    {thread : SearchThread} (noninterfering : Noninterfering backend .getTx request frame)
    (parsed : parseRequest (some request) ["address", "view_key", "tx_hash"] .null = .ok request)
    (read : readTxRequest request = some (address, viewKey, txHashStr))
    (hashed : backend.hexToPod txHashStr = some txHash)
    (found : lookUpRequested backend txHash = some (tx, none))
    (live : frame.thread? address = some thread)
    (parses : backend.parsesAccount address viewKey = true) : StoredUnread frame := by
  by_contra unprotected
  obtain ⟨runs, again⟩ := not_or.mp unprotected
  let stored (paymentId : String) : XmrTransaction :=
    { id := 1, hash := txHashStr, accountId := 1, paymentId }
  let row := foreignAccount backend address viewKey 0
  have valid (paymentId : String) : (holding row [stored paymentId] []).Valid :=
    holding_valid backend _ _ 0 _ [] (.inr ⟨_, rfl, rfl, rfl, .inl rfl⟩)
  obtain ⟨same, -⟩ := noninterfering.ofHolding (names_of_readTxRequest read) (0, 0)
    ([stored "0"], [stored "1"]) ([], []) (valid "0") (valid "1")
    ⟨by simp [stored], by simp⟩
  have answer (paymentId : String) := getTx_reads parsed read hashed found live parses
    (holding row [stored paymentId] [])
  have leaks (paymentId : String) (response : Json) :
      (spendings backend address viewKey txHashStr tx false response
        (((frame.on (holding row [stored paymentId] [])).visited address).putThread address
          thread)).1 = (response.set "payment_id" (.str paymentId)).set "timestamp"
            (.ofNat ((stored paymentId).timestamp * 1000)) := by
    have account : (holding row [stored paymentId] []).selectAccount address = some row := by
      simp [row, holding, foreignAccount, Database.selectAccount]
    have member : (holding row [stored paymentId] []).txExists 1 txHashStr =
        some (stored paymentId) := by
      simp [holding, stored, Database.txExists]
    rw [@spendings_stored backend address viewKey txHashStr tx response (((frame.on (holding row
      [stored paymentId] [])).visited address).putThread address thread) row runs account]
    exact @storedSpendings_leaks (holding row [stored paymentId] []) (stored paymentId)
      (((frame.on (holding row [stored paymentId] [])).visited address).putThread address
        thread).next txHashStr rfl again member rfl response
  have answers := (answer "0").symm.trans (same.trans (answer "1"))
  have ids := congrArg (fun answer => match answer with
    | .closed _ body => body.get? "payment_id"
    | .escaped => none) answers
  simp only [Option.isSome_none, leaks, sessionClose] at ids
  rw [finishTx_get? backend txHash _ (by decide), finishTx_get? backend txHash _ (by decide)] at ids
  simp at ids

theorem mempool_of_noninterfering {address viewKey txHashStr txHash : String} {tx : Transaction}
    {time : Nat} {thread : SearchThread}
    (noninterfering : Noninterfering backend .getTx request frame)
    (parsed : parseRequest (some request) ["address", "view_key", "tx_hash"] .null = .ok request)
    (read : readTxRequest request = some (address, viewKey, txHashStr))
    (hashed : backend.hexToPod txHashStr = some txHash)
    (found : lookUpRequested backend txHash = some (tx, some time))
    (live : frame.thread? address = some thread)
    (parses : backend.parsesAccount address viewKey = true) :
    MempoolUnread (backend.identifier address viewKey) tx address frame := by
  refine or_iff_not_imp_left.mpr fun runs other live' known index bound => ?_
  cases live.symm.trans live'
  by_contra answers
  let info := ((backend.identifier address viewKey).inputs thread.known tx)[index]
  let spent : XmrOutput := { id := 1, accountId := 1, txId := 1, outPubKey := info.outPubKey }
  let row := foreignAccount backend address viewKey 0
  have validFirst : (holding row [] []).Valid :=
    holding_valid backend _ _ 0 [] [] (.inl ⟨rfl, rfl⟩)
  have validSecond : (holding row [{ id := 1, accountId := 1 }] [spent]).Valid :=
    holding_valid backend _ _ 0 _ _ (.inr ⟨_, rfl, rfl, rfl, .inr ⟨_, rfl, rfl, rfl⟩⟩)
  obtain ⟨same, -⟩ := noninterfering.ofHolding (names_of_readTxRequest read) (0, 0)
    ([], [{ id := 1, accountId := 1 }]) ([], [spent]) validFirst validSecond
    ⟨by simp, by simp [spent]⟩
  let spentOn (db : Database) := (knownSpent
    ((backend.identifier address viewKey).inputs thread.known tx)
    (((((frame.on db).visited address).putThread address thread).next.visited address).putThread
      address thread)).1
  have shown (db : Database) (account : db.selectAccount address = some row) :
      (match (getTx backend (some request) (frame.on db)).1 with
        | .closed _ body => body.get? "spent_outputs"
        | .escaped => none) =
      some (.arr (((spentOn db).map (identifiedSpent fun info _ => info.amount)).map
        SpentOutput.toJson)) := by
    rw [getTx_reads parsed read hashed found live parses db]
    simp only [Option.isSome_some, sessionClose]
    rw [finishTx_get? backend txHash _ (by decide), @spendings_mempool backend address viewKey
      txHashStr tx thread _ (frame.on db) row runs account,
      if_neg (show ¬ ((frame.on db).visited address).thread? address = Option.none from known)]
    simp [setSpent, spentOn]
  have first := shown (holding row [] []) (by
    simp [row, holding, foreignAccount, Database.selectAccount])
  have second := shown (holding row [{ id := 1, accountId := 1 }] [spent]) (by
    simp [row, holding, foreignAccount, Database.selectAccount])
  have none : spentOn (holding row [] []) = [] :=
    (knownSpent_eq_nil_iff _ _).mpr fun _ _ _ => .inr rfl
  -- the lookup that does not throw finds the output
  have some : spentOn (holding row [{ id := 1, accountId := 1 }] [spent]) ≠ [] := by
    intro empty
    rcases (knownSpent_eq_nil_iff _ _).mp empty index info (List.getElem?_eq_getElem bound) with
      throwing | absent
    · refine answers (Eq.trans ?_ throwing)
      show _ = frame.throwing.tail.getD index false
      cases frame.throwing <;> rfl
    · have there : (holding row [{ id := 1, accountId := 1 }] [spent]).outputExists
          info.outPubKey = Option.some spent := by
        simp [holding, spent, Database.outputExists]
      cases there.symm.trans absent
  have lists := first.symm.trans ((congrArg (fun answer => match answer with
    | Answer.closed _ body => body.get? "spent_outputs"
    | .escaped => Option.none) same).trans second)
  rw [none] at lists
  simp only [Option.some.injEq, Json.arr.injEq, List.map_nil] at lists
  exact some (List.map_eq_nil_iff.mp (List.map_eq_nil_iff.mp lists.symm))

theorem txProtected_of_noninterfering
    (noninterfering : Noninterfering backend .getTx request frame) :
    TxProtected backend request frame := by
  intro address viewKey txHashStr txHash tx receiveTime parsed read hashed found live parses
  obtain ⟨thread, live⟩ := Option.ne_none_iff_exists'.mp live
  cases receiveTime with
  | none => exact stored_of_noninterfering noninterfering parsed read hashed found live parses
  | some time => exact mempool_of_noninterfering noninterfering parsed read hashed found live parses

end Needed

/-- A request with a wrong view key is noninterfering exactly if it is protected. -/
theorem noninterfering_iff (backend : Backend) (endpoint : Endpoint) (request : Json)
    (frame : World) :
    Noninterfering backend endpoint request frame ↔ Protected backend endpoint request frame := by
  cases endpoint with
  | login =>
    exact ⟨loginProtected_of_noninterfering, fun isProtected =>
      noninterfering_of_blind fun _ _ _ names => login_blind names isProtected⟩
  | getAddressTxs =>
    exact ⟨fun _ => trivial, fun _ =>
      noninterfering_of_blind fun _ _ _ names => getAddressTxs_blind names⟩
  | getAddressInfo =>
    exact ⟨fun _ => trivial, fun _ =>
      noninterfering_of_blind fun _ _ _ names => getAddressInfo_blind names⟩
  | getUnspentOuts =>
    exact ⟨fun _ => trivial, fun _ =>
      noninterfering_of_blind fun _ _ _ names => getUnspentOuts_blind names⟩
  | getTx =>
    exact ⟨txProtected_of_noninterfering, fun isProtected =>
      noninterfering_of_blind fun _ _ _ names => getTx_blind names isProtected⟩
  | importWalletRequest =>
    exact ⟨fun _ => trivial, fun _ =>
      noninterfering_of_blind fun _ _ _ names => importWalletRequest_blind names⟩
  | importRecentWalletRequest =>
    exact ⟨fun _ => trivial, fun _ =>
      noninterfering_of_blind fun _ _ _ names => importRecentWalletRequest_blind names⟩

/-! ### Two requests with a wrong view key -/

/-- A blockchain that has every transaction. -/
def holdingTx : Backend := { Backend.empty with getTx := fun hash => some { hash } }

/-- The account has a search thread, and no statement throws. -/
def attended : World where
  db := {}
  searchingThreads := [("4ApA", { acc := { address := "4ApA" }, searchedBlkNo := 0 })]

/-- A request for a transaction with a wrong view key. -/
def txRequest : Json :=
  .obj [("address", .str "4ApA"), ("view_key", .str "wrong"), ("tx_hash", .str "5a")]

/-- A login with `create_only` and a wrong view key. -/
def createOnlyRequest : Json :=
  .obj [("address", .str "4ApA"), ("view_key", .str "wrong"), ("create_account", .bool true),
    ("create_only", .bool true)]

/-- `get_tx` shows what is stored of a transaction, and `login` with `create_only` succeeds. -/
theorem wrong_viewkey_answered :
    ¬ Noninterfering holdingTx .getTx txRequest attended ∧
      ¬ Noninterfering Backend.empty .login createOnlyRequest attended := by
  constructor
  · intro noninterfering
    have unread : StoredUnread attended :=
      txProtected_of_noninterfering noninterfering "4ApA" "wrong" "5a" "5a" { hash := "5a" } none
        rfl rfl rfl rfl (by decide) rfl
    exact absurd unread (by unfold StoredUnread; decide)
  · intro noninterfering
    rcases loginProtected_of_noninterfering noninterfering
        { address := "4ApA", viewKey := "wrong", createAccount := true,
          generatedLocally := false, createOnly := true } rfl rfl with
      ⟨refuses, -⟩ | throws | ⟨continues, -⟩
    · cases refuses
    · cases throws
    · cases continues

end LightWallet.Noninterference
