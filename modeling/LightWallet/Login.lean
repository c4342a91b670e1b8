/-
This file holds what the requests share: parsing a request, closing a session,
finding or creating the account a request names, and logging in. An account is
only handed out when the hash of the given view key is the stored one; creating
an account that exists hands out the existing one without that check.
-/

import LightWallet.Service

namespace LightWallet

/-! ### Requests and answers -/

/-- How a request ends: its session is closed with a code and a body, or an exception leaves the
request. -/
inductive Answer where
  | closed (code : Nat) (body : Json)
  | escaped

/-- `OK`. -/
def codeOk : Nat := 200

/-- `UNPROCESSABLE_ENTITY`. -/
def unprocessableEntity : Nat := 422

/-- `session_close` with the code it has by default. -/
def sessionClose (response : Json) : Answer := .closed codeOk response

/-- `session_close` with an error. -/
def sessionCloseError (response : Json) (message : String) : Answer :=
  .closed unprocessableEntity (response.set "Error" (.str message))

/-- `parse_request`, on a body that is JSON or is not: the request, or the response to a request
that misses a value. -/
def parseRequest (body : Option Json) (values : List String) (response : Json) :
    Except Json Json :=
  match body with
  | none =>
    .error ((response.set "status" (.str "error")).set "reason"
      (.str "reqest json parsing failed"))
  | some request =>
    match values.find? fun value => !request.has value with
    | some value =>
      .error ((response.set "status" (.str "error")).set "reason"
        (.str (value ++ " value not provided")))
    | none => .ok request

/-- The address and the view key of a request, or what the conversion of the first value that is
no string says. -/
def readCredentials (backend : Backend) (request : Json) : Except String (String × String) :=
  match (request.read "address").asString?, (request.read "view_key").asString? with
  | some address, some viewKey => .ok (address, viewKey)
  | some _, none => .error (backend.conversionError (request.read "view_key"))
  | none, _ => .error (backend.conversionError (request.read "address"))

/-! ### Accounts -/

section Accounts

variable (backend : Backend)

/-- The row of a new account. -/
def newAccount (address viewKey : String) (generatedLocally : Bool) : XmrAccount :=
  let startHeight :=
    if backend.importFee = 0 then
      if generatedLocally then backend.status.currentHeight else 0
    else backend.status.currentHeight
  { address
    viewkeyHash := backend.makeHash viewKey
    scannedBlockHeight := startHeight
    scannedBlockTimestamp := backend.lastBlockTimestamp
    startHeight
    generatedLocally }

/-- `create_account`; an account that exists is returned as it is. -/
def createAccount (address viewKey : String) (generatedLocally : Bool) :
    Handler (Option XmrAccount) := do
  match ← selectAccountRow address with
  | some acc => pure (some acc)
  | none =>
    let acc := newAccount backend address viewKey generatedLocally
    match ← insertAccount acc with
    | none => pure none
    | some id => pure (some { acc with id, viewkey := viewKey })

/-- A thread is created and started, unless the address has one. -/
def makeSearchThread (acc : XmrAccount) : Handler Bool := do
  if ← searchThreadExist acc.address then
    pure true
  else
    match ← constructTxSearch backend acc with
    | none => pure false
    | some txSearch => startTxSearchThread backend acc txSearch

/-- The check of the view key that `select_account` ends with. -/
def checkViewkey (viewKey : String) (acc : XmrAccount) : Option XmrAccount :=
  if backend.makeHash viewKey = acc.viewkeyHash then some acc else none

/-- `select_account`. -/
def selectAccount (address viewKey : String) (createIfNotfound : Bool) :
    Handler (Option XmrAccount) := do
  match ← selectAccountRow address with
  | some acc => pure (checkViewkey backend viewKey acc)
  | none =>
    if createIfNotfound then
      match ← createAccount backend address viewKey true with
      | none => pure none
      | some acc =>
        if ← makeSearchThread backend acc then pure (checkViewkey backend viewKey acc)
        else pure none
    else pure none

/-- `login_and_start_search_thread`: whether it succeeded, the account that was read, and the
response. -/
def loginAndStartSearchThread (address viewKey : String) (acc : XmrAccount) (response : Json) :
    Handler (Bool × XmrAccount × Json) := do
  match ← selectAccountRow address with
  | none => pure (false, acc, response)
  | some acc =>
    if backend.makeHash viewKey = acc.viewkeyHash then
      let acc := { acc with viewkey := viewKey }
      let success := (response.set "status" (.str "success")).set "new_address" (.bool false)
      if ← searchThreadExist acc.address then
        pure (true, acc, success)
      else
        match ← constructTxSearch backend acc with
        | none => pure (false, acc, Json.ofError "Failed to construct TxSearch object")
        | some txSearch =>
          if ← startTxSearchThread backend acc txSearch then
            pure (true, acc, success)
          else
            pure (false, acc, Json.ofError "Failed created search thread for this account")
    else pure (false, acc, Json.ofError "Viewkey provided is incorrect")

end Accounts

/-! ### What finding an account changes -/

/-- The computation leaves the database and the record of set positions alone. -/
def KeepsDb {Result : Type} (handler : Handler Result) : Prop :=
  ∀ world, (handler world).2.db = world.db ∧ (handler world).2.moved = world.moved

theorem KeepsDb.pure {Result : Type} (result : Result) : KeepsDb (Pure.pure result) :=
  fun _ => ⟨rfl, rfl⟩

theorem KeepsDb.bind {Result Next : Type} {first : Handler Result}
    {rest : Result → Handler Next} (keepsFirst : KeepsDb first)
    (keepsRest : ∀ result, KeepsDb (rest result)) : KeepsDb (first >>= rest) := fun world =>
  ⟨(keepsRest _ _).1.trans (keepsFirst world).1, (keepsRest _ _).2.trans (keepsFirst world).2⟩

theorem KeepsDb.query {Result : Type} (onThrow : Result) (read : Database → Result) :
    KeepsDb (query onThrow read) := by
  intro world
  unfold LightWallet.query statement
  split <;> exact ⟨rfl, rfl⟩

theorem KeepsDb.withThread {Result : Type} (address : String) (absent : Result)
    (run : SearchThread → Result × SearchThread) : KeepsDb (withThread address absent run) := by
  intro world
  unfold LightWallet.withThread
  split <;> exact ⟨rfl, rfl⟩

theorem KeepsDb.ite {Result : Type} {condition : Prop} [Decidable condition]
    {first second : Handler Result} (keepsFirst : KeepsDb first) (keepsSecond : KeepsDb second) :
    KeepsDb (if condition then first else second) := by
  split
  · exact keepsFirst
  · exact keepsSecond

theorem constructTxSearch_keepsDb (backend : Backend) (acc : XmrAccount) :
    KeepsDb (constructTxSearch backend acc) :=
  .ite (.bind (.query _ _) fun _ => .pure _) (.pure _)

theorem startTxSearchThread_keepsDb (backend : Backend) (acc : XmrAccount)
    (txSearch : SearchThread) : KeepsDb (startTxSearchThread backend acc txSearch) :=
  .bind (.withThread _ _ _) fun _ => .ite (.pure _) (.ite (fun _ => ⟨rfl, rfl⟩) (.pure _))

theorem makeSearchThread_keepsDb (backend : Backend) (acc : XmrAccount) :
    KeepsDb (makeSearchThread backend acc) :=
  .bind (.withThread _ _ _) fun _ => .ite (.pure _)
    (.bind (constructTxSearch_keepsDb backend acc) fun built => by
      cases built with
      | none => exact .pure _
      | some txSearch => exact startTxSearchThread_keepsDb backend acc txSearch)

theorem loginAndStartSearchThread_keepsDb (backend : Backend) (address viewKey : String)
    (acc : XmrAccount) (response : Json) :
    KeepsDb (loginAndStartSearchThread backend address viewKey acc response) := by
  refine .bind (.query _ _) fun row => ?_
  cases row with
  | none => exact .pure _
  | some row =>
    refine .ite (.bind (.withThread _ _ _) fun live => .ite (.pure _)
      (.bind (constructTxSearch_keepsDb backend _) fun built => ?_)) (.pure _)
    cases built with
    | none => exact .pure _
    | some txSearch =>
      exact .bind (startTxSearchThread_keepsDb backend _ _) fun _ => .ite (.pure _) (.pure _)

/-- At most one row of `Accounts` is inserted. -/
def MayInsert (before after : World) : Prop :=
  after.moved = before.moved ∧
    (after.db = before.db ∨ ∃ row id, before.db.insertAccount row = some (id, after.db))

theorem MayInsert.refl (world : World) : MayInsert world world := ⟨rfl, .inl rfl⟩

/-- What leaves the database alone may come before. -/
theorem MayInsert.before {Result : Type} {handler : Handler Result} (keeps : KeepsDb handler)
    {world after : World} (inserts : MayInsert (handler world).2 after) :
    MayInsert world after := by
  unfold MayInsert at inserts ⊢
  rw [← (keeps world).1, ← (keeps world).2]
  exact inserts

/-- What leaves the database alone may come after. -/
theorem MayInsert.after {Result : Type} {handler : Handler Result} (keeps : KeepsDb handler)
    {before world : World} (inserts : MayInsert before world) :
    MayInsert before (handler world).2 := by
  unfold MayInsert at inserts ⊢
  rw [(keeps world).1, (keeps world).2]
  exact inserts

theorem insertAccount_mayInsert (row : XmrAccount) (world : World) :
    MayInsert world (insertAccount row world).2 := by
  unfold insertAccount
  by_cases throws : world.throws = true
  · rw [insertRow_refused (.inl throws)]
    exact ⟨rfl, .inl rfl⟩
  · cases inserted : world.db.insertAccount row with
    | none =>
      rw [insertRow_refused (.inr inserted)]
      exact ⟨rfl, .inl rfl⟩
    | some found =>
      rw [insertRow_inserts throws inserted]
      exact ⟨rfl, .inr ⟨row, found.1, inserted⟩⟩

theorem createAccount_mayInsert (backend : Backend) (address viewKey : String)
    (generatedLocally : Bool) (world : World) :
    MayInsert world (createAccount backend address viewKey generatedLocally world).2 := by
  refine MayInsert.before (KeepsDb.query none (·.selectAccount address)) ?_
  unfold createAccount
  rw [Handler.bind_apply]
  unfold selectAccountRow
  cases (query none (·.selectAccount address) world).1 with
  | some acc => exact .refl _
  | none =>
    show MayInsert _ ((insertAccount _ >>= _) _).2
    rw [Handler.bind_apply]
    refine MayInsert.after ?_ (insertAccount_mayInsert _ _)
    cases (insertAccount (newAccount backend address viewKey generatedLocally) _).1 with
    | none => exact .pure _
    | some id => exact .pure _

/-- Finding an account inserts at most one row of `Accounts`. -/
theorem selectAccount_mayInsert (backend : Backend) (address viewKey : String)
    (createIfNotfound : Bool) (world : World) :
    MayInsert world (selectAccount backend address viewKey createIfNotfound world).2 := by
  refine MayInsert.before (KeepsDb.query none (·.selectAccount address)) ?_
  unfold selectAccount
  rw [Handler.bind_apply]
  unfold selectAccountRow
  cases (query none (·.selectAccount address) world).1 with
  | some acc => exact .refl _
  | none =>
    cases createIfNotfound with
    | false => exact .refl _
    | true =>
      show MayInsert _ ((createAccount _ _ _ _ >>= _) _).2
      rw [Handler.bind_apply]
      refine MayInsert.after ?_ (createAccount_mayInsert _ _ _ _ _)
      cases (createAccount backend address viewKey true _).1 with
      | none => exact .pure _
      | some acc =>
        exact .bind (makeSearchThread_keepsDb backend acc) fun made => .ite (.pure _) (.pure _)

/-! ### The account that is found -/

/-- The account has a row under the address. -/
def Finds (address : String) (acc : XmrAccount) (db : Database) : Prop :=
  acc.address = address ∧ ∃ row ∈ db.accounts, row.id = acc.id ∧ row.address = address

theorem query_result {Result : Type} {onThrow result : Result} {read : Database → Result}
    {world : World} (answered : (query onThrow read world).1 = result) :
    result = onThrow ∨ result = read world.db := by
  unfold query at answered
  by_cases throws : world.throws = true
  · rw [statement_throws _ _ throws] at answered
    exact .inl answered.symm
  · rw [statement_runs _ _ throws] at answered
    exact .inr answered.symm

theorem selectAccount_mem {db : Database} {address : String} {acc : XmrAccount}
    (found : db.selectAccount address = some acc) :
    acc ∈ db.accounts ∧ acc.address = address := by
  refine ⟨List.mem_of_find?_eq_some found, ?_⟩
  simpa using List.find?_some found

theorem selectAccount_of_mem {db : Database} (valid : db.Valid) {address : String}
    {acc : XmrAccount} (member : acc ∈ db.accounts) (named : acc.address = address) :
    db.selectAccount address = some acc :=
  Tables.find?_eq_some_of_unique member (decide_eq_true named) fun _ inAccounts same =>
    valid.accountAddresses.eq_of_key inAccounts member
      ((of_decide_eq_true same).trans named.symm)

theorem selectAccountRow_finds {address : String} {acc : XmrAccount} {world : World}
    (found : (selectAccountRow address world).1 = some acc) : Finds address acc world.db := by
  rcases query_result found with none | some
  · cases none
  · obtain ⟨member, same⟩ := selectAccount_mem some.symm
    exact ⟨same, acc, member, rfl, same⟩

theorem createAccount_finds (backend : Backend) {address viewKey : String}
    {generatedLocally : Bool} {acc : XmrAccount} {world : World}
    (found : (createAccount backend address viewKey generatedLocally world).1 = some acc) :
    Finds address acc
      (createAccount backend address viewKey generatedLocally world).2.db := by
  unfold createAccount at found ⊢
  rw [Handler.bind_apply] at found ⊢
  have kept := (KeepsDb.query none (·.selectAccount address) world).1
  cases existing : (selectAccountRow address world).1 with
  | some row =>
    rw [existing] at found
    cases found
    have finds := selectAccountRow_finds existing
    rw [← kept] at finds
    exact finds
  | none =>
    rw [existing] at found
    simp only [Handler.bind_apply, insertAccount] at found ⊢
    generalize (selectAccountRow address world).2 = selected at found ⊢
    by_cases throws : selected.throws = true
    · rw [insertRow_refused (.inl throws)] at found
      cases found
    · cases inserted : selected.db.insertAccount
          (newAccount backend address viewKey generatedLocally) with
      | none =>
        rw [insertRow_refused (.inr inserted)] at found
        cases found
      | some pair =>
        rw [insertRow_inserts throws inserted] at found ⊢
        cases found
        obtain ⟨-, id, after⟩ := Database.insertAccount_eq inserted
        refine ⟨rfl, { newAccount backend address viewKey generatedLocally with
          id := selected.db.nextAccount, viewkey := "" }, ?_, id.symm, rfl⟩
        show _ ∈ pair.2.accounts
        rw [after]
        exact List.mem_append_right _ (List.mem_singleton_self _)

theorem checkViewkey_some {backend : Backend} {viewKey : String} {acc found : XmrAccount}
    (checked : checkViewkey backend viewKey acc = some found) : found = acc := by
  unfold checkViewkey at checked
  split at checked
  · exact (Option.some.inj checked).symm
  · cases checked

/-- The account that is handed out has a row under the address of the request. -/
theorem selectAccount_finds (backend : Backend) {address viewKey : String}
    {createIfNotfound : Bool} {acc : XmrAccount} {world : World}
    (found : (selectAccount backend address viewKey createIfNotfound world).1 = some acc) :
    Finds address acc
      (selectAccount backend address viewKey createIfNotfound world).2.db := by
  unfold selectAccount at found ⊢
  rw [Handler.bind_apply] at found ⊢
  have kept := (KeepsDb.query none (·.selectAccount address) world).1
  cases existing : (selectAccountRow address world).1 with
  | some row =>
    rw [existing] at found
    rw [checkViewkey_some found]
    have finds := selectAccountRow_finds existing
    rw [← kept] at finds
    exact finds
  | none =>
    rw [existing] at found
    cases createIfNotfound with
    | false => cases found
    | true =>
      simp only [if_true, Handler.bind_apply] at found ⊢
      generalize (selectAccountRow address world).2 = selected at found ⊢
      cases created : (createAccount backend address viewKey true selected).1 with
      | none =>
        rw [created] at found
        cases found
      | some row =>
        rw [created] at found
        have finds := createAccount_finds backend created
        simp only [Handler.bind_apply] at found ⊢
        have left := (makeSearchThread_keepsDb backend row
          (createAccount backend address viewKey true selected).2).1
        cases made : (makeSearchThread backend row
            (createAccount backend address viewKey true selected).2).1 with
        | false =>
          rw [made] at found
          cases found
        | true =>
          rw [made] at found
          rw [checkViewkey_some found]
          rw [← left] at finds
          exact finds

/-- What the login of a request gives: the response it was given where no row is found, an error
for a view key or a thread that is not there, or else a success for the row. -/
theorem loginAndStartSearchThread_cases (backend : Backend) (address viewKey : String)
    (acc : XmrAccount) (response : Json) (world : World) :
    ((selectAccountRow address world).1 = none ∧
      (loginAndStartSearchThread backend address viewKey acc response world).1 =
        (false, acc, response)) ∨
    ∃ row, (selectAccountRow address world).1 = some row ∧
      ((∃ found reason,
          (loginAndStartSearchThread backend address viewKey acc response world).1 =
            (false, found, Json.ofError reason)) ∨
        backend.makeHash viewKey = row.viewkeyHash ∧
          (loginAndStartSearchThread backend address viewKey acc response world).1 =
            (true, { row with viewkey := viewKey },
              (response.set "status" (.str "success")).set "new_address" (.bool false))) := by
  unfold loginAndStartSearchThread
  simp only [Handler.bind_apply]
  cases (selectAccountRow address world).1 with
  | none => exact .inl ⟨rfl, rfl⟩
  | some row =>
    refine .inr ⟨row, rfl, ?_⟩
    by_cases same : backend.makeHash viewKey = row.viewkeyHash
    · simp only [if_pos same, Handler.bind_apply]
      generalize searchThreadExist _ _ = existing
      by_cases live : existing.1 = true
      · simp only [if_pos live]
        exact .inr ⟨same, rfl⟩
      · simp only [if_neg live, Handler.bind_apply]
        generalize constructTxSearch backend _ _ = built
        cases built.1 with
        | none => exact .inl ⟨_, _, rfl⟩
        | some txSearch =>
          simp only [Handler.bind_apply]
          generalize startTxSearchThread backend _ _ _ = started
          by_cases starts : started.1 = true
          · simp only [if_pos starts]
            exact .inr ⟨same, rfl⟩
          · simp only [if_neg starts]
            exact .inl ⟨_, _, rfl⟩
    · simp only [if_neg same]
      exact .inl ⟨_, _, rfl⟩

end LightWallet
