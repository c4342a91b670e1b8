/-
This file settles what `get_unspent_outs` lists.

The request walks through the transactions of the account, skips those that are locked, and walks
through the outputs of the others, where it skips the dust. It lists every other output once, with
the key images that are recorded for it, and sums up the amounts on the way, in 64 bits.
-/

import Mathlib.Data.List.Flatten
import LightWallet.Totals

namespace LightWallet.UnspentOutputs

/-! ### What is listed -/

/-- The outputs that are not skipped, each with its transaction. -/
def unspentRows (status : Status) (dustThreshold accountId : Nat) (db : Database) :
    List (XmrTransaction × XmrOutput) :=
  ((db.selectTransactions accountId).filter fun tx => isTxUnlocked status tx.unlockTime tx.height)
    |>.flatMap fun tx =>
      ((db.outputsForTx tx.id).filter fun out => dustThreshold ≤ out.amount.toNat).map (tx, ·)

/-- The entry of an output, with all key images recorded for it. -/
def entryOf (db : Database) (row : XmrTransaction × XmrOutput) : Json :=
  unspentJson row.1 row.2 (db.inputs.filter (·.outputId = row.2.id))

/-- A string of so many hexadecimal digits. -/
def HexDigits (count : Nat) (text : String) : Prop :=
  text.toList.length = count ∧ ∀ digit ∈ text.toList, digit ∈ "0123456789abcdef".toList

instance (count : Nat) (text : String) : Decidable (HexDigits count text) :=
  inferInstanceAs (Decidable (_ ∧ ∀ _ ∈ _, _))

/-- The columns hold keys in hexadecimal digits. -/
structure RctColumns (out : XmrOutput) : Prop where
  outpk : HexDigits 64 out.rctOutpk
  mask : HexDigits 64 out.rctMask
  amount : HexDigits 64 out.rctAmount

/-- The forms of `rct`: the key and the first eight bytes of the amount for compact outputs of the
type 6, and the key, the mask and the whole amount for the other types. If the columns hold keys,
these are 80 and 192 digits. -/
structure RctForm (tx : XmrTransaction) (out : XmrOutput) (rct : String) : Prop where
  plain : tx.isRct = false → rct = ""
  coinbase : tx.isRct = true → tx.rctType = 0 → rct = "coinbase"
  compact : tx.isRct = true → tx.rctType = 6 →
    rct.toList = out.rctOutpk.toList ++ out.rctAmount.toList.take 16 ∧
      (RctColumns out → HexDigits 80 rct)
  full : tx.isRct = true → tx.rctType ≠ 0 → tx.rctType ≠ 6 →
    rct.toList = out.rctOutpk.toList ++ out.rctMask.toList ++ out.rctAmount.toList ∧
      (RctColumns out → HexDigits 192 rct)

/-- The key images recorded for an output. -/
def keyImages (db : Database) (out : XmrOutput) : List String :=
  (db.inputs.filter (·.outputId = out.id)).map (·.keyImage)

/-- An entry of the list, with the columns of the output and of its transaction. -/
structure ListsOutput (db : Database) (row : XmrTransaction × XmrOutput) (jOut : Json) : Prop where
  amount : jOut.get? "amount" = some (.ofText row.2.amount.toNat)
  publicKey : jOut.get? "public_key" = some (.str row.2.outPubKey)
  index : jOut.get? "index" = some (.ofNat row.2.outIndex)
  globalIndex : jOut.get? "global_index" = some (.ofNat row.2.globalIndex)
  rct : ∃ rct, jOut.get? "rct" = some (.str rct) ∧ RctForm row.1 row.2 rct
  txId : jOut.get? "tx_id" = some (.ofNat row.2.txId)
  txHash : jOut.get? "tx_hash" = some (.str row.1.hash)
  txPrefixHash : jOut.get? "tx_prefix_hash" = some (.str row.1.prefixHash)
  txPubKey : jOut.get? "tx_pub_key" = some (.str row.1.txPubKey)
  timestamp : jOut.get? "timestamp" = some (.ofNat (row.2.timestamp * 1000))
  height : jOut.get? "height" = some (.ofNat row.1.height)
  spendKeyImages :
    jOut.get? "spend_key_images" = some (.arr ((keyImages db row.2).map .str))

/-- The answer lists each output of an unlocked transaction of the account once, unless it is
dust, and gives the sum of the amounts listed. Sums of 64-bit amounts are taken modulo 2^64. -/
structure Lists (status : Status) (dustThreshold accountId : Nat) (db : Database)
    (answer : Answer) : Prop where
  outputs : ∃ jOutputs, Balances.Answer.get? answer "outputs" = some (.arr jOutputs) ∧
    List.Forall₂ (ListsOutput db) (unspentRows status dustThreshold accountId db) jOutputs
  complete : ∀ tx out, (tx, out) ∈ unspentRows status dustThreshold accountId db ↔
    tx ∈ db.transactions ∧ tx.accountId = accountId ∧
      isTxUnlocked status tx.unlockTime tx.height = true ∧
      out ∈ db.outputs ∧ out.txId = tx.id ∧ dustThreshold ≤ out.amount.toNat
  once : Tables.Unique (·.2.id) (unspentRows status dustThreshold accountId db)
  amount : Balances.Answer.get? answer "amount" = some (.ofText
    (Tables.total (·.2.amount.toNat) (unspentRows status dustThreshold accountId db) % 2 ^ 64))

/-- The answer reports success. -/
def Succeeds (answer : Answer) : Prop :=
  Balances.Answer.get? answer "status" = some (.str "success")

/-! ### The rows -/

theorem mem_unspentRows {status : Status} {dustThreshold accountId : Nat} {db : Database}
    {tx : XmrTransaction} {out : XmrOutput} :
    (tx, out) ∈ unspentRows status dustThreshold accountId db ↔
      tx ∈ db.transactions ∧ tx.accountId = accountId ∧
        isTxUnlocked status tx.unlockTime tx.height = true ∧
        out ∈ db.outputs ∧ out.txId = tx.id ∧ dustThreshold ≤ out.amount.toNat := by
  unfold unspentRows Database.selectTransactions Database.outputsForTx
  simp only [List.mem_flatMap, List.mem_map, List.mem_filter, decide_eq_true_eq, Prod.mk.injEq]
  constructor
  · rintro ⟨tx, ⟨⟨inRows, account⟩, unlocked⟩, out, ⟨⟨stored, ofTx⟩, large⟩, rfl, rfl⟩
    exact ⟨inRows, account, unlocked, stored, ofTx, large⟩
  · rintro ⟨inRows, account, unlocked, stored, ofTx, large⟩
    exact ⟨tx, ⟨⟨inRows, account⟩, unlocked⟩, out, ⟨⟨stored, ofTx⟩, large⟩, rfl, rfl⟩

/-- No output is listed twice: it belongs to one transaction. -/
theorem unspentRows_unique {db : Database} (valid : db.Valid) (status : Status)
    (dustThreshold accountId : Nat) :
    Tables.Unique (·.2.id) (unspentRows status dustThreshold accountId db) := by
  have each (tx : XmrTransaction) :
      (((db.outputsForTx tx.id).filter fun out => dustThreshold ≤ out.amount.toNat).map
        (tx, ·)).map (·.2.id) =
      ((db.outputsForTx tx.id).filter fun out => dustThreshold ≤ out.amount.toNat).map (·.id) := by
    rw [List.map_map]
    rfl
  have all := Balances.accountOutputs_unique valid
    ((db.selectTransactions accountId).filter fun tx =>
      isTxUnlocked status tx.unlockTime tx.height)
    ((valid.transactionIds.filter _).filter _)
  unfold Tables.Unique unspentRows at *
  rw [List.map_flatMap]
  simp only [each]
  rw [List.map_flatMap] at all
  refine all.sublist (List.Sublist.flatMap_right _ fun tx _ => ?_)
  exact List.filter_sublist.map _

/-! ### The forms of `rct` -/

theorem HexDigits.append {first second : Nat} {front back : String}
    (frontDigits : HexDigits first front) (backDigits : HexDigits second back) :
    HexDigits (first + second) (front ++ back) := by
  unfold HexDigits at *
  rw [String.toList_append, List.length_append, frontDigits.1, backDigits.1]
  refine ⟨rfl, fun digit member => ?_⟩
  rcases List.mem_append.mp member with inFront | inBack
  · exact frontDigits.2 digit inFront
  · exact backDigits.2 digit inBack

theorem rctOf_form (tx : XmrTransaction) (out : XmrOutput) : RctForm tx out (rctOf tx out) := by
  constructor
  · intro plain
    simp [rctOf, plain]
  · intro isRct coinbase
    simp [rctOf, isRct, coinbase]
  · intro isRct compact
    have rct : rctOf tx out = out.rctOutpk ++ (out.rctAmount.take 16).copy := by
      simp [rctOf, isRct, compact]
    rw [rct]
    refine ⟨by rw [String.toList_append, String.toList_copy_take], fun columns => ?_⟩
    have eight : HexDigits 16 (out.rctAmount.take 16).copy := by
      obtain ⟨length, digits⟩ := columns.amount
      unfold HexDigits
      rw [String.toList_copy_take, List.length_take, length]
      exact ⟨rfl, fun digit member => digits digit (List.mem_of_mem_take member)⟩
    exact columns.outpk.append eight
  · intro isRct mined whole
    have rct : rctOf tx out = out.rctOutpk ++ out.rctMask ++ out.rctAmount := by
      simp [rctOf, isRct, mined, whole]
    rw [rct]
    exact ⟨by rw [String.toList_append, String.toList_append],
      fun columns => (columns.outpk.append columns.mask).append columns.amount⟩

theorem entryOf_listsOutput (db : Database) (row : XmrTransaction × XmrOutput) :
    ListsOutput db row (entryOf db row) := by
  constructor
  case rct => exact ⟨rctOf row.1 row.2, by simp [entryOf, unspentJson], rctOf_form row.1 row.2⟩
  all_goals simp [entryOf, unspentJson, keyImages, Function.comp_def]

/-! ### The loops -/

/-- The loop over the outputs of a transaction. -/
theorem readUnspentOutputs_eq {world : World} (quiet : world.Quiet) (dustThreshold : Nat)
    (tx : XmrTransaction) (outs : List XmrOutput) :
    readUnspentOutputs dustThreshold tx outs world =
      (((outs.filter fun out => dustThreshold ≤ out.amount.toNat).map (tx, ·)).map
        fun row => (row.2.amount, entryOf world.db row), world) := by
  induction outs with
  | nil => rfl
  | cons out rest inductionHypothesis =>
    unfold readUnspentOutputs
    by_cases dust : out.amount.toNat < dustThreshold
    · rw [if_pos dust, inductionHypothesis, List.filter_cons_of_neg (by simpa using dust)]
    · rw [if_neg dust, List.filter_cons_of_pos (by simpa using dust), Handler.bind_apply,
        selectInputsForOut, query_quiet _ _ quiet, Handler.bind_apply, inductionHypothesis]
      rfl

/-- The loop over the transactions. -/
theorem readUnspent_eq (backend : Backend) {world : World} (quiet : world.Quiet)
    (dustThreshold : Nat) (txs : List XmrTransaction) :
    readUnspent backend dustThreshold txs world =
      (((txs.filter fun tx => isTxUnlocked backend.status tx.unlockTime tx.height).flatMap
        fun tx => ((world.db.outputsForTx tx.id).filter fun out =>
          dustThreshold ≤ out.amount.toNat).map (tx, ·)).map
            fun row => (row.2.amount, entryOf world.db row), world) := by
  induction txs with
  | nil => rfl
  | cons tx rest inductionHypothesis =>
    unfold readUnspent
    by_cases unlocked : isTxUnlocked backend.status tx.unlockTime tx.height = true
    · rw [if_pos unlocked, List.filter_cons, if_pos unlocked, List.flatMap_cons, List.map_append,
        Handler.bind_apply, selectOutputsForTx, query_quiet _ _ quiet, Handler.bind_apply,
        readUnspentOutputs_eq quiet, Handler.bind_apply, inductionHypothesis]
      rfl
    · rw [if_neg unlocked, List.filter_cons, if_neg unlocked, inductionHypothesis]

/-! ### The request -/

/-- A login that succeeds has found the row of the address, with the hash of the view key. -/
theorem login_row {backend : Backend} {address viewKey : String} {acc : XmrAccount}
    {response : Json} {world : World} (quiet : world.Quiet)
    (success : (loginAndStartSearchThread backend address viewKey acc response world).1.1 = true) :
    ∃ row, world.db.selectAccount address = some row ∧
      backend.makeHash viewKey = row.viewkeyHash ∧
      (loginAndStartSearchThread backend address viewKey acc response world).1.2.1.id = row.id := by
  have selected : (selectAccountRow address world).1 = world.db.selectAccount address := by
    rw [selectAccountRow, query_quiet _ _ quiet]
  rcases loginAndStartSearchThread_cases backend address viewKey acc response world with
    ⟨-, unread⟩ | ⟨row, read, ⟨found, reason, refused⟩ | ⟨same, entered⟩⟩
  · rw [unread] at success
    cases success
  · rw [refused] at success
    cases success
  · exact ⟨row, selected.symm.trans read, same, by rw [entered]⟩

/-- A login that fails leaves the response alone, or gives the reason. -/
theorem login_fails {backend : Backend} {address viewKey : String} {acc : XmrAccount}
    {response : Json} {world : World} (unsaid : response.get? "status" = none)
    (fails : (loginAndStartSearchThread backend address viewKey acc response world).1.1 = false) :
    ¬ Succeeds (sessionClose
      (loginAndStartSearchThread backend address viewKey acc response world).1.2.2) := by
  rcases loginAndStartSearchThread_cases backend address viewKey acc response world with
    ⟨-, unread⟩ | ⟨row, -, ⟨found, reason, refused⟩ | ⟨-, entered⟩⟩
  · rw [unread]
    intro success
    have said : response.get? "status" = some (.str "success") := success
    rw [unsaid] at said
    cases said
  · rw [refused]
    unfold Succeeds Balances.Answer.get? sessionClose Json.ofError
    simp
  · rw [entered] at fails
    cases fails

theorem foldl_amounts (rows : List (XmrTransaction × XmrOutput)) (start : UInt64) :
    ((rows.map fun row => row.2.amount).foldl (· + ·) start).toNat =
      (start.toNat + Tables.total (·.2.amount.toNat) rows) % 2 ^ 64 := by
  induction rows generalizing start with
  | nil =>
    show start.toNat = (start.toNat + 0) % 2 ^ 64
    rw [Nat.add_zero, Nat.mod_eq_of_lt start.toNat_lt]
  | cons row rest inductionHypothesis =>
    rw [List.map_cons, List.foldl_cons, inductionHypothesis, Tables.total_cons, UInt64.toNat_add]
    omega

/-- The answer to a request that has logged in. -/
theorem unspentOutsAnswer_lists (backend : Backend) {db : Database} (valid : db.Valid)
    (dustThreshold accountId : Nat) (response : Json) :
    Lists backend.status dustThreshold accountId db (unspentOutsAnswer backend response
      ((unspentRows backend.status dustThreshold accountId db).map fun row =>
        (row.2.amount, entryOf db row))) where
  outputs := by
    refine ⟨(unspentRows backend.status dustThreshold accountId db).map (entryOf db), ?_, ?_⟩
    · simp [unspentOutsAnswer, Balances.Answer.get?, sessionClose]
    · rw [List.forall₂_map_right_iff, List.forall₂_same]
      exact fun row _ => entryOf_listsOutput db row
  complete _ _ := mem_unspentRows
  once := unspentRows_unique valid backend.status dustThreshold accountId
  amount := by
    have sum := foldl_amounts (unspentRows backend.status dustThreshold accountId db) 0
    rw [show (0 : UInt64).toNat = 0 from rfl, Nat.zero_add] at sum
    rw [← sum]
    simp [unspentOutsAnswer, Balances.Answer.get?, sessionClose, Function.comp_def]

/-! ### The columns that scans store -/

/-- The keys of the outputs that a pass identifies are written in hexadecimal digits. -/
def WritesKeys : Balances.Event → Prop
  | .pass wallet _ _ tx _ _ _ => ∀ info ∈ wallet.identifier.outputs tx,
    HexDigits 64 info.rtcOutpk ∧ HexDigits 64 info.rtcMask ∧ HexDigits 64 info.rtcAmount
  | _ => True

theorem rctColumns_step {db : Database} {event : Balances.Event}
    (columns : ∀ out ∈ db.outputs, RctColumns out) (writes : WritesKeys event) :
    ∀ out ∈ (Balances.step db event).outputs, RctColumns out := by
  cases event with
  | create row =>
    obtain ⟨accounts, nextAccount, after⟩ := Balances.createRow_eq db row
    show ∀ out ∈ (Balances.createRow db row).outputs, RctColumns out
    rw [after]
    exact columns
  | save answers accountId scannedHeight startHeight blkTimestamp =>
    obtain ⟨accounts, after⟩ :=
      Balances.saveRow_eq db answers accountId scannedHeight startHeight blkTimestamp
    show ∀ out ∈ (Balances.saveRow db answers accountId scannedHeight startHeight
      blkTimestamp).outputs, RctColumns out
    rw [after]
    exact columns
  | pass wallet status tuple tx outcomes known blkTimestamp =>
    have cleared : ∀ out ∈ (clearedDb wallet tx outcomes db).outputs, RctColumns out := by
      unfold clearedDb
      cases existingTx wallet tx outcomes db with
      | none => exact columns
      | some old => exact fun out member => columns out (List.mem_filter.mp member).1
    show ∀ out ∈ (recordTx wallet status tuple tx outcomes ⟨db, known, blkTimestamp⟩).2.db.outputs,
      RctColumns out
    rcases recordTx_cases wallet status tuple tx outcomes ⟨db, known, blkTimestamp⟩ with
      ⟨-, same | isCleared⟩ | ⟨-, -, filled⟩
    · rw [same]
      exact columns
    · rw [isCleared]
      exact cleared
    · rw [filled]
      intro out member
      rcases mem_filledDb_outputs.mp member with old | new
      · exact cleared out old
      · obtain ⟨row, stored, id, -, -, rfl⟩ := Database.mem_numbered _ new
        obtain ⟨info, identified, rfl⟩ := List.mem_map.mp stored
        obtain ⟨outpk, mask, amount⟩ := writes info identified
        exact ⟨outpk, mask, amount⟩
  | check backend accountId throwing =>
    exact Balances.step_check_invariant (fun db => ∀ out ∈ db.outputs, RctColumns out)
      (fun _ txId kept out member => kept out (List.mem_filter.mp member).1)
      (fun _ _ _ kept => kept) backend accountId throwing columns

theorem rctColumns_run (events : List Balances.Event)
    (writes : ∀ event ∈ events, WritesKeys event) :
    ∀ out ∈ (Runs.run Balances.step {} events).outputs, RctColumns out :=
  Runs.run_invariant Balances.step (fun _ => WritesKeys)
    (fun db => ∀ out ∈ db.outputs, RctColumns out)
    (fun _ _ columns writesKeys => rctColumns_step columns writesKeys) events {}
    (fun _ member => absurd member List.not_mem_nil) (Runs.along_of_forall writes)

/-! ### Every answer that reports success -/

/-- An answer that reports success lists the outputs of the account that it was asked for, and the
columns that scans store give each of them its form of `rct`. -/
theorem getUnspentOuts_lists :
    (∀ (backend : Backend) (body : Option Json) (world : World), world.Quiet → world.db.Valid →
      Succeeds (getUnspentOuts backend body world).1 →
      ∃ request address viewKey dustThreshold row, body = some request ∧
        readUnspentRequest backend request = some (address, viewKey, dustThreshold) ∧
        world.db.selectAccount address = some row ∧
        backend.makeHash viewKey = row.viewkeyHash ∧
        Lists backend.status dustThreshold row.id world.db
          (getUnspentOuts backend body world).1) ∧
    ∀ events : List Balances.Event, (∀ event ∈ events, WritesKeys event) →
      ∀ out ∈ (Runs.run Balances.step {} events).outputs, RctColumns out := by
  refine ⟨fun backend body world quiet valid => ?_, rctColumns_run⟩
  unfold getUnspentOuts
  cases parsed : parseRequest body
      ["address", "view_key", "mixin", "use_dust", "dust_threshold", "amount"] .null with
  | error response =>
    intro success
    unfold parseRequest at parsed
    split at parsed
    · cases parsed
      simp [Succeeds, Balances.Answer.get?, sessionClose] at success
    · split at parsed
      · cases parsed
        simp [Succeeds, Balances.Answer.get?, sessionClose] at success
      · cases parsed
  | ok request =>
    have isBody : body = some request := by
      unfold parseRequest at parsed
      split at parsed
      · cases parsed
      · split at parsed
        · cases parsed
        · rw [Except.ok.inj parsed]
    cases asked : readUnspentRequest backend request with
    | none =>
      intro success
      simp [asked, Succeeds, Balances.Answer.get?, sessionClose, Json.get?] at success
    | some values =>
      obtain ⟨address, viewKey, dustThreshold⟩ := values
      simp only [asked, Handler.bind_apply]
      obtain ⟨quietFound, dbFound⟩ := Balances.KeepsTables.withThread address false
        (fun thread => (true, thread)) world quiet
      cases exist : (searchThreadExist address world).1 with
      | false =>
        intro success
        simp [Succeeds, Balances.Answer.get?, sessionClose, threadMissing, Json.ofError] at success
      | true =>
        generalize isFound : (searchThreadExist address world).2 = found
        have quietWorld : found.Quiet := isFound ▸ quietFound
        have db : found.db = world.db := isFound ▸ dbFound
        obtain ⟨quietEntered, dbEntered⟩ := Balances.loginAndStartSearchThread_keepsTables backend
          address viewKey {} (unspentOutsResponse backend) found quietWorld
        have login := @login_row backend address viewKey {} (unspentOutsResponse backend) found
          quietWorld
        have fails := @login_fails backend address viewKey {} (unspentOutsResponse backend) found
          (by simp [unspentOutsResponse])
        simp only [if_true, Handler.bind_apply]
        generalize loginAndStartSearchThread backend address viewKey {}
          (unspentOutsResponse backend) found = entered at quietEntered dbEntered login fails
        obtain ⟨⟨logged, acc, response⟩, after⟩ := entered
        cases logged with
        | false => exact fun success => absurd success (fails rfl)
        | true =>
          obtain ⟨row, stored, hash, id⟩ := login rfl
          have same : after.db = world.db := dbEntered.trans db
          have quietAfter : after.Quiet := quietEntered
          have rowId : acc.id = row.id := id
          intro _
          refine ⟨request, address, viewKey, dustThreshold, row, isBody, asked, db ▸ stored, hash,
            ?_⟩
          simp only [Handler.bind_apply, Handler.pure_apply]
          rw [selectTransactions, query_quiet _ _ quietAfter, readUnspent_eq backend quietAfter,
            same, rowId]
          exact unspentOutsAnswer_lists backend valid dustThreshold row.id response

/-! ### Amounts beyond 64 bits -/

/-- The amount that is reported is the sum itself. -/
def AmountExact (status : Status) (dustThreshold accountId : Nat) (db : Database)
    (answer : Answer) : Prop :=
  Balances.Answer.get? answer "amount" = some (.ofText
    (Tables.total (·.2.amount.toNat) (unspentRows status dustThreshold accountId db)))

/-- Each transaction pays two amounts of 2^63. -/
def twoHalves : Identifier where
  outputs _ := [{ pubKey := "k1", amount := 9223372036854775808 },
    { pubKey := "k2", amount := 9223372036854775808, idxInTx := 1 }]
  inputs _ _ := []

/-- The account exists, and has received a transaction. -/
def received (identifier : Identifier) : List Balances.Event :=
  [.create (Balances.account 0 "4ApA"),
    .pass { account := Balances.account 1 "4ApA", identifier } { currentHeight := 100 }
      { blkHeight := 10, blkTimestamp := 1600000000, isCoinbase := false } { hash := "a1" }
      { chainIndices := [7, 8] } [] none]

/-- A number in decimal digits. -/
def decimal (text : String) : Option Nat :=
  if text.toList ≠ [] ∧ text.toList.all Char.isDigit then
    some (text.toList.foldl (fun number digit => number * 10 + (digit.toNat - 48)) 0)
  else none

/-- A backend that reads such numbers. -/
def spender : Backend := { Balances.backend with lexicalCast := decimal }

/-- The account's search thread is running. -/
def worldWith (identifier : Identifier) : World where
  db := Runs.run Balances.step {} (received identifier)
  searchingThreads :=
    [("4ApA",
      { acc := Balances.account 1 "4ApA", address := "4ApA", viewkey := "c0de",
        searchedBlkNo := 10 })]

/-- A request for every output of 1 or more. -/
def request : Json :=
  .obj [("address", .str "4ApA"), ("view_key", .str "c0de"), ("mixin", .num 4),
    ("use_dust", .bool false), ("dust_threshold", .str "1"), ("amount", .str "0")]

/-- The text that an answer has under a key. -/
def textOf (answer : Answer) (key : String) : Option String :=
  Balances.Answer.get? answer key >>= Json.asString?

theorem get?_of_textOf {answer : Answer} {key text : String}
    (shown : textOf answer key = some text) :
    Balances.Answer.get? answer key = some (.str text) := by
  obtain ⟨json, value, isText⟩ := Option.bind_eq_some_iff.mp shown
  cases json with
  | str other =>
    rw [value, Option.some.inj isText]
  | null => cases isText
  | bool other => cases isText
  | num other => cases isText
  | arr items => cases isText
  | obj fields => cases isText

/-- Two outputs of 2^63 are listed with an amount of zero. -/
theorem not_amountExact :
    World.Quiet (worldWith twoHalves) ∧ (worldWith twoHalves).db.Valid ∧
      Succeeds (getUnspentOuts spender (some request) (worldWith twoHalves)).1 ∧
      ¬ AmountExact spender.status 1 1 (worldWith twoHalves).db
        (getUnspentOuts spender (some request) (worldWith twoHalves)).1 := by
  have succeeds : textOf (getUnspentOuts spender (some request) (worldWith twoHalves)).1 "status" =
      some "success" := by decide +kernel
  have zero : textOf (getUnspentOuts spender (some request) (worldWith twoHalves)).1 "amount" =
      some "0" := by decide +kernel
  refine ⟨rfl, by decide +kernel, get?_of_textOf succeeds, fun exact => ?_⟩
  have shown := (get?_of_textOf zero).symm.trans exact
  have sum : Tables.total (·.2.amount.toNat)
      (unspentRows spender.status 1 1 (worldWith twoHalves).db) = 2 ^ 64 := by decide +kernel
  rw [sum] at shown
  exact absurd (Json.str.inj (Option.some.inj shown)) (by decide +kernel)

/-- A key of zeros. -/
def zeroKey : String := String.ofList (List.replicate 64 '0')

theorem hexDigits_zeroKey : HexDigits 64 zeroKey := by
  unfold HexDigits zeroKey
  rw [String.toList_ofList]
  refine ⟨List.length_replicate, fun digit member => ?_⟩
  rw [(List.mem_replicate.mp member).2]
  decide

/-- An output with keys in its columns is listed. -/
def oneKeyed : Identifier where
  outputs _ := [{
    pubKey := "k1"
    amount := 5
    rtcOutpk := zeroKey
    rtcMask := zeroKey
    rtcAmount := zeroKey }]
  inputs _ _ := []

theorem getUnspentOuts_lists_oneKeyed :
    (∃ asked address viewKey dustThreshold row, some request = some asked ∧
      readUnspentRequest spender asked = some (address, viewKey, dustThreshold) ∧
      (worldWith oneKeyed).db.selectAccount address = some row ∧
      spender.makeHash viewKey = row.viewkeyHash ∧
      Lists spender.status dustThreshold row.id (worldWith oneKeyed).db
        (getUnspentOuts spender (some request) (worldWith oneKeyed)).1) ∧
    ∀ out ∈ (worldWith oneKeyed).db.outputs, RctColumns out := by
  have succeeds : textOf (getUnspentOuts spender (some request) (worldWith oneKeyed)).1 "status" =
      some "success" := by decide +kernel
  refine ⟨getUnspentOuts_lists.1 spender (some request) (worldWith oneKeyed) rfl
    (by decide +kernel) (get?_of_textOf succeeds), getUnspentOuts_lists.2 (received oneKeyed) ?_⟩
  intro event member
  rcases List.mem_cons.mp member with rfl | rest
  · trivial
  · rw [List.mem_singleton.mp rest]
    intro info member
    rw [List.mem_singleton.mp member]
    exact ⟨hexDigits_zeroKey, hexDigits_zeroKey, hexDigits_zeroKey⟩

end LightWallet.UnspentOutputs
