/-
This file holds the body of the loop over transactions in `TxSearch::operator()`:
how one transaction of the chain is recorded in the database.

The pass talks to the database through two connections. The connection it has
grabbed carries a database transaction that is opened when the first output or
input is identified and committed at the end of the pass; leaving the pass in
any other way destroys the transaction object, which rolls it back. The rows of
an earlier scan are deleted by a helper that is called without a connection: its
statements run on another pooled connection, and are committed at once.

The calls whose answers the model does not determine are read from a record of
outcomes, one for each place in the code. A call that fails there leaves its
connection's tables as they were.
-/

import LightWallet.Database
import LightWallet.Unlocking

namespace LightWallet

/-! ### What a pass works on -/

/-- What a search thread knows of its account. -/
structure Wallet where
  account : XmrAccount
  identifier : Identifier

/-- `txs_tuple_t`: height and timestamp of the block of a transaction, and whether it is the
miner transaction. -/
structure TxTuple where
  blkHeight : Nat
  blkTimestamp : Nat
  isCoinbase : Bool
  deriving DecidableEq, Repr

/-- The answers of the calls of one pass. The blockchain's own data is `chainTxId`, the id of
the transaction in its table, and `chainIndices`, the global indices of its outputs; a call
that should return them answers or fails. -/
structure Outcomes where
  chainTxId : Nat := 1
  chainIndices : List Nat := []
  identifies : Bool := true
  begins : Bool := true
  existsAnswers : Bool := true
  deleteAnswers : Bool := true
  txExistAnswers : Bool := true
  insertsTransaction : Bool := true
  indicesAnswer : Bool := true
  insertsOutputs : Bool := true
  txExistAnswersAgain : Bool := true
  outputExistsAnswers : Nat → Bool := fun _ => true
  insertsInputs : Bool := true
  commits : Bool := true

/-- How a pass ends: at the end of the loop body, by `continue`, or by an exception. -/
inductive Exit where
  | next
  | skipped
  | thrown (what : String)
  deriving DecidableEq, Repr

/-- The state of a pass: the committed tables, what the open transaction of the grabbed
connection sees, the cache of known outputs, and the local variables. `blkTimestamp` is
declared outside the loop, so that it is handed on to the next pass. -/
structure Pass where
  committed : Database
  transaction : Option Database := none
  known : KnownOutputs
  blkTimestamp : Option Nat := none
  blockchainTxId : Nat := 0
  txMysqlId : Option Nat := none

namespace Pass

/-- The tables as the grabbed connection sees them. -/
def seen (pass : Pass) : Database := pass.transaction.getD pass.committed

/-- Write through the grabbed connection, inside its transaction. -/
def write (pass : Pass) (db : Database) : Pass := { pass with transaction := some db }

end Pass

/-- A pass goes on, or is left. -/
inductive Step where
  | go (pass : Pass)
  | leave (exit : Exit) (pass : Pass)

namespace Step

/-- Go on with the next part of the loop body. -/
def andThen : Step → (Pass → Step) → Step
  | .go pass, rest => rest pass
  | .leave exit pass, _ => .leave exit pass

@[simp] theorem andThen_go (pass : Pass) (rest : Pass → Step) :
    (Step.go pass).andThen rest = rest pass := rfl

@[simp] theorem andThen_leave (exit : Exit) (pass : Pass) (rest : Pass → Step) :
    (Step.leave exit pass).andThen rest = .leave exit pass := rfl

end Step

/-! ### The rows of a transaction -/

/-- A transaction without an unlock time is locked for the default number of blocks. -/
def txUnlockTime (tuple : TxTuple) (tx : Transaction) : Nat :=
  if tx.unlockTime = 0 then tuple.blkHeight + defaultTxSpendableAge else tx.unlockTime

/-- The mixin number that is stored with a transaction's rows. -/
def storedMixin (tuple : TxTuple) (tx : Transaction) : Nat :=
  if tuple.isCoinbase then 0 else tx.mixinNo

/-- The row of `Transactions`. -/
def transactionRow (wallet : Wallet) (status : Status) (tuple : TxTuple) (tx : Transaction)
    (blockchainTxId : Nat) (totalReceived totalSent : UInt64) (timestamp : Nat) :
    XmrTransaction where
  hash := tx.hash
  prefixHash := tx.prefixHash
  txPubKey := tx.txPubKey
  accountId := wallet.account.id
  blockchainTxId := blockchainTxId
  totalReceived := totalReceived
  totalSent := totalSent
  unlockTime := txUnlockTime tuple tx
  height := tuple.blkHeight
  coinbase := tuple.isCoinbase
  isRct := tx.version = 2
  rctType := if tx.version = 2 then tx.rctType else 0
  spendable := isTxUnlocked status (txUnlockTime tuple tx) tuple.blkHeight
  paymentId := tx.paymentId
  mixin := storedMixin tuple tx
  timestamp := timestamp

/-- The row of `Outputs` of one identified output. -/
def outputRow (wallet : Wallet) (tuple : TxTuple) (tx : Transaction) (txMysqlId timestamp : Nat)
    (info : OutputInfo) (globalIndex : Nat) : XmrOutput where
  accountId := wallet.account.id
  txId := txMysqlId
  outPubKey := info.pubKey
  rctOutpk := info.rtcOutpk
  rctMask := info.rtcMask
  rctAmount := info.rtcAmount
  txPubKey := tx.txPubKey
  amount := info.amount
  globalIndex := globalIndex
  outIndex := info.idxInTx
  mixin := storedMixin tuple tx
  timestamp := timestamp

/-- The row of `Inputs` of a key image that may spend the stored output. -/
def inputRow (wallet : Wallet) (timestamp : Nat) (info : InputInfo) (output : XmrOutput) :
    XmrInput where
  accountId := wallet.account.id
  outputId := output.id
  keyImage := info.keyImg
  amount := output.amount
  timestamp := timestamp

/-- The loop that adds up how much is presumably spent. -/
def calcTotalSent (inputs : List XmrInput) : UInt64 :=
  inputs.foldl (fun sum row => sum + row.amount) 0

/-- The loop over the identified outputs. `vector::at` throws when the list of global indices
is too short; the keys before are in the cache by then. -/
def collectOutputs (row : OutputInfo → Nat → XmrOutput) (indices : List Nat) :
    List OutputInfo → KnownOutputs → Option (List XmrOutput) × KnownOutputs
  | [], known => (some [], known)
  | info :: rest, known =>
    match indices[info.idxInTx]? with
    | none => (none, known)
    | some globalIndex =>
      let (rows, known) := collectOutputs row indices rest (known.insert info.pubKey info.amount)
      (rows.map (row info globalIndex :: ·), known)

/-- The loop over the identified inputs: those are kept whose output is found in `Outputs`. A
lookup that fails counts as not found. -/
def collectInputs (row : InputInfo → XmrOutput → XmrInput) (answers : Nat → Bool)
    (db : Database) : Nat → List InputInfo → List XmrInput
  | _, [] => []
  | index, info :: rest =>
    match (if answers index then db.outputExists info.outPubKey else none) with
    | none => collectInputs row answers db (index + 1) rest
    | some output => row info output :: collectInputs row answers db (index + 1) rest

/-! ### The parts of a pass -/

section Parts

variable (wallet : Wallet) (status : Status) (tuple : TxTuple) (tx : Transaction)
  (outcomes : Outcomes)

/-- The `DateTime` object is created once. -/
def stampBlock (pass : Pass) : Pass :=
  { pass with blkTimestamp := some (pass.blkTimestamp.getD tuple.blkTimestamp) }

/-- A transaction of the database is begun. -/
def beginTransaction (pass : Pass) : Step :=
  if outcomes.begins then .go { pass with transaction := some pass.committed }
  else .leave (.thrown "Query failed") pass

/-- `delete_existing_tx_if_exists`, called without a connection. The transaction of the grabbed
connection has read nothing yet, so that it sees what is committed here. -/
def deleteExistingTxIfExists (pass : Pass) : Step :=
  let existing :=
    if outcomes.existsAnswers then pass.committed.txExists wallet.account.id tx.hash else none
  match existing with
  | none => .go pass
  | some old =>
    if outcomes.deleteAnswers ∧ (pass.committed.deleteTx old.id).1 ≠ 0 then
      .go { pass with
        committed := (pass.committed.deleteTx old.id).2
        transaction := pass.transaction.map fun db => (db.deleteTx old.id).2 }
    else .leave (.thrown ("Cant delete tx " ++ tx.hash)) pass

/-- Open the transaction of the pass, and remove the rows of an earlier scan. -/
def openTransaction (pass : Pass) : Step :=
  (beginTransaction outcomes (stampBlock tuple pass)).andThen
    (deleteExistingTxIfExists wallet tx outcomes)

/-- `tx_exist`: the id of the transaction in the blockchain. -/
def lookUpTx (answers : Bool) (pass : Pass) : Step :=
  if answers then .go { pass with blockchainTxId := outcomes.chainTxId }
  else .leave (.thrown ("Cant get tx from blockchain: " ++ tx.hash)) pass

/-- `insert` of a row of `Transactions`; a refused or failed statement gives no id. -/
def insertTransactionRow (totalReceived totalSent : UInt64) (pass : Pass) : Pass :=
  let row := transactionRow wallet status tuple tx pass.blockchainTxId totalReceived totalSent
    (pass.blkTimestamp.getD 0)
  match (if outcomes.insertsTransaction then pass.seen.insertTransaction row else none) with
  | none => { pass with txMysqlId := none }
  | some (txMysqlId, db) => { pass.write db with txMysqlId := some txMysqlId }

/-- The loop over the outputs, and the insertion of their rows. -/
def insertOutputRows (outputs : List OutputInfo) (txMysqlId : Nat) (pass : Pass) : Step :=
  let collected := collectOutputs
    (outputRow wallet tuple tx txMysqlId (pass.blkTimestamp.getD 0)) outcomes.chainIndices
    outputs pass.known
  let pass := { pass with known := collected.2 }
  match collected.1 with
  | none => .leave (.thrown "vector::_M_range_check") pass
  | some rows =>
    match (if outcomes.insertsOutputs then pass.seen.insertOutputs rows else none) with
    | none => .leave .skipped pass
    | some db => .go (pass.write db)

/-- The first component of the search: the outputs. -/
def outputsPart (pass : Pass) : Step :=
  match wallet.identifier.outputs tx with
  | [] => .go pass
  | info :: rest =>
    ((openTransaction wallet tuple tx outcomes pass).andThen
      (lookUpTx tx outcomes outcomes.txExistAnswers)).andThen fun pass =>
        let pass := insertTransactionRow wallet status tuple tx outcomes
          (calcTotalXmr (info :: rest)) 0 pass
        if outcomes.indicesAnswer then
          match pass.txMysqlId with
          | none => .leave (.thrown "tx_mysql_id is zero!") pass
          | some txMysqlId =>
            insertOutputRows wallet tuple tx outcomes (info :: rest) txMysqlId pass
        else .leave (.thrown "cant get_amount_specific_indices!") pass

/-- The insertion of the rows of `Inputs`, once the transaction has its row. -/
def insertInputRows (found : List XmrInput) (pass : Pass) : Step :=
  match pass.txMysqlId with
  | none => .leave (.thrown "tx_mysql_id is zero!") pass
  | some txMysqlId =>
    match (if outcomes.insertsInputs then
        pass.seen.insertInputs (found.map fun row => { row with txId := txMysqlId }) else none) with
    | none => .leave .skipped pass
    | some db => .go (pass.write db)

/-- The inputs whose output is found in the database. -/
def inputsFound (inputs : List InputInfo) (pass : Pass) : List XmrInput :=
  collectInputs (inputRow wallet (pass.blkTimestamp.getD 0)) outcomes.outputExistsAnswers
    pass.seen 0 inputs

/-- The inputs part opens the transaction when the outputs part has not, and looks the
transaction up in the blockchain unless it has been found there. -/
def openForInputs (pass : Pass) : Step :=
  (match pass.transaction with
    | none => openTransaction wallet tuple tx outcomes pass
    | some _ => .go (stampBlock tuple pass)).andThen fun pass =>
      if pass.blockchainTxId = 0 then lookUpTx tx outcomes outcomes.txExistAnswersAgain pass
      else .go pass

/-- The rows of the inputs that are found. A transaction that has no row yet because none of
its outputs is ours gets one here. -/
def recordFound (found : List XmrInput) (pass : Pass) : Step :=
  match found with
  | [] => .go pass
  | input :: more =>
    let totalSent := calcTotalSent (input :: more)
    let pass := match pass.txMysqlId with
      | none => insertTransactionRow wallet status tuple tx outcomes 0 totalSent pass
      | some _ => pass
    insertInputRows outcomes (input :: more) pass

/-- The second component of the search: the inputs. -/
def inputsPart (inputs : List InputInfo) (pass : Pass) : Step :=
  match inputs with
  | [] => .go pass
  | info :: rest =>
    (openForInputs wallet tuple tx outcomes pass).andThen fun pass =>
      recordFound wallet status tuple tx outcomes
        (inputsFound wallet outcomes (info :: rest) pass) pass

/-- The commit at the end of the loop body. -/
def commitTransaction (pass : Pass) : Step :=
  match pass.transaction with
  | none => .go pass
  | some db =>
    if outcomes.commits then .go { pass with committed := db, transaction := none }
    else .leave (.thrown "Query failed") pass

end Parts

/-! ### The pass -/

/-- What one pass hands to the next. -/
structure Scanned where
  db : Database
  known : KnownOutputs
  blkTimestamp : Option Nat := none

/-- Leaving the pass destroys the transaction object: what is not committed is lost. -/
def Step.finish : Step → Exit × Scanned
  | .go pass => (.next, ⟨pass.committed, pass.known, pass.blkTimestamp⟩)
  | .leave exit pass => (exit, ⟨pass.committed, pass.known, pass.blkTimestamp⟩)

/-- The loop body, up to the destruction of its local variables. -/
def recordPass (wallet : Wallet) (status : Status) (tuple : TxTuple) (tx : Transaction)
    (outcomes : Outcomes) (scanned : Scanned) : Step :=
  let pass : Pass :=
    { committed := scanned.db, known := scanned.known, blkTimestamp := scanned.blkTimestamp }
  if outcomes.identifies then
    -- both identifications run before the outputs found here enter the cache
    let inputs := wallet.identifier.inputs scanned.known tx
    ((outputsPart wallet status tuple tx outcomes pass).andThen
      (inputsPart wallet status tuple tx outcomes inputs)).andThen
        (commitTransaction outcomes)
  else .leave (.thrown "identification failed") pass

/-- One pass through the loop over transactions. -/
def recordTx (wallet : Wallet) (status : Status) (tuple : TxTuple) (tx : Transaction)
    (outcomes : Outcomes) (scanned : Scanned) : Exit × Scanned :=
  (recordPass wallet status tuple tx outcomes scanned).finish

end LightWallet
