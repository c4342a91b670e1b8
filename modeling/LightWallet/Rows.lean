/-
This file holds the rows of the five tables of the service's database, as
`ssqlses.h` declares them, and what the rest of the model reads off the
blockchain: transactions, blocks and the outputs and inputs that were identified
in a transaction.

Hashes, public keys and key images are kept as the hex strings in which they
are stored. Amounts are the 64-bit machine integers of the code; ids, heights
and times are natural numbers.
-/

import Mathlib.Data.List.Basic

namespace LightWallet

/-! ### Rows -/

/-- A row of `Accounts`. `viewkey` is no column: it is filled in when a user logs in. -/
structure XmrAccount where
  id : Nat := 0
  address : String := ""
  viewkeyHash : String := ""
  scannedBlockHeight : Nat := 0
  scannedBlockTimestamp : Nat := 0
  startHeight : Nat := 0
  generatedLocally : Bool := false
  viewkey : String := ""
  deriving DecidableEq, Repr

/-- A row of `Transactions`. -/
structure XmrTransaction where
  id : Nat := 0
  hash : String := ""
  prefixHash : String := ""
  txPubKey : String := ""
  accountId : Nat := 0
  blockchainTxId : Nat := 0
  totalReceived : UInt64 := 0
  totalSent : UInt64 := 0
  unlockTime : Nat := 0
  height : Nat := 0
  coinbase : Bool := false
  isRct : Bool := false
  rctType : Nat := 0
  spendable : Bool := false
  paymentId : String := ""
  mixin : Nat := 0
  timestamp : Nat := 0
  deriving DecidableEq, Repr

/-- A row of `Outputs`. -/
structure XmrOutput where
  id : Nat := 0
  accountId : Nat := 0
  txId : Nat := 0
  outPubKey : String := ""
  rctOutpk : String := ""
  rctMask : String := ""
  rctAmount : String := ""
  txPubKey : String := ""
  amount : UInt64 := 0
  globalIndex : Nat := 0
  outIndex : Nat := 0
  mixin : Nat := 0
  timestamp : Nat := 0
  deriving DecidableEq, Repr

/-- A row of `Inputs`. -/
structure XmrInput where
  id : Nat := 0
  accountId : Nat := 0
  txId : Nat := 0
  outputId : Nat := 0
  keyImage : String := ""
  amount : UInt64 := 0
  timestamp : Nat := 0
  deriving DecidableEq, Repr

/-- A row of `Payments`. -/
structure XmrPayment where
  id : Nat := 0
  accountId : Nat := 0
  paymentId : String := ""
  txHash : String := ""
  requestFulfilled : Bool := false
  importFee : Nat := 0
  paymentAddress : String := ""
  deriving DecidableEq, Repr

/-! ### The blockchain -/

/-- What the service reads off a transaction of the blockchain or of the mempool. -/
structure Transaction where
  hash : String
  prefixHash : String := ""
  txPubKey : String := ""
  version : Nat := 2
  rctType : Nat := 0
  unlockTime : Nat := 0
  mixinNo : Nat := 0
  paymentId : String := ""
  isCoinbase : Bool := false
  xmrOutputs : UInt64 := 0
  xmrInputs : UInt64 := 0
  numberOfOutputs : Nat := 0
  numberOfInputs : Nat := 0
  fee : UInt64 := 0
  size : Nat := 0
  deriving DecidableEq, Repr

/-- A block: its height, its timestamp, the miner transaction and the regular ones. -/
structure Block where
  height : Nat
  timestamp : Nat
  minerTx : Transaction
  txs : List Transaction
  deriving DecidableEq, Repr

/-- An output that was identified as one of the account's. -/
structure OutputInfo where
  pubKey : String
  amount : UInt64 := 0
  idxInTx : Nat := 0
  rtcOutpk : String := ""
  rtcMask : String := ""
  rtcAmount : String := ""
  deriving DecidableEq, Repr

/-- A ring member, under the key image of its input, that is a known output of the account. -/
structure InputInfo where
  keyImg : String
  outPubKey : String
  amount : UInt64 := 0
  deriving DecidableEq, Repr

/-- The cache of output public keys that were once identified, with their amounts. -/
abbrev KnownOutputs := List (String × UInt64)

/-- `unordered_map::insert`: a key that is present keeps its amount. -/
def KnownOutputs.insert (known : KnownOutputs) (pubKey : String) (amount : UInt64) :
    KnownOutputs :=
  if known.any (·.1 = pubKey) then known else known ++ [(pubKey, amount)]

/-- The identification of an account's outputs and inputs in a transaction. -/
structure Identifier where
  outputs : Transaction → List OutputInfo
  inputs : KnownOutputs → Transaction → List InputInfo

/-- `calc_total_xmr`: the sum of the identified amounts. -/
def calcTotalXmr (outputs : List OutputInfo) : UInt64 :=
  outputs.foldl (fun sum output => sum + output.amount) 0

end LightWallet
