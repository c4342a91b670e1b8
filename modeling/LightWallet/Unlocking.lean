/-
This file holds `TxUnlockChecker`: when the outputs of a transaction may be
spent. An unlock time below a constant is a block height, any other a point in
time.
-/

import Mathlib.Data.List.Basic

namespace LightWallet

/-- `network_type`. -/
inductive NetworkType where
  | mainnet
  | testnet
  | stagenet
  deriving DecidableEq, Repr

/-! ### Constants of the blockchain -/

/-- `CRYPTONOTE_MAX_BLOCK_NUMBER`, from which on an unlock time is a point in time. It and the next
four are macros of the Monero sources that the service is built with. -/
def maxBlockNumber : Nat := 500000000

/-- `CRYPTONOTE_LOCKED_TX_ALLOWED_DELTA_BLOCKS`. -/
def lockedTxAllowedDeltaBlocks : Nat := 1

/-- `CRYPTONOTE_LOCKED_TX_ALLOWED_DELTA_SECONDS_V1`. -/
def lockedTxAllowedDeltaSecondsV1 : Nat := 60

/-- `CRYPTONOTE_LOCKED_TX_ALLOWED_DELTA_SECONDS_V2`. -/
def lockedTxAllowedDeltaSecondsV2 : Nat := 120

/-- `CRYPTONOTE_DEFAULT_TX_SPENDABLE_AGE`. -/
def defaultTxSpendableAge : Nat := 10

/-- What the checks of an iteration or a request see of the outside: the network, the last
known height of the blockchain, and the clock. -/
structure Status where
  netType : NetworkType := .mainnet
  currentHeight : Nat
  now : Nat := 0
  deriving DecidableEq, Repr

/-- `get_v2height`. -/
def getV2height : NetworkType → Nat
  | .testnet => 624634
  | .stagenet => UInt64.size - 1
  | .mainnet => 1009827

/-- `get_leeway`. -/
def getLeeway (netType : NetworkType) (txBlockHeight : Nat) : Nat :=
  if txBlockHeight < getV2height netType then lockedTxAllowedDeltaSecondsV1
  else lockedTxAllowedDeltaSecondsV2

/-- `TxUnlockChecker::is_unlocked`, through `CurrentBlockchainStatus::is_tx_unlocked`. -/
def isTxUnlocked (status : Status) (unlockTime blockHeight : Nat) : Bool :=
  if unlockTime < maxBlockNumber then
    unlockTime ≤ status.currentHeight + lockedTxAllowedDeltaBlocks
  else
    unlockTime ≤ status.now + getLeeway status.netType blockHeight

end LightWallet
