/-
This file compares what the wallet shows as unlocked with what the service counts
as unlocked.

Both take an unlock time below a constant as a height and any other as a point in
time. The service adds a leeway to its height and to its clock, the wallet adds
none, so they disagree about the transactions in between.
-/

import LightWallet.Check
import LightWallet.Requests

namespace LightWallet.Frontend

/-! ### The wallet -/

/-- `value || 0`. -/
def numberOrZero : Option Json → Nat
  | some (.num value) => value.toNat
  | _ => 0

/-- `config.maxBlockNumber`. -/
def Config.maxBlockNumber : Nat := 500000000

/-- `Math.round(new Date().getTime() / 1000)`. The clock counts milliseconds. -/
def currentTime (clock : Nat) : Nat := (clock + 500) / 1000

/-- `cnUtil.is_tx_unlocked`. -/
def CnUtil.isTxUnlocked (clock unlockTime blockchainHeight : Nat) : Bool :=
  if unlockTime < Config.maxBlockNumber then unlockTime ≤ blockchainHeight
  else unlockTime ≤ currentTime clock

/-- `$scope.blockchain_height`, once `fetchTransactions` has read the response. -/
def blockchainHeight (data : Json) : Nat := numberOrZero (data.get? "blockchain_height")

/-- `$scope.tx_is_unlocked`. -/
def txIsUnlocked (clock : Nat) (data tx : Json) : Bool :=
  CnUtil.isTxUnlocked clock (numberOrZero (tx.get? "unlock_time")) (blockchainHeight data)

/-! ### The response -/

theorem numberOrZero_ofNat (value : Nat) : numberOrZero (some (.ofNat value)) = value :=
  Int.toNat_natCast value

/-- What the mempool or the totals add to a response does not change its height. -/
theorem blockchainHeight_addressTxsAnswer (backend : Backend) (acc : XmrAccount)
    (response : Json) (read : AddressTxs) {data : Json}
    (answered : addressTxsAnswer (accountHeader backend acc response) read = sessionClose data) :
    blockchainHeight data = backend.status.currentHeight := by
  have height : data.get? "blockchain_height" = some (.ofNat backend.status.currentHeight) := by
    unfold addressTxsAnswer sessionClose at answered
    split at answered
    · cases answered
      simp [accountHeader]
    · cases answered
    · cases answered
      simp [accountHeader]
  unfold blockchainHeight
  rw [height, numberOrZero_ofNat]

theorem unlockTime_toJson (entry : AddressTx) :
    numberOrZero (entry.toJson.get? "unlock_time") = entry.tx.unlockTime := by
  have shown : entry.toJson.get? "unlock_time" = some (.ofNat entry.tx.unlockTime) := by
    unfold AddressTx.toJson
    split <;> simp
  rw [shown, numberOrZero_ofNat]

/-! ### When they agree -/

/-- The service counts a listed transaction as unlocked exactly when the wallet shows it so. -/
def Agree (clock : Nat) (data : Json) (entry : AddressTx) : Prop :=
  entry.tx.spendable = true ↔ txIsUnlocked clock data entry.toJson = true

instance (clock : Nat) (data : Json) (entry : AddressTx) : Decidable (Agree clock data entry) :=
  inferInstanceAs (Decidable (_ ↔ _))

/-- The unlock time is not one of those that the leeways of the service reach, and the wallet
does not. -/
def OutsideLeeway (status : Status) (clock unlockTime height : Nat) : Prop :=
  if unlockTime < maxBlockNumber then
    unlockTime ≠ status.currentHeight + lockedTxAllowedDeltaBlocks
  else unlockTime ≤ currentTime clock ∨ status.now + getLeeway status.netType height < unlockTime

instance (status : Status) (clock unlockTime height : Nat) :
    Decidable (OutsideLeeway status clock unlockTime height) := by
  unfold OutsideLeeway
  infer_instance

theorem unlocked_iff_shown_iff {status : Status} {clock : Nat}
    (sameClock : status.now = clock / 1000) (unlockTime height : Nat) :
    (isTxUnlocked status unlockTime height = true ↔
        CnUtil.isTxUnlocked clock unlockTime status.currentHeight = true) ↔
      OutsideLeeway status clock unlockTime height := by
  unfold isTxUnlocked CnUtil.isTxUnlocked OutsideLeeway
  have sameBoundary : Config.maxBlockNumber = maxBlockNumber := rfl
  rw [sameBoundary]
  by_cases index : unlockTime < maxBlockNumber
  · rw [if_pos index, if_pos index, if_pos index, decide_eq_true_iff, decide_eq_true_iff]
    unfold lockedTxAllowedDeltaBlocks
    constructor
    · rintro agree rfl
      exact absurd (agree.mp (Nat.le_refl _)) (Nat.not_succ_le_self _)
    · intro outside
      constructor <;> intro reaches <;> omega
  · -- rounding the clock gains a second at most, and every leeway is at least a minute
    have rounded : currentTime clock ≤ clock / 1000 + 1 := by
      unfold currentTime
      omega
    have leeway : 60 ≤ getLeeway status.netType height := by
      unfold getLeeway
      split <;> decide
    rw [if_neg index, if_neg index, if_neg index, decide_eq_true_iff, decide_eq_true_iff]
    constructor
    · intro agree
      by_cases reached : unlockTime ≤ status.now + getLeeway status.netType height
      · exact .inl (agree.mp reached)
      · exact .inr (Nat.not_le.mp reached)
    · intro outside
      constructor <;> intro reaches <;> omega

/-- What the check hands on of a transaction that was not marked: it is marked if it is unlocked,
and its unlock time is the stored one. -/
theorem txAfterCheck_unmarked {backend : Backend} {row after : XmrTransaction}
    (unmarked : row.spendable = false) (listed : txAfterCheck backend row = some after) :
    (after.spendable = true ↔ isTxUnlocked backend.status row.unlockTime row.height = true) ∧
      after.unlockTime = row.unlockTime := by
  unfold txAfterCheck at listed
  rw [if_neg (ne_true_of_eq_false unmarked)] at listed
  by_cases unlocked : isTxUnlocked backend.status row.unlockTime row.height = true
  · rw [if_pos unlocked] at listed
    cases listed
    exact ⟨iff_of_true rfl unlocked, rfl⟩
  · rw [if_neg unlocked] at listed
    split at listed
    · cases listed
    · cases listed
      refine ⟨iff_of_false (ne_true_of_eq_false unmarked) unlocked, ?_⟩
      -- a transaction without an unlock time would be unlocked
      refine if_neg fun none => unlocked ?_
      rw [none]
      unfold isTxUnlocked
      rw [if_pos (by decide)]
      exact decide_eq_true (Nat.zero_le _)

/-- For every stored transaction that is not marked, and every response that lists what the check
has made of it, service and wallet agree exactly when the unlock time is outside the leeways. -/
theorem unlockedAgree_iff (backend : Backend) {clock : Nat}
    (sameClock : backend.status.now = clock / 1000)
    {row after : XmrTransaction} (unmarked : row.spendable = false)
    (listed : txAfterCheck backend row = some after) (spent : Option (List SpentOutput))
    (acc : XmrAccount) (response : Json) (read : AddressTxs) {data : Json}
    (answered : addressTxsAnswer (accountHeader backend acc response) read = sessionClose data) :
    Agree clock data ⟨after, spent⟩ ↔
      OutsideLeeway backend.status clock row.unlockTime row.height := by
  obtain ⟨marks, sameUnlockTime⟩ := txAfterCheck_unmarked unmarked listed
  rw [← unlocked_iff_shown_iff sameClock]
  unfold Agree txIsUnlocked
  rw [blockchainHeight_addressTxsAnswer backend acc response read answered, unlockTime_toJson]
  show (after.spendable = true ↔ CnUtil.isTxUnlocked clock after.unlockTime _ = true) ↔ _
  rw [sameUnlockTime, marks]

/-! ### A transaction in between -/

/-- The last block is block 100, and the clock shows a second and a half. -/
def tip : Backend := { Backend.empty with status := { currentHeight := 100, now := 1 } }

/-- A transaction that is locked until block 101. -/
def recorded : XmrTransaction :=
  { id := 1, hash := "a1", accountId := 1, height := 91, unlockTime := 101 }

/-- What `get_address_txs` has read, after the check has marked the transaction. -/
def onlyRecorded : AddressTxs where
  entries := some [⟨{ recorded with spendable := true }, none⟩]
  mempool := none

/-- The response that lists the transaction. -/
def listing : Json :=
  match addressTxsAnswer (accountHeader tip {} addressTxsResponse) onlyRecorded with
  | .closed _ data => data
  | .escaped => .null

theorem recorded_unlockedAgree_iff :
    Agree 1500 listing ⟨{ recorded with spendable := true }, none⟩ ↔
      OutsideLeeway tip.status 1500 recorded.unlockTime recorded.height :=
  unlockedAgree_iff tip rfl rfl rfl none {} addressTxsResponse onlyRecorded rfl

theorem recorded_unlockedAgree_fails :
    tip.status.now = 1500 / 1000 ∧ recorded.spendable = false ∧
      txAfterCheck tip recorded = some { recorded with spendable := true } ∧
      addressTxsAnswer (accountHeader tip {} addressTxsResponse) onlyRecorded =
        sessionClose listing ∧
      ¬ Agree 1500 listing ⟨{ recorded with spendable := true }, none⟩ :=
  ⟨rfl, rfl, rfl, rfl, by decide +kernel⟩

end LightWallet.Frontend
