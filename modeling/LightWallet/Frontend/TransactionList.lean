/-
This file models how the wallet's page takes over the list of an account's transactions.

The server names as spent whatever may be spent by the account. With a spend key the page
deletes what has the image of another key, out of the array that it walks, and then the
transactions that neither receive nor spend anything, out of the array that it walks too.
A key from which no image and no payment identifier can be made ends the callback, and the
page keeps the list that it has.
-/

import LightWallet.Splicing
import LightWallet.Frontend.AddressInfo
import LightWallet.Frontend.Money

namespace LightWallet.Frontend

/-! ### Payment identifiers -/

namespace CnUtil

/-- `ENCRYPTED_PAYMENT_ID_TAIL`. -/
def encryptedPaymentIdTail : Nat := 141

/-- `hex_xor`. -/
def hexXor (hex1 hex2 : JsString) : Except String JsString :=
  if hex1 = [] ∨ hex2 = [] ∨ hex1.length ≠ hex2.length ∨ hex1.length % 2 ≠ 0 ∨
      hex2.length % 2 ≠ 0 then
    throw "Hex string(s) is/are invalid!"
  else do
    let bin1 ← hextobin hex1
    let bin2 ← hextobin hex2
    pure (bintohex (List.zipWith (· ^^^ ·) bin1 bin2))

/-- `decrypt_payment_id`. -/
def decryptPaymentId (primitives : Primitives) (paymentId8 txPublicKey accPrvViewKey : JsString) :
    Except String JsString :=
  if paymentId8.length ≠ 16 then throw "Invalid input length!"
  else do
    let keyDerivation ← generateKeyDerivation primitives txPublicKey accPrvViewKey
    let hash ← cnFastHash primitives.keccak256
      (keyDerivation ++ toString16 encryptedPaymentIdTail)
    hexXor paymentId8 (slice hash 0 (integratedIdSize * 2))

end CnUtil

namespace TransactionList

open CnUtil AccountService AddressInfo

/-! ### The page -/

/-- An entry of `transactions`. Amounts are texts of digits, and a time counts milliseconds, as a
date does. The page adds the last two fields; of the float it shows this has the text that it is
read from. -/
structure Transaction where
  id : Nat
  txPubKey : Option JsString := none
  paymentId : JsString := []
  totalReceived : Option Int := none
  totalSent : Option Int := none
  spentOutputs : Option (List SpentOutput) := none
  timestamp : Nat := 0
  amount : Option Int := none
  approxFloatAmount : Option JsString := none
deriving DecidableEq

/-- What is read of a response. -/
structure Data where
  scannedHeight : Option Nat := none
  scannedBlockHeight : Option Nat := none
  scannedBlockTimestamp : Option Nat := none
  startHeight : Option Nat := none
  blockchainHeight : Option Nat := none
  transactions : Option (List Transaction) := none
  totalReceived : Option Int := none
  totalReceivedUnlocked : Option Int := none

/-- What comes back of the request. -/
inductive Response where
  | error (reason : String)
  | ok (data : Data)

/-- What `fetchTransactions` writes of the page. -/
structure Scope where
  error : Option String := none
  accountScannedHeight : Nat := 0
  accountScannedBlockHeight : Nat := 0
  accountScannedBlockTimestamp : ScannedTime := .zero
  accountScanStartHeight : Nat := 0
  blockchainHeight : Nat := 0
  transactions : List Transaction := []
  totalReceived : Int := 0
  totalReceivedUnlocked : Int := 0

/-- The page, the service and the exception that ended the callback, if one did. -/
structure Fetched where
  service : Service
  scope : Scope
  thrown : Option String := none

section

variable (primitives : Primitives)

/-- The inner loop at an entry of `spent_outputs`. Beside the service it keeps `total_sent`. -/
def examineSpentOutput (state : Service × Option Int) (output : SpentOutput) :
    (Service × Option Int) × Except String (Option SpentOutput) :=
  match cachedKeyImage primitives state.1 output.txPubKey output.outIndex with
  | .error error => (state, .error error)
  | .ok (service, keyImage) =>
    if output.keyImage ≠ keyImage then
      ((service, some (state.2.getD 0 - output.amount)), .ok none)
    else ((service, state.2), .ok (some output))

/-- The inner loop. -/
def filterSpentOutputs (service : Service) (tx : Transaction) :
    Service × Except String Transaction :=
  match Splicing.loop (examineSpentOutput primitives) (service, tx.totalSent)
      (tx.spentOutputs.getD []) 0 with
  | (state, .error error) => (state.1, .error error)
  | (state, .ok outputs) =>
    (state.1, .ok { tx with totalSent := state.2, spentOutputs := some outputs })

/-- The payment identifier that is shown: one of an integrated address is decrypted, where the
transaction has a public key. -/
def readPaymentId (service : Service) (tx : Transaction) : Except String JsString :=
  if tx.paymentId.length = 16 ∧ tx.txPubKey.getD [] ≠ [] then
    match service.privateKeys with
    | none => throw "undefined is not a string"
    | some privateKeys =>
      decryptPaymentId primitives tx.paymentId (tx.txPubKey.getD []) privateKeys.view
  else pure tx.paymentId

/-- The end of the outer loop at a transaction, which is deleted or gets an amount. -/
def withAmount (viewOnly : Bool) (tx : Transaction) : Option Transaction :=
  let received := tx.totalReceived.getD 0
  let sent := tx.totalSent.getD 0
  if viewOnly = false then
    if received + sent ≤ 0 then none
    else
      some { tx with
        amount := some (received - sent)
        approxFloatAmount := some (formatMoney configCoin (received - sent)) }
  else if received ≤ 0 then none
  else
    some { tx with
      amount := some received
      approxFloatAmount := some (formatMoney configCoin received) }

/-- The outer loop at a transaction. -/
def examineTransaction (viewOnly : Bool) (service : Service) (tx : Transaction) :
    Service × Except String (Option Transaction) :=
  let filtered :=
    if 0 < (tx.spentOutputs.getD []).length ∧ viewOnly = false then
      filterSpentOutputs primitives service tx
    else (service, .ok tx)
  match filtered with
  | (after, .error error) => (after, .error error)
  | (after, .ok tx) =>
    (after, do
      let paymentId ← readPaymentId primitives after tx
      pure (withAmount viewOnly { tx with paymentId := paymentId }))

/-- `transactions.sort`, which keeps the order of transactions with the same id. -/
def sortById (transactions : List Transaction) : List Transaction :=
  transactions.mergeSort fun first second => decide (second.id ≤ first.id)

/-- The callback of `fetchTransactions`, with `view_only` as it was when the request was sent. -/
def fetchTransactions (viewOnly : Bool) (service : Service) (scope : Scope) :
    Response → Fetched
  | .error reason =>
    { service := service
      scope := { scope with
        error := some ("An error occured in fetchTransactions: " ++ reason)
        transactions := [] } }
  | .ok data =>
    let scope := { scope with
      accountScannedHeight := data.scannedHeight.getD 0
      accountScannedBlockHeight := data.scannedBlockHeight.getD 0
      accountScannedBlockTimestamp :=
        if 0 < data.scannedBlockTimestamp.getD 0 then
          .date (data.scannedBlockTimestamp.getD 0 * 1000)
        else .zero
      accountScanStartHeight := data.startHeight.getD 0
      blockchainHeight := data.blockchainHeight.getD 0 }
    match Splicing.loop (examineTransaction primitives viewOnly) service
        (data.transactions.getD []) 0 with
    | (after, .error error) => { service := after, scope := scope, thrown := some error }
    | (after, .ok transactions) =>
      { service := after
        scope := { scope with
          transactions := sortById transactions
          totalReceived := data.totalReceived.getD 0
          totalReceivedUnlocked := data.totalReceivedUnlocked.getD 0 } }

end

/-! ### What is to be shown -/

section

variable (primitives : Primitives) (service : Service) (viewOnly : Bool) (tx : Transaction)

/-- The entries that the account has spent. -/
def ownOutputs : List SpentOutput :=
  (tx.spentOutputs.getD []).filter fun output => Own primitives service output

/-- The sum of what the account has spent. -/
def ownSent : Int := (((ownOutputs primitives service tx).map (·.amount)).sum : Nat)

/-- What counts as sent: nothing without a spend key. -/
def countedSent : Int := if viewOnly = false then ownSent primitives service tx else 0

/-- The transaction receives something or, as far as that is known, spends something. -/
def Kept : Prop := 0 < tx.totalReceived.getD 0 + countedSent primitives service viewOnly tx

instance : Decidable (Kept primitives service viewOnly tx) := inferInstanceAs (Decidable (_ < _))

/-- The transaction with what the account has spent of its entries. -/
def ownPart : Transaction :=
  { tx with
    totalSent :=
      if ∀ output ∈ tx.spentOutputs.getD [], Own primitives service output then tx.totalSent
      else some (ownSent primitives service tx)
    spentOutputs := tx.spentOutputs.map fun outputs =>
      outputs.filter fun output => Own primitives service output }

/-- The transaction as it is to be shown. -/
def shown : Transaction :=
  { (if viewOnly = false then ownPart primitives service tx else tx) with
    paymentId := (readPaymentId primitives service tx).toOption.getD tx.paymentId
    amount := some (tx.totalReceived.getD 0 - countedSent primitives service viewOnly tx)
    approxFloatAmount := some (formatMoney configCoin
      (tx.totalReceived.getD 0 - countedSent primitives service viewOnly tx)) }

/-- An image can be made of each entry, where they are asked for, and the payment identifier can be
read. -/
def Readable : Prop :=
  (viewOnly = false → ∀ output ∈ tx.spentOutputs.getD [], Imaged primitives service output) ∧
    ∃ paymentId, readPaymentId primitives service tx = .ok paymentId

/-- The sum that the server gives is that of the entries. -/
def Summed : Prop :=
  tx.totalSent.getD 0 = (((tx.spentOutputs.getD []).map (·.amount)).sum : Nat)

instance : Decidable (Summed tx) := inferInstanceAs (Decidable (_ = _))

end

/-- The list has the transactions that receive or spend something, the latest first, each with what
the account has spent of it and with what it receives without that. -/
structure Filtered (primitives : Primitives) (service : Service) (viewOnly : Bool)
    (transactions stored : List Transaction) : Prop where
  sorted : stored.Pairwise fun first second => second.id ≤ first.id
  exactly : stored.Perm ((transactions.filter fun tx => Kept primitives service viewOnly tx).map
    (shown primitives service viewOnly))
  sent : viewOnly = false → ∀ tx ∈ stored, Summed tx ∧
    tx.amount = some (tx.totalReceived.getD 0 - tx.totalSent.getD 0)

/-! ### The inner loop -/

section

variable {primitives : Primitives}

theorem examineSpentOutput_cases {service : Service} (correct : CacheCorrect primitives service)
    (sent : Option Int) (output : SpentOutput) :
    (∃ error, ¬ Imaged primitives service output ∧
      examineSpentOutput primitives (service, sent) output = ((service, sent), .error error)) ∨
    (Imaged primitives service output ∧ ∃ keyImages,
      CacheCorrect primitives { service with keyImages := keyImages } ∧
      examineSpentOutput primitives (service, sent) output =
        (({ service with keyImages := keyImages },
            if Own primitives service output then sent else some (sent.getD 0 - output.amount)),
          .ok (if Own primitives service output then some output else none))) := by
  unfold examineSpentOutput
  rcases cachedKeyImage_of_correct correct output.txPubKey output.outIndex with
    ⟨error, made, thrown⟩ | ⟨image, keyImages, made, cached, kept⟩
  · simp only [thrown]
    refine .inl ⟨error, fun ⟨image, imaged⟩ => ?_, rfl⟩
    rw [made] at imaged
    cases imaged
  · simp only [cached]
    have own : Own primitives service output ↔ output.keyImage = image := by
      unfold Own
      rw [made, Except.ok.injEq, eq_comm]
    refine .inr ⟨⟨image, made⟩, keyImages, kept, ?_⟩
    by_cases same : output.keyImage = image
    · rw [if_neg (not_not_intro same), if_pos (own.mpr same), if_pos (own.mpr same)]
    · rw [if_pos same, if_neg (mt own.mp same), if_neg (mt own.mp same)]

/-- `total_sent` when the entries have been gone through. -/
def leftOver (primitives : Primitives) (service : Service) (sent : Option Int)
    (outputs : List SpentOutput) : Option Int :=
  outputs.foldl (fun sent output =>
    if Own primitives service output then sent else some (sent.getD 0 - output.amount)) sent

theorem walk_spentOutputs_of_imaged {service : Service} (correct : CacheCorrect primitives service)
    {outputs : List SpentOutput} (imaged : ∀ output ∈ outputs, Imaged primitives service output)
    (sent : Option Int) (kept : List SpentOutput) :
    ∃ keyImages, CacheCorrect primitives { service with keyImages := keyImages } ∧
      Splicing.walk (examineSpentOutput primitives) (service, sent) kept outputs =
        (({ service with keyImages := keyImages }, leftOver primitives service sent outputs),
          .ok (kept ++ outputs.filter fun output => Own primitives service output)) := by
  induction outputs generalizing service sent kept with
  | nil =>
    refine ⟨service.keyImages, correct, ?_⟩
    rw [Splicing.walk, List.filter_nil, List.append_nil]
    rfl
  | cons output rest inductionHypothesis =>
    obtain ⟨image, others⟩ := List.forall_mem_cons.mp imaged
    rcases examineSpentOutput_cases correct sent output with
      ⟨_, unimaged, _⟩ | ⟨_, keyImages, stays, step⟩
    · exact absurd image unimaged
    · rw [Splicing.walk, step, leftOver, List.foldl_cons]
      by_cases own : Own primitives service output
      · rw [if_pos own, if_pos own, List.filter_cons_of_pos (by simpa using own),
          List.append_cons kept]
        exact @inductionHypothesis { service with keyImages := keyImages } stays others _ _
      · rw [if_neg own, if_neg own, List.filter_cons_of_neg (by simpa using own)]
        exact @inductionHypothesis { service with keyImages := keyImages } stays others _ _

theorem walk_spentOutputs_of_unimaged {service : Service}
    (correct : CacheCorrect primitives service) {outputs : List SpentOutput}
    (unimaged : ∃ output ∈ outputs, ¬ Imaged primitives service output) (sent : Option Int)
    (kept : List SpentOutput) :
    ∃ keyImages left error, CacheCorrect primitives { service with keyImages := keyImages } ∧
      Splicing.walk (examineSpentOutput primitives) (service, sent) kept outputs =
        (({ service with keyImages := keyImages }, left), .error error) := by
  induction outputs generalizing service sent kept with
  | nil =>
    obtain ⟨_, member, _⟩ := unimaged
    cases member
  | cons output rest inductionHypothesis =>
    rcases examineSpentOutput_cases correct sent output with
      ⟨error, _, step⟩ | ⟨image, keyImages, stays, step⟩
    · refine ⟨service.keyImages, sent, error, correct, ?_⟩
      rw [Splicing.walk, step]
    · have later : ∃ output ∈ rest, ¬ Imaged primitives service output := by
        obtain ⟨stuck, member, without⟩ := unimaged
        refine ⟨stuck, (List.mem_cons.mp member).resolve_left fun same => ?_, without⟩
        exact without (same ▸ image)
      rw [Splicing.walk, step]
      by_cases own : Own primitives service output
      · rw [if_pos own, if_pos own]
        exact @inductionHypothesis { service with keyImages := keyImages } stays later _ _
      · rw [if_neg own, if_neg own]
        exact @inductionHypothesis { service with keyImages := keyImages } stays later _ _

/-- What is left is the sum without the other entries; where there are none, nothing is written. -/
theorem leftOver_eq (service : Service) (sent : Option Int) (outputs : List SpentOutput) :
    leftOver primitives service sent outputs =
      if ∀ output ∈ outputs, Own primitives service output then sent
      else some (sent.getD 0 - (outputs.map (foreign primitives service)).sum) := by
  induction outputs generalizing sent with
  | nil =>
    rw [if_pos fun _ member => by cases member]
    rfl
  | cons output rest inductionHypothesis =>
    rw [leftOver, List.foldl_cons]
    refine (inductionHypothesis _).trans ?_
    rw [List.map_cons, List.sum_cons]
    by_cases own : Own primitives service output
    · rw [if_pos own, foreign, if_pos own, Int.zero_add]
      exact if_congr (List.forall_mem_cons.trans (and_iff_right own)).symm rfl rfl
    · have broken : ¬ ∀ other ∈ output :: rest, Own primitives service other :=
        fun every => own (every output List.mem_cons_self)
      rw [if_neg own, foreign, if_neg own, if_neg broken]
      by_cases others : ∀ output ∈ rest, Own primitives service output
      · have nothing : (rest.map (foreign primitives service)).sum = 0 :=
          List.sum_eq_zero fun value member => by
            obtain ⟨other, present, rfl⟩ := List.mem_map.mp member
            exact if_pos (others other present)
        rw [if_pos others, nothing, Int.add_zero]
      · rw [if_neg others, Option.getD_some, Int.sub_sub]

/-- With the sum that the server gives, what is left is the sum of what the account has spent. -/
theorem leftOver_of_summed {service : Service} {tx : Transaction} (summed : Summed tx) :
    leftOver primitives service tx.totalSent (tx.spentOutputs.getD []) =
      (ownPart primitives service tx).totalSent := by
  rw [leftOver_eq, summed, sum_foreign, Int.sub_sub_self]
  rfl

/-! ### The outer loop -/

theorem getD_totalSent_ownPart {service : Service} {tx : Transaction} (summed : Summed tx) :
    (ownPart primitives service tx).totalSent.getD 0 = ownSent primitives service tx := by
  unfold ownPart
  by_cases every : ∀ output ∈ tx.spentOutputs.getD [], Own primitives service output
  · have all : ownOutputs primitives service tx = tx.spentOutputs.getD [] :=
      List.filter_eq_self.mpr fun output member => decide_eq_true (every output member)
    show (if _ then _ else _ : Option Int).getD 0 = _
    rw [if_pos every, summed, ownSent, all]
  · show (if _ then _ else _ : Option Int).getD 0 = _
    rw [if_neg every, Option.getD_some]

theorem getD_spentOutputs_ownPart (service : Service) (tx : Transaction) :
    (ownPart primitives service tx).spentOutputs.getD [] = ownOutputs primitives service tx := by
  unfold ownPart ownOutputs
  cases tx.spentOutputs with
  | none => rfl
  | some outputs => rfl

theorem spentOutputs_ownPart (service : Service) {tx : Transaction}
    (nonempty : 0 < (tx.spentOutputs.getD []).length) :
    (ownPart primitives service tx).spentOutputs = some (ownOutputs primitives service tx) := by
  unfold ownPart ownOutputs
  cases present : tx.spentOutputs with
  | none =>
    rw [present] at nonempty
    cases nonempty
  | some outputs => rfl

theorem ownPart_of_nil {service : Service} {tx : Transaction}
    (nothing : tx.spentOutputs.getD [] = []) : ownPart primitives service tx = tx := by
  have total : (if ∀ output ∈ tx.spentOutputs.getD [], Own primitives service output then
      tx.totalSent else some (ownSent primitives service tx)) = tx.totalSent :=
    if_pos fun output member => by
      rw [nothing] at member
      cases member
  have outputs : (tx.spentOutputs.map fun outputs =>
      outputs.filter fun output => Own primitives service output) = tx.spentOutputs := by
    cases present : tx.spentOutputs with
    | none => rfl
    | some outputs =>
      rw [present, Option.getD_some] at nothing
      rw [nothing]
      rfl
  unfold ownPart
  rw [total, outputs]

/-- With the amounts that are counted, the end of the loop deletes what is not to be shown. -/
theorem withAmount_eq {service : Service} {viewOnly : Bool} {tx : Transaction}
    {paymentId : JsString} (summed : Summed tx)
    (read : readPaymentId primitives service tx = .ok paymentId) :
    withAmount viewOnly { (if viewOnly = false then ownPart primitives service tx else tx) with
        paymentId := paymentId } =
      if Kept primitives service viewOnly tx then some (shown primitives service viewOnly tx)
      else none := by
  unfold withAmount Kept shown countedSent
  rw [read]
  cases viewOnly with
  | true =>
    simp only [Bool.true_eq_false, if_false, Int.add_zero, Int.sub_zero]
    by_cases positive : 0 < tx.totalReceived.getD 0
    · rw [if_neg (Int.not_le.mpr positive), if_pos positive]
      rfl
    · rw [if_pos (Int.not_lt.mp positive), if_neg positive]
  | false =>
    have received : (ownPart primitives service tx).totalReceived = tx.totalReceived := rfl
    simp only [if_true, getD_totalSent_ownPart summed, received]
    by_cases positive : 0 < tx.totalReceived.getD 0 + ownSent primitives service tx
    · rw [if_neg (Int.not_le.mpr positive), if_pos positive]
      rfl
    · rw [if_pos (Int.not_lt.mp positive), if_neg positive]

/-- Going through the entries leaves what the account has spent. -/
theorem filtered_of_imaged {service : Service} (correct : CacheCorrect primitives service)
    {viewOnly : Bool} {tx : Transaction} (summed : Summed tx)
    (imaged : viewOnly = false → ∀ output ∈ tx.spentOutputs.getD [],
      Imaged primitives service output) :
    ∃ keyImages, CacheCorrect primitives { service with keyImages := keyImages } ∧
      (if 0 < (tx.spentOutputs.getD []).length ∧ viewOnly = false then
          filterSpentOutputs primitives service tx else (service, .ok tx)) =
        ({ service with keyImages := keyImages },
          .ok (if viewOnly = false then ownPart primitives service tx else tx)) := by
  by_cases spend : viewOnly = false
  · by_cases nonempty : 0 < (tx.spentOutputs.getD []).length
    · obtain ⟨keyImages, stays, walked⟩ :=
        walk_spentOutputs_of_imaged correct (imaged spend) tx.totalSent []
      refine ⟨keyImages, stays, ?_⟩
      rw [if_pos ⟨nonempty, spend⟩, if_pos spend]
      unfold filterSpentOutputs
      rw [Splicing.loop_eq_walk, walked, List.nil_append, leftOver_of_summed summed]
      show (_, Except.ok
        { tx with
          totalSent := (ownPart primitives service tx).totalSent
          spentOutputs := some (ownOutputs primitives service tx) }) = _
      rw [← spentOutputs_ownPart service nonempty]
      rfl
    · refine ⟨service.keyImages, correct, ?_⟩
      rw [if_neg fun both => nonempty both.1, if_pos spend,
        ownPart_of_nil (List.eq_nil_of_length_eq_zero (Nat.eq_zero_of_not_pos nonempty))]
  · exact ⟨service.keyImages, correct, by rw [if_neg fun both => spend both.2, if_neg spend]⟩

theorem filtered_of_unimaged {service : Service} (correct : CacheCorrect primitives service)
    {viewOnly : Bool} (spend : viewOnly = false) {tx : Transaction}
    (unimaged : ∃ output ∈ tx.spentOutputs.getD [], ¬ Imaged primitives service output) :
    ∃ keyImages error, CacheCorrect primitives { service with keyImages := keyImages } ∧
      (if 0 < (tx.spentOutputs.getD []).length ∧ viewOnly = false then
          filterSpentOutputs primitives service tx else (service, .ok tx)) =
        ({ service with keyImages := keyImages }, .error error) := by
  have nonempty : 0 < (tx.spentOutputs.getD []).length := by
    obtain ⟨_, member, _⟩ := unimaged
    exact List.length_pos_of_mem member
  obtain ⟨keyImages, left, error, stays, walked⟩ :=
    walk_spentOutputs_of_unimaged correct unimaged tx.totalSent []
  refine ⟨keyImages, error, stays, ?_⟩
  rw [if_pos ⟨nonempty, spend⟩]
  unfold filterSpentOutputs
  rw [Splicing.loop_eq_walk, walked]

theorem examineTransaction_of_readable {service : Service}
    (correct : CacheCorrect primitives service) {viewOnly : Bool} {tx : Transaction}
    (summed : Summed tx) (readable : Readable primitives service viewOnly tx) :
    ∃ keyImages, CacheCorrect primitives { service with keyImages := keyImages } ∧
      examineTransaction primitives viewOnly service tx =
        ({ service with keyImages := keyImages },
          .ok (if Kept primitives service viewOnly tx then
            some (shown primitives service viewOnly tx) else none)) := by
  obtain ⟨imaged, paymentId, read⟩ := readable
  obtain ⟨keyImages, stays, filtered⟩ := filtered_of_imaged correct summed imaged
  refine ⟨keyImages, stays, ?_⟩
  have same : readPaymentId primitives { service with keyImages := keyImages }
      (if viewOnly = false then ownPart primitives service tx else tx) = .ok paymentId := by
    rw [← read]
    cases viewOnly <;> rfl
  unfold examineTransaction
  simp only [filtered, same]
  refine congrArg (Prod.mk _) (congrArg Except.ok ?_)
  exact withAmount_eq summed read

theorem examineTransaction_of_unreadable {service : Service}
    (correct : CacheCorrect primitives service) {viewOnly : Bool} {tx : Transaction}
    (summed : Summed tx) (unreadable : ¬ Readable primitives service viewOnly tx) :
    ∃ keyImages error, CacheCorrect primitives { service with keyImages := keyImages } ∧
      examineTransaction primitives viewOnly service tx =
        ({ service with keyImages := keyImages }, .error error) := by
  by_cases imaged : viewOnly = false → ∀ output ∈ tx.spentOutputs.getD [],
      Imaged primitives service output
  · obtain ⟨keyImages, stays, filtered⟩ := filtered_of_imaged correct summed imaged
    have same : readPaymentId primitives { service with keyImages := keyImages }
        (if viewOnly = false then ownPart primitives service tx else tx) =
          readPaymentId primitives service tx := by
      cases viewOnly <;> rfl
    unfold examineTransaction
    simp only [filtered, same]
    cases read : readPaymentId primitives service tx with
    | ok paymentId => exact absurd ⟨imaged, paymentId, read⟩ unreadable
    | error error => exact ⟨keyImages, error, stays, rfl⟩
  · obtain ⟨spend, unimaged⟩ : viewOnly = false ∧
        ∃ output ∈ tx.spentOutputs.getD [], ¬ Imaged primitives service output := by
      simpa only [not_forall, exists_prop] using imaged
    obtain ⟨keyImages, error, stays, filtered⟩ := filtered_of_unimaged correct spend unimaged
    refine ⟨keyImages, error, stays, ?_⟩
    unfold examineTransaction
    simp only [filtered]

theorem walk_transactions_of_readable {service : Service}
    (correct : CacheCorrect primitives service) {viewOnly : Bool} {transactions : List Transaction}
    (summed : ∀ tx ∈ transactions, Summed tx)
    (readable : ∀ tx ∈ transactions, Readable primitives service viewOnly tx)
    (kept : List Transaction) :
    ∃ keyImages, CacheCorrect primitives { service with keyImages := keyImages } ∧
      Splicing.walk (examineTransaction primitives viewOnly) service kept transactions =
        ({ service with keyImages := keyImages },
          .ok (kept ++ (transactions.filter fun tx => Kept primitives service viewOnly tx).map
            (shown primitives service viewOnly))) := by
  induction transactions generalizing service kept with
  | nil => exact ⟨service.keyImages, correct, by rw [Splicing.walk]; simp⟩
  | cons tx rest inductionHypothesis =>
    obtain ⟨sum, sums⟩ := List.forall_mem_cons.mp summed
    obtain ⟨reads, others⟩ := List.forall_mem_cons.mp readable
    obtain ⟨keyImages, stays, step⟩ := examineTransaction_of_readable correct sum reads
    rw [Splicing.walk, step]
    by_cases keeps : Kept primitives service viewOnly tx
    · rw [if_pos keeps, List.filter_cons_of_pos (by simpa using keeps), List.map_cons,
        List.append_cons kept]
      exact @inductionHypothesis { service with keyImages := keyImages } stays sums others _
    · rw [if_neg keeps, List.filter_cons_of_neg (by simpa using keeps)]
      exact @inductionHypothesis { service with keyImages := keyImages } stays sums others _

theorem walk_transactions_of_unreadable {service : Service}
    (correct : CacheCorrect primitives service) {viewOnly : Bool} {transactions : List Transaction}
    (summed : ∀ tx ∈ transactions, Summed tx)
    (unreadable : ∃ tx ∈ transactions, ¬ Readable primitives service viewOnly tx)
    (kept : List Transaction) :
    ∃ after error,
      Splicing.walk (examineTransaction primitives viewOnly) service kept transactions =
        (after, .error error) := by
  induction transactions generalizing service kept with
  | nil =>
    obtain ⟨_, member, _⟩ := unreadable
    cases member
  | cons tx rest inductionHypothesis =>
    obtain ⟨sum, sums⟩ := List.forall_mem_cons.mp summed
    by_cases reads : Readable primitives service viewOnly tx
    · have later : ∃ tx ∈ rest, ¬ Readable primitives service viewOnly tx := by
        obtain ⟨stuck, member, without⟩ := unreadable
        refine ⟨stuck, (List.mem_cons.mp member).resolve_left fun same => ?_, without⟩
        exact without (same ▸ reads)
      obtain ⟨keyImages, stays, step⟩ := examineTransaction_of_readable correct sum reads
      rw [Splicing.walk, step]
      by_cases keeps : Kept primitives service viewOnly tx
      · rw [if_pos keeps]
        exact @inductionHypothesis { service with keyImages := keyImages } stays sums later _
      · rw [if_neg keeps]
        exact @inductionHypothesis { service with keyImages := keyImages } stays sums later _
    · obtain ⟨keyImages, error, _, step⟩ := examineTransaction_of_unreadable correct sum reads
      exact ⟨_, error, by rw [Splicing.walk, step]⟩

/-! ### The list -/

theorem summed_shown {service : Service} {tx : Transaction} (summed : Summed tx) :
    Summed (shown primitives service false tx) ∧
      (shown primitives service false tx).amount =
        some ((shown primitives service false tx).totalReceived.getD 0 -
          (shown primitives service false tx).totalSent.getD 0) := by
  have total := @getD_totalSent_ownPart primitives service tx summed
  refine ⟨?_, ?_⟩
  · show (ownPart primitives service tx).totalSent.getD 0 =
      ((((ownPart primitives service tx).spentOutputs.getD []).map (·.amount)).sum : Nat)
    rw [total, getD_spentOutputs_ownPart]
    rfl
  · show some (tx.totalReceived.getD 0 - ownSent primitives service tx) =
      some (tx.totalReceived.getD 0 - (ownPart primitives service tx).totalSent.getD 0)
    rw [total]

theorem filtered_sortById {service : Service} {viewOnly : Bool} {transactions : List Transaction}
    (summed : ∀ tx ∈ transactions, Summed tx) :
    Filtered primitives service viewOnly transactions
      (sortById ((transactions.filter fun tx => Kept primitives service viewOnly tx).map
        (shown primitives service viewOnly))) := by
  have sorted := List.mergeSort_perm ((transactions.filter fun tx =>
    Kept primitives service viewOnly tx).map (shown primitives service viewOnly))
    fun first second => decide (second.id ≤ first.id)
  refine ⟨?_, sorted, fun spend tx member => ?_⟩
  · refine (List.pairwise_mergeSort ?_ ?_ _).imp of_decide_eq_true
    · intro first second third before after
      rw [decide_eq_true_iff] at before after ⊢
      exact Nat.le_trans after before
    · intro first second
      rw [← Bool.decide_or, decide_eq_true_iff]
      exact Nat.le_total _ _
  · obtain ⟨before, present, rfl⟩ := List.mem_map.mp (sorted.mem_iff.mp member)
    rw [spend]
    exact summed_shown (summed before (List.mem_filter.mp present).1)

/-- Every entry is examined, once and in order. -/
theorem examined_spentOutputs {service : Service} (correct : CacheCorrect primitives service)
    {outputs : List SpentOutput} (imaged : ∀ output ∈ outputs, Imaged primitives service output)
    (sent : Option Int) :
    Splicing.examined (examineSpentOutput primitives) (service, sent) outputs = outputs := by
  obtain ⟨keyImages, _, walked⟩ := walk_spentOutputs_of_imaged correct imaged sent []
  exact Splicing.examined_of_ok _ ((Splicing.loop_eq_walk _ _ _).trans walked)

/-- An exception ends the callback, and the page keeps the transactions that it has. -/
theorem fetchTransactions_of_unreadable {service : Service}
    (correct : CacheCorrect primitives service) {viewOnly : Bool} (scope : Scope) {data : Data}
    (summed : ∀ tx ∈ data.transactions.getD [], Summed tx)
    (unreadable : ∃ tx ∈ data.transactions.getD [], ¬ Readable primitives service viewOnly tx) :
    (∃ error,
      (fetchTransactions primitives viewOnly service scope (.ok data)).thrown = some error) ∧
    (fetchTransactions primitives viewOnly service scope (.ok data)).scope.transactions =
      scope.transactions := by
  obtain ⟨after, error, walked⟩ := walk_transactions_of_unreadable correct summed unreadable []
  have looped := (Splicing.loop_eq_walk _ _ _).trans walked
  unfold fetchTransactions
  simp only [looped]
  exact ⟨⟨error, rfl⟩, trivial⟩

end

section

variable (nettype : Nat) (primitives : Primitives)

/-- Where every image that is asked for can be made and every payment identifier can be read, the
page has the transactions that receive or spend something, the latest first, with what the account
has spent of them, and every transaction and every entry has been examined once. Where one cannot,
an exception ends the callback, and the page keeps the transactions that it has. -/
theorem fetchTransactions_filters (events : List Event) (viewOnly : Bool) (scope : Scope)
    (data : Data) (summed : ∀ tx ∈ data.transactions.getD [], Summed tx) :
    let service := serviceAfter nettype primitives events
    let transactions := data.transactions.getD []
    let fetched := fetchTransactions primitives viewOnly service scope (.ok data)
    (fetched.thrown = none ∧
      Filtered primitives service viewOnly transactions fetched.scope.transactions ∧
      Splicing.examined (examineTransaction primitives viewOnly) service transactions =
        transactions ∧
      (viewOnly = false → ∀ tx ∈ transactions, ∀ keyImages,
        CacheCorrect primitives { service with keyImages := keyImages } →
        Splicing.examined (examineSpentOutput primitives)
          ({ service with keyImages := keyImages }, tx.totalSent) (tx.spentOutputs.getD []) =
            tx.spentOutputs.getD []) ↔
      ∀ tx ∈ transactions, Readable primitives service viewOnly tx) ∧
    ((∃ tx ∈ transactions, ¬ Readable primitives service viewOnly tx) →
      (∃ error, fetched.thrown = some error) ∧
      fetched.scope.transactions = scope.transactions) := by
  intro service transactions fetched
  have correct : CacheCorrect primitives service := cacheCorrect_run events
  have thrown := @fetchTransactions_of_unreadable primitives service correct viewOnly scope data
    summed
  refine ⟨⟨fun stored => ?_, fun readable => ?_⟩, thrown⟩
  · by_contra unreadable
    push Not at unreadable
    obtain ⟨error, same⟩ := (thrown unreadable).1
    exact absurd (same.symm.trans stored.1) (by simp)
  obtain ⟨keyImages, _, walked⟩ := walk_transactions_of_readable correct summed readable []
  have looped := (Splicing.loop_eq_walk _ _ _).trans walked
  refine ⟨?_, ?_, Splicing.examined_of_ok _ looped, fun spend tx member keyImages stays => ?_⟩
  · show (fetchTransactions primitives viewOnly service scope (.ok data)).thrown = none
    unfold fetchTransactions
    simp only [looped]
  · show Filtered _ _ _ _
      (fetchTransactions primitives viewOnly service scope (.ok data)).scope.transactions
    unfold fetchTransactions
    simp only [looped]
    exact filtered_sortById summed
  · exact examined_spentOutputs stays ((readable tx member).1 spend) _

end

/-- Credentials with a spend key of zeros. -/
def spendCredentials : Credentials :=
  { viewCredentials with spendKey := some (List.replicate 64 48) }

/-- A transaction that only receives. -/
def payment : Transaction := { id := 1, totalReceived := some 5 }

/-- A transaction with the images of two entries, the first of which is the one that the zeros
give. -/
def twoImages : Transaction where
  id := 2
  totalReceived := some 1
  totalSent := some 12
  spentOutputs := some [⟨5, List.replicate 64 48, List.replicate 64 48, 0⟩,
    ⟨7, List.replicate 64 49, List.replicate 64 48, 1⟩]

theorem fetchTransactions_filters_spend :
    let service := serviceAfter 0 zeros
      [.login spendCredentials]
    let fetched := fetchTransactions zeros false service {}
      (.ok { transactions := some [payment, twoImages] })
    fetched.thrown = none ∧
      Filtered zeros service false [payment, twoImages] fetched.scope.transactions := by
  have imaged : ∀ output ∈ twoImages.spentOutputs.getD [],
      ownKeyImage zeros (serviceAfter 0 zeros
        [.login spendCredentials])
        output.txPubKey output.outIndex = .ok (List.replicate 64 48) := by
    decide +kernel
  have filters := (fetchTransactions_filters 0 zeros
    [.login spendCredentials] false {}
    { transactions := some [payment, twoImages] } (by decide)).1.mpr (List.forall_mem_cons.mpr
      ⟨⟨fun _ _ member => (List.not_mem_nil member).elim, _, rfl⟩, List.forall_mem_singleton.mpr
        ⟨fun _ output member => ⟨_, imaged output member⟩, _, rfl⟩⟩)
  exact ⟨filters.1, filters.2.1⟩

/-- Libraries that give zeros, except where the bytes are those of no point: none has two as its
coordinate. -/
def zerosOfPoints : Primitives :=
  { zeros with
    geScalarmult := fun point scalar =>
      if point = 2 :: List.replicate 31 0 then throw "non-0 error on point decode"
      else zeros.geScalarmult point scalar }

/-- A transaction of someone else that names an output of the account among those it may spend,
with an encrypted payment identifier and a public key that is no point. -/
def noPoint : Transaction where
  id := 2
  txPubKey := some ([48, 50] ++ List.replicate 62 48)
  paymentId := List.replicate 16 48
  totalReceived := some 0
  totalSent := some 7
  spentOutputs := some [⟨7, List.replicate 64 49, List.replicate 64 48, 1⟩]

/-- The exception at one transaction keeps another one from the page. -/
theorem not_fetchTransactions_filters :
    ¬ ∀ primitives events viewOnly scope data,
      (∀ tx ∈ data.transactions.getD [], Summed tx) →
        Filtered primitives (serviceAfter 0 primitives events) viewOnly
          (data.transactions.getD [])
          (fetchTransactions primitives viewOnly (serviceAfter 0 primitives events) scope
            (.ok data)).scope.transactions := by
  intro filters
  have listed := (filters zerosOfPoints [.login spendCredentials] false {}
    { transactions := some [payment, noPoint] } (by decide)).exactly
  have unreadable : ¬ Readable zerosOfPoints
      (serviceAfter 0 zerosOfPoints [.login spendCredentials]) false noPoint := by
    rintro ⟨_, paymentId, read⟩
    have thrown : readPaymentId zerosOfPoints
        (serviceAfter 0 zerosOfPoints [.login spendCredentials]) noPoint =
          .error "non-0 error on point decode" := by
      decide +kernel
    rw [thrown] at read
    cases read
  have kept := (@fetchTransactions_of_unreadable zerosOfPoints
    (serviceAfter 0 zerosOfPoints [.login spendCredentials]) (cacheCorrect_run _) false {}
    { transactions := some [payment, noPoint] } (by decide)
    ⟨noPoint, List.mem_cons_of_mem _ List.mem_cons_self, unreadable⟩).2
  rw [kept] at listed
  have nothing := List.filter_eq_nil_iff.mp (List.map_eq_nil_iff.mp listed.nil_eq.symm)
  exact nothing payment List.mem_cons_self (by decide)

end TransactionList

end LightWallet.Frontend
