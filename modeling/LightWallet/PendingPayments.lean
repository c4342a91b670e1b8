/-
This file settles whether the replies about a pending payment agree.

The call that records the payment of an import replies with what it has just made up, later calls
with what they read back. The address and the fee are the same either way. The payment id is not:
the first reply gives the id of the new row in the table of payments, later ones the payment id
that the row holds.
-/

import LightWallet.History

namespace LightWallet.PendingPayments

open Payments (Call facing step)

/-! ### Replies -/

/-- What a call answers in a world. -/
def answer (world : World) (call : Call) : Answer :=
  (importWalletRequest call.backend call.body (facing world call)).1

/-- The call is about the account under the address. -/
def AsksFor (address : String) (call : Call) : Prop :=
  ∃ request viewKey, parseRequest call.body ["address", "view_key"] .null = .ok request ∧
    readCredentials call.backend request = .ok (address, viewKey)

/-- The response of a call that has succeeded. -/
def SucceedsWith (world : World) (call : Call) (response : Json) : Prop :=
  answer world call = .closed codeOk response

/-- The account with this id is stored under the address. -/
def owns (address : String) (db : Database) (accountId : Nat) : Bool :=
  db.accounts.any fun row => row.id = accountId ∧ row.address = address

/-- The payments recorded for the account under the address. -/
def recorded (address : String) (db : Database) : List XmrPayment :=
  db.payments.filter fun payment => owns address db payment.accountId

section Replies

variable (integratedAddress : String → String) (address : String)

/-- The response reports the payment id, its integrated address, and the fee. -/
def Reports (paymentId : String) (importFee : Nat) (response : Json) : Prop :=
  response.get? "payment_id" = some (.str paymentId) ∧
    response.get? "payment_address" = some (.str (integratedAddress paymentId)) ∧
    response.get? "import_fee" = some (.ofText importFee)

/-- If the call is about the account and succeeds, its response reports this. -/
def ReportsIfAsked (paymentId : String) (importFee : Nat) (world : World) (call : Call) : Prop :=
  AsksFor address call → ∀ response, SucceedsWith world call response →
    Reports integratedAddress paymentId importFee response

/-- All successful replies about the account report one payment id, with its integrated address,
and one fee. -/
def Stable (start : World) (calls : List Call) : Prop :=
  ∃ paymentId importFee,
    Runs.Along step (ReportsIfAsked integratedAddress address paymentId importFee) start calls

/-- A call about the account that succeeds finds its payment in the table. -/
def FindsRecord (world : World) (call : Call) : Prop :=
  AsksFor address call → ∀ response, SucceedsWith world call response →
    recorded address world.db ≠ []

/-- The payment of the account has not been found: its record is not fulfilled, and the search does
not find it. Importing costs something, and the integrated addresses do not change. -/
structure NotFound (world : World) (call : Call) : Prop where
  fee : call.backend.importFee ≠ 0
  sameAddress : call.backend.integratedAddress = integratedAddress
  unpaid : ∀ payment ∈ recorded address world.db, payment.requestFulfilled = false ∧
    searchIfPaymentMade call.backend payment.paymentId payment.importFee = none

end Replies

/-- The tables keep their schema, in which an account has no more than one payment. -/
structure Holds (address : String) (db : Database) : Prop where
  valid : db.Valid
  atMostOne : (recorded address db).length ≤ 1

/-! ### Whose payments they are -/

section Owners

variable {address other : String} {db : Database} {acc : XmrAccount}

theorem owns_iff {accountId : Nat} :
    owns address db accountId = true ↔
      ∃ row ∈ db.accounts, row.id = accountId ∧ row.address = address := by
  simp [owns]

theorem owns_of_finds (valid : db.Valid) (finds : Finds address acc db) (accountId : Nat) :
    owns address db accountId = decide (accountId = acc.id) := by
  obtain ⟨-, row, member, id, named⟩ := finds
  rw [Bool.eq_iff_iff, owns_iff, decide_eq_true_iff]
  constructor
  · rintro ⟨same, inRows, rfl, sameAddress⟩
    rw [← id, valid.accountAddresses.eq_of_key inRows member (sameAddress.trans named.symm)]
  · rintro rfl
    exact ⟨row, member, id, named⟩

theorem not_owns_of_finds (valid : db.Valid) (finds : Finds other acc db)
    (differs : other ≠ address) : owns address db acc.id = false := by
  obtain ⟨-, row, member, id, named⟩ := finds
  refine eq_false_of_ne_true fun owned => ?_
  obtain ⟨same, inRows, sameId, sameAddress⟩ := owns_iff.mp owned
  obtain rfl := valid.accountIds.eq_of_key inRows member (sameId.trans id.symm)
  exact differs (named.symm.trans sameAddress)

/-- The payments of the account are those that its row selects. -/
theorem recorded_of_finds (valid : db.Valid) (finds : Finds address acc db) :
    recorded address db = db.selectPayments acc.id :=
  List.filter_congr fun payment _ => owns_of_finds valid finds payment.accountId

/-- An account that is created has no payments yet. -/
theorem recorded_of_mayInsert {world mid : World} (valid : world.db.Valid)
    (inserts : MayInsert world mid) : recorded address mid.db = recorded address world.db := by
  obtain ⟨-, same | ⟨row, id, inserted⟩⟩ := inserts
  · rw [same]
  · obtain ⟨-, -, after⟩ := Database.insertAccount_eq inserted
    unfold recorded owns
    rw [after]
    refine List.filter_congr fun payment member => ?_
    obtain ⟨account, inRows, id⟩ :=
      (Database.hasAccount_iff _ _).mp (valid.paymentAccount payment member)
    have old : world.db.nextAccount ≠ payment.accountId := by
      rw [← id]
      exact (Nat.ne_of_lt (valid.accountFresh account inRows)).symm
    rw [List.any_append, List.any_cons, List.any_nil]
    simp [old]

/-- A payment is inserted only where the account has none. -/
theorem recorded_insertPayment (valid : db.Valid) (finds : Finds address acc db)
    {row : XmrPayment} (ours : row.accountId = acc.id) {id : Nat} {after : Database}
    (inserted : db.insertPayment row = some (id, after)) :
    recorded address db = [] ∧ recorded address after = [{ row with id := db.nextPayment }] := by
  have fresh : recorded address db = [] := by
    unfold Database.insertPayment at inserted
    split at inserted
    · next accepts =>
      refine List.filter_eq_nil_iff.mpr fun payment member owned => ?_
      have different := List.all_eq_true.mp (Bool.and_eq_true_iff.mp accepts).2 payment member
      rw [owns_of_finds valid finds, decide_eq_true_iff, ← ours] at owned
      exact (of_decide_eq_true different).1 owned
    · cases inserted
  obtain ⟨-, -, rfl⟩ := Database.insertPayment_eq inserted
  refine ⟨fresh, ?_⟩
  show (db.payments ++ [_]).filter
    (fun payment : XmrPayment => owns address db payment.accountId) = _
  have owned : owns address db row.accountId = true := by
    rw [owns_of_finds valid finds, ours]
    exact decide_eq_true rfl
  rw [List.filter_append, show db.payments.filter _ = [] from fresh, List.nil_append,
    List.filter_singleton]
  simp [owned]

/-- A payment of another account is none of this one. -/
theorem recorded_insertPayment_other (valid : db.Valid) (finds : Finds other acc db)
    (differs : other ≠ address) {row : XmrPayment} (theirs : row.accountId = acc.id) {id : Nat}
    {after : Database} (inserted : db.insertPayment row = some (id, after)) :
    recorded address after = recorded address db := by
  have unowned : owns address db row.accountId = false := by
    rw [theirs]
    exact not_owns_of_finds valid finds differs
  obtain ⟨-, -, rfl⟩ := Database.insertPayment_eq inserted
  show (db.payments ++ [_]).filter
    (fun payment : XmrPayment => owns address db payment.accountId) = _
  rw [List.filter_append, List.filter_singleton]
  simp [unowned, recorded]

/-- The reset of an account's row leaves its id and its address. -/
theorem owns_updateAccount (valid : db.Valid) (finds : Finds other acc db) :
    owns address (db.updateAccount acc (fromGenesis acc)).2 = owns address db := by
  obtain ⟨named, row, member, id, stored⟩ := finds
  funext accountId
  show (db.accounts.map _).any _ = db.accounts.any _
  rw [List.any_map, Bool.eq_iff_iff, List.any_eq_true, List.any_eq_true]
  refine exists_congr fun old => and_congr_right fun inRows => ?_
  by_cases here : old.id = acc.id
  · obtain rfl := valid.accountIds.eq_of_key inRows member (here.trans id.symm)
    simp [here, stored, ← named, fromGenesis]
  · simp [here]

theorem recorded_updateAccount (valid : db.Valid) (finds : Finds other acc db) :
    recorded address (db.updateAccount acc (fromGenesis acc)).2 = recorded address db := by
  unfold recorded
  rw [owns_updateAccount valid finds]
  rfl

/-- Marking a payment keeps the payments of other accounts. -/
theorem recorded_updatePayment (valid : db.Valid) {payment : XmrPayment}
    (member : payment ∈ db.payments) (unowned : owns address db payment.accountId = false)
    (txHash : String) :
    recorded address (db.updatePayment payment
      { payment with requestFulfilled := true, txHash }).2 = recorded address db := by
  show (db.payments.map fun row => if row.id = payment.id then
    { payment with requestFulfilled := true, txHash } else row).filter
      (fun row => owns address db row.accountId) = _
  rw [List.filter_map]
  have sameOwner : db.payments.filter ((fun row => owns address db row.accountId) ∘ fun row =>
      if row.id = payment.id then { payment with requestFulfilled := true, txHash } else row) =
        recorded address db := by
    refine List.filter_congr fun row inRows => ?_
    by_cases here : row.id = payment.id
    · simp [valid.paymentIds.eq_of_key inRows member here]
    · simp [here]
  rw [sameOwner]
  refine (List.map_congr_left fun row inRecorded => if_neg fun here => ?_).trans (List.map_id _)
  obtain ⟨inRows, owned⟩ := List.mem_filter.mp inRecorded
  rw [valid.paymentIds.eq_of_key inRows member here, unowned] at owned
  cases owned

end Owners

/-! ### The payments after a call -/

section Payments

variable {address asked : String} {acc : XmrAccount}

theorem applyImport_db (original updated : XmrAccount) (rowFailed positionFailed : String)
    (response success : Json) (world : World) :
    (applyImport asked original updated rowFailed positionFailed response success world).2.db =
        world.db ∨
      (applyImport asked original updated rowFailed positionFailed response success world).2.db =
        (world.db.updateAccount original updated).2 := by
  unfold applyImport
  rw [Handler.bind_apply]
  by_cases throws : world.throws = true
  · rw [updateAccount_throws _ _ throws]
    exact .inl rfl
  · rw [updateAccount_runs _ _ throws]
    right
    dsimp only
    split
    · have reads : History.Reads (do
          if ← setNewSearchedBlkNo asked updated.scannedBlockHeight then
            if ← updateAcc asked updated then pure (sessionClose success)
            else pure (sessionCloseError response "updating acc in search thread failed!")
          else pure (sessionCloseError response positionFailed)) :=
        .bind (History.setNewSearchedBlkNo_reads _ _) fun moved =>
          .ite (.bind (.withThread _ _ _) fun copied => .ite (.pure _) (.pure _)) (.pure _)
      exact reads _
    · rfl

/-- A payment that another account has made leaves the payments of this one. -/
theorem receivePayment_recorded {payment : XmrPayment} {due : World} (valid : due.db.Valid)
    (finds : Finds asked acc due.db) (differs : asked ≠ address)
    (member : payment ∈ due.db.payments) (ours : payment.accountId = acc.id) (txHash : String)
    (response : Json) :
    recorded address (receivePayment asked acc payment txHash response due).2.db =
      recorded address due.db := by
  have unowned : owns address due.db payment.accountId = false := by
    rw [ours]
    exact not_owns_of_finds valid finds differs
  unfold receivePayment
  rw [Handler.bind_apply]
  by_cases throws : due.throws = true
  · rw [Payments.updatePayment_throws _ _ throws]
    rfl
  · rw [Payments.updatePayment_runs _ _ throws]
    have marks := recorded_updatePayment valid member unowned txHash
    dsimp only
    split
    · rcases applyImport_db acc (fromGenesis acc) _ _ response _ _ with kept | reset
      · rw [kept]
        exact marks
      · rw [reset]
        have validMarked : (due.db.updatePayment payment
            { payment with requestFulfilled := true, txHash }).2.Valid :=
          valid.updatePayment member rfl rfl
        exact (recorded_updateAccount validMarked finds).trans marks
    · exact marks

/-- What an import answers, and which payment it records, while the payment is pending. -/
theorem paidImport_pending (backend : Backend) {mid : World} (valid : mid.db.Valid)
    (finds : Finds asked acc mid.db) (start : Json)
    (unpaid : ∀ payment ∈ recorded asked mid.db, payment.requestFulfilled = false ∧
      searchIfPaymentMade backend payment.paymentId payment.importFee = none) :
    ((paidImport backend asked acc start mid).2.db = mid.db ∧
        ∀ response, (paidImport backend asked acc start mid).1 ≠ .closed codeOk response) ∨
      (∃ id response, mid.db.insertPayment (newPayment backend acc) =
          some (id, (paidImport backend asked acc start mid).2.db) ∧
        (paidImport backend asked acc start mid).1 = .closed codeOk response ∧
        response.get? "payment_id" = some (.ofNat id)) ∨
      ∃ payment, recorded asked mid.db = [payment] ∧
        (paidImport backend asked acc start mid).2.db = mid.db ∧
        (paidImport backend asked acc start mid).1 =
          .closed codeOk (awaitingPayment backend payment start) := by
  have failed (response : Json) (message : String) :
      ∀ other, sessionCloseError response message ≠ .closed codeOk other := fun other same =>
    absurd (Answer.closed.inj same).1 (by decide)
  have kept := (Payments.selectPayment_keepsDb acc mid).1
  have read : paidImport backend asked acc start mid = _ :=
    Handler.bind_apply (selectPayment acc) _ mid
  rw [read]
  generalize selected : selectPayment acc mid = answer at kept
  obtain ⟨found, due⟩ := answer
  rcases found with _ | _ | payment
  · exact .inl ⟨kept, failed _ _⟩
  · -- the payment is recorded now
    have requests : requestPayment backend acc start due = _ :=
      Handler.bind_apply (insertPayment (newPayment backend acc)) _ due
    dsimp only
    rw [requests]
    unfold insertPayment
    by_cases refused : due.throws = true ∨ due.db.insertPayment (newPayment backend acc) = none
    · rw [insertRow_refused refused]
      exact .inl ⟨kept, failed _ _⟩
    · obtain ⟨runs, inserts⟩ := not_or.mp refused
      obtain ⟨⟨id, after⟩, inserted⟩ := Option.ne_none_iff_exists'.mp inserts
      rw [insertRow_inserts runs inserted]
      refine .inr (.inl ⟨id, _, ?_, rfl, by simp⟩)
      rw [← kept]
      exact inserted
  · -- the payment was recorded before
    have only : mid.db.selectPayments acc.id = [payment] :=
      Payments.selectPayment_some (congrArg Prod.fst selected)
    have inRecorded : payment ∈ recorded asked mid.db := by
      rw [recorded_of_finds valid finds, only]
      exact List.mem_singleton_self _
    obtain ⟨pending, unseen⟩ := unpaid payment inRecorded
    dsimp only
    rw [if_neg (ne_true_of_eq_false pending)]
    unfold checkPayment
    by_cases integrated : backend.integratedAddress payment.paymentId = ""
    · rw [if_pos integrated]
      exact .inl ⟨kept, failed _ _⟩
    · rw [if_neg integrated, unseen]
      exact .inr (.inr ⟨payment, (recorded_of_finds valid finds).trans only, kept, rfl⟩)

/-- An import of another account leaves the payments of this one. -/
theorem paidImport_recorded_other (backend : Backend) {mid : World} (valid : mid.db.Valid)
    (finds : Finds asked acc mid.db) (differs : asked ≠ address) (start : Json) :
    recorded address (paidImport backend asked acc start mid).2.db = recorded address mid.db := by
  rcases Payments.paidImport_cases backend asked acc start mid with
    ⟨same, -⟩ | ⟨id, inserted, -⟩ | ⟨payment, txHash, due, response, selected, -, -, pays⟩
  · rw [same]
  · exact recorded_insertPayment_other valid finds differs rfl inserted
  · have kept : due.db = mid.db := by
      rw [← (Payments.selectPayment_keepsDb acc mid).1, selected]
    obtain ⟨member, ours⟩ := Payments.selectPayment_mem (congrArg Prod.fst selected)
    rw [pays]
    rw [← kept] at valid finds member ⊢
    exact receivePayment_recorded valid finds differs member ours txHash response

end Payments

/-! ### A call -/

section Call

variable {integratedAddress : String → String} {address : String} {world : World} {call : Call}

theorem AsksFor.unique {other : String} (asks : AsksFor address call)
    (asksOther : AsksFor other call) : address = other := by
  obtain ⟨request, viewKey, parsed, read⟩ := asks
  obtain ⟨request', viewKey', parsed', read'⟩ := asksOther
  rw [parsed] at parsed'
  cases parsed'
  rw [read] at read'
  cases read'
  rfl

/-- A call fails before it gets to the payment, or goes on with an account that it has found. -/
theorem call_cases (fee : call.backend.importFee ≠ 0) :
    (MayInsert world (step world call) ∧ ∀ response, ¬ SucceedsWith world call response) ∨
      ∃ asked acc mid, AsksFor asked call ∧ MayInsert world mid ∧ Finds asked acc mid.db ∧
        importWalletRequest call.backend call.body (facing world call) =
          paidImport call.backend asked acc (importResponse call.backend) mid := by
  have failed (response : Json) (message : String) :
      ∀ other, sessionCloseError response message ≠ .closed codeOk other := fun other same =>
    absurd (Answer.closed.inj same).1 (by decide)
  unfold step SucceedsWith answer importWalletRequest
  cases parsed : parseRequest call.body ["address", "view_key"] .null with
  | error response => exact .inl ⟨.refl world, failed _ _⟩
  | ok request =>
    cases read : readCredentials call.backend request with
    | error what =>
      simp only [read]
      exact .inl ⟨.refl world, failed _ _⟩
    | ok credentials =>
      obtain ⟨asked, viewKey⟩ := credentials
      simp only [read, Handler.bind_apply, if_neg fee]
      have inserts : MayInsert world
          (selectAccount call.backend asked viewKey true (facing world call)).2 :=
        selectAccount_mayInsert call.backend asked viewKey true (facing world call)
      cases found : (selectAccount call.backend asked viewKey true (facing world call)).1 with
      | none => exact .inl ⟨inserts, failed _ _⟩
      | some acc =>
        exact .inr ⟨asked, acc, _, ⟨request, viewKey, parsed, read⟩, inserts,
          selectAccount_finds call.backend found, rfl⟩

/-- While the payment of an account is pending, a successful call about it records the payment, or
answers from the record. -/
theorem asked_cases (holds : Holds address world.db) (asks : AsksFor address call)
    (pending : NotFound integratedAddress address world call) :
    (recorded address (step world call).db = recorded address world.db ∧
        ∀ response, ¬ SucceedsWith world call response) ∨
      (recorded address world.db = [] ∧
        (∃ payment, recorded address (step world call).db = [payment]) ∧
        ∃ id response, SucceedsWith world call response ∧
          response.get? "payment_id" = some (.ofNat id)) ∨
      ∃ payment, recorded address world.db = [payment] ∧
        recorded address (step world call).db = [payment] ∧
        SucceedsWith world call
          (awaitingPayment call.backend payment (importResponse call.backend)) := by
  rcases @call_cases world call pending.fee with ⟨inserts, fails⟩ |
    ⟨asked, acc, mid, asksToo, inserts, finds, request⟩
  · exact .inl ⟨recorded_of_mayInsert holds.valid inserts, fails⟩
  · obtain rfl := asks.unique asksToo
    have valid : mid.db.Valid := (History.Beside.of_mayInsert holds.valid inserts).valid
    have same : recorded address mid.db = recorded address world.db :=
      recorded_of_mayInsert holds.valid inserts
    have unpaid := pending.unpaid
    rw [← same] at unpaid ⊢
    unfold step SucceedsWith answer
    rw [request]
    rcases paidImport_pending call.backend valid finds (importResponse call.backend) unpaid with
      ⟨kept, fails⟩ | ⟨id, response, inserted, succeeds, number⟩ | ⟨payment, only, kept, succeeds⟩
    · exact .inl ⟨congrArg (recorded address) kept, fails⟩
    · obtain ⟨fresh, recordedNow⟩ := recorded_insertPayment valid finds rfl inserted
      exact .inr (.inl ⟨fresh, ⟨_, recordedNow⟩, id, response, succeeds, number⟩)
    · refine .inr (.inr ⟨payment, only, ?_, succeeds⟩)
      rw [kept]
      exact only

/-- A call about another account leaves the payments of this one. -/
theorem unasked_recorded (holds : Holds address world.db) (asksNot : ¬ AsksFor address call)
    (fee : call.backend.importFee ≠ 0) :
    recorded address (step world call).db = recorded address world.db := by
  rcases @call_cases world call fee with ⟨inserts, -⟩ |
    ⟨asked, acc, mid, asks, inserts, finds, request⟩
  · exact recorded_of_mayInsert holds.valid inserts
  · have valid : mid.db.Valid := (History.Beside.of_mayInsert holds.valid inserts).valid
    have differs : asked ≠ address := fun same => asksNot (same ▸ asks)
    unfold step
    rw [request, paidImport_recorded_other call.backend valid finds differs,
      recorded_of_mayInsert holds.valid inserts]

/-- A call keeps the tables, and either keeps the payments of the account, or is a successful call
about it that records the first. -/
theorem step_recorded (holds : Holds address world.db)
    (pending : NotFound integratedAddress address world call) :
    Holds address (step world call).db ∧
      (recorded address (step world call).db = recorded address world.db ∨
        recorded address world.db = [] ∧ AsksFor address call ∧
          ∃ response, SucceedsWith world call response) := by
  have sameDb : (facing world call).db.Valid := holds.valid
  have valid : (step world call).db.Valid :=
    (History.importWalletRequest_beside call.backend sameDb call.body).valid
  by_cases asks : AsksFor address call
  · rcases asked_cases holds asks pending with ⟨kept, -⟩ | ⟨none, ⟨payment, one⟩, id, response,
        succeeds, -⟩ | ⟨payment, before, after, -⟩
    · exact ⟨⟨valid, kept ▸ holds.atMostOne⟩, .inl kept⟩
    · exact ⟨⟨valid, one ▸ Nat.le_refl 1⟩, .inr ⟨none, asks, response, succeeds⟩⟩
    · exact ⟨⟨valid, after ▸ Nat.le_refl 1⟩, .inl (after.trans before.symm)⟩
  · have kept := unasked_recorded holds asks pending.fee
    exact ⟨⟨valid, kept ▸ holds.atMostOne⟩, .inl kept⟩

/-- A successful reply about the account reports the record, if there was one before the call. -/
theorem reports_of_recorded (holds : Holds address world.db)
    (pending : NotFound integratedAddress address world call) {payment : XmrPayment}
    (only : recorded address world.db = [payment]) :
    ReportsIfAsked integratedAddress address payment.paymentId payment.importFee world call := by
  intro asks response succeeds
  rcases asked_cases holds asks pending with ⟨-, fails⟩ | ⟨none, -⟩ | ⟨found, before, -, answers⟩
  · exact absurd succeeds (fails response)
  · rw [none] at only
    cases only
  · rw [only] at before
    obtain rfl := List.singleton_inj.mp before
    have same : response = awaitingPayment call.backend payment (importResponse call.backend) :=
      (Answer.closed.inj (succeeds.symm.trans answers)).2
    rw [same, ← pending.sameAddress]
    unfold Reports awaitingPayment
    simp

/-- A reply that reports the payment has found its record. -/
theorem findsRecord_of_reports (holds : Holds address world.db)
    (pending : NotFound integratedAddress address world call) {paymentId : String} {importFee : Nat}
    (reports : ReportsIfAsked integratedAddress address paymentId importFee world call) :
    FindsRecord address world call := by
  intro asks response succeeds
  rcases asked_cases holds asks pending with ⟨-, fails⟩ | ⟨-, -, id, first, succeedsFirst, number⟩ |
    ⟨payment, only, -⟩
  · exact absurd succeeds (fails response)
  · -- the first reply has a number for a payment id
    rw [(reports asks first succeedsFirst).1] at number
    cases number
  · rw [only]
    exact List.cons_ne_nil _ _

end Call

/-! ### Every run of calls -/

/-- While the payment of an account has not been found, its replies are stable exactly when every
successful call about it finds its record in the table. -/
theorem stable_iff_findsRecord (integratedAddress : String → String) (address : String)
    (start : World) (calls : List Call) (holds : Holds address start.db)
    (pending : Runs.Along step (NotFound integratedAddress address) start calls) :
    Stable integratedAddress address start calls ↔
      Runs.Along step (FindsRecord address) start calls := by
  constructor
  · rintro ⟨paymentId, importFee, reports⟩
    exact Runs.along_of_step step
      (fun world call => NotFound integratedAddress address world call ∧
        ReportsIfAsked integratedAddress address paymentId importFee world call)
      (FindsRecord address) (fun world => Holds address world.db)
      (fun world call holdsNow ⟨pendingNow, reportsNow⟩ =>
        ⟨(step_recorded holdsNow pendingNow).1,
          findsRecord_of_reports holdsNow pendingNow reportsNow⟩)
      calls start holds ((Runs.along_and step _ _ start calls).mpr ⟨pending, reports⟩)
  · intro finds
    have met := (Runs.along_and step _ _ start calls).mpr ⟨pending, finds⟩
    cases found : recorded address start.db with
    | nil =>
      -- no call about the account succeeds
      refine ⟨"", 0, Runs.along_of_step step _ _
        (fun world => Holds address world.db ∧ recorded address world.db = [])
        (fun world call ⟨holdsNow, empty⟩ ⟨pendingNow, findsNow⟩ => ?_) calls start
        ⟨holds, found⟩ met⟩
      obtain ⟨holdsAfter, kept | ⟨-, asks, response, succeeds⟩⟩ :=
        step_recorded holdsNow pendingNow
      · exact ⟨⟨holdsAfter, kept.trans empty⟩, fun asks response succeeds =>
          absurd empty (findsNow asks response succeeds)⟩
      · exact absurd empty (findsNow asks response succeeds)
    | cons payment rest =>
      have only : recorded address start.db = [payment] := by
        have short := holds.atMostOne
        rw [found] at short ⊢
        rw [List.length_eq_zero_iff.mp (Nat.le_zero.mp (Nat.le_of_succ_le_succ short))]
      refine ⟨payment.paymentId, payment.importFee, Runs.along_of_step step _ _
        (fun world => Holds address world.db ∧ recorded address world.db = [payment])
        (fun world call ⟨holdsNow, onlyNow⟩ ⟨pendingNow, _⟩ => ?_) calls start ⟨holds, only⟩ met⟩
      obtain ⟨holdsAfter, kept | ⟨empty, -⟩⟩ := step_recorded holdsNow pendingNow
      · exact ⟨⟨holdsAfter, kept.trans onlyNow⟩, reports_of_recorded holdsNow pendingNow onlyNow⟩
      · rw [empty] at onlyNow
        cases onlyNow

/-! ### A payment that is awaited -/

/-- The integrated address of a payment id. -/
def integrated (paymentId : String) : String := "4" ++ paymentId

/-- A call about an account whose payment is not in the mempool. -/
def unpaid : Call where
  backend :=
    { Payments.asking with
      mempoolTxs := []
      integratedAddressOf := integrated
      randomPaymentId8 := "4c" }
  body := Payments.paying.body

/-- No payment is recorded yet. -/
def unasked : World :=
  { Payments.waiting with db := { Payments.waiting.db with payments := [], nextPayment := 1 } }

theorem unpaid_notFound :
    Runs.Along step (NotFound integrated "4ApA") Payments.waiting [unpaid, unpaid] ∧
      Runs.Along step (NotFound integrated "4ApA") unasked [unpaid, unpaid] :=
  ⟨⟨⟨by decide, rfl, by decide +kernel⟩, ⟨by decide, rfl, by decide +kernel⟩, trivial⟩,
    ⟨⟨by decide, rfl, by decide +kernel⟩, ⟨by decide, rfl, by decide +kernel⟩, trivial⟩⟩

/-- Both calls answer from the record. -/
theorem stable_iff_findsRecord_waiting :
    Stable integrated "4ApA" Payments.waiting [unpaid, unpaid] :=
  (stable_iff_findsRecord integrated "4ApA" Payments.waiting [unpaid, unpaid]
    ⟨by decide, by decide⟩ unpaid_notFound.1).mpr
    ⟨fun _ _ _ => by decide +kernel, fun _ _ _ => by decide +kernel, trivial⟩

/-- The first reply gives the id of the new row, the second the payment id. Both give the integrated
address of the payment id. -/
theorem not_stable :
    Holds "4ApA" unasked.db ∧
      Runs.Along step (NotFound integrated "4ApA") unasked [unpaid, unpaid] ∧
      AsksFor "4ApA" unpaid ∧
      (∃ first second, SucceedsWith unasked unpaid first ∧
        SucceedsWith (step unasked unpaid) unpaid second ∧
        first.get? "payment_id" = some (.ofNat 1) ∧
        second.get? "payment_id" = some (.str "4c") ∧
        first.get? "payment_address" = some (.str (integrated "4c")) ∧
        second.get? "payment_address" = some (.str (integrated "4c"))) ∧
      ¬ Stable integrated "4ApA" unasked [unpaid, unpaid] := by
  have asks : AsksFor "4ApA" unpaid := ⟨_, "c0de", rfl, rfl⟩
  have first : ∃ response, SucceedsWith unasked unpaid response ∧
      response.get? "payment_id" = some (.ofNat 1) ∧
      response.get? "payment_address" = some (.str (integrated "4c")) := ⟨_, rfl, rfl, rfl⟩
  have second : ∃ response, SucceedsWith (step unasked unpaid) unpaid response ∧
      response.get? "payment_id" = some (.str "4c") ∧
      response.get? "payment_address" = some (.str (integrated "4c")) := ⟨_, rfl, rfl, rfl⟩
  obtain ⟨reply, succeeds, number, shown⟩ := first
  obtain ⟨later, succeedsLater, text, shownLater⟩ := second
  refine ⟨⟨by decide, by decide⟩, unpaid_notFound.2, asks,
    ⟨reply, later, succeeds, succeedsLater, number, text, shown, shownLater⟩, ?_⟩
  rintro ⟨paymentId, importFee, reports, -⟩
  rw [(reports asks reply succeeds).1] at number
  cases number

end LightWallet.PendingPayments
