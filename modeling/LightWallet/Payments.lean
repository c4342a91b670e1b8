/-
This file settles what a fulfilled payment implies.

A paid import marks the row of the payment first, and resets the account and the
search position after that. When one of the later steps fails, the payment stays
marked, and later calls answer that the wallet was already imported. The file
shows that a fulfilled payment was found, and its rescan applied, in every run
of calls in which the steps after the mark succeed.
-/

import LightWallet.Imports
import LightWallet.Runs

namespace LightWallet.Payments

/-! ### Runs of calls -/

/-- One call of `import_wallet_request`: what it meets outside the database, its body, which of
its statements throw, and at which of its accesses the search thread is gone. -/
structure Call where
  backend : Backend
  body : Option Json
  throwing : List Bool := []
  cleaned : List Bool := []

/-- The world a call starts in. -/
def facing (world : World) (call : Call) : World :=
  { world with throwing := call.throwing, cleaned := call.cleaned }

/-- What a call does to the world. -/
def step (world : World) (call : Call) : World :=
  (importWalletRequest call.backend call.body (facing world call)).2

/-! ### The property -/

/-- The transaction is in the mempool, or in one of the blocks from ten below the tip on. -/
def Searched (backend : Backend) (tx : Transaction) : Prop :=
  tx ∈ backend.mempoolTxs.map (·.2) ∨
    ∃ blk, backend.status.currentHeight ≤ blk + 10 ∧ blk ≤ backend.status.currentHeight ∧
      ∃ txs, backend.blockTxs blk = some txs ∧ tx ∈ txs

/-- The transaction is one that the search looks at, pays the payment's id and fee, and is the one
the payment names. -/
structure Pays (backend : Backend) (payment : XmrPayment) (tx : Transaction) : Prop where
  searched : Searched backend tx
  paymentId : backend.hexToPaymentId payment.paymentId = some (backend.integratedPaymentId tx)
  fee : payment.importFee ≤ (backend.amountPaid tx).toNat
  hash : tx.hash = payment.txHash

/-- The account's row is reset, and the search position of its address was moved to the first
block. -/
def Rescanned (accountId : Nat) (world : World) : Prop :=
  ∀ row ∈ world.db.accounts, row.id = accountId →
    row.scannedBlockHeight = 0 ∧ row.startHeight = 0 ∧ (row.address, 0) ∈ world.moved

/-- Every fulfilled payment was found by one of the calls, and its rescan was applied. -/
def Fulfilled (calls : List Call) (world : World) : Prop :=
  ∀ payment ∈ world.db.payments, payment.requestFulfilled = true →
    (∃ call ∈ calls, ∃ tx, Pays call.backend payment tx) ∧ Rescanned payment.accountId world

/-- No payment is fulfilled before the first call, and no search position was set. -/
structure Starts (world : World) : Prop where
  valid : world.db.Valid
  unfulfilled : ∀ payment ∈ world.db.payments, payment.requestFulfilled = false
  unmoved : world.moved = []

/-! ### When the rescan follows -/

/-- A call has found the payment of an account, and is about to mark it in the given world. -/
structure PaymentDue (backend : Backend) (body : Option Json) (world : World)
    (address : String) (acc : XmrAccount) (payment : XmrPayment) (txHash : String)
    (due : World) : Prop where
  asked : ∃ request viewKey, parseRequest body ["address", "view_key"] .null = .ok request ∧
    readCredentials backend request = .ok (address, viewKey) ∧
    (selectAccount backend address viewKey true world).1 = some acc ∧
    selectPayment acc (selectAccount backend address viewKey true world).2 =
      (some (some payment), due)
  unfulfilled : payment.requestFulfilled = false
  found : searchIfPaymentMade backend payment.paymentId payment.importFee = some txHash

/-- The next statement does not throw, the row of the account is not reset yet, and the search
thread is alive. -/
structure RescanApplies (address : String) (acc : XmrAccount) (world : World) : Prop where
  runs : ¬ world.throws = true
  stale : ∃ row ∈ world.db.accounts, row.id = acc.id ∧
    ¬ (row.scannedBlockHeight = 0 ∧ row.startHeight = 0)
  live : world.thread? address ≠ none

/-- When the call marks a payment, the rescan can be applied. -/
def RescanFollows (world : World) (call : Call) : Prop :=
  ∀ address acc payment txHash due,
    PaymentDue call.backend call.body (facing world call) address acc payment txHash due →
    ¬ due.throws = true → RescanApplies address acc due.next

/-! ### The search for the payment -/

theorem mem_of_mapM {Index Item : Type} {read : Index → Option Item} {indices : List Index}
    {items : List Item} (all : indices.mapM read = some items) {item : Item}
    (member : item ∈ items) : ∃ index ∈ indices, read index = some item := by
  induction indices generalizing items with
  | nil =>
    cases all
    cases member
  | cons index rest inductionHypothesis =>
    rw [List.mapM_cons] at all
    simp only [Option.bind_eq_bind, Option.bind_eq_some_iff, Option.pure_def,
      Option.some.injEq] at all
    obtain ⟨first, here, others, later, rfl⟩ := all
    rcases List.mem_cons.mp member with rfl | inOthers
    · exact ⟨index, List.mem_cons_self, here⟩
    · obtain ⟨other, inRest, found⟩ := inductionHypothesis later inOthers
      exact ⟨other, List.mem_cons_of_mem _ inRest, found⟩

theorem searched_of_recentBlockTxs {backend : Backend} {blockTxs : List Transaction}
    (recent : recentBlockTxs backend = some blockTxs) {tx : Transaction}
    (member : tx ∈ blockTxs) : Searched backend tx := by
  unfold recentBlockTxs at recent
  split at recent
  · cases recent
    cases member
  · next enough =>
    obtain ⟨blocks, all, rfl⟩ := Option.map_eq_some_iff.mp recent
    obtain ⟨txs, inBlocks, inTxs⟩ := List.mem_flatten.mp member
    obtain ⟨blk, inRange, read⟩ := mem_of_mapM all inBlocks
    obtain ⟨least, most⟩ := List.mem_range'_1.mp inRange
    exact .inr ⟨blk, by omega, by omega, txs, read, inTxs⟩

theorem searchIfPaymentMade_pays {backend : Backend} {payment : XmrPayment} {txHash : String}
    (found : searchIfPaymentMade backend payment.paymentId payment.importFee = some txHash) :
    ∃ tx, Pays backend { payment with requestFulfilled := true, txHash } tx := by
  unfold searchIfPaymentMade at found
  simp only [Option.bind_eq_bind, Option.bind_eq_some_iff, Option.pure_def,
    Option.some.injEq] at found
  obtain ⟨blockTxs, recent, expected, parsed, tx, first, same⟩ := found
  have pays := List.find?_some first
  simp only [decide_eq_true_eq] at pays
  have searched : Searched backend tx := by
    rcases List.mem_append.mp (List.mem_of_find?_eq_some first) with inMempool | inBlocks
    · exact .inl inMempool
    · exact searched_of_recentBlockTxs recent inBlocks
  exact ⟨tx, searched, by rw [pays.1]; exact parsed, pays.2, same⟩

/-! ### What a call does -/

theorem selectPayment_keepsDb (acc : XmrAccount) : KeepsDb (selectPayment acc) :=
  .bind (.query _ _) fun payments => by
    rcases payments with _ | ⟨payment, _ | ⟨other, rest⟩⟩ <;> exact .pure _

/-- A record that is selected is the only one. -/
theorem selectPayment_some {acc : XmrAccount} {payment : XmrPayment} {world : World}
    (selected : (selectPayment acc world).1 = some (some payment)) :
    world.db.selectPayments acc.id = [payment] := by
  have only : (selectPayments acc.id world).1 = [payment] := by
    unfold selectPayment at selected
    rw [Handler.bind_apply] at selected
    rcases payments : (selectPayments acc.id world).1 with _ | ⟨first, _ | ⟨other, rest⟩⟩
    · rw [payments] at selected
      cases selected
    · rw [payments] at selected
      cases selected
      rfl
    · rw [payments] at selected
      cases selected
  rcases query_result only with none | read
  · cases none
  · exact read.symm

theorem selectPayment_mem {acc : XmrAccount} {payment : XmrPayment} {world : World}
    (selected : (selectPayment acc world).1 = some (some payment)) :
    payment ∈ world.db.payments ∧ payment.accountId = acc.id := by
  have member : payment ∈ world.db.selectPayments acc.id := by
    rw [selectPayment_some selected]
    exact List.mem_singleton_self _
  obtain ⟨inPayments, ours⟩ := List.mem_filter.mp member
  exact ⟨inPayments, of_decide_eq_true ours⟩

/-- An import that has to be paid for leaves the database alone, or records the payment, or goes on
to mark a payment that it has found. -/
theorem paidImport_cases (backend : Backend) (address : String) (acc : XmrAccount)
    (response : Json) (mid : World) :
    ((paidImport backend address acc response mid).2.db = mid.db ∧
        (paidImport backend address acc response mid).2.moved = mid.moved) ∨
      (∃ id, mid.db.insertPayment (newPayment backend acc) =
          some (id, (paidImport backend address acc response mid).2.db) ∧
        (paidImport backend address acc response mid).2.moved = mid.moved) ∨
      ∃ payment txHash due response',
        selectPayment acc mid = (some (some payment), due) ∧
        payment.requestFulfilled = false ∧
        searchIfPaymentMade backend payment.paymentId payment.importFee = some txHash ∧
        paidImport backend address acc response mid =
          receivePayment address acc payment txHash response' due := by
  have kept := selectPayment_keepsDb acc mid
  have read : paidImport backend address acc response mid = _ :=
    Handler.bind_apply (selectPayment acc) _ mid
  rw [read]
  generalize selected : selectPayment acc mid = answer at kept
  obtain ⟨found, due⟩ := answer
  rcases found with _ | _ | payment
  · exact .inl kept
  · -- no payment is recorded yet
    show _ ∨ _
    have asked : ∀ world : World, requestPayment backend acc response world = _ := fun world =>
      Handler.bind_apply (insertPayment (newPayment backend acc)) _ world
    simp only [asked, insertPayment]
    by_cases throws : due.throws = true
    · rw [insertRow_refused (.inl throws)]
      exact .inl kept
    · cases inserted : due.db.insertPayment (newPayment backend acc) with
      | none =>
        rw [insertRow_refused (.inr inserted)]
        exact .inl kept
      | some pair =>
        rw [insertRow_inserts throws inserted]
        refine .inr (.inl ⟨pair.1, ?_, kept.2⟩)
        rw [← kept.1]
        exact inserted
  · show _ ∨ _
    cases fulfilled : payment.requestFulfilled with
    | true =>
      simp only [fulfilled, if_true]
      exact .inl kept
    | false =>
      simp only [fulfilled, Bool.false_eq_true, if_false]
      unfold checkPayment
      by_cases integrated : backend.integratedAddress payment.paymentId = ""
      · rw [if_pos integrated]
        exact .inl kept
      · rw [if_neg integrated]
        cases searched : searchIfPaymentMade backend payment.paymentId payment.importFee with
        | none => exact .inl kept
        | some txHash =>
          exact .inr (.inr ⟨payment, txHash, due, _, rfl, fulfilled, searched, rfl⟩)

/-- A call inserts at most one account; then it leaves the database alone, or records a payment
that is not fulfilled, or goes on to mark a payment that it has found. -/
theorem step_cases (world : World) (call : Call) (fee : call.backend.importFee ≠ 0) :
    ∃ mid, MayInsert world mid ∧
      (((step world call).db = mid.db ∧ (step world call).moved = mid.moved) ∨
        (∃ row id, row.requestFulfilled = false ∧
          mid.db.insertPayment row = some (id, (step world call).db) ∧
          (step world call).moved = mid.moved) ∨
        ∃ address acc payment txHash due response,
          PaymentDue call.backend call.body (facing world call) address acc payment txHash due ∧
          Finds address acc due.db ∧ payment ∈ due.db.payments ∧
          payment.accountId = acc.id ∧ due.db = mid.db ∧ due.moved = mid.moved ∧
          step world call = (receivePayment address acc payment txHash response due).2) := by
  unfold step importWalletRequest
  cases parsed : parseRequest call.body ["address", "view_key"] .null with
  | error response => exact ⟨world, .refl world, .inl ⟨rfl, rfl⟩⟩
  | ok request =>
    cases read : readCredentials call.backend request with
    | error what =>
      simp only [read]
      exact ⟨world, .refl world, .inl ⟨rfl, rfl⟩⟩
    | ok credentials =>
      obtain ⟨address, viewKey⟩ := credentials
      simp only [read, Handler.bind_apply, if_neg fee]
      have inserts : MayInsert world
          (selectAccount call.backend address viewKey true (facing world call)).2 :=
        selectAccount_mayInsert call.backend address viewKey true (facing world call)
      refine ⟨_, inserts, ?_⟩
      cases found : (selectAccount call.backend address viewKey true (facing world call)).1 with
      | none => exact .inl ⟨rfl, rfl⟩
      | some acc =>
        have finds := selectAccount_finds call.backend found
        rcases paidImport_cases call.backend address acc (importResponse call.backend)
            (selectAccount call.backend address viewKey true (facing world call)).2 with
          kept | ⟨id, inserted, moved⟩ |
            ⟨payment, txHash, due, response, selected, unfulfilled, searched, marks⟩
        · exact .inl kept
        · exact .inr (.inl ⟨newPayment call.backend acc, id, rfl, inserted, moved⟩)
        · have kept := selectPayment_keepsDb acc
            (selectAccount call.backend address viewKey true (facing world call)).2
          have mem := selectPayment_mem (congrArg Prod.fst selected)
          rw [selected] at kept
          rw [← kept.1] at finds mem
          exact .inr (.inr ⟨address, acc, payment, txHash, due, response,
            ⟨⟨request, viewKey, parsed, read, found, selected⟩, unfulfilled, searched⟩, finds,
            mem.1, mem.2, kept.1, kept.2, congrArg Prod.snd marks⟩)

/-! ### What every call preserves -/

theorem fulfilled_of_mayInsert {calls : List Call} {world mid : World} (valid : world.db.Valid)
    (fulfilled : Fulfilled calls world) (inserts : MayInsert world mid) :
    mid.db.Valid ∧ Fulfilled calls mid := by
  obtain ⟨moved, same | ⟨row, id, inserted⟩⟩ := inserts
  · unfold Fulfilled Rescanned
    rw [same, moved]
    exact ⟨valid, fulfilled⟩
  · refine ⟨valid.insertAccount inserted, ?_⟩
    obtain ⟨-, -, after⟩ := Database.insertAccount_eq inserted
    intro payment member marked
    rw [after] at member
    obtain ⟨found, rescanned⟩ := fulfilled payment member marked
    refine ⟨found, fun account inAccounts same => ?_⟩
    rw [moved]
    rw [after] at inAccounts
    rcases List.mem_append.mp inAccounts with old | new
    · exact rescanned account old same
    · -- the new account has an id that no payment refers to
      obtain ⟨other, inOthers, otherId⟩ :=
        (Database.hasAccount_iff _ _).mp (valid.paymentAccount payment member)
      have fresh := valid.accountFresh other inOthers
      rw [List.mem_singleton.mp new] at same
      rw [otherId, ← same] at fresh
      exact absurd fresh (Nat.lt_irrefl _)

theorem fulfilled_of_insertPayment {calls : List Call} {mid after : World}
    (valid : mid.db.Valid) (fulfilled : Fulfilled calls mid) {row : XmrPayment} {id : Nat}
    (unfulfilled : row.requestFulfilled = false)
    (inserted : mid.db.insertPayment row = some (id, after.db)) (moved : after.moved = mid.moved) :
    after.db.Valid ∧ Fulfilled calls after := by
  refine ⟨valid.insertPayment inserted, ?_⟩
  obtain ⟨-, -, db⟩ := Database.insertPayment_eq inserted
  intro payment member marked
  unfold Rescanned
  rw [db, moved]
  rw [db] at member
  rcases List.mem_append.mp member with old | new
  · exact fulfilled payment old marked
  · rw [List.mem_singleton.mp new] at marked
    rw [show ({ row with id := mid.db.nextPayment } : XmrPayment).requestFulfilled =
      row.requestFulfilled from rfl, unfulfilled] at marked
    cases marked

theorem updatePayment_throws (original new : XmrPayment) {world : World}
    (throws : world.throws = true) : updatePayment original new world = (false, world.next) :=
  statement_throws _ _ throws

theorem updatePayment_runs (original new : XmrPayment) {world : World}
    (runs : ¬ world.throws = true) :
    updatePayment original new world =
      (decide ((world.db.updatePayment original new).1 = 1),
        { world.next with db := (world.db.updatePayment original new).2 }) :=
  statement_runs _ _ runs

/-- The import that a payment has paid for resets its account, and leaves what was reset before
as it is. -/
theorem rescanned_of_fromGenesis {address : String} {acc : XmrAccount} {before after : World}
    (named : acc.address = address)
    (accounts : after.db.accounts = (before.db.updateAccount acc (fromGenesis acc)).2.accounts)
    (moved : after.moved = (address, 0) :: before.moved) {accountId : Nat}
    (due : accountId = acc.id ∨ Rescanned accountId before) : Rescanned accountId after := by
  intro row member same
  rw [accounts] at member
  obtain ⟨old, inAccounts, rfl⟩ := List.mem_map.mp member
  rw [moved]
  by_cases here : old.id = acc.id
  · rw [if_pos here]
    refine ⟨rfl, rfl, ?_⟩
    show (acc.address, 0) ∈ _
    rw [named]
    exact List.mem_cons_self
  · rw [if_neg here] at same ⊢
    rcases due with this | rescanned
    · exact absurd (same.trans this) here
    · obtain ⟨scanned, start, inMoved⟩ := rescanned old inAccounts same
      exact ⟨scanned, start, List.mem_cons_of_mem _ inMoved⟩

/-- The world in which the payment is marked. -/
def marked (payment : XmrPayment) (txHash : String) (due : World) : World :=
  { due.next with
    db := (due.db.updatePayment payment
      { payment with requestFulfilled := true, txHash }).2 }

/-- A mark that succeeds is followed by the reset of the account. -/
theorem receivePayment_marks {payment : XmrPayment} {due : World} (valid : due.db.Valid)
    (member : payment ∈ due.db.payments) (unfulfilled : payment.requestFulfilled = false)
    (runs : ¬ due.throws = true) (address txHash : String) (acc : XmrAccount)
    (response : Json) :
    ∃ rowFailed positionFailed success,
      receivePayment address acc payment txHash response due =
        applyImport address acc (fromGenesis acc) rowFailed positionFailed response success
          (marked payment txHash due) := by
  have differs : payment ≠ { payment with requestFulfilled := true, txHash } := fun same => by
    have fulfilled := congrArg XmrPayment.requestFulfilled same
    rw [unfulfilled] at fulfilled
    cases fulfilled
  have marks := Database.updatePayment_count_eq_one valid member differs
  unfold receivePayment
  rw [Handler.bind_apply, updatePayment_runs _ _ runs]
  simp only [marks, decide_true, if_true]
  exact ⟨_, _, _, rfl⟩

theorem fulfilled_of_receivePayment {calls : List Call} {due : World} {address txHash : String}
    {acc : XmrAccount} {payment : XmrPayment} {response : Json} (valid : due.db.Valid)
    (fulfilled : Fulfilled calls due) (finds : Finds address acc due.db)
    (member : payment ∈ due.db.payments) (ours : payment.accountId = acc.id)
    (unfulfilled : payment.requestFulfilled = false)
    (pays : ∃ call ∈ calls, ∃ tx,
      Pays call.backend { payment with requestFulfilled := true, txHash } tx)
    (follows : ¬ due.throws = true → RescanApplies address acc due.next) :
    (receivePayment address acc payment txHash response due).2.db.Valid ∧
      Fulfilled calls (receivePayment address acc payment txHash response due).2 := by
  by_cases throws : due.throws = true
  · unfold receivePayment
    rw [Handler.bind_apply, updatePayment_throws _ _ throws]
    exact ⟨valid, fulfilled⟩
  · obtain ⟨rowFailed, positionFailed, success, marks⟩ :=
      receivePayment_marks valid member unfulfilled throws address txHash acc response
    obtain ⟨runs, ⟨row, inAccounts, id, stale⟩, live⟩ := follows throws
    have validMarked : (marked payment txHash due).db.Valid := valid.updatePayment member rfl rfl
    have changes :
        ((marked payment txHash due).db.updateAccount acc (fromGenesis acc)).1 = 1 := by
      refine Database.updateAccount_count_eq_one validMarked inAccounts id fun reset => stale ?_
      rw [reset]
      exact ⟨rfl, rfl⟩
    obtain ⟨db, moved⟩ := @applyImport_applies address acc (fromGenesis acc)
      (marked payment txHash due) rowFailed positionFailed response success runs changes live
    rw [marks]
    generalize applyImport address acc (fromGenesis acc) rowFailed positionFailed response success
      (marked payment txHash due) = done at db moved
    obtain ⟨named, account, inDue, accountId, accountNamed⟩ := finds
    have reset {accountId : Nat} (owed : accountId = acc.id ∨ Rescanned accountId due) :
        Rescanned accountId done.2 :=
      rescanned_of_fromGenesis named (congrArg Database.accounts db) moved owed
    refine ⟨?_, fun other inPayments isFulfilled => ?_⟩
    · rw [db]
      exact validMarked.updateAccount inDue accountId rfl (named.trans accountNamed.symm)
    · rw [db] at inPayments
      obtain ⟨old, inOld, rfl⟩ := List.mem_map.mp inPayments
      by_cases here : old.id = payment.id
      · rw [if_pos here]
        exact ⟨pays, reset (.inl ours)⟩
      · rw [if_neg here] at isFulfilled ⊢
        obtain ⟨found, rescanned⟩ := fulfilled old inOld isFulfilled
        exact ⟨found, reset (.inr rescanned)⟩

theorem fulfilled_step {calls : List Call} {world : World} {call : Call}
    (fulfilled : world.db.Valid ∧ Fulfilled calls world)
    (follows : call ∈ calls ∧ call.backend.importFee ≠ 0 ∧ RescanFollows world call) :
    (step world call).db.Valid ∧ Fulfilled calls (step world call) := by
  obtain ⟨isCall, fee, applies⟩ := follows
  obtain ⟨mid, inserts, outcome⟩ := step_cases world call fee
  obtain ⟨valid, before⟩ := fulfilled_of_mayInsert fulfilled.1 fulfilled.2 inserts
  rcases outcome with ⟨db, moved⟩ | ⟨row, id, unfulfilled, inserted, moved⟩ |
    ⟨address, acc, payment, txHash, due, response, isDue, finds, member, ours, db, moved, same⟩
  · unfold Fulfilled Rescanned
    rw [db, moved]
    exact ⟨valid, before⟩
  · exact fulfilled_of_insertPayment valid before unfulfilled inserted moved
  · rw [same]
    refine fulfilled_of_receivePayment (db ▸ valid) ?_ finds member ours isDue.unfulfilled
      ⟨call, isCall, searchIfPaymentMade_pays isDue.found⟩
      (applies address acc payment txHash due isDue)
    unfold Fulfilled Rescanned
    rw [db, moved]
    exact before

/-- In a run of calls in which the rescan can be applied whenever a payment is marked, every
fulfilled payment was found and its rescan was applied. -/
theorem fulfilled_of_rescanFollows (start : World) (calls : List Call) (starts : Starts start)
    (fees : ∀ call ∈ calls, call.backend.importFee ≠ 0)
    (follows : Runs.Along step RescanFollows start calls) :
    Fulfilled calls (Runs.run step start calls) := by
  have initially : Fulfilled calls start := fun payment member isFulfilled => by
    rw [starts.unfulfilled payment member] at isFulfilled
    cases isFulfilled
  have along := Runs.along_and_of_forall (fun _ => id) (Runs.along_and_of_forall fees follows)
  exact (Runs.run_invariant step _ (fun world => world.db.Valid ∧ Fulfilled calls world)
    (fun world call => fulfilled_step) calls start ⟨starts.valid, initially⟩ along).2

/-! ### A payment that is received -/

/-- A fee of ten, and a transaction in the mempool that pays it. -/
def asking : Backend :=
  { Backend.empty with
    status := { currentHeight := 5 }
    importFee := 10
    mempoolTxs := [(0, { hash := "5a" })]
    integratedPaymentId := fun _ => "4c"
    amountPaid := fun _ => 10 }

/-- The account that has to pay. -/
def owing : XmrAccount :=
  { id := 1, address := "4ApA", viewkeyHash := "c0de", scannedBlockHeight := 3 }

/-- The payment that is waited for. -/
def awaited : XmrPayment := { id := 1, accountId := 1, paymentId := "4c", importFee := 10 }

/-- The account, its payment, and its search thread. -/
def waiting : World where
  db := { accounts := [owing], payments := [awaited], nextAccount := 2, nextPayment := 2 }
  searchingThreads := [("4ApA", { acc := owing, searchedBlkNo := 4 })]

/-- A call that finds the payment. -/
def paying : Call where
  backend := asking
  body := some (.obj [("address", .str "4ApA"), ("view_key", .str "c0de")])

/-- A call that finds the payment, and in which the update of the account throws. -/
def paidInVain : Call := { paying with throwing := [false, false, false, true] }

theorem waiting_starts : Starts waiting := ⟨by decide, by decide, rfl⟩

theorem waiting_rescanFollows : RescanFollows waiting paying := by
  rintro address acc payment txHash due ⟨⟨request, viewKey, parsed, read, found, selected⟩, -, -⟩ -
  have isRequest : (Except.ok _ : Except Json Json) = .ok request := parsed
  cases isRequest
  have isRead : (Except.ok ("4ApA", "c0de") : Except String _) = .ok (address, viewKey) := read
  cases isRead
  have isFound : some owing = some acc := found
  cases isFound
  have isSelected : (some (some awaited), waiting) = (some (some payment), due) := selected
  cases isSelected
  exact ⟨by decide, ⟨owing, by decide, by decide⟩, by decide⟩

/-- The payment is found, and the account is reset. -/
theorem fulfilled_of_paying :
    (Runs.run step waiting [paying]).db.payments = [{ awaited with
        requestFulfilled := true, txHash := "5a" }] ∧
      Fulfilled [paying] (Runs.run step waiting [paying]) :=
  ⟨by decide +kernel, fulfilled_of_rescanFollows waiting [paying] waiting_starts
    (fun _ only => by cases only with | head => decide | tail _ none => cases none)
    ⟨waiting_rescanFollows, trivial⟩⟩

/-- A payment that was marked stays marked when the account is not reset, and no later call
makes up for it. -/
theorem fulfilled_without_rescan :
    Starts waiting ∧ (∀ call ∈ [paidInVain, paying], call.backend.importFee ≠ 0) ∧
      ¬ Fulfilled [paidInVain, paying] (Runs.run step waiting [paidInVain, paying]) := by
  refine ⟨waiting_starts, by decide, fun fulfilled => ?_⟩
  have marked : { awaited with requestFulfilled := true, txHash := "5a" } ∈
      (Runs.run step waiting [paidInVain, paying]).db.payments := by decide +kernel
  have kept : owing ∈ (Runs.run step waiting [paidInVain, paying]).db.accounts := by
    decide +kernel
  exact absurd ((fulfilled _ marked rfl).2 owing kept rfl).1 (by decide)

end LightWallet.Payments
