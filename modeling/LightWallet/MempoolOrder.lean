/-
This file settles when the transactions of the mempool are listed under the highest ids.

They are numbered from the id of the last stored transaction on, in the order in which the rows
are selected, which is the one of their insertion. A scan in the order of the blockchain inserts
the highest id last. A rescan inserts a transaction anew, with the id that it has in the
blockchain, so that the last row has a low id until the rescan is through.
-/

import LightWallet.TxDetails

namespace LightWallet.MempoolOrder

open Balances (items)

/-! ### What is listed -/

/-- The transactions that an answer lists. -/
def listed (answer : Answer) : List Json :=
  ((Balances.Answer.get? answer "transactions").map items).getD []

/-- The id that a transaction is listed with. -/
def idOf (json : Json) : Int :=
  match json.get? "id" with
  | some (.num id) => id
  | _ => 0

/-- The transaction is listed as one of the mempool. -/
def pooled (json : Json) : Bool :=
  match json.get? "mempool" with
  | some (.bool mempool) => mempool
  | _ => false

/-- The transactions of the mempool have ids of their own, above those of all others. -/
structure MempoolFirst (entries : List Json) : Prop where
  above : ∀ pool ∈ entries, ∀ stored ∈ entries, pooled pool = true → pooled stored = false →
    idOf stored < idOf pool
  distinct : Tables.Unique idOf (entries.filter pooled)

instance (entries : List Json) : Decidable (MempoolFirst entries) :=
  decidable_of_iff (_ ∧ _)
    ⟨fun parts => ⟨parts.1, parts.2⟩, fun first => ⟨first.above, first.distinct⟩⟩

/-- Sorted by descending id, such a list has the mempool in front: no stored transaction stands
before one of the mempool. -/
theorem MempoolFirst.sorted {entries sorted : List Json} (first : MempoolFirst entries)
    (same : sorted.Perm entries)
    (descending : sorted.Pairwise fun before after => idOf after ≤ idOf before) :
    sorted.Pairwise fun before after => pooled after = true → pooled before = true := by
  refine descending.imp_of_mem fun inBefore inAfter le pool => ?_
  by_contra stored
  have lt := first.above _ (same.mem_iff.mp inAfter) _ (same.mem_iff.mp inBefore) pool
    (Bool.eq_false_of_not_eq_true stored)
  omega

/-! ### The ids of the list -/

theorem idOf_toJson (entry : AddressTx) : idOf entry.toJson = entry.tx.blockchainTxId := by
  obtain ⟨tx, spent⟩ := entry
  cases spent with
  | none => rfl
  | some spent =>
    unfold idOf AddressTx.toJson
    simp [Json.ofNat]

theorem pooled_of_get? {json : Json} (shown : json.get? "mempool" = some (.bool true)) :
    pooled json = true := by
  unfold pooled
  rw [shown]

theorem pooled_toJson (entry : AddressTx) : pooled entry.toJson = false := by
  obtain ⟨tx, spent⟩ := entry
  cases spent with
  | none => rfl
  | some spent =>
    unfold pooled AddressTx.toJson
    simp

theorem idOf_numberMempool (last : Nat) (mempool : List MempoolTx) :
    (numberMempool last mempool).map idOf =
      (List.range' (last + 1) mempool.length).map Int.ofNat := by
  induction mempool generalizing last with
  | nil => rfl
  | cons entry rest inductionHypothesis =>
    rw [numberMempool, List.map_cons, inductionHypothesis, List.length_cons, List.range'_succ,
      List.map_cons]
    congr 1
    unfold idOf
    rw [Json.get?_set, if_pos rfl]
    rfl

theorem pooled_numberMempool {last : Nat} {mempool : List MempoolTx}
    (shown : ∀ entry ∈ mempool, pooled entry.toJson = true) :
    ∀ json ∈ numberMempool last mempool, pooled json = true := by
  induction mempool generalizing last with
  | nil => exact fun json member => absurd member List.not_mem_nil
  | cons entry rest inductionHypothesis =>
    intro json member
    rcases List.mem_cons.mp member with rfl | member
    · have head := shown entry List.mem_cons_self
      unfold pooled at head ⊢
      rw [Json.get?_set, if_neg (by decide)]
      exact head
    · exact inductionHypothesis (fun other inside => shown other (List.mem_cons_of_mem _ inside))
        json member

/-- The last transaction has the highest id of all. -/
def LastHighest (txs : List XmrTransaction) : Prop :=
  ∀ tx ∈ txs, tx.blockchainTxId ≤ ((txs.getLast?).map (·.blockchainTxId)).getD 0

instance (txs : List XmrTransaction) : Decidable (LastHighest txs) :=
  inferInstanceAs (Decidable (∀ _ ∈ _, _))

/-- The list that the request puts together. -/
def listOf (entries : List AddressTx) (mempool : List MempoolTx) : List Json :=
  entries.map AddressTx.toJson ++
    numberMempool (((entries.getLast?).map (·.tx.blockchainTxId)).getD 0) mempool

theorem mempoolFirst_listOf_iff {entries : List AddressTx} {mempool : List MempoolTx}
    (shown : ∀ entry ∈ mempool, pooled entry.toJson = true) :
    MempoolFirst (listOf entries mempool) ↔
      mempool = [] ∨ LastHighest (entries.map AddressTx.tx) := by
  have lastOf : (((entries.map AddressTx.tx).getLast?).map (·.blockchainTxId)).getD 0 =
      ((entries.getLast?).map (·.tx.blockchainTxId)).getD 0 := by
    rw [List.getLast?_map, Option.map_map]
    rfl
  unfold LastHighest listOf
  rw [lastOf]
  generalize ((entries.getLast?).map (·.tx.blockchainTxId)).getD 0 = last
  have ofPooled := @pooled_numberMempool last mempool shown
  have ofStored : ∀ json ∈ entries.map AddressTx.toJson, pooled json = false := by
    intro json member
    obtain ⟨entry, _, rfl⟩ := List.mem_map.mp member
    exact pooled_toJson entry
  constructor
  · rintro ⟨above, -⟩
    cases mempool with
    | nil => exact .inl rfl
    | cons pool rest =>
      refine .inr fun tx member => ?_
      obtain ⟨entry, inEntries, rfl⟩ := List.mem_map.mp member
      have listedPool : pool.toJson.set "id" (.ofNat (last + 1)) ∈
          numberMempool last (pool :: rest) := List.mem_cons_self
      have lt := above _ (List.mem_append_right _ listedPool) _
        (List.mem_append_left _ (List.mem_map_of_mem inEntries)) (ofPooled _ listedPool)
        (pooled_toJson entry)
      have numbered : idOf (pool.toJson.set "id" (.ofNat (last + 1))) = (last + 1 : Nat) := by
        unfold idOf
        rw [Json.get?_set, if_pos rfl]
        rfl
      rw [numbered, idOf_toJson] at lt
      omega
  · intro condition
    refine ⟨fun pool inList stored storedInList isPooled isStored => ?_, ?_⟩
    · rcases List.mem_append.mp inList with inStored | inMempool
      · rw [ofStored pool inStored] at isPooled
        cases isPooled
      rcases List.mem_append.mp storedInList with inStored | storedInMempool
      · obtain ⟨entry, inEntries, rfl⟩ := List.mem_map.mp inStored
        have bound : entry.tx.blockchainTxId ≤ last := by
          rcases condition with rfl | highest
          · exact absurd inMempool List.not_mem_nil
          · exact highest entry.tx (List.mem_map_of_mem inEntries)
        have id := List.mem_map_of_mem (f := idOf) inMempool
        rw [idOf_numberMempool] at id
        obtain ⟨number, inRange, same⟩ := List.mem_map.mp id
        have least := (List.mem_range'_1.mp inRange).1
        rw [← same, idOf_toJson]
        exact Int.ofNat_lt.mpr (by omega)
      · rw [ofPooled stored storedInMempool] at isStored
        cases isStored
    · rw [List.filter_append, List.filter_eq_nil_iff.mpr fun json member => by
          rw [ofStored json member]
          exact Bool.false_ne_true,
        List.nil_append, List.filter_eq_self.mpr ofPooled]
      unfold Tables.Unique
      rw [idOf_numberMempool]
      exact (List.nodup_range').map Int.ofNat_injective

/-! ### What is read, whatever throws -/

theorem readAddressTx_tx (tx : XmrTransaction) (world : World) :
    (readAddressTx tx world).1.tx = tx := by
  unfold readAddressTx
  rw [Handler.bind_apply]
  cases (selectInputsForTx tx.id world).1 <;> rfl

theorem readAddressTxs_map (txs : List XmrTransaction) (world : World) :
    (readAddressTxs txs world).1.map AddressTx.tx = txs := by
  induction txs generalizing world with
  | nil => rfl
  | cons tx rest inductionHypothesis =>
    unfold readAddressTxs
    rw [Handler.bind_apply, Handler.bind_apply, Handler.pure_apply, List.map_cons,
      readAddressTx_tx, inductionHypothesis]

/-- A check that is not given up hands on what it does without exceptions. -/
theorem check_eq_some {backend : Backend} {txs checked : List XmrTransaction} {world : World}
    (done : (selectTxsForAccountSpendabilityCheck backend txs world).1 = some checked) :
    checked = txs.filterMap (txAfterCheck backend) := by
  induction txs generalizing checked world with
  | nil => exact (Option.some.inj done).symm
  | cons tx rest inductionHypothesis =>
    have keep {kept : XmrTransaction} {after : World}
        (handed : txAfterCheck backend tx = some kept)
        (rested : ((selectTxsForAccountSpendabilityCheck backend rest after).1.map (kept :: ·)) =
          some checked) :
        checked = (tx :: rest).filterMap (txAfterCheck backend) := by
      obtain ⟨others, restDone, rfl⟩ := Option.map_eq_some_iff.mp rested
      rw [List.filterMap_cons_some handed, inductionHypothesis restDone]
    unfold selectTxsForAccountSpendabilityCheck at done
    dsimp only at done
    by_cases spendable : tx.spendable = true
    · rw [if_pos spendable] at done
      exact keep (by rw [txAfterCheck, if_pos spendable]) done
    rw [if_neg spendable] at done
    by_cases unlocked : isTxUnlocked backend.status tx.unlockTime tx.height = true
    · rw [if_pos unlocked, Handler.bind_apply] at done
      split at done
      · cases done
      · exact keep (by rw [txAfterCheck, if_neg spendable, if_pos unlocked]) done
    rw [if_neg unlocked] at done
    by_cases orphaned : Orphaned backend tx
    · have condition : (backend.txExist tx.hash).getD 0 ≠ tx.blockchainTxId := orphaned
      rw [if_pos condition, Handler.bind_apply] at done
      split at done
      · cases done
      · rw [List.filterMap_cons_none
          (by rw [txAfterCheck, if_neg spendable, if_neg unlocked, if_pos orphaned])]
        exact inductionHypothesis done
    · have condition : ¬ (backend.txExist tx.hash).getD 0 ≠ tx.blockchainTxId := orphaned
      rw [if_neg condition] at done
      exact keep (by rw [txAfterCheck, if_neg spendable, if_neg unlocked, if_neg orphaned]) done

theorem findTxsInMempool_pooled (backend : Backend) (address : String) (world : World) :
    ∀ entry ∈ (findTxsInMempool backend address world).1.getD [],
      pooled entry.toJson = true := by
  unfold findTxsInMempool
  rw [Handler.bind_apply]
  cases (withThread address none (fun thread => (some thread, thread)) world).1 with
  | none => exact fun entry member => absurd member List.not_mem_nil
  | some thread =>
    exact fun entry member => pooled_of_get? (MempoolListing.findTxs_mempool _ _ entry member)

/-- What the check hands on of the rows of an account. -/
def handedOn (backend : Backend) (accountId : Nat) (db : Database) : List XmrTransaction :=
  (db.selectTransactions accountId).filterMap (txAfterCheck backend)

/-- The rows that are read are those that the check hands on, unless something throws; there are
none then. -/
theorem readAddress_entries (backend : Backend) (address : String) (acc : XmrAccount)
    (world : World) :
    (∀ entry ∈ (readAddress backend address acc world).1.mempool.getD [],
      pooled entry.toJson = true) ∧
    ∀ entries ∈ (readAddress backend address acc world).1.entries,
      entries.map AddressTx.tx = [] ∨
        entries.map AddressTx.tx = handedOn backend acc.id world.db := by
  have selected : (selectTransactions acc.id world).1 = [] ∨
      (selectTransactions acc.id world).1 = world.db.selectTransactions acc.id := by
    unfold selectTransactions query
    by_cases throws : world.throws = true
    · rw [statement_throws _ _ throws]
      exact .inl rfl
    · rw [statement_runs _ _ throws]
      exact .inr rfl
  unfold readAddress
  rw [Handler.bind_apply, Handler.bind_apply]
  cases done : (selectTxsForAccountSpendabilityCheck backend (selectTransactions acc.id world).1
    (selectTransactions acc.id world).2).1 with
  | none =>
    exact ⟨findTxsInMempool_pooled _ _ _, fun entries member => absurd member (by simp)⟩
  | some checked =>
    refine ⟨findTxsInMempool_pooled _ _ _, fun entries member => ?_⟩
    obtain rfl := Option.some.inj member
    rw [readAddressTxs_map, check_eq_some done]
    rcases selected with none | some
    · rw [none]
      exact .inl rfl
    · rw [some]
      exact .inr rfl

/-- A login that succeeds adds to the response, and leaves the transactions alone. -/
theorem login_transactions {backend : Backend} {address viewKey : String} {acc : XmrAccount}
    {response : Json} {world : World}
    (success : (loginAndStartSearchThread backend address viewKey acc response world).1.1 = true) :
    (loginAndStartSearchThread backend address viewKey acc response world).1.2.2.get?
      "transactions" = response.get? "transactions" := by
  rcases loginAndStartSearchThread_cases backend address viewKey acc response world with
    ⟨-, unread⟩ | ⟨row, -, ⟨found, reason, refused⟩ | ⟨-, entered⟩⟩
  · rw [unread] at success
    cases success
  · rw [refused] at success
    cases success
  · rw [entered]
    simp

/-- Whatever throws, the answer lists nothing, or what the check hands on of an account, with the
mempool behind it. -/
theorem listed_cases (backend : Backend) (body : Option Json) (world : World) :
    listed (getAddressTxs backend body world).1 = [] ∨
      ∃ entries mempool, listed (getAddressTxs backend body world).1 = listOf entries mempool ∧
        (∀ entry ∈ mempool, pooled entry.toJson = true) ∧
        (entries.map AddressTx.tx = [] ∨
          ∃ accountId, entries.map AddressTx.tx = handedOn backend accountId world.db) := by
  unfold getAddressTxs
  cases parsed : parseRequest body ["address", "view_key"] .null with
  | error response =>
    refine .inl ?_
    unfold parseRequest at parsed
    split at parsed
    · cases parsed
      rfl
    · split at parsed
      · cases parsed
        rfl
      · cases parsed
  | ok request =>
    cases credentials : readCredentials backend request with
    | error message =>
      simp only [credentials]
      exact .inl rfl
    | ok pair =>
      obtain ⟨address, viewKey⟩ := pair
      simp only [credentials]
      have login := @login_transactions backend address viewKey {} addressTxsResponse world
      have db := (loginAndStartSearchThread_keepsDb backend address viewKey {} addressTxsResponse
        world).1
      rw [Handler.bind_apply]
      generalize loginAndStartSearchThread backend address viewKey {} addressTxsResponse world =
        entered at login db
      obtain ⟨⟨success, acc, shown⟩, after⟩ := entered
      cases success with
      | false => exact .inl rfl
      | true =>
        obtain ⟨ofMempool, ofEntries⟩ := readAddress_entries backend address acc after
        simp only [Handler.bind_apply, Handler.pure_apply]
        generalize readAddress backend address acc after = read at ofMempool ofEntries
        obtain ⟨⟨entries, mempool⟩, last⟩ := read
        unfold addressTxsAnswer
        cases entries with
        | none =>
          cases pool : mempool.getD [] with
          | nil =>
            refine .inl ?_
            have transactions : shown.get? "transactions" = some (.arr []) := login rfl
            simp [listed, Balances.Answer.get?, sessionClose, accountHeader, transactions, items]
          | cons first rest => exact .inl rfl
        | some entries =>
          refine .inr ⟨entries, mempool.getD [], ?_, ofMempool, ?_⟩
          · simp [listed, Balances.Answer.get?, sessionClose, items, listOf]
          · refine (ofEntries entries rfl).imp_right fun handed => ⟨acc.id, ?_⟩
            rw [handed, show after.db = world.db from db]

/-! ### Scans in the order of the blockchain -/

/-- The rows of each account stand in the order of the blockchain. -/
def Ascending (db : Database) : Prop :=
  db.transactions.Pairwise fun before after =>
    before.accountId = after.accountId → before.blockchainTxId ≤ after.blockchainTxId

/-- A pass that stores rows finds no row of the account that is later in the blockchain, other
than the one it replaces. -/
def Ascends (db : Database) : Balances.Event → Prop
  | .pass wallet status tuple tx outcomes known blkTimestamp =>
    Stores wallet status tuple tx outcomes ⟨db, known, blkTimestamp⟩ →
      ∀ row ∈ db.transactions, row.accountId = wallet.account.id → row.hash ≠ tx.hash →
        row.blockchainTxId ≤ outcomes.chainTxId
  | _ => True

theorem Ascending.of_sublist {db after : Database} (ascending : Ascending db)
    (sublist : after.transactions.Sublist db.transactions) : Ascending after :=
  ascending.sublist sublist

theorem Ascending.deleteTx {db : Database} (ascending : Ascending db) (txId : Nat) :
    Ascending (db.deleteTx txId).2 := ascending.of_sublist List.filter_sublist

theorem Ascending.markTxSpendable {db : Database} (ascending : Ascending db) (txId now : Nat) :
    Ascending (db.markTxSpendable txId now).2 := by
  refine List.pairwise_map.mpr (ascending.imp fun {before after} ordered => ?_)
  split <;> split <;> exact ordered

theorem clearedDb_sublist (wallet : Wallet) (tx : Transaction) (outcomes : Outcomes)
    (db : Database) :
    (clearedDb wallet tx outcomes db).transactions.Sublist db.transactions := by
  unfold clearedDb
  cases existingTx wallet tx outcomes db with
  | none => exact List.Sublist.refl _
  | some old => exact List.filter_sublist

theorem ascending_step {db : Database} {event : Balances.Event} (ascending : Ascending db)
    (ascends : Ascends db event) : Ascending (Balances.step db event) := by
  cases event with
  | create row =>
    obtain ⟨accounts, nextAccount, after⟩ := Balances.createRow_eq db row
    show Ascending (Balances.createRow db row)
    rw [after]
    exact ascending
  | save answers accountId scannedHeight startHeight blkTimestamp =>
    obtain ⟨accounts, after⟩ :=
      Balances.saveRow_eq db answers accountId scannedHeight startHeight blkTimestamp
    show Ascending (Balances.saveRow db answers accountId scannedHeight startHeight blkTimestamp)
    rw [after]
    exact ascending
  | pass wallet status tuple tx outcomes known blkTimestamp =>
    show Ascending (recordTx wallet status tuple tx outcomes ⟨db, known, blkTimestamp⟩).2.db
    rcases recordTx_cases wallet status tuple tx outcomes ⟨db, known, blkTimestamp⟩ with
      ⟨-, same | cleared⟩ | ⟨stores, -, filled⟩
    · rw [same]
      exact ascending
    · rw [cleared]
      exact ascending.of_sublist (clearedDb_sublist wallet tx outcomes db)
    · rw [filled]
      have sublist := clearedDb_sublist wallet tx outcomes db
      have other := ((Database.acceptsTransaction_iff _ _).mp stores.accepts.1).2
      refine List.pairwise_append.mpr ⟨ascending.sublist sublist, List.pairwise_singleton _ _, ?_⟩
      intro before inCleared after isNew same
      rw [List.mem_singleton.mp isNew] at same ⊢
      refine ascends stores before (sublist.subset inCleared) same fun sameHash => ?_
      exact other before inCleared (Prod.ext sameHash same)
  | check backend accountId throwing =>
    exact Balances.step_check_invariant Ascending (fun _ txId kept => kept.deleteTx txId)
      (fun _ txId now kept => kept.markTxSpendable txId now) backend accountId throwing ascending

theorem ascending_run (events : List Balances.Event)
    (ascends : Runs.Along Balances.step Ascends {} events) :
    Ascending (Runs.run Balances.step {} events) :=
  Runs.run_invariant Balances.step Ascends Ascending
    (fun _ _ ascending ascendsStep => ascending_step ascending ascendsStep) events {}
    List.Pairwise.nil ascends

theorem lastHighest_of_pairwise {txs : List XmrTransaction}
    (ascending : txs.Pairwise fun before after => before.blockchainTxId ≤ after.blockchainTxId) :
    LastHighest txs := by
  rcases List.eq_nil_or_concat txs with rfl | ⟨front, last, rfl⟩
  · exact fun tx member => absurd member List.not_mem_nil
  · intro tx member
    rw [List.concat_eq_append] at member ascending ⊢
    rw [List.getLast?_concat]
    show tx.blockchainTxId ≤ last.blockchainTxId
    rcases List.mem_append.mp member with inFront | isLast
    · exact (List.pairwise_append.mp ascending).2.2 tx inFront last List.mem_cons_self
    · rw [List.mem_singleton.mp isLast]

theorem txAfterCheck_blockchainTxId {backend : Backend} {tx kept : XmrTransaction}
    (handed : txAfterCheck backend tx = some kept) :
    kept.blockchainTxId = tx.blockchainTxId := by
  unfold txAfterCheck at handed
  split at handed
  · rw [← Option.some.inj handed]
  · split at handed
    · rw [← Option.some.inj handed]
    · split at handed
      · cases handed
      · rw [← Option.some.inj handed]

theorem Ascending.lastHighest {db : Database} (ascending : Ascending db) (backend : Backend)
    (accountId : Nat) : LastHighest (handedOn backend accountId db) := by
  refine lastHighest_of_pairwise ?_
  have ofAccount : (db.selectTransactions accountId).Pairwise fun before after =>
      before.blockchainTxId ≤ after.blockchainTxId := by
    refine List.Pairwise.imp_of_mem ?_ (ascending.sublist List.filter_sublist)
    intro before after inBefore inAfter ordered
    have own := of_decide_eq_true (List.mem_filter.mp inBefore).2
    exact ordered (own.trans (of_decide_eq_true (List.mem_filter.mp inAfter).2).symm)
  refine ofAccount.filterMap _ fun before after ordered kept handed keptAfter handedAfter => ?_
  rw [txAfterCheck_blockchainTxId handed, txAfterCheck_blockchainTxId handedAfter]
  exact ordered

/-! ### When the mempool comes first -/

/-- As long as the scans store each transaction behind those that are earlier in the blockchain,
the mempool comes first in every response. Whatever the scans have done, it does exactly if the
account has no part in it, or the last of the listed rows has the highest id. -/
theorem mempoolFirst_iff (events : List Balances.Event) :
    (Runs.Along Balances.step Ascends {} events →
      ∀ (backend : Backend) (body : Option Json) (world : World),
        world.db = Runs.run Balances.step {} events →
        MempoolFirst (listed (getAddressTxs backend body world).1)) ∧
    ∀ (backend : Backend) (address viewKey : String) (row : XmrAccount) (thread : SearchThread)
      (world : World) (request : Json),
      TxDetails.Live backend address viewKey row thread world →
      readCredentials backend request = .ok (address, viewKey) →
      (MempoolFirst (listed (getAddressTxs backend (some request) world).1) ↔
        backend.mempoolTxs.filter (MempoolListing.Listed backend thread
            (checkAccount backend row.id world.db)) = [] ∨
          LastHighest (handedOn backend row.id world.db)) := by
  constructor
  · intro ascends backend body world reached
    have ascending := ascending_run events ascends
    rw [← reached] at ascending
    rcases listed_cases backend body world with none | ⟨entries, mempool, list, shown, handed⟩
    · rw [none]
      exact (@mempoolFirst_listOf_iff [] [] (by simp)).mpr (.inl rfl)
    · rw [list, mempoolFirst_listOf_iff shown]
      rcases handed with none | ⟨accountId, some⟩
      · rw [none]
        exact .inr fun tx member => absurd member List.not_mem_nil
      · rw [some]
        exact .inr (ascending.lastHighest backend accountId)
  · intro backend address viewKey row thread world request live credentials
    obtain ⟨response, mempool, after, answers, describe, shown, -, -⟩ :=
      live.getAddressTxs_eq credentials
    have rows : (((world.db.selectTransactions row.id).filterMap (txAfterCheck backend)).map
        (TxDetails.entryOf (checkAccount backend row.id world.db))).map AddressTx.tx =
          handedOn backend row.id world.db := by
      rw [List.map_map]
      exact List.map_id _
    have empty : mempool = [] ↔ backend.mempoolTxs.filter (MempoolListing.Listed backend thread
        (checkAccount backend row.id world.db)) = [] := by
      rw [← List.length_eq_zero_iff, ← List.length_eq_zero_iff, describe.length_eq]
    rw [answers, ← empty, ← rows,
      ← mempoolFirst_listOf_iff fun entry member => pooled_of_get? (shown entry member)]
    simp [listed, addressTxsAnswer, Balances.Answer.get?, sessionClose, items, listOf]

/-! ### A rescan -/

/-- Each transaction pays 5 to the account. -/
def paidEach : Identifier where
  outputs tx := [{ pubKey := "k" ++ tx.hash, amount := 5 }]
  inputs _ _ := []

/-- A scan stores the transaction, which the blockchain has under the given id. -/
def scans (hash : String) (chainTxId : Nat) : Balances.Event :=
  .pass { account := Balances.account 1 "4ApA", identifier := paidEach } { currentHeight := 100 }
    { blkHeight := 10, blkTimestamp := 1600000000, isCoinbase := false } { hash }
    { chainTxId, chainIndices := [7] } [] none

/-- `c3` is in the mempool. -/
def paying : Backend :=
  { Balances.backend with
    identifier := fun _ _ => paidEach
    mempoolTxs := [(1600000100, { hash := "c3" })] }

/-- The search thread of the account. -/
def scanner : SearchThread where
  acc := Balances.account 1 "4ApA"
  address := "4ApA"
  viewkey := "c0de"
  searchedBlkNo := 10

/-- `a1` and `b2` are scanned. -/
def scannedOnce : List Balances.Event :=
  [.create (Balances.account 0 "4ApA"), scans "a1" 5, scans "b2" 9]

/-- A rescan has come to `a1` again. -/
def rescanned : List Balances.Event := scannedOnce ++ [scans "a1" 5]

/-- The tables after the events, and the search thread of the account. -/
def worldAfter (events : List Balances.Event) : World where
  db := Runs.run Balances.step {} events
  searchingThreads := [("4ApA", scanner)]

theorem worldAfter_live {events : List Balances.Event}
    (valid : (Runs.run Balances.step {} events).Valid)
    (stored : Balances.account 1 "4ApA" ∈ (Runs.run Balances.step {} events).accounts) :
    TxDetails.Live paying "4ApA" "c0de" (Balances.account 1 "4ApA") scanner
      (worldAfter events) where
  quiet := rfl
  uncleaned := rfl
  valid := valid
  stored := stored
  named := rfl
  viewkey := rfl
  live := rfl
  threadAddress := rfl
  threadViewkey := rfl
  parses := rfl

/-- After the first scan, the transaction of the mempool has the highest id. -/
theorem mempoolFirst_scannedOnce :
    MempoolFirst (listed (getAddressTxs paying (some (Balances.request "4ApA"))
      (worldAfter scannedOnce)).1) ∧
    (MempoolFirst (listed (getAddressTxs paying (some (Balances.request "4ApA"))
        (worldAfter rescanned)).1) ↔
      paying.mempoolTxs.filter (MempoolListing.Listed paying scanner
          (checkAccount paying 1 (worldAfter rescanned).db)) = [] ∨
        LastHighest (handedOn paying 1 (worldAfter rescanned).db)) := by
  refine ⟨(mempoolFirst_iff scannedOnce).1 ⟨trivial, fun _ => ?_, fun _ => ?_, trivial⟩ paying _
    (worldAfter scannedOnce) rfl, (mempoolFirst_iff rescanned).2 paying "4ApA" "c0de"
      (Balances.account 1 "4ApA") scanner (worldAfter rescanned) _
      (worldAfter_live (by decide +kernel) (by decide +kernel)) rfl⟩
  · decide +kernel
  · decide +kernel

/-- After the rescan of `a1`, the transaction of the mempool has a lower id than `b2`. -/
theorem not_mempoolFirst :
    ¬ MempoolFirst (listed (getAddressTxs paying (some (Balances.request "4ApA"))
      (worldAfter rescanned)).1) := by
  decide +kernel

end LightWallet.MempoolOrder
