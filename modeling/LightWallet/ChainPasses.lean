/-
This file says what a pass over a transaction of a window leaves, with what the
blockchain answers about its main chain. A transaction that the main chain does not
have is not stored. Of one that it has, the row gets the height of its block, where
the keys of the tables admit it.
-/

import LightWallet.MainChain
import LightWallet.Rescan

namespace LightWallet.Reorganisations

open MainChain (Pays)
open Windows (Entry entries)

/-! ### What the blockchain answers -/

/-- What the blockchain answers about the transactions of its main chain: their ids in its table,
and the global indices of their outputs. -/
structure CoreStorage where
  txId : List Block → String → Option Nat
  indices : List Block → String → List Nat

/-- The answers of the blockchain in a pass over the transaction; no statement fails. -/
def answers (core : CoreStorage) (chain : List Block) (tx : Transaction) : Outcomes :=
  match core.txId chain tx.hash with
  | some id => Rescan.answering id (core.indices chain tx.hash)
  | none => { txExistAnswers := false, indicesAnswer := false, txExistAnswersAgain := false }

/-! ### What a pass writes -/

/-- The transaction pays the account, or the ledger has a spend of it. -/
def Holds (wallet : Wallet) (ledger : Ledger) (tx : Transaction) : Prop :=
  wallet.identifier.outputs tx ≠ [] ∨
    ∃ key row, ledger.inputs key = some (passOwner wallet tx, row)

/-- Of the ledger, a pass changes only what there is of its own transaction, and takes out the
spends of the outputs of that transaction. New are outputs under the given keys, and spends of
outputs under the others. -/
structure Rewrites (owner : Owner) (paid spent : String → Prop) (before after : Ledger) : Prop where
  others : ∀ other, other ≠ owner → after.transactions other = before.transactions other
  outputs : ∀ key holder row, after.outputs key = some (holder, row) →
    before.outputs key = some (holder, row) ∨ holder = owner ∧ paid key
  inputs : ∀ key spender row, after.inputs key = some (spender, row) →
    before.inputs key = some (spender, row) ∨ spender = owner ∧ spent key.1
  keeps : ∀ key spender row, before.inputs key = some (spender, row) → spender ≠ owner →
    (∀ holder output, before.outputs key.1 = some (holder, output) → holder ≠ owner) →
    after.inputs key = some (spender, row)

section Rewrites

variable {owner : Owner} {paid spent : String → Prop} {ledger : Ledger}

theorem Rewrites.refl : Rewrites owner paid spent ledger ledger :=
  ⟨fun _ _ => rfl, fun _ _ _ => .inl, fun _ _ _ => .inl, fun _ _ _ found _ _ => found⟩

theorem rewrites_without : Rewrites owner paid spent ledger (ledger.without owner) where
  others _ differs := if_neg differs
  outputs _ _ _ found := .inl (Ledger.without_outputs_iff.mp found).1
  inputs _ _ _ found := .inl (Ledger.without_inputs_iff.mp found).1
  keeps _ _ _ found differs holders := Ledger.without_inputs_iff.mpr ⟨found, differs, holders⟩

theorem rewrites_add {row : XmrTransaction} {outputs : List XmrOutput}
    {inputs : List (String × XmrInput)} (accepts : (ledger.without owner).Accepts outputs inputs)
    (pays : ∀ output ∈ outputs, paid output.outPubKey) (spends : ∀ input ∈ inputs, spent input.1) :
    Rewrites owner paid spent ledger ((ledger.without owner).add owner row outputs inputs) where
  others other differs := by
    rw [Ledger.add_transactions, if_neg differs]
    exact if_neg differs
  outputs key holder output found := by
    rcases (Ledger.add_outputs_iff accepts).mp found with ⟨new, member, rfl, same⟩ | old
    · exact .inr ⟨(congrArg Prod.fst same).symm, pays new member⟩
    · exact .inl (Ledger.without_outputs_iff.mp old).1
  inputs key spender input found := by
    rcases (Ledger.add_inputs_iff accepts).mp found with ⟨new, member, rfl, same⟩ | old
    · exact .inr ⟨(congrArg Prod.fst same).symm, spends new member⟩
    · exact .inl (Ledger.without_inputs_iff.mp old).1
  keeps key spender input found differs holders :=
    (Ledger.add_inputs_iff accepts).mpr
      (.inr (Ledger.without_inputs_iff.mpr ⟨found, differs, holders⟩))

end Rewrites

section Pass

variable {core : CoreStorage} {wallet : Wallet} {ring : Transaction → List (String × String)}
  {chain : List Block} {status : Status} {entry : Entry} {scanned : Scanned}

/-- The pass over the transaction, with what the blockchain answers. -/
def passed (core : CoreStorage) (wallet : Wallet) (chain : List Block) (status : Status)
    (entry : Entry) (scanned : Scanned) : Exit × Scanned :=
  recordTx wallet status entry.turn.tuple entry.tx (answers core chain entry.tx) scanned

/-- A ring of the transaction has the key. -/
def InRing (ring : Transaction → List (String × String)) (tx : Transaction) (key : String) : Prop :=
  ∃ member ∈ ring tx, member.2 = key

/-- The transaction pays the account, or refers to an output that the thread knows. -/
def Recognised (wallet : Wallet) (ring : Transaction → List (String × String))
    (known : KnownOutputs) (tx : Transaction) : Prop :=
  wallet.identifier.outputs tx ≠ [] ∨ ∃ member ∈ ring tx, known.amountOf member.2 ≠ none

/-- What becomes of the transaction of a pass: nothing is recognised in it, and everything stays; or
its row goes; or it has a row with the height of its block. -/
inductive Own (wallet : Wallet) (ring : Transaction → List (String × String)) (found : Prop)
    (entry : Entry) (before after : Scanned) : Prop
  | kept (same : after.db.ledger = before.db.ledger)
      (nothing : found → ¬ Recognised wallet ring before.known entry.tx)
  | gone (row : after.db.ledger.transactions (passOwner wallet entry.tx) = none)
      (nothing : found → wallet.identifier.outputs entry.tx = [])
  | stored (row : XmrTransaction)
      (isRow : after.db.ledger.transactions (passOwner wallet entry.tx) = some row)
      (height : row.height = entry.blk.height) (isFound : found)
      (recognised : Recognised wallet ring before.known entry.tx)
      (holds : Holds wallet after.db.ledger entry.tx)

theorem recognised_iff
    (identifies : ∀ known tx, wallet.identifier.inputs known tx =
      KnownOutputs.identifyKnown known (ring tx)) :
    Recognised wallet ring scanned.known entry.tx ↔
      wallet.identifier.outputs entry.tx ≠ [] ∨ identifiedInputs wallet entry.tx scanned ≠ [] := by
  refine or_congr_right ?_
  unfold identifiedInputs
  rw [identifies]
  constructor
  · rintro ⟨member, inRing, isKnown⟩
    obtain ⟨amount, known⟩ := Option.ne_none_iff_exists'.mp isKnown
    refine List.ne_nil_of_mem (List.mem_filterMap.mpr
      ⟨member, inRing, (?_ : _ = some ⟨member.1, member.2, amount⟩)⟩)
    simp only [known, Option.map_some]
  · intro some
    obtain ⟨info, identified⟩ := List.exists_mem_of_ne_nil _ some
    obtain ⟨member, inRing, isInfo⟩ := List.mem_filterMap.mp identified
    obtain ⟨amount, known, -⟩ := Option.map_eq_some_iff.mp isInfo
    exact ⟨member, inRing, known ▸ Option.some_ne_none amount⟩

theorem inRing_of_identified
    (identifies : ∀ known tx, wallet.identifier.inputs known tx =
      KnownOutputs.identifyKnown known (ring tx))
    {info : InputInfo} (identified : info ∈ identifiedInputs wallet entry.tx scanned) :
    InRing ring entry.tx info.outPubKey := by
  unfold identifiedInputs at identified
  rw [identifies] at identified
  obtain ⟨member, inRing, isInfo⟩ := List.mem_filterMap.mp identified
  obtain ⟨amount, -, rfl⟩ := Option.map_eq_some_iff.mp isInfo
  exact ⟨member, inRing, rfl⟩

theorem answers_of_some {id : Nat} (found : core.txId chain entry.tx.hash = some id) :
    answers core chain entry.tx =
      Rescan.answering id (core.indices chain entry.tx.hash) := by
  unfold answers
  rw [found]

/-- A pass over a transaction that the main chain does not have stores nothing. -/
theorem not_stores_of_none (absent : core.txId chain entry.tx.hash = none) :
    ¬ Stores wallet status entry.turn.tuple entry.tx (answers core chain entry.tx) scanned := by
  unfold answers
  rw [absent]
  intro stores
  have rows := stores.succeeds.1
  by_cases outputs : wallet.identifier.outputs entry.tx = []
  · have inputs := stores.opens.2.1.resolve_left (not_not.mpr outputs)
    exact absurd (rows.looksUpAgain inputs (.inl outputs)) Bool.false_ne_true
  · exact absurd (rows.ofOutputs outputs).looksUp Bool.false_ne_true

/-- Nor does it put keys into the cache. -/
theorem known_of_none (absent : core.txId chain entry.tx.hash = none) :
    (passed core wallet chain status entry scanned).2.known = scanned.known := by
  unfold passed answers
  rw [absent, recordTx_known wallet status _ _ _ scanned rfl]
  unfold outputsPart
  split
  · rfl
  · have opened := openTransaction_keeps wallet entry.turn.tuple entry.tx
      { txExistAnswers := false, indicesAnswer := false, txExistAnswersAgain := false }
      (initialPass scanned)
    cases step : openTransaction wallet entry.turn.tuple entry.tx
      { txExistAnswers := false, indicesAnswer := false, txExistAnswersAgain := false }
      (initialPass scanned) with
    | leave exit left =>
      rw [step] at opened
      exact opened
    | go pass =>
      rw [step] at opened
      exact opened

theorem posts_of_some {id : Nat} (found : core.txId chain entry.tx.hash = some id)
    (valid : scanned.db.Valid) (account : scanned.db.hasAccount wallet.account.id = true)
    (indexed : Rescan.Indexed wallet entry.tx (core.indices chain entry.tx.hash)) :
    (passed core wallet chain status entry scanned).2.db.ledger =
      (Rescan.posting wallet status entry.turn.tuple entry.tx id
        (core.indices chain entry.tx.hash) scanned).post scanned.db.ledger := by
  unfold passed
  rw [answers_of_some found]
  exact Rescan.ledger_recordTx status entry.turn.tuple id valid account indexed

theorem rewrites_passed
    (identifies : ∀ known tx, wallet.identifier.inputs known tx =
      KnownOutputs.identifyKnown known (ring tx))
    (valid : scanned.db.Valid) (account : scanned.db.hasAccount wallet.account.id = true)
    (indexed : ∀ id ∈ core.txId chain entry.tx.hash,
      Rescan.Indexed wallet entry.tx (core.indices chain entry.tx.hash)) :
    Rewrites (passOwner wallet entry.tx) (Pays wallet entry.tx) (InRing ring entry.tx)
      scanned.db.ledger (passed core wallet chain status entry scanned).2.db.ledger := by
  cases found : core.txId chain entry.tx.hash with
  | none =>
    rcases recordTx_cases wallet status entry.turn.tuple entry.tx (answers core chain entry.tx)
      scanned with ⟨-, same | clears⟩ | ⟨stores, -, -⟩
    · unfold passed
      rw [same]
      exact Rewrites.refl
    · unfold passed
      rw [clears]
      rcases Completeness.ledger_clearedDb_or valid with same | without
      · rw [same]
        exact Rewrites.refl
      · rw [without]
        exact rewrites_without
    · exact absurd stores (not_stores_of_none found)
  | some id =>
    rw [posts_of_some found valid account (indexed id found)]
    unfold Posting.post
    split
    · exact Rewrites.refl
    · split
      · next admits =>
        refine rewrites_add admits.accepts (fun output member => ?_) fun spend member => ?_
        · obtain ⟨info, identified, rfl⟩ := List.mem_map.mp member
          exact ⟨info, identified, rfl⟩
        · obtain ⟨⟨info, identified, isKey⟩, -⟩ := Ledger.mem_spends member
          exact isKey ▸ inRing_of_identified identifies identified
      · exact rewrites_without

/-- What becomes of the transaction of a pass, where the keys admit what the pass stores. -/
theorem own_passed
    (identifies : ∀ known tx, wallet.identifier.inputs known tx =
      KnownOutputs.identifyKnown known (ring tx))
    (valid : scanned.db.Valid) (account : scanned.db.hasAccount wallet.account.id = true)
    (indexed : ∀ id ∈ core.txId chain entry.tx.hash,
      Rescan.Indexed wallet entry.tx (core.indices chain entry.tx.hash))
    (accepts : ∀ id ∈ core.txId chain entry.tx.hash,
      let posting := Rescan.posting wallet status entry.turn.tuple entry.tx id
        (core.indices chain entry.tx.hash) scanned
      let ledger := scanned.db.ledger.without posting.owner
      ledger.Accepts posting.outputs (posting.spends ledger)) :
    Own wallet ring (∃ id, core.txId chain entry.tx.hash = some id) entry scanned
      (passed core wallet chain status entry scanned).2 := by
  have withoutRow : (scanned.db.ledger.without (passOwner wallet entry.tx)).transactions
      (passOwner wallet entry.tx) = none := if_pos rfl
  cases found : core.txId chain entry.tx.hash with
  | none =>
    rcases recordTx_cases wallet status entry.turn.tuple entry.tx (answers core chain entry.tx)
      scanned with ⟨-, same | clears⟩ | ⟨stores, -, -⟩
    · exact .kept (congrArg Database.ledger same) nofun
    · rcases Completeness.ledger_clearedDb_or valid with same | without
      · exact .kept ((congrArg Database.ledger clears).trans same) nofun
      · refine .gone ?_ nofun
        unfold passed
        rw [clears, without]
        exact withoutRow
    · exact absurd stores (not_stores_of_none found)
  | some id =>
    have posts : (passed core wallet chain status entry scanned).2.db.ledger = _ :=
      posts_of_some found valid account (indexed id found)
    have noOutputs : (Rescan.posting wallet status entry.turn.tuple entry.tx id
        (core.indices chain entry.tx.hash) scanned).outputs = [] ↔
        wallet.identifier.outputs entry.tx = [] := List.map_eq_nil_iff
    have admitted := accepts id found
    dsimp only at admitted
    unfold Posting.post at posts
    split at posts
    · next nothing =>
      refine .kept posts fun _ recognised => ?_
      rcases (recognised_iff identifies).mp recognised with outputs | inputs
      · exact outputs (noOutputs.mp nothing.1)
      · exact inputs nothing.2
    · next something =>
      have recognised : Recognised wallet ring scanned.known entry.tx := by
        rw [recognised_iff identifies, ← not_and_or, ← noOutputs]
        exact something
      split at posts
      · next admits =>
        refine .stored _ ((congrArg (·.transactions (passOwner wallet entry.tx)) posts).trans
          (if_pos rfl)) rfl ⟨id, rfl⟩ recognised ?_
        rcases not_and_or.mp admits.something with outputs | spends
        · exact .inl (mt noOutputs.mpr outputs)
        · obtain ⟨spend, member⟩ := List.exists_mem_of_ne_nil _ spends
          refine .inr ⟨(spend.1, spend.2.keyImage), spend.2, ?_⟩
          rw [posts, Ledger.add_inputs_iff admits.accepts]
          exact .inl ⟨spend, member, rfl, rfl⟩
      · next refused =>
        refine .gone (by rw [posts]; exact withoutRow) fun _ => ?_
        by_contra outputs
        exact refused ⟨fun nothing => outputs (noOutputs.mp nothing.1), admitted⟩

/-- The keys that are new in the cache are paid by the transaction. -/
theorem cached_passed (valid : scanned.db.Valid)
    (account : scanned.db.hasAccount wallet.account.id = true)
    (indexed : ∀ id ∈ core.txId chain entry.tx.hash,
      Rescan.Indexed wallet entry.tx (core.indices chain entry.tx.hash)) {key : String}
    (isKnown : (passed core wallet chain status entry scanned).2.known.amountOf key ≠ none) :
    scanned.known.amountOf key ≠ none ∨ Pays wallet entry.tx key := by
  cases found : core.txId chain entry.tx.hash with
  | none =>
    rw [known_of_none found] at isKnown
    exact .inl isKnown
  | some id =>
    have known : (passed core wallet chain status entry scanned).2.known =
        scanned.known.insertAll (wallet.identifier.outputs entry.tx) := by
      unfold passed
      rw [answers_of_some found]
      exact Rescan.recordTx_known status entry.turn.tuple id valid account (indexed id found)
    rw [known, KnownOutputs.amountOf_insertAll] at isKnown
    by_cases old : scanned.known.amountOf key = none
    · rw [old, Option.none_or] at isKnown
      obtain ⟨amount, isAmount⟩ := Option.ne_none_iff_exists'.mp isKnown
      obtain ⟨info, isInfo, -⟩ := Option.map_eq_some_iff.mp isAmount
      have isKey := List.find?_some isInfo
      exact .inr ⟨info, List.mem_of_find?_eq_some isInfo, of_decide_eq_true isKey⟩
    · exact .inl old

theorem Recognised.mono {known grown : KnownOutputs} (within : known.Within grown)
    {tx : Transaction} (recognised : Recognised wallet ring known tx) :
    Recognised wallet ring grown tx := by
  refine recognised.imp_right fun ⟨member, inRing, isKnown⟩ => ⟨member, inRing, ?_⟩
  obtain ⟨amount, found⟩ := Option.ne_none_iff_exists'.mp isKnown
  rw [within _ amount found]
  exact Option.some_ne_none amount

end Pass

/-! ### Rows by their hashes -/

theorem exists_row {db : Database} (valid : db.Valid) {accountId : Nat} {hash : String}
    {row : XmrTransaction} :
    db.ledger.transactions ⟨hash, accountId⟩ = some row ↔
      ∃ tx ∈ db.selectTransactions accountId, tx.hash = hash ∧ tx.unnumbered = row := by
  rw [Database.ledger_transactions_iff valid]
  constructor
  · rintro ⟨tx, inRows, owner, rfl⟩
    obtain ⟨isHash, account⟩ := Owner.mk.inj owner
    exact ⟨tx, List.mem_filter.mpr ⟨inRows, decide_eq_true account⟩, isHash, rfl⟩
  · rintro ⟨tx, selected, rfl, rfl⟩
    obtain ⟨inRows, account⟩ := List.mem_filter.mp selected
    exact ⟨tx, inRows, congrArg (Owner.mk tx.hash) (of_decide_eq_true account), rfl⟩

/-- Every output belongs to a transaction that has a row. -/
theorem exists_holder {db : Database} (valid : db.Valid) {key : String} {owner : Owner}
    {output : XmrOutput} (found : db.ledger.outputs key = some (owner, output)) :
    ∃ row, db.ledger.transactions owner = some row := by
  obtain ⟨_, -, -, owned, -⟩ := (Database.ledger_outputs_iff valid).mp found
  obtain ⟨tx, inRows, -, isOwner⟩ := (Database.ownerOf_eq_some_iff valid).mp owned
  exact ⟨tx.unnumbered, (Database.ledger_transactions_iff valid).mpr ⟨tx, inRows, isOwner, rfl⟩⟩

end LightWallet.Reorganisations
