/-
This file settles whether every transaction of the blocks that are scanned is recorded.

The loop passes over the transactions of a window and, at its end, writes the height of
the window into the row of the account. A pass that throws ends the loop before that.
But a pass whose insertion of outputs or of inputs puts in no row is left by `continue`,
with nothing recorded of its transaction, and the loop goes on and advances.
-/

import LightWallet.Ledger
import LightWallet.Refusals
import LightWallet.SearchThread
import LightWallet.Windows

namespace LightWallet.Completeness

open Windows (Entry Outside entries)

/-! ### A run of the search loop -/

/-- The window that is scanned: its blocks, its end, and the transactions that are still to be
passed over. -/
structure Window where
  blocks : List Block
  h2 : Nat
  rest : List Entry

/-- A transaction that was passed over, and the tables that the pass has met. -/
structure Visit where
  tx : Transaction
  met : Database

/-- The search loop. `blocks` are those of the windows it has come to the end of, and `visits` has
the last pass over each transaction. -/
structure State where
  scanned : Scanned
  thread : SearchThread
  window : Option Window := none
  blocks : List Block := []
  visits : List Visit := []
  ended : Bool := false

/-- A window is read, of which the blocks or their transactions may be missing; a pass goes over
the next transaction; the end of the window is reached; others write to the tables. -/
inductive Event where
  | fetch (read : Option (List Block)) (h2 : Nat)
  | pass (outside : Outside)
  | finish (answers : Bool)
  | others (write : Database → Database) (valid : ∀ db, db.Valid → (write db).Valid)

/-- The next transaction of the window, and the window without it. -/
def State.next (state : State) : Option (Entry × Window) :=
  match state.window with
  | some ⟨blocks, h2, entry :: rest⟩ => some (entry, ⟨blocks, h2, rest⟩)
  | _ => none

/-- What the pass over a transaction meets. -/
def State.facing (state : State) (outside : Outside) : Scanned :=
  { state.scanned with db := outside.others state.scanned.db }

/-- The pass over a transaction. -/
def passOver (wallet : Wallet) (state : State) (outside : Outside) (entry : Entry) :
    Exit × Scanned :=
  recordTx wallet outside.status entry.turn.tuple entry.tx outside.outcomes (state.facing outside)

/-- An exception ends the loop; `continue` goes on as the end of the pass does. -/
def State.after (state : State) (visit : Visit) (window : Window) : Exit × Scanned → State
  | (.thrown _, scanned) => { state with scanned, window := none, ended := true }
  | (_, scanned) =>
    { state with
      scanned
      window := some window
      visits := visit :: state.visits.filter (·.tx ≠ visit.tx) }

/-- A fetch starts a window when there is none; a pass takes its next transaction. -/
def step (wallet : Wallet) (state : State) : Event → State
  | .fetch read h2 =>
    if state.ended ∨ state.window.isSome then state
    else
      match read with
      | none => { state with ended := true }
      | some [] => state
      | some blocks =>
        { state with
          scanned := { state.scanned with blkTimestamp := none }
          window := some ⟨blocks, h2, entries blocks⟩ }
  | .pass outside =>
    match state.next with
    | none => state
    | some (entry, window) =>
      state.after ⟨entry.tx, (state.facing outside).db⟩ window (passOver wallet state outside entry)
  | .finish answers =>
    match state.window with
    | some ⟨blocks, h2, []⟩ =>
      let saved := SearchThread.endOfWindow answers h2
        ((blocks.getLast?.map Block.timestamp).getD 0) state.scanned.db state.thread
      { state with
        scanned := { state.scanned with db := saved.1 }
        thread := saved.2
        window := none
        blocks := state.blocks ++ blocks }
    | _ => state
  | .others write _ => { state with scanned := { state.scanned with db := write state.scanned.db } }

/-! ### The property -/

section Property

variable (wallet : Wallet) (ring : Transaction → List (String × String))

/-- A ring member, under the key image of its input, is an output that was recorded for the account
with another transaction. -/
def RefersTo (visit : Visit) (member : String × String) : Prop :=
  ∃ owner row, visit.met.ledger.outputs member.2 = some (owner, row) ∧
    row.accountId = wallet.account.id ∧ owner ≠ passOwner wallet visit.tx

/-- There is something to record of a transaction. -/
def Concerns (visit : Visit) : Prop :=
  wallet.identifier.outputs visit.tx ≠ [] ∨ ∃ member ∈ ring visit.tx, RefersTo wallet visit member

/-- The tables have the row of the transaction, the row of each identified output, and the row of
each spend. -/
structure Complete (visit : Visit) (ledger : Ledger) : Prop where
  transaction : ledger.transactions (passOwner wallet visit.tx) ≠ none
  outputs : ∀ info ∈ wallet.identifier.outputs visit.tx, ∃ row,
    ledger.outputs info.pubKey = some (passOwner wallet visit.tx, row)
  inputs : ∀ member ∈ ring visit.tx, RefersTo wallet visit member → ∃ row,
    ledger.inputs (member.2, member.1) = some (passOwner wallet visit.tx, row)

/-- Of the blocks up to the stored height that were scanned, every transaction was passed over, and
is recorded if there is something to record. -/
def ScanComplete (state : State) : Prop :=
  ∀ blk ∈ state.blocks,
    (∃ row ∈ state.scanned.db.accounts, row.id = wallet.account.id ∧
      blk.height ≤ row.scannedBlockHeight) →
    ∀ tx ∈ blk.minerTx :: blk.txs, ∃ visit ∈ state.visits, visit.tx = tx ∧
      (Concerns wallet ring visit → Complete wallet ring visit state.scanned.db.ledger)

end Property

/-! ### What a pass and the others keep -/

/-- The rows of a transaction stay, under their keys. -/
structure Keeps (owner : Owner) (before after : Ledger) : Prop where
  transaction : before.transactions owner ≠ none → after.transactions owner ≠ none
  outputs : ∀ key row, before.outputs key = some (owner, row) →
    ∃ row, after.outputs key = some (owner, row)
  inputs : ∀ key row, before.inputs key = some (owner, row) →
    ∃ row, after.inputs key = some (owner, row)

theorem Keeps.refl (owner : Owner) (ledger : Ledger) : Keeps owner ledger ledger :=
  ⟨id, fun _ row found => ⟨row, found⟩, fun _ row found => ⟨row, found⟩⟩

theorem Keeps.trans {owner : Owner} {first second third : Ledger} (here : Keeps owner first second)
    (there : Keeps owner second third) : Keeps owner first third where
  transaction found := there.transaction (here.transaction found)
  outputs key row found := by
    obtain ⟨between, kept⟩ := here.outputs key row found
    exact there.outputs key between kept
  inputs key row found := by
    obtain ⟨between, kept⟩ := here.inputs key row found
    exact there.inputs key between kept

theorem Complete.mono {wallet : Wallet} {ring : Transaction → List (String × String)}
    {visit : Visit} {before after : Ledger} (complete : Complete wallet ring visit before)
    (keeps : Keeps (passOwner wallet visit.tx) before after) :
    Complete wallet ring visit after where
  transaction := keeps.transaction complete.transaction
  outputs info identified := by
    obtain ⟨row, found⟩ := complete.outputs info identified
    exact keeps.outputs _ row found
  inputs member inRing refers := by
    obtain ⟨row, found⟩ := complete.inputs member inRing refers
    exact keeps.inputs _ row found

/-- Taking a transaction out keeps the others, as far as they do not spend its outputs. -/
theorem keeps_without {ledger : Ledger} {owner other : Owner} (differs : other ≠ owner)
    (notSpent : ∀ key entry output, ledger.inputs key = some entry →
      ledger.outputs key.1 = some output → output.1 = owner → entry.1 = owner) :
    Keeps other ledger (ledger.without owner) where
  transaction found := by
    obtain ⟨row, isRow⟩ := Option.ne_none_iff_exists'.mp found
    rw [Ledger.without_transactions_iff.mpr ⟨isRow, differs⟩]
    exact Option.some_ne_none row
  outputs key row found := ⟨row, Ledger.without_outputs_iff.mpr ⟨found, differs⟩⟩
  inputs key row found := ⟨row, Ledger.without_inputs_iff.mpr ⟨found, differs,
    fun holder output holds same => differs (notSpent key _ _ found holds same)⟩⟩

/-- Adding a transaction that the keys admit keeps the others. -/
theorem keeps_add {ledger : Ledger} {owner other : Owner} (differs : other ≠ owner)
    {row : XmrTransaction} {outputs : List XmrOutput} {inputs : List (String × XmrInput)}
    (accepts : ledger.Accepts outputs inputs) :
    Keeps other ledger (ledger.add owner row outputs inputs) where
  transaction found := by
    rw [Ledger.add_transactions, if_neg differs]
    exact found
  outputs key row found := ⟨row, (Ledger.add_outputs_iff accepts).mpr (.inr found)⟩
  inputs key row found := ⟨row, (Ledger.add_inputs_iff accepts).mpr (.inr found)⟩

/-- What the others write leaves the rows of the account and its address, and adds no output. -/
structure Spares (accountId : Nat) (before after : Database) : Prop where
  keeps : ∀ owner : Owner, owner.accountId = accountId → Keeps owner before.ledger after.ledger
  addsNone : ∀ key owner row, after.ledger.outputs key = some (owner, row) →
    row.accountId = accountId → before.ledger.outputs key = some (owner, row)
  address : ∀ row ∈ after.accounts, row.id = accountId →
    ∃ old ∈ before.accounts, old.id = accountId ∧ old.address = row.address

theorem Spares.refl (accountId : Nat) (db : Database) : Spares accountId db db :=
  ⟨fun owner _ => Keeps.refl owner _, fun _ _ _ found _ => found,
    fun row member id => ⟨row, member, id, rfl⟩⟩

/-! ### A pass -/

section Pass

variable (wallet : Wallet) (status : Status) (tuple : TxTuple) (tx : Transaction)
  (outcomes : Outcomes) (scanned : Scanned)

/-- A pass that takes out the rows of an earlier scan writes them again, and nobody else has spent
the outputs that it takes out. -/
structure Replaces : Prop where
  succeeds : StepsSucceed wallet status tuple tx outcomes scanned
    (clearedDb wallet tx outcomes scanned.db)
  notSpent : ∀ key entry output, scanned.db.ledger.inputs key = some entry →
    scanned.db.ledger.outputs key.1 = some output → output.1 = passOwner wallet tx →
      entry.1 = passOwner wallet tx

/-- The lookups of outputs answer, every insertion of several rows that the pass gets to puts in
some, and rows of an earlier scan are replaced. -/
structure Lossless : Prop where
  answers : ∀ index, outcomes.outputExistsAnswers index = true
  inserts : Opens wallet tx outcomes scanned →
    ¬ Refuses wallet status tuple tx outcomes scanned (clearedDb wallet tx outcomes scanned.db)
  replaces : Opens wallet tx outcomes scanned →
    scanned.db.ledger.transactions (passOwner wallet tx) ≠ none →
      Replaces wallet status tuple tx outcomes scanned

/-- The output keys that the account has are in the cache. -/
def Cached (accountId : Nat) (scanned : Scanned) : Prop :=
  ∀ key owner row, scanned.db.ledger.outputs key = some (owner, row) →
    row.accountId = accountId → scanned.known.amountOf key ≠ none

variable {wallet status tuple tx outcomes scanned}

theorem absent_of_no_row (valid : scanned.db.Valid)
    (noRow : scanned.db.ledger.transactions (passOwner wallet tx) = none) :
    scanned.db.ledger.Absent (passOwner wallet tx) := by
  refine Database.absent_ledger valid fun row member owner => ?_
  have found := (Database.ledger_transactions_iff valid).mpr ⟨row, member, owner, rfl⟩
  exact absurd (noRow.symm.trans found) nofun

theorem ledger_clearedDb_or (valid : scanned.db.Valid) :
    (clearedDb wallet tx outcomes scanned.db).ledger = scanned.db.ledger ∨
      (clearedDb wallet tx outcomes scanned.db).ledger =
        scanned.db.ledger.without (passOwner wallet tx) := by
  by_cases looksUp : outcomes.existsAnswers = true
  · exact .inr (ledger_clearedDb valid looksUp)
  · refine .inl ?_
    unfold clearedDb existingTx
    rw [if_neg looksUp]

/-- Where nobody else has spent its outputs, clearing a transaction keeps the others. -/
theorem Lossless.keeps_cleared (lossless : Lossless wallet status tuple tx outcomes scanned)
    (valid : scanned.db.Valid) (opens : Opens wallet tx outcomes scanned) {other : Owner}
    (differs : other ≠ passOwner wallet tx) :
    Keeps other scanned.db.ledger (scanned.db.ledger.without (passOwner wallet tx)) := by
  by_cases noRow : scanned.db.ledger.transactions (passOwner wallet tx) = none
  · rw [Ledger.without_of_absent (absent_of_no_row valid noRow)]
    exact Keeps.refl other _
  · exact keeps_without differs (lossless.replaces opens noRow).notSpent

/-- A pass keeps the rows of other transactions. -/
theorem Lossless.keeps (lossless : Lossless wallet status tuple tx outcomes scanned)
    (valid : scanned.db.Valid) {other : Owner} (differs : other ≠ passOwner wallet tx) :
    Keeps other scanned.db.ledger
      (recordTx wallet status tuple tx outcomes scanned).2.db.ledger := by
  by_cases opens : Opens wallet tx outcomes scanned
  · have cleared := lossless.keeps_cleared valid opens differs
    rcases recordTx_cases wallet status tuple tx outcomes scanned with
      ⟨-, same | clears⟩ | ⟨stores, -, fills⟩
    · rw [same]
      exact Keeps.refl other _
    · rw [clears]
      rcases ledger_clearedDb_or valid with same | without
      · rw [same]
        exact Keeps.refl other _
      · rw [without]
        exact cleared
    · rw [fills, stores.ledger valid lossless.answers]
      exact cleared.trans (keeps_add differs (stores.accepts_ledger valid lossless.answers))
  · rw [(recordTx_closed wallet status tuple tx outcomes scanned opens).2]
    exact Keeps.refl other _

/-- A pass that throws leaves every row. -/
theorem Lossless.ledger_of_thrown (lossless : Lossless wallet status tuple tx outcomes scanned)
    (valid : scanned.db.Valid)
    (thrown : (recordTx wallet status tuple tx outcomes scanned).1 ≠ .next) :
    (recordTx wallet status tuple tx outcomes scanned).2.db.ledger = scanned.db.ledger := by
  by_cases opens : Opens wallet tx outcomes scanned
  · have fails : ¬ StepsSucceed wallet status tuple tx outcomes scanned
        (clearedDb wallet tx outcomes scanned.db) := fun succeeds =>
      thrown (recordTx_stores wallet status tuple tx outcomes scanned opens succeeds).1
    have noRow : scanned.db.ledger.transactions (passOwner wallet tx) = none :=
      not_not.mp fun row => fails (lossless.replaces opens row).succeeds
    rw [(recordTx_clears wallet status tuple tx outcomes scanned opens fails).2]
    rcases ledger_clearedDb_or valid with same | without
    · exact same
    · rw [without, Ledger.without_of_absent (absent_of_no_row valid noRow)]
  · rw [(recordTx_closed wallet status tuple tx outcomes scanned opens).2]

/-- A ring member that is cached is identified. -/
theorem identified_of_refersTo {ring : Transaction → List (String × String)}
    (identifies : ∀ known tx, wallet.identifier.inputs known tx =
      KnownOutputs.identifyKnown known (ring tx))
    (cached : Cached wallet.account.id scanned) {member : String × String}
    (inRing : member ∈ ring tx) (refers : RefersTo wallet ⟨tx, scanned.db⟩ member) :
    ∃ info ∈ identifiedInputs wallet tx scanned,
      info.outPubKey = member.2 ∧ info.keyImg = member.1 := by
  obtain ⟨owner, row, found, ours, -⟩ := refers
  obtain ⟨amount, isKnown⟩ := Option.ne_none_iff_exists'.mp (cached _ owner row found ours)
  refine ⟨{ keyImg := member.1, outPubKey := member.2, amount }, ?_, rfl, rfl⟩
  unfold identifiedInputs
  rw [identifies]
  refine List.mem_filterMap.mpr ⟨member, inRing, ?_⟩
  simp only [isKnown, Option.map_some]

/-- An output that is referred to is found in the ledger without the transaction itself. -/
theorem RefersTo.without {member : String × String}
    (refers : RefersTo wallet ⟨tx, scanned.db⟩ member) :
    (scanned.db.ledger.without (passOwner wallet tx)).outputs member.2 ≠ none := by
  obtain ⟨owner, row, found, -, differs⟩ := refers
  rw [Ledger.without_outputs_iff.mpr ⟨found, differs⟩]
  exact Option.some_ne_none _

/-- A pass that stores rows stores all there are of the transaction. -/
theorem complete_of_stores {ring : Transaction → List (String × String)}
    (identifies : ∀ known tx, wallet.identifier.inputs known tx =
      KnownOutputs.identifyKnown known (ring tx))
    (valid : scanned.db.Valid) (cached : Cached wallet.account.id scanned)
    (answers : ∀ index, outcomes.outputExistsAnswers index = true)
    (stores : Stores wallet status tuple tx outcomes scanned) :
    Complete wallet ring ⟨tx, scanned.db⟩
      (filledDb wallet status tuple tx outcomes scanned).ledger := by
  have accepts := stores.accepts_ledger valid answers
  rw [stores.ledger valid answers]
  refine ⟨?_, fun info identified => ?_, fun member inRing refers => ?_⟩
  · rw [Ledger.add_transactions, if_pos rfl]
    exact Option.some_ne_none _
  · exact ⟨_, (Ledger.add_outputs_iff accepts).mpr
      (.inl ⟨_, List.mem_map.mpr ⟨info, identified, rfl⟩, rfl, rfl⟩)⟩
  · obtain ⟨info, identified, isKey, isImage⟩ :=
      identified_of_refersTo identifies cached inRing refers
    obtain ⟨entry, found⟩ := Option.ne_none_iff_exists'.mp refers.without
    have holds : ((scanned.db.ledger.without (passOwner wallet tx)).withOutputs
        (passOwner wallet tx) (storedOutputs wallet tuple tx outcomes scanned 0)).outputs
        info.outPubKey ≠ none := by
      unfold Ledger.withOutputs
      dsimp only
      rw [isKey, found]
      exact fun none => absurd (Option.or_eq_none_iff.mp none).2 (Option.some_ne_none entry)
    obtain ⟨holder, isHolder⟩ := Option.ne_none_iff_exists'.mp holds
    let spend : XmrInput :=
      { accountId := wallet.account.id, keyImage := info.keyImg, amount := holder.2.amount,
        timestamp := storedTimestamp tuple scanned }
    have spends : (info.outPubKey, spend) ∈ passSpends wallet tuple tx outcomes scanned
        (scanned.db.ledger.without (passOwner wallet tx)) := by
      refine List.mem_filterMap.mpr ⟨info, identified, ?_⟩
      rw [isHolder]
      rfl
    exact ⟨spend, (Ledger.add_inputs_iff accepts).mpr
      (.inl ⟨_, spends, Prod.ext isKey isImage, rfl⟩)⟩

/-- A pass that goes on leaves the transaction complete. -/
theorem complete_of_next {ring : Transaction → List (String × String)}
    (identifies : ∀ known tx, wallet.identifier.inputs known tx =
      KnownOutputs.identifyKnown known (ring tx))
    (valid : scanned.db.Valid) (cached : Cached wallet.account.id scanned)
    (answers : ∀ index, outcomes.outputExistsAnswers index = true)
    (next : (recordTx wallet status tuple tx outcomes scanned).1 = .next)
    (concerns : Concerns wallet ring ⟨tx, scanned.db⟩) :
    Complete wallet ring ⟨tx, scanned.db⟩
      (recordTx wallet status tuple tx outcomes scanned).2.db.ledger := by
  rcases recordTx_cases wallet status tuple tx outcomes scanned with
    ⟨idle, -⟩ | ⟨stores, -, fills⟩
  · exfalso
    by_cases opens : Opens wallet tx outcomes scanned
    · have succeeds : StepsSucceed wallet status tuple tx outcomes scanned
          (clearedDb wallet tx outcomes scanned.db) := by
        by_contra fails
        exact (recordTx_clears wallet status tuple tx outcomes scanned opens fails).1 next
      obtain ⟨noOutputs, noInputs⟩ := not_not.mp fun something =>
        idle ⟨opens, succeeds, something⟩
      rcases concerns with some | ⟨member, inRing, refers⟩
      · exact some noOutputs
      · -- the output is there, and the lookup finds it
        obtain ⟨info, identified, isKey, -⟩ :=
          identified_of_refersTo identifies cached inRing refers
        obtain ⟨output, inCleared, key⟩ : ∃ output ∈ (clearedDb wallet tx outcomes
            scanned.db).outputs, output.outPubKey = info.outPubKey := by
          obtain ⟨⟨owner, row⟩, found⟩ := Option.ne_none_iff_exists'.mp refers.without
          have inLedger : (clearedDb wallet tx outcomes scanned.db).ledger.outputs member.2 =
              some (owner, row) := by
            rcases ledger_clearedDb_or valid with same | without
            · rw [same]
              exact (Ledger.without_outputs_iff.mp found).1
            · rw [without]
              exact found
          obtain ⟨output, inOutputs, key, -⟩ :=
            (Database.ledger_outputs_iff (clearedDb_valid valid)).mp inLedger
          exact ⟨output, inOutputs, key.trans isKey.symm⟩
        unfold passInputs foundInputs at noInputs
        rw [storedOutputs_of_none wallet tuple tx outcomes scanned _ noOutputs,
          appendOutputs_nil, collectInputs_eq_filterMap _ answers, List.filterMap_eq_nil_iff]
          at noInputs
        have absent := Option.map_eq_none_iff.mp (noInputs info identified)
        exact absurd (decide_eq_true key) (List.find?_eq_none.mp absent output inCleared)
    · obtain ⟨noOutputs, noInputs⟩ :=
        (recordTx_closed wallet status tuple tx outcomes scanned opens).1 next
      rcases concerns with some | ⟨member, inRing, refers⟩
      · exact some noOutputs
      · obtain ⟨info, identified, -⟩ := identified_of_refersTo identifies cached inRing refers
        rw [noInputs] at identified
        exact List.not_mem_nil identified
  · rw [fills]
    exact complete_of_stores identifies valid cached answers stores

/-- A pass keeps the output keys of the account in the cache. -/
theorem cached_recordTx (valid : scanned.db.Valid) (cached : Cached wallet.account.id scanned)
    (answers : ∀ index, outcomes.outputExistsAnswers index = true) :
    Cached wallet.account.id (recordTx wallet status tuple tx outcomes scanned).2 := by
  have stays {key : String} {owner : Owner} {row : XmrOutput}
      (found : scanned.db.ledger.outputs key = some (owner, row))
      (ours : row.accountId = wallet.account.id) :
      (recordTx wallet status tuple tx outcomes scanned).2.known.amountOf key ≠ none := by
    obtain ⟨amount, isKnown⟩ := Option.ne_none_iff_exists'.mp (cached key owner row found ours)
    rw [recordTx_within wallet status tuple tx outcomes scanned key amount isKnown]
    exact Option.some_ne_none amount
  intro key owner row found ours
  rcases recordTx_cases wallet status tuple tx outcomes scanned with
    ⟨-, same | clears⟩ | ⟨stores, -, fills⟩
  · rw [same] at found
    exact stays found ours
  · rw [clears] at found
    rcases ledger_clearedDb_or valid with same | without
    · rw [same] at found
      exact stays found ours
    · rw [without] at found
      exact stays (Ledger.without_outputs_iff.mp found).1 ours
  · rw [fills, stores.ledger valid answers,
      Ledger.add_outputs_iff (stores.accepts_ledger valid answers)] at found
    rcases found with ⟨output, stored, rfl, -⟩ | old
    · obtain ⟨info, identified, rfl⟩ := List.mem_map.mp stored
      rw [stores.known, KnownOutputs.amountOf_insertAll]
      refine fun none => absurd (Option.or_eq_none_iff.mp none).2 ?_
      rw [Option.map_eq_none_iff, List.find?_eq_none]
      exact fun all => all info identified (decide_eq_true rfl)
    · exact stays (Ledger.without_outputs_iff.mp old).1 ours

end Pass

/-! ### Runs -/

/-- The transactions of a block. -/
def txsOf (blk : Block) : List Transaction := blk.minerTx :: blk.txs

theorem mem_entries {blocks : List Block} {entry : Entry} (member : entry ∈ entries blocks) :
    ∃ blk ∈ blocks, entry.tx ∈ txsOf blk := by
  obtain ⟨blk, inBlocks, inBlock⟩ := List.mem_flatMap.mp member
  refine ⟨blk, inBlocks, ?_⟩
  rcases List.mem_cons.mp inBlock with rfl | rest
  · exact List.mem_cons_self
  · obtain ⟨tx, inTxs, rfl⟩ := List.mem_map.mp rest
    exact List.mem_cons_of_mem _ inTxs

theorem exists_entry {blocks : List Block} {blk : Block} (inBlocks : blk ∈ blocks)
    {tx : Transaction} (member : tx ∈ txsOf blk) : ∃ entry ∈ entries blocks, entry.tx = tx := by
  rcases List.mem_cons.mp member with rfl | inTxs
  · exact ⟨_, List.mem_flatMap.mpr ⟨blk, inBlocks, List.mem_cons_self⟩, rfl⟩
  · exact ⟨⟨blk, false, tx⟩, List.mem_flatMap.mpr ⟨blk, inBlocks,
      List.mem_cons_of_mem _ (List.mem_map.mpr ⟨tx, inTxs, rfl⟩)⟩, rfl⟩

/-- The blocks that are read have transactions that there are. -/
def Reads (exist : Transaction → Prop) : Event → Prop
  | .fetch (some blocks) _ => ∀ blk ∈ blocks, ∀ tx ∈ txsOf blk, exist tx
  | _ => True

/-- Every pass is lossless, and the others leave what the account has. -/
def Met (wallet : Wallet) (state : State) : Event → Prop
  | .pass outside => ∀ entry window, state.next = some (entry, window) →
      Spares wallet.account.id state.scanned.db (outside.others state.scanned.db) ∧
        Lossless wallet outside.status entry.turn.tuple entry.tx outside.outcomes
          (state.facing outside)
  | .others write _ => Spares wallet.account.id state.scanned.db (write state.scanned.db)
  | _ => True

/-- Everything that was passed over is complete, and every transaction of the blocks was passed
over, or is still to be. -/
structure Invariant (wallet : Wallet) (ring : Transaction → List (String × String))
    (exist : Transaction → Prop) (state : State) : Prop where
  valid : state.scanned.db.Valid
  cached : Cached wallet.account.id state.scanned
  ours : state.thread.acc.id = wallet.account.id
  address : ∀ row ∈ state.scanned.db.accounts, row.id = wallet.account.id →
    row.address = state.thread.acc.address
  visited : ∀ visit ∈ state.visits, exist visit.tx
  complete : ∀ visit ∈ state.visits, Concerns wallet ring visit →
    Complete wallet ring visit state.scanned.db.ledger
  done : ∀ blk ∈ state.blocks, ∀ tx ∈ txsOf blk, ∃ visit ∈ state.visits, visit.tx = tx
  coming : ∀ window ∈ state.window, ∀ entry ∈ window.rest, exist entry.tx
  window : ∀ window ∈ state.window, ∀ blk ∈ window.blocks, ∀ tx ∈ txsOf blk,
    (∃ entry ∈ window.rest, entry.tx = tx) ∨ ∃ visit ∈ state.visits, visit.tx = tx

section Runs

variable {wallet : Wallet} {ring : Transaction → List (String × String)}
  {exist : Transaction → Prop} {state : State}

/-- What others write keeps the invariant. -/
theorem Invariant.others (invariant : Invariant wallet ring exist state) {db : Database}
    (valid : db.Valid) (spares : Spares wallet.account.id state.scanned.db db) :
    Invariant wallet ring exist { state with scanned := { state.scanned with db } } :=
  { invariant with
    valid
    cached := fun key owner row found ours =>
      invariant.cached key owner row (spares.addsNone key owner row found ours) ours
    address := fun row member id => by
      obtain ⟨old, inRows, isOurs, same⟩ := spares.address row member id
      exact same.symm.trans (invariant.address old inRows isOurs)
    complete := fun visit member concerns =>
      (invariant.complete visit member concerns).mono (spares.keeps _ rfl) }

/-- Of the transactions that were passed over, the last passes are kept. -/
theorem exists_visit {visit : Visit} {visits : List Visit} {tx : Transaction}
    (visited : tx = visit.tx ∨ ∃ old ∈ visits, old.tx = tx) :
    ∃ kept ∈ visit :: visits.filter (·.tx ≠ visit.tx), kept.tx = tx := by
  by_cases here : tx = visit.tx
  · exact ⟨visit, List.mem_cons_self, here.symm⟩
  · obtain ⟨old, member, rfl⟩ := visited.resolve_left here
    exact ⟨old, List.mem_cons_of_mem _ (List.mem_filter.mpr ⟨member, decide_eq_true here⟩), rfl⟩

theorem State.next_eq_some {entry : Entry} {window : Window}
    (next : state.next = some (entry, window)) :
    state.window = some ⟨window.blocks, window.h2, entry :: window.rest⟩ := by
  unfold State.next at next
  split at next
  · next blocks h2 first rest inWindow =>
    obtain ⟨rfl, rfl⟩ := Prod.mk.inj (Option.some.inj next)
    exact inWindow
  · cases next

/-- A pass that leaves the ledger alone and ends the loop keeps the invariant. -/
theorem Invariant.ends (invariant : Invariant wallet ring exist state) {scanned : Scanned}
    (valid : scanned.db.Valid) (cached : Cached wallet.account.id scanned)
    (accounts : scanned.db.accounts = state.scanned.db.accounts)
    (ledger : scanned.db.ledger = state.scanned.db.ledger) :
    Invariant wallet ring exist { state with scanned, window := none, ended := true } :=
  { invariant with
    valid
    cached
    address := fun row member id => invariant.address row (accounts ▸ member) id
    complete := fun visit member concerns => ledger ▸ invariant.complete visit member concerns
    coming := fun _ => nofun
    window := fun _ => nofun }

/-- A pass that leaves its transaction complete, and keeps the others, keeps the invariant. -/
theorem Invariant.goes_on
    (unique : ∀ first second, exist first → exist second → first.hash = second.hash →
      first = second)
    (invariant : Invariant wallet ring exist state) {entry : Entry} {window : Window}
    (next : state.next = some (entry, window)) {scanned : Scanned} (valid : scanned.db.Valid)
    (cached : Cached wallet.account.id scanned)
    (accounts : scanned.db.accounts = state.scanned.db.accounts)
    (complete : Concerns wallet ring ⟨entry.tx, state.scanned.db⟩ →
      Complete wallet ring ⟨entry.tx, state.scanned.db⟩ scanned.db.ledger)
    (keeps : ∀ other, other ≠ passOwner wallet entry.tx →
      Keeps other state.scanned.db.ledger scanned.db.ledger) :
    Invariant wallet ring exist
      { state with
        scanned
        window := some window
        visits := ⟨entry.tx, state.scanned.db⟩ :: state.visits.filter (·.tx ≠ entry.tx) } := by
  have inWindow := State.next_eq_some next
  have here : exist entry.tx := invariant.coming _ inWindow entry List.mem_cons_self
  have old {visit : Visit} (member : visit ∈ state.visits.filter (·.tx ≠ entry.tx)) :
      visit ∈ state.visits ∧ visit.tx ≠ entry.tx :=
    ⟨(List.mem_filter.mp member).1, of_decide_eq_true (List.mem_filter.mp member).2⟩
  exact
    { valid
      cached
      ours := invariant.ours
      address := fun row member id => invariant.address row (accounts ▸ member) id
      visited := by
        intro visit member
        rcases List.mem_cons.mp member with rfl | inOld
        · exact here
        · exact invariant.visited visit (old inOld).1
      complete := by
        intro visit member concerns
        rcases List.mem_cons.mp member with rfl | inOld
        · exact complete concerns
        · obtain ⟨inVisits, differs⟩ := old inOld
          refine (invariant.complete visit inVisits concerns).mono (keeps _ fun same => ?_)
          exact differs (unique _ _ (invariant.visited visit inVisits) here (Owner.mk.inj same).1)
      done := fun blk inBlocks tx member =>
        exists_visit (.inr (invariant.done blk inBlocks tx member))
      coming := by
        intro current isCurrent other member
        obtain rfl := Option.some.inj isCurrent
        exact invariant.coming _ inWindow other (List.mem_cons_of_mem _ member)
      window := by
        intro current isCurrent blk inBlocks tx member
        obtain rfl := Option.some.inj isCurrent
        rcases invariant.window _ inWindow blk inBlocks tx member with
          ⟨other, inRest, rfl⟩ | visited
        · rcases List.mem_cons.mp inRest with rfl | later
          · exact .inr (exists_visit (.inl rfl))
          · exact .inl ⟨other, later, rfl⟩
        · exact .inr (exists_visit (.inr visited)) }

/-- A lossless pass keeps the invariant. -/
theorem Invariant.pass
    (unique : ∀ first second, exist first → exist second → first.hash = second.hash →
      first = second)
    (identifies : ∀ known tx, wallet.identifier.inputs known tx =
      KnownOutputs.identifyKnown known (ring tx))
    (invariant : Invariant wallet ring exist state) {entry : Entry} {window : Window}
    (next : state.next = some (entry, window)) {status : Status} {outcomes : Outcomes}
    (lossless : Lossless wallet status entry.turn.tuple entry.tx outcomes state.scanned) :
    Invariant wallet ring exist (state.after ⟨entry.tx, state.scanned.db⟩ window
      (recordTx wallet status entry.turn.tuple entry.tx outcomes state.scanned)) := by
  have valid : (recordTx wallet status entry.turn.tuple entry.tx outcomes
      state.scanned).2.db.Valid := recordTx_valid invariant.valid
  have cached : Cached wallet.account.id (recordTx wallet status entry.turn.tuple entry.tx outcomes
      state.scanned).2 := cached_recordTx invariant.valid invariant.cached lossless.answers
  cases result : recordTx wallet status entry.turn.tuple entry.tx outcomes state.scanned with
  | mk exit scanned =>
    have exits : (recordTx wallet status entry.turn.tuple entry.tx outcomes
        state.scanned).1 = exit := congrArg Prod.fst result
    have isScanned : (recordTx wallet status entry.turn.tuple entry.tx outcomes
        state.scanned).2 = scanned := congrArg Prod.snd result
    rw [isScanned] at valid cached
    have accounts : scanned.db.accounts = state.scanned.db.accounts :=
      isScanned ▸ recordTx_accounts wallet status _ _ outcomes _
    cases exit with
    | skipped =>
      obtain ⟨opens, refuses⟩ := (recordTx_skipped_iff wallet status _ _ outcomes _).mp exits
      exact absurd refuses (lossless.inserts opens)
    | thrown what =>
      refine invariant.ends valid cached accounts (isScanned ▸ lossless.ledger_of_thrown
        invariant.valid ?_)
      rw [exits]
      exact Exit.noConfusion
    | next =>
      refine invariant.goes_on unique next valid cached accounts (fun concerns => ?_)
        fun other differs => isScanned ▸ lossless.keeps invariant.valid differs
      rw [← isScanned]
      exact complete_of_next identifies invariant.valid invariant.cached lossless.answers exits
        concerns

/-- The end of a window writes to the row of the account alone. -/
theorem endOfWindow_spares {db : Database} (valid : db.Valid) {thread : SearchThread}
    (address : ∀ row ∈ db.accounts, row.id = thread.acc.id → row.address = thread.acc.address)
    (answers : Bool) (h2 blockTimestamp : Nat) :
    (thread.endOfWindow answers h2 blockTimestamp db).1.Valid ∧
      Spares thread.acc.id db (thread.endOfWindow answers h2 blockTimestamp db).1 := by
  rw [SearchThread.endOfWindow_db]
  cases answers with
  | false => exact ⟨valid, Spares.refl _ db⟩
  | true =>
    let updated := SearchThread.scannedTo thread.acc h2 blockTimestamp
    show (db.updateAccount thread.acc updated).2.Valid ∧
      Spares thread.acc.id db (db.updateAccount thread.acc updated).2
    constructor
    · by_cases present : ∃ row ∈ db.accounts, row.id = thread.acc.id
      · obtain ⟨row, member, id⟩ := present
        exact valid.updateAccount member id rfl (address row member id).symm
      · rw [Database.updateAccount_eq_of_count_eq_zero]
        · exact valid
        · refine List.length_eq_zero_iff.mpr
            (List.filter_eq_nil_iff.mpr fun row member changed => ?_)
          exact present ⟨row, member, (of_decide_eq_true changed).1⟩
    · refine { Spares.refl thread.acc.id db with address := fun row member id => ?_ }
      obtain ⟨old, inRows, rfl⟩ := List.mem_map.mp member
      by_cases here : old.id = thread.acc.id
      · refine ⟨old, inRows, here, ?_⟩
        rw [if_pos here]
        exact address old inRows here
      · rw [if_neg here] at id
        exact absurd id here

/-- The end of a window keeps the invariant. -/
theorem Invariant.finish (invariant : Invariant wallet ring exist state) {blocks : List Block}
    {h2 : Nat} (inWindow : state.window = some ⟨blocks, h2, []⟩) (answers : Bool)
    (blockTimestamp : Nat) :
    Invariant wallet ring exist
      { state with
        scanned := { state.scanned with
          db := (state.thread.endOfWindow answers h2 blockTimestamp state.scanned.db).1 }
        thread := (state.thread.endOfWindow answers h2 blockTimestamp state.scanned.db).2
        window := none
        blocks := state.blocks ++ blocks } := by
  have addresses := invariant.address
  rw [← invariant.ours] at addresses
  obtain ⟨valid, spares⟩ := endOfWindow_spares invariant.valid addresses answers h2 blockTimestamp
  rw [invariant.ours] at spares
  have written := invariant.others valid spares
  have acc : (state.thread.endOfWindow answers h2 blockTimestamp state.scanned.db).2.acc.id =
        state.thread.acc.id ∧
      (state.thread.endOfWindow answers h2 blockTimestamp state.scanned.db).2.acc.address =
        state.thread.acc.address := by
    rw [SearchThread.endOfWindow_acc]
    split <;> exact ⟨rfl, rfl⟩
  exact
    { written with
      ours := acc.1.trans invariant.ours
      address := fun row member id => (written.address row member id).trans acc.2.symm
      done := fun blk inBlocks tx member => by
        rcases List.mem_append.mp inBlocks with old | inWindowBlocks
        · exact invariant.done blk old tx member
        · rcases invariant.window _ inWindow blk inWindowBlocks tx member with
            ⟨_, inRest, -⟩ | visited
          · exact absurd inRest List.not_mem_nil
          · exact visited
      coming := fun _ => nofun
      window := fun _ => nofun }

/-- Every step that meets the condition keeps the invariant. -/
theorem step_invariant
    (unique : ∀ first second, exist first → exist second → first.hash = second.hash →
      first = second)
    (identifies : ∀ known tx, wallet.identifier.inputs known tx =
      KnownOutputs.identifyKnown known (ring tx))
    (invariant : Invariant wallet ring exist state) (event : Event) (reads : Reads exist event)
    (met : Met wallet state event) : Invariant wallet ring exist (step wallet state event) := by
  cases event with
  | fetch read h2 =>
    unfold step
    dsimp only
    split
    · exact invariant
    · split
      · exact { invariant with }
      · exact invariant
      · next blocks _ =>
        exact
          { invariant with
            cached := invariant.cached
            coming := fun current isCurrent entry member => by
              obtain rfl := Option.some.inj isCurrent
              obtain ⟨blk, inBlocks, inBlock⟩ := mem_entries member
              exact reads blk inBlocks _ inBlock
            window := fun current isCurrent blk inBlocks tx member => by
              obtain rfl := Option.some.inj isCurrent
              exact .inl (exists_entry inBlocks member) }
  | pass outside =>
    unfold step
    dsimp only
    split
    · exact invariant
    · next entry window next =>
      obtain ⟨spares, lossless⟩ := met entry window next
      have facing := invariant.others (outside.valid _ invariant.valid) spares
      have passed := facing.pass unique identifies next lossless
      exact passed
  | finish answers =>
    unfold step
    dsimp only
    split
    · next blocks h2 inWindow => exact invariant.finish inWindow answers _
    · exact invariant
  | others write valid => exact invariant.others (valid _ invariant.valid) met

end Runs

open KnownOutputs (walletOf)

/-- A search thread that was just constructed, on the given tables. -/
def started (db : Database) (thread : SearchThread) : State where
  scanned := { db, known := thread.known }
  thread := thread

theorem acc_of_constructed {backend : Backend} {acc : XmrAccount} {world : World}
    {thread : SearchThread} (constructed : (constructTxSearch backend acc world).1 = some thread) :
    thread.acc = acc := by
  unfold constructTxSearch at constructed
  split at constructed
  · rw [Handler.bind_apply] at constructed
    rw [← Option.some.inj constructed]
  · cases constructed

/-- In every run of the search loop in which every pass is lossless, and the others leave what the
account has, the scan is complete in every state that is reached. -/
theorem scanComplete_run (backend : Backend) (acc : XmrAccount) (db : Database)
    (throwing : List Bool) (thread : SearchThread) (valid : db.Valid)
    (read : { acc with viewkey := "" } ∈ db.accounts)
    (constructed : (constructTxSearch backend acc { db, throwing }).1 = some thread)
    (quiet : ({ db, throwing } : World).throws = true → db.selectOutputs acc.id = [])
    (ring : Transaction → List (String × String))
    (identifies : ∀ known tx, (walletOf backend acc).identifier.inputs known tx =
      KnownOutputs.identifyKnown known (ring tx))
    (exist : Transaction → Prop)
    (unique : ∀ first second, exist first → exist second → first.hash = second.hash →
      first = second)
    (events : List Event) (reads : ∀ event ∈ events, Reads exist event)
    (met : Runs.Along (step (walletOf backend acc)) (Met (walletOf backend acc))
      (started db thread) events) :
    ScanComplete (walletOf backend acc) ring
      (Runs.run (step (walletOf backend acc)) (started db thread) events) := by
  have isAcc : thread.acc = acc := acc_of_constructed constructed
  have covers := (KnownOutputs.covers_constructed_iff valid constructed).mpr quiet
  have initially : Invariant (walletOf backend acc) ring exist (started db thread) :=
    { valid
      cached := fun key owner row found ours => by
        obtain ⟨output, member, rfl, -, rfl⟩ := (Database.ledger_outputs_iff valid).mp found
        have isKnown : thread.known.amountOf output.outPubKey = some output.amount :=
          covers output member ours
        exact fun none => absurd (none.symm.trans isKnown) nofun
      ours := congrArg XmrAccount.id isAcc
      address := fun row member id => by
        rw [valid.accountIds.eq_of_key member read id]
        exact (congrArg XmrAccount.address isAcc).symm
      visited := fun _ => nofun
      complete := fun _ => nofun
      done := fun _ => nofun
      coming := fun _ => nofun
      window := fun _ => nofun }
  have invariant := Runs.run_invariant (step (walletOf backend acc))
    (fun state event => Reads exist event ∧ Met (walletOf backend acc) state event)
    (Invariant (walletOf backend acc) ring exist)
    (fun state event holds both => step_invariant unique identifies holds event both.1 both.2)
    events _ initially (Runs.along_and_of_forall reads met)
  intro blk inBlocks _ tx member
  obtain ⟨visit, inVisits, isTx⟩ := invariant.done blk inBlocks tx member
  exact ⟨visit, inVisits, isTx, invariant.complete visit inVisits⟩

/-! ### Two transactions with the same key -/

open KnownOutputs (payer account accounts threaded)

/-- A block whose transactions pay one key. -/
def paying (txs : List Transaction) : Block where
  height := 10
  timestamp := 1600000000
  minerTx := { hash := "a1" }
  txs := txs

/-- A pass in which every call answers, and nobody else writes. -/
def answered : Event :=
  .pass { outcomes := { chainIndices := [7] }, valid := fun _ valid => valid }

/-- The scan of the block. -/
def scan (txs : List Transaction) : List Event :=
  .fetch (some [paying txs]) 10 :: (txsOf (paying txs)).map (fun _ => answered) ++ [.finish true]

/-- The state that the scan ends in. -/
def scanned (txs : List Transaction) : State :=
  Runs.run (step (walletOf payer account)) (started accounts threaded) (scan txs)

/-- A block with one transaction. -/
theorem scanComplete_run_one :
    ScanComplete (walletOf payer account) (fun _ => []) (scanned []) := by
  refine scanComplete_run payer account accounts [] threaded (by decide) (by decide)
    (by decide +kernel) (by decide) (fun _ => []) (fun _ _ => rfl)
    (fun tx => tx = { hash := "a1" }) (fun first second isFirst isSecond _ =>
      isFirst.trans isSecond.symm) (scan []) ?_ ⟨trivial, ?_, trivial, trivial⟩
  · intro event member
    rcases List.mem_cons.mp member with rfl | rest
    · intro blk inBlocks tx inBlock
      rw [List.mem_singleton.mp inBlocks] at inBlock
      exact List.mem_singleton.mp inBlock
    · rcases List.mem_cons.mp rest with rfl | last
      · trivial
      · rw [List.mem_singleton.mp last]
        trivial
  · intro entry window next
    have pair : (⟨paying [], true, { hash := "a1" }⟩, ⟨[paying []], 10, []⟩) = (entry, window) :=
      Option.some.inj next
    obtain ⟨rfl, rfl⟩ := Prod.mk.inj pair
    refine ⟨Spares.refl _ _, fun _ => rfl, fun opens refuses => ?_, fun _ recorded => ?_⟩
    · exact absurd ((recordTx_skipped_iff _ _ _ _ _ _).mpr ⟨opens, refuses⟩) (by decide +kernel)
    · exact absurd rfl recorded

/-- The insertion of the second output puts in no row, and the loop advances. -/
theorem not_scanComplete :
    (constructTxSearch payer account { db := accounts }).1 = some threaded ∧
      ¬ ScanComplete (walletOf payer account) (fun _ => []) (scanned [{ hash := "a2" }]) := by
  refine ⟨by decide +kernel, fun complete => ?_⟩
  obtain ⟨visit, -, isTx, records⟩ := complete (paying [{ hash := "a2" }]) (by decide +kernel)
    (by decide +kernel) { hash := "a2" } (by decide)
  have recorded := (records (.inl (List.cons_ne_nil _ _))).transaction
  rw [isTx] at recorded
  have absent : ((scanned [{ hash := "a2" }]).scanned.db.ledger.transactions
      (passOwner (walletOf payer account) { hash := "a2" })).isNone = true := by decide +kernel
  exact recorded (Option.isNone_iff_eq_none.mp absent)

end LightWallet.Completeness
