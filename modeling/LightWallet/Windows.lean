/-
This file settles what the rows of a scan window say of the blocks.

A window is flattened into three parallel vectors, and the loop reads height, time and
coinbase flag of a transaction from them. The time, though, is stored through an object
that is created once in a window, for the first transaction in which something is
identified, and is not created anew for the next block. Rows of later blocks carry the
time of that first block.
-/

import LightWallet.KnownOutputs
import LightWallet.Runs
import LightWallet.Vectors

namespace LightWallet.Windows

open Vectors

/-! ### The loop -/

/-- The turns of the loop over the vectors. -/
def turns (vectors : TxVectors) : List Turn :=
  (vectors.txsData.zip (vectors.txsHashes.zip vectors.txs)).map fun read =>
    ⟨read.1, read.2.1, read.2.2⟩

/-- What a turn meets: the tip of the chain and the clock, the answers of its calls, and what the
requests and the other search threads have done to the tables before it. -/
structure Outside where
  status : Status := { currentHeight := 0 }
  outcomes : Outcomes := {}
  others : Database → Database := id
  valid : ∀ db, db.Valid → (others db).Valid

/-- What the turns of the window hand on. An exception ends the loop. -/
structure State where
  scanned : Scanned
  thrown : Bool := false

/-- The tables when the turn begins. -/
def State.facing (state : State) (outside : Outside) : Scanned :=
  { state.scanned with db := outside.others state.scanned.db }

/-- One turn of the loop, with the hash that is read from the vector. -/
def turn (wallet : Wallet) (state : State) (outside : Outside) (turn : Turn) :
    Exit × Scanned :=
  recordTx wallet outside.status turn.tuple { turn.tx with hash := turn.hash } outside.outcomes
    (state.facing outside)

/-- A transaction of a block, as the window has it: with its block, and whether it is the miner
transaction. -/
structure Entry where
  blk : Block
  coinbase : Bool
  tx : Transaction

/-- The transactions of the blocks, in their order. -/
def entries (blocks : List Block) : List Entry :=
  blocks.flatMap fun blk => ⟨blk, true, blk.minerTx⟩ :: blk.txs.map fun tx => ⟨blk, false, tx⟩

/-- A turn, what it meets, and the transaction of the window that it is about. -/
structure Event where
  entry : Entry
  turn : Turn
  outside : Outside

/-- A turn, unless an exception has ended the loop. -/
def step (wallet : Wallet) (state : State) (event : Event) : State :=
  if state.thrown then state
  else
    match turn wallet state event.outside event.turn with
    | (.thrown _, scanned) => { scanned, thrown := true }
    | (_, scanned) => { scanned }

/-- The turns of a window, side by side with the transactions of its blocks. -/
def events (blocks : List Block) (read : List Turn) (outsides : List Outside) : List Event :=
  ((entries blocks).zip (read.zip outsides)).map fun entry => ⟨entry.1, entry.2.1, entry.2.2⟩

/-! ### The property -/

/-- The rows that a turn has written carry what belongs to the transaction and to its block. -/
structure Describes (entry : Entry) (before after : Database) : Prop where
  transactions : ∀ row ∈ after.transactions, row ∉ before.transactions →
    row.timestamp = entry.blk.timestamp ∧ row.height = entry.blk.height ∧
      row.coinbase = entry.coinbase ∧
      row.unlockTime =
        if entry.tx.unlockTime = 0 then entry.blk.height + defaultTxSpendableAge
        else entry.tx.unlockTime
  outputs : ∀ output ∈ after.outputs, output ∉ before.outputs →
    output.timestamp = entry.blk.timestamp
  inputs : ∀ input ∈ after.inputs, input ∉ before.inputs → input.timestamp = entry.blk.timestamp

instance (entry : Entry) (before after : Database) : Decidable (Describes entry before after) :=
  decidable_of_iff
    ((∀ row ∈ after.transactions, row ∉ before.transactions →
        row.timestamp = entry.blk.timestamp ∧ row.height = entry.blk.height ∧
          row.coinbase = entry.coinbase ∧
          row.unlockTime =
            if entry.tx.unlockTime = 0 then entry.blk.height + defaultTxSpendableAge
            else entry.tx.unlockTime) ∧
      (∀ output ∈ after.outputs, output ∉ before.outputs →
        output.timestamp = entry.blk.timestamp) ∧
      ∀ input ∈ after.inputs, input ∉ before.inputs → input.timestamp = entry.blk.timestamp)
    ⟨fun ⟨transactions, outputs, inputs⟩ => ⟨transactions, outputs, inputs⟩,
      fun describes => ⟨describes.transactions, describes.outputs, describes.inputs⟩⟩

/-- The rows that the next turn writes are right. -/
def RowsRight (wallet : Wallet) (state : State) (event : Event) : Prop :=
  state.thrown = false →
    Describes event.entry (state.facing event.outside).db
      (turn wallet state event.outside event.turn).2.db

instance (wallet : Wallet) (state : State) (event : Event) :
    Decidable (RowsRight wallet state event) :=
  inferInstanceAs (Decidable (_ → Describes _ _ _))

/-! ### The condition -/

/-- When the next turn stores rows, the object that holds the time has not been created yet, or
was created for a block of the same time. -/
def StampRight (wallet : Wallet) (state : State) (event : Event) : Prop :=
  state.thrown = false →
    Stores wallet event.outside.status event.turn.tuple
      { event.turn.tx with hash := event.turn.hash } event.outside.outcomes
      (state.facing event.outside) →
    ∀ stamp ∈ state.scanned.blkTimestamp, stamp = event.entry.blk.timestamp

/-! ### What the vectors hold -/

/-- The block as the blockchain stores it. -/
def storedBlock (blk : Block) : StoredBlock :=
  ⟨blk.height, blk.timestamp, blk.minerTx, blk.txs.map (·.hash)⟩

/-- What the loop is to read of a transaction. -/
def Entry.turn (entry : Entry) : Turn where
  tuple := ⟨entry.blk.height, entry.blk.timestamp, entry.coinbase⟩
  hash := entry.tx.hash
  tx := entry.tx

/-- The hashes that are pushed are those of the window's transactions, in their order. -/
theorem hashes_storedBlock (blocks : List Block) :
    (blocks.map storedBlock).flatMap StoredBlock.hashes =
      (entries blocks).map (·.tx.hash) := by
  induction blocks with
  | nil => rfl
  | cons blk rest inductionHypothesis =>
    rw [List.map_cons, List.flatMap_cons, inductionHypothesis]
    simp [entries, StoredBlock.hashes, storedBlock]

/-- So are the tuples. -/
theorem tuples_storedBlock (blocks : List Block) :
    (blocks.map storedBlock).flatMap StoredBlock.tuples =
      (entries blocks).map (·.turn.tuple) := by
  induction blocks with
  | nil => rfl
  | cons blk rest inductionHypothesis =>
    rw [List.map_cons, List.flatMap_cons, inductionHypothesis]
    simp [entries, Entry.turn, StoredBlock.tuples, storedBlock]

section Fetched

variable {chain : Chain} {answers : Bool} {blocks : List Block} {vectors : TxVectors}

/-- The vectors hold the transactions of the blocks, if the blockchain has nothing else under their
hashes. -/
theorem vectors_eq
    (consecutive : Consecutive ((blocks.head?.map Block.height).getD 0) (blocks.map storedBlock))
    (stored : ∀ entry ∈ entries blocks, ∀ tx ∈ chain.find entry.tx.hash, tx = entry.tx)
    (fetched : getTxsInBlocks chain answers (blocks.map storedBlock) = some vectors) :
    vectors = ⟨(entries blocks).map (·.tx.hash), (entries blocks).map (·.tx),
      (entries blocks).map (·.turn.tuple)⟩ := by
  have first : ((blocks.map storedBlock).head?.map StoredBlock.height).getD 0 =
      (blocks.head?.map Block.height).getD 0 := by
    cases blocks <;> rfl
  obtain ⟨hashes, data, found⟩ := fetched_eq (first.symm ▸ consecutive) fetched
  rw [hashes_storedBlock] at hashes
  rw [tuples_storedBlock] at data
  have known : vectors.txsHashes.map chain.find = ((entries blocks).map (·.tx)).map some := by
    rw [hashes, List.map_map, List.map_map]
    refine List.map_congr_left fun entry member => ?_
    have inHashes : entry.tx.hash ∈ vectors.txsHashes :=
      hashes ▸ List.mem_map.mpr ⟨entry, member, rfl⟩
    have inFound : chain.find entry.tx.hash ∈ vectors.txs.map some :=
      found ▸ List.mem_map_of_mem inHashes
    obtain ⟨tx, -, same⟩ := List.mem_map.mp inFound
    obtain rfl := stored entry member tx same.symm
    exact same.symm
  have txs := List.map_injective_iff.mpr (Option.some_injective _) (found.symm.trans known)
  rw [← hashes, ← data, ← txs]

/-- The turns of a window are those of the transactions of its blocks. -/
theorem turns_of_fetched
    (consecutive : Consecutive ((blocks.head?.map Block.height).getD 0) (blocks.map storedBlock))
    (stored : ∀ entry ∈ entries blocks, ∀ tx ∈ chain.find entry.tx.hash, tx = entry.tx)
    (fetched : getTxsInBlocks chain answers (blocks.map storedBlock) = some vectors) :
    turns vectors = (entries blocks).map Entry.turn := by
  rw [vectors_eq consecutive stored fetched]
  unfold turns
  rw [List.zip_map', List.zip_map', List.map_map]
  rfl

end Fetched

/-! ### One turn -/

section Turn

variable {wallet : Wallet} {status : Status} {tuple : TxTuple} {tx : Transaction}
  {outcomes : Outcomes} {scanned : Scanned}

/-- Deleting the rows of an earlier scan adds none. -/
theorem clearedDb_subset (db : Database) :
    (clearedDb wallet tx outcomes db).transactions ⊆ db.transactions ∧
      (clearedDb wallet tx outcomes db).outputs ⊆ db.outputs ∧
      (clearedDb wallet tx outcomes db).inputs ⊆ db.inputs := by
  unfold clearedDb
  split
  · exact ⟨List.Subset.refl _, List.Subset.refl _, List.Subset.refl _⟩
  · exact ⟨fun _ member => (Database.mem_deleteTx_transactions.mp member).1,
      fun _ member => (Database.mem_deleteTx_outputs.mp member).1,
      fun _ member => (Database.mem_deleteTx_inputs.mp member).1⟩

theorem clearedDb_nextTransaction (db : Database) :
    (clearedDb wallet tx outcomes db).nextTransaction = db.nextTransaction := by
  unfold clearedDb
  split <;> rfl

/-- The new rows of the outputs and the inputs carry the time of the object. -/
theorem timestamp_of_new {next txMysqlId : Nat} :
    (∀ output ∈ Database.numbered (fun (row : XmrOutput) id => { row with id }) next
        (storedOutputs wallet tuple tx outcomes scanned txMysqlId),
      output.timestamp = storedTimestamp tuple scanned) ∧
    ∀ input ∈ Database.numbered (fun (row : XmrInput) id => { row with id }) next
        (linkedInputs (passInputs wallet tuple tx outcomes scanned) txMysqlId),
      input.timestamp = storedTimestamp tuple scanned := by
  constructor
  · intro output member
    obtain ⟨row, stored, id, -, -, rfl⟩ := Database.mem_numbered _ member
    obtain ⟨info, -, rfl⟩ := List.mem_map.mp stored
    rfl
  · intro input member
    obtain ⟨row, linked, id, -, -, rfl⟩ := Database.mem_numbered _ member
    obtain ⟨found, inFound, rfl⟩ := List.mem_map.mp linked
    obtain ⟨info, -, output, -, -, rfl⟩ := mem_collectInputs inFound
    rfl

/-- A turn that reads what belongs to its transaction writes rows that describe it, exactly when
the time that it stores is the one of the block. -/
theorem describes_iff (valid : scanned.db.Valid) (entry : Entry)
    (reads : tuple = entry.turn.tuple) (sameTx : tx = entry.tx) :
    Describes entry scanned.db (recordTx wallet status tuple tx outcomes scanned).2.db ↔
      (Stores wallet status tuple tx outcomes scanned →
        ∀ stamp ∈ scanned.blkTimestamp, stamp = entry.blk.timestamp) := by
  obtain ⟨rows, outputs, inputs⟩ : _ ∧ _ ∧ _ :=
    @clearedDb_subset wallet tx outcomes scanned.db
  rcases recordTx_cases wallet status tuple tx outcomes scanned with
    ⟨storesNot, same | cleared⟩ | ⟨stores, -, filled⟩
  · rw [same]
    exact iff_of_true
      ⟨fun _ member new => absurd member new, fun _ member new => absurd member new,
        fun _ member new => absurd member new⟩ fun stores => absurd stores storesNot
  · rw [cleared]
    exact iff_of_true
      ⟨fun _ member new => absurd (rows member) new,
        fun _ member new => absurd (outputs member) new,
        fun _ member new => absurd (inputs member) new⟩
      fun stores => absurd stores storesNot
  · rw [filled]
    have stampIff : storedTimestamp tuple scanned = entry.blk.timestamp ↔
        ∀ stamp ∈ scanned.blkTimestamp, stamp = entry.blk.timestamp := by
      unfold storedTimestamp
      cases scanned.blkTimestamp with
      | none => exact iff_of_true (by rw [reads]; rfl) fun _ absent => absurd absent (by simp)
      | some stamp =>
        exact ⟨fun same other isStamp => by rw [← Option.some.inj isStamp]; exact same,
          fun all => all stamp rfl⟩
    rw [show (Stores wallet status tuple tx outcomes scanned → _) ↔ _ from
      imp_iff_right stores, ← stampIff]
    constructor
    · intro describes
      refine (describes.transactions _ (mem_filledDb_transactions.mpr (.inr rfl))
        fun old => ?_).1
      have earlier := valid.transactionFresh _ old
      rw [clearedDb_nextTransaction] at earlier
      exact Nat.lt_irrefl _ earlier
    · intro sameTime
      refine ⟨fun row member new => ?_, fun output member new => ?_, fun input member new => ?_⟩
      · rcases mem_filledDb_transactions.mp member with old | rfl
        · exact absurd (rows old) new
        · refine ⟨sameTime, ?_, ?_, ?_⟩
          all_goals
            subst sameTx reads
            rfl
      · rcases mem_filledDb_outputs.mp member with old | written
        · exact absurd (outputs old) new
        · exact (timestamp_of_new.1 output written).trans sameTime
      · rcases mem_filledDb_inputs.mp member with old | written
        · exact absurd (inputs old) new
        · exact (timestamp_of_new.2 input written).trans sameTime

end Turn

/-! ### Every window -/

theorem step_valid (wallet : Wallet) {state : State} (valid : state.scanned.db.Valid)
    (event : Event) : (step wallet state event).scanned.db.Valid := by
  have recorded : (turn wallet state event.outside event.turn).2.db.Valid :=
    recordTx_valid (event.outside.valid _ valid)
  unfold step
  split
  · exact valid
  · split <;> next same => rwa [same] at recorded

theorem mem_zip_map {First Second Third : Type} (convert : First → Second) (first : List First)
    (third : List Third) :
    ∀ triple ∈ first.zip ((first.map convert).zip third), triple.2.1 = convert triple.1 := by
  induction first generalizing third with
  | nil => exact fun _ member => absurd member List.not_mem_nil
  | cons head tail inductionHypothesis =>
    cases third with
    | nil => exact fun _ member => absurd member (by simp)
    | cons other rest =>
      intro triple member
      rcases List.mem_cons.mp member with rfl | later
      · rfl
      · exact inductionHypothesis rest triple later

section Window

variable {chain : Chain} {answers : Bool} {blocks : List Block} {vectors : TxVectors}

/-- In every window, all rows that are written carry what belongs to their transaction and its
block, exactly when every turn that stores rows finds an object for the time of its block, or
none. -/
theorem rowsRight_iff (wallet : Wallet)
    (consecutive : Consecutive ((blocks.head?.map Block.height).getD 0) (blocks.map storedBlock))
    (stored : ∀ entry ∈ entries blocks, ∀ tx ∈ chain.find entry.tx.hash, tx = entry.tx)
    (fetched : getTxsInBlocks chain answers (blocks.map storedBlock) = some vectors)
    (outsides : List Outside) {db : Database} (valid : db.Valid) (known : KnownOutputs) :
    Runs.Along (step wallet) (RowsRight wallet) { scanned := { db, known } }
        (events blocks (turns vectors) outsides) ↔
      Runs.Along (step wallet) (StampRight wallet) { scanned := { db, known } }
        (events blocks (turns vectors) outsides) := by
  rw [turns_of_fetched consecutive stored fetched]
  refine Runs.along_congr_of_mem (step wallet) (RowsRight wallet) (StampRight wallet)
    (fun state => state.scanned.db.Valid) _ (fun event member state kept => ?_) _ valid
  refine ⟨step_valid wallet kept event, ?_⟩
  obtain ⟨triple, inZip, rfl⟩ := List.mem_map.mp member
  have reads : triple.2.1 = triple.1.turn := mem_zip_map Entry.turn _ _ triple inZip
  unfold RowsRight StampRight turn
  simp only
  rw [reads]
  exact imp_congr_right fun _ =>
    describes_iff (triple.2.2.valid _ kept) triple.1 rfl rfl

/-- After an exception nothing more is done. -/
theorem run_of_thrown (wallet : Wallet) (events : List Event) {state : State}
    (thrown : state.thrown = true) : Runs.run (step wallet) state events = state := by
  induction events generalizing state with
  | nil => rfl
  | cons event rest inductionHypothesis =>
    have stays : step wallet state event = state := if_pos thrown
    rw [Runs.run_cons, stays, inductionHypothesis thrown]

/-- From any index on, the loop with the running index does what the steps over what it reads
do. -/
theorem scanTxs_eq_run (wallet : Wallet) (outsides : Nat → Outside) (events : List Event)
    (txIdx : Nat) (scanned : Scanned)
    (reads : ∀ k event, events[k]? = some event →
      vectors.txsHashes[txIdx + k]? = some event.turn.hash ∧
        vectors.txs[txIdx + k]? = some event.turn.tx ∧ outsides (txIdx + k) = event.outside) :
    (scanTxs (fun k read scanned => turn wallet { scanned } (outsides k) read) vectors
        (events.map (·.turn.tuple)) txIdx scanned).map (fun after => after.2.2) =
      some (Runs.run (step wallet) { scanned } events).scanned := by
  induction events generalizing txIdx scanned with
  | nil => rfl
  | cons event rest inductionHypothesis =>
    obtain ⟨hash, tx, outside⟩ := reads 0 event rfl
    rw [Nat.add_zero] at hash tx outside
    have later (scanned : Scanned) :=
      inductionHypothesis (txIdx + 1) scanned fun k other found => by
        rw [Nat.add_assoc, Nat.add_comm 1]
        exact reads (k + 1) other found
    have sameStep : step wallet { scanned } event = _ := if_neg Bool.false_ne_true
    rw [Runs.run_cons, sameStep, List.map_cons, scanTxs, hash, tx, outside]
    dsimp only
    rcases turn wallet { scanned } event.outside event.turn with ⟨_ | _ | what, after⟩
    · rw [← later after]
      exact Option.map_map _ _ _
    · rw [← later after]
      exact Option.map_map _ _ _
    · show some after = _
      rw [run_of_thrown wallet rest rfl]

/-- The loop of the search thread over the vectors that were fetched does what the steps of the
window do, one after another. -/
theorem scanTxs_fetched (wallet : Wallet)
    (consecutive : Consecutive ((blocks.head?.map Block.height).getD 0) (blocks.map storedBlock))
    (stored : ∀ entry ∈ entries blocks, ∀ tx ∈ chain.find entry.tx.hash, tx = entry.tx)
    (fetched : getTxsInBlocks chain answers (blocks.map storedBlock) = some vectors)
    (outsides : Nat → Outside) (scanned : Scanned) :
    (scanTxs (fun k read scanned => turn wallet { scanned } (outsides k) read) vectors
        vectors.txsData 0 scanned).map (fun after => after.2.2) =
      some (Runs.run (step wallet) { scanned } (events blocks (turns vectors)
        ((List.range vectors.txsData.length).map outsides))).scanned := by
  rw [turns_of_fetched consecutive stored fetched, vectors_eq consecutive stored fetched]
  have listed : events blocks ((entries blocks).map Entry.turn)
      ((List.range ((entries blocks).map (·.turn.tuple)).length).map outsides) =
        (entries blocks).zipIdx.map fun read => ⟨read.1, read.1.turn, outsides read.2⟩ := by
    refine List.ext_getElem (by simp [events]) fun k _ _ => ?_
    simp [events]
  have data : (entries blocks).map (·.turn.tuple) =
      ((entries blocks).zipIdx.map fun read : Entry × Nat =>
        (⟨read.1, read.1.turn, outsides read.2⟩ : Event)).map (·.turn.tuple) := by
    refine List.ext_getElem (by simp) fun k _ _ => ?_
    simp
  rw [listed, data]
  refine scanTxs_eq_run wallet outsides _ 0 scanned fun k event found => ?_
  obtain ⟨read, inEntries, rfl⟩ : ∃ read, (entries blocks)[k]? = some read ∧
      ⟨read, read.turn, outsides k⟩ = event := by
    simpa using found
  rw [Nat.zero_add, List.getElem?_map, List.getElem?_map, inEntries]
  exact ⟨rfl, rfl, rfl⟩

end Window

/-! ### The object that holds the time -/

/-- The object that a step leaves. -/
def Stamped (stamp : Option Nat) (step : Step) : Prop := step.pass.blkTimestamp = stamp

theorem Stamped.andThen {stamp : Option Nat} {step : Step} (stamped : Stamped stamp step)
    {rest : Pass → Step} (later : ∀ pass, pass.blkTimestamp = stamp → Stamped stamp (rest pass)) :
    Stamped stamp (step.andThen rest) := by
  cases step with
  | go pass => exact later pass stamped
  | leave exit pass => exact stamped

section Parts

variable (wallet : Wallet) (status : Status) (tuple : TxTuple) (tx : Transaction)
  (outcomes : Outcomes)

theorem lookUpTx_stamped (answers : Bool) (pass : Pass) :
    Stamped pass.blkTimestamp (lookUpTx tx outcomes answers pass) := by
  unfold lookUpTx
  split <;> rfl

theorem openTransaction_stamped (pass : Pass) :
    Stamped (some (pass.blkTimestamp.getD tuple.blkTimestamp))
      (openTransaction wallet tuple tx outcomes pass) := by
  have begins : Stamped (some (pass.blkTimestamp.getD tuple.blkTimestamp))
      (beginTransaction outcomes (stampBlock tuple pass)) := by
    unfold beginTransaction
    split <;> rfl
  refine begins.andThen fun pass same => ?_
  unfold deleteExistingTxIfExists
  dsimp only
  split
  · exact same
  · split <;> exact same

theorem insertTransactionRow_blkTimestamp (totalReceived totalSent : UInt64) (pass : Pass) :
    (insertTransactionRow wallet status tuple tx outcomes totalReceived totalSent
      pass).blkTimestamp = pass.blkTimestamp := by
  unfold insertTransactionRow
  dsimp only
  split <;> rfl

theorem insertOutputRows_stamped (outputs : List OutputInfo) (txMysqlId : Nat) (pass : Pass) :
    Stamped pass.blkTimestamp
      (insertOutputRows wallet tuple tx outcomes outputs txMysqlId pass) := by
  unfold insertOutputRows
  dsimp only
  split
  · rfl
  · split <;> rfl

theorem outputsPart_stamped (pass : Pass) :
    Stamped (if wallet.identifier.outputs tx = [] then pass.blkTimestamp
      else some (pass.blkTimestamp.getD tuple.blkTimestamp))
      (outputsPart wallet status tuple tx outcomes pass) := by
  unfold outputsPart
  cases wallet.identifier.outputs tx with
  | nil => exact (if_pos rfl).symm
  | cons info rest =>
    rw [if_neg (List.cons_ne_nil info rest)]
    refine ((openTransaction_stamped wallet tuple tx outcomes pass).andThen fun opened same =>
      same ▸ lookUpTx_stamped tx outcomes outcomes.txExistAnswers opened).andThen
        fun opened same => ?_
    dsimp only
    have row := (insertTransactionRow_blkTimestamp wallet status tuple tx outcomes
      (calcTotalXmr (info :: rest)) 0 opened).trans same
    split
    · split
      · exact row
      · exact row ▸ insertOutputRows_stamped wallet tuple tx outcomes _ _ _
    · exact row

theorem insertInputRows_stamped (found : List XmrInput) (pass : Pass) :
    Stamped pass.blkTimestamp (insertInputRows outcomes found pass) := by
  unfold insertInputRows
  split
  · rfl
  · split <;> rfl

theorem inputsPart_stamped (inputs : List InputInfo) (pass : Pass) :
    Stamped (if inputs = [] then pass.blkTimestamp
      else some (pass.blkTimestamp.getD tuple.blkTimestamp))
      (inputsPart wallet status tuple tx outcomes inputs pass) := by
  cases inputs with
  | nil => rfl
  | cons info rest =>
    rw [if_neg (List.cons_ne_nil info rest)]
    have opens : Stamped (some (pass.blkTimestamp.getD tuple.blkTimestamp))
        (openForInputs wallet tuple tx outcomes pass) := by
      unfold openForInputs
      refine Stamped.andThen ?_ fun opened same => ?_
      · split
        · exact openTransaction_stamped wallet tuple tx outcomes pass
        · rfl
      · split
        · exact same ▸ lookUpTx_stamped tx outcomes outcomes.txExistAnswersAgain opened
        · exact same
    refine opens.andThen fun opened same => ?_
    unfold recordFound
    split
    · exact same
    · rw [← same]
      dsimp only
      split
      · have row := insertTransactionRow_blkTimestamp wallet status tuple tx outcomes 0
        exact (insertInputRows_stamped outcomes _ _).trans (row _ opened)
      · exact insertInputRows_stamped outcomes _ opened

theorem commitTransaction_stamped (pass : Pass) :
    Stamped pass.blkTimestamp (commitTransaction outcomes pass) := by
  unfold commitTransaction
  split
  · rfl
  · split <;> rfl

/-- Something is identified in the transaction. -/
def Identifies (scanned : Scanned) : Prop :=
  outcomes.identifies = true ∧
    (wallet.identifier.outputs tx ≠ [] ∨ identifiedInputs wallet tx scanned ≠ [])

instance (scanned : Scanned) : Decidable (Identifies wallet tx outcomes scanned) :=
  inferInstanceAs (Decidable (_ ∧ (_ ∨ _)))

/-- The object is created for the first transaction in which something is identified. -/
theorem recordTx_blkTimestamp (scanned : Scanned) :
    (recordTx wallet status tuple tx outcomes scanned).2.blkTimestamp =
      if Identifies wallet tx outcomes scanned then some (storedTimestamp tuple scanned)
      else scanned.blkTimestamp := by
  have finish (step : Step) : step.finish.2.blkTimestamp = step.pass.blkTimestamp := by
    cases step <;> rfl
  unfold recordTx
  rw [finish]
  by_cases identifies : outcomes.identifies = true
  · rw [recordPass_eq wallet status tuple tx outcomes scanned identifies]
    have outputs := outputsPart_stamped wallet status tuple tx outcomes (initialPass scanned)
    by_cases none : wallet.identifier.outputs tx = []
    · rw [if_pos none] at outputs
      have passes : outputsPart wallet status tuple tx outcomes (initialPass scanned) =
          .go (initialPass scanned) := by
        unfold outputsPart
        rw [none]
      rw [passes, Step.andThen_go]
      have inputs := inputsPart_stamped wallet status tuple tx outcomes
        (identifiedInputs wallet tx scanned) (initialPass scanned)
      refine Eq.trans (inputs.andThen fun pass same =>
        same ▸ commitTransaction_stamped outcomes pass) ?_
      by_cases noInputs : identifiedInputs wallet tx scanned = []
      · have nothing : ¬ Identifies wallet tx outcomes scanned :=
          fun found => found.2.elim (· none) (· noInputs)
        rw [if_pos noInputs, if_neg nothing]
        rfl
      · have something : Identifies wallet tx outcomes scanned := ⟨identifies, .inr noInputs⟩
        rw [if_neg noInputs, if_pos something]
        rfl
    · rw [if_neg none] at outputs
      have something : Identifies wallet tx outcomes scanned := ⟨identifies, .inl none⟩
      rw [if_pos something]
      refine (outputs.andThen fun pass same => ?_).andThen fun pass same =>
        same ▸ commitTransaction_stamped outcomes pass
      have inputs := inputsPart_stamped wallet status tuple tx outcomes
        (identifiedInputs wallet tx scanned) pass
      rw [same] at inputs
      simp only [Option.getD_some, ite_self] at inputs
      exact inputs
  · unfold recordPass
    have nothing : ¬ Identifies wallet tx outcomes scanned := fun found => identifies found.1
    rw [if_neg identifies, if_neg nothing]
    rfl

end Parts

/-- The time of the block of the first transaction in which something is identified. -/
def firstStamp (wallet : Wallet) : State → List Event → Option Nat
  | _, [] => none
  | state, event :: rest =>
    if state.thrown = false ∧ Identifies wallet { event.turn.tx with hash := event.turn.hash }
        event.outside.outcomes (state.facing event.outside) then
      some event.turn.tuple.blkTimestamp
    else firstStamp wallet (step wallet state event) rest

/-- What `StampRight` looks at: the object is the one of the first transaction of the window in
which something was identified. -/
theorem run_blkTimestamp (wallet : Wallet) (state : State) (read : List Event) :
    (Runs.run (step wallet) state read).scanned.blkTimestamp =
      state.scanned.blkTimestamp.or (firstStamp wallet state read) := by
  induction read generalizing state with
  | nil => exact (Option.or_none).symm
  | cons event rest inductionHypothesis =>
    rw [Runs.run_cons, inductionHypothesis]
    have stamped : (turn wallet state event.outside event.turn).2.blkTimestamp = _ :=
      recordTx_blkTimestamp wallet event.outside.status event.turn.tuple
        { event.turn.tx with hash := event.turn.hash } event.outside.outcomes
        (state.facing event.outside)
    cases thrown : state.thrown with
    | true =>
      have stays : step wallet state event = state := if_pos thrown
      have ended : firstStamp wallet state (event :: rest) = firstStamp wallet state rest := by
        unfold firstStamp
        rw [if_neg fun identified => absurd (thrown.symm.trans identified.1) (by decide), stays]
        cases rest <;> rfl
      rw [stays, ended]
    | false =>
      have goes : (step wallet state event).scanned =
          (turn wallet state event.outside event.turn).2 := by
        unfold step
        rw [if_neg (by rw [thrown]; decide)]
        split <;> next same => rw [same]
      rw [goes, stamped, firstStamp]
      by_cases identified : Identifies wallet { event.turn.tx with hash := event.turn.hash }
          event.outside.outcomes (state.facing event.outside)
      · rw [if_pos identified, if_pos ⟨thrown, identified⟩]
        show (some (state.scanned.blkTimestamp.getD _)).or _ = _
        cases state.scanned.blkTimestamp <;> rfl
      · rw [if_neg identified, if_neg fun found => identified found.2]
        rfl

/-! ### Two blocks in a window -/

/-- Every transaction pays the account, under a key of its own. -/
def paid : Wallet where
  account := { id := 1, address := "4ApA" }
  identifier :=
    { outputs := fun tx => [{ pubKey := tx.hash, amount := 5 }]
      inputs := fun _ _ => [] }

/-- Two blocks with two minutes between them. -/
def twoBlocks : List Block :=
  [{ height := 100, timestamp := 1600000000, minerTx := { hash := "a1" }, txs := [] },
    { height := 101, timestamp := 1600000120, minerTx := { hash := "a2" }, txs := [] }]

/-- The blockchain has their miner transactions. -/
def minerChain : Chain where
  find hash := if hash ∈ ["a1", "a2"] then some { hash } else none
  hash_of_find := by
    intro hash tx found
    split at found
    · cases found
      rfl
    · cases found

/-- The vectors of the window. -/
def minerVectors : TxVectors where
  txsHashes := ["a1", "a2"]
  txs := [{ hash := "a1" }, { hash := "a2" }]
  txsData := [⟨100, 1600000000, true⟩, ⟨101, 1600000120, true⟩]

/-- The turns end at the newest block, and nothing else happens between them. -/
def calm : Outside where
  status := { currentHeight := 101 }
  outcomes := { chainIndices := [7] }
  others db := db
  valid _ valid := valid

/-- The account is new. -/
def oneAccount : Database := { accounts := [paid.account], nextAccount := 2 }

/-- The scan of the two blocks. -/
def scan : List Event := events twoBlocks (turns minerVectors) [calm, calm]

theorem scan_rowsRight_iff :
    Runs.Along (step paid) (RowsRight paid) { scanned := { db := oneAccount, known := [] } } scan ↔
      Runs.Along (step paid) (StampRight paid) { scanned := { db := oneAccount, known := [] } }
        scan :=
  @rowsRight_iff minerChain true twoBlocks minerVectors paid ⟨rfl, rfl, trivial⟩
    (by decide +kernel) (by decide +kernel) [calm, calm] oneAccount (by decide) []

theorem scan_not_rowsRight :
    getTxsInBlocks minerChain true (twoBlocks.map storedBlock) = some minerVectors ∧
      ¬ Runs.Along (step paid) (RowsRight paid) { scanned := { db := oneAccount, known := [] } }
        scan :=
  ⟨by decide +kernel, by decide +kernel⟩

end LightWallet.Windows
