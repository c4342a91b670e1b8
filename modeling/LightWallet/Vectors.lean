/-
This file proves that the three vectors of a scan window stay aligned.

One loop over the blocks pushes the hashes and the tuples, and the blockchain appends the
transactions that it is asked for. The loop of the search thread then takes the tuples one
after another, and reads the two other vectors at a running index, which is incremented before
anything can leave the iteration.
-/

import LightWallet.Recording
import Mathlib.Algebra.GroupWithZero.Nat

namespace LightWallet.Vectors

/-! ### Positions in a flattened list -/

section Positions

variable {Group Item : Type} (size : Group → Nat)

/-- Where the items of a group begin. -/
def start (groups : List Group) (index : Nat) : Nat := ((groups.take index).map size).sum

@[simp] theorem start_zero (groups : List Group) : start size groups 0 = 0 := rfl

@[simp] theorem start_cons_succ (group : Group) (rest : List Group) (index : Nat) :
    start size (group :: rest) (index + 1) = size group + start size rest index := rfl

/-- Every position is one of a group. -/
theorem exists_group {groups : List Group} {position : Nat}
    (inside : position < (groups.map size).sum) :
    ∃ index offset group, groups[index]? = some group ∧ offset < size group ∧
      position = start size groups index + offset := by
  induction groups generalizing position with
  | nil => exact absurd inside (Nat.not_lt_zero _)
  | cons group rest inductionHypothesis =>
    rw [List.map_cons, List.sum_cons] at inside
    by_cases first : position < size group
    · exact ⟨0, position, group, rfl, first, (Nat.zero_add _).symm⟩
    · have reached : size group ≤ position := Nat.le_of_not_lt first
      obtain ⟨index, offset, other, found, below, same⟩ :=
        inductionHypothesis (Nat.sub_lt_left_of_lt_add reached inside)
      refine ⟨index + 1, offset, other, found, below, ?_⟩
      rw [start_cons_succ, Nat.add_assoc, ← same, Nat.add_sub_cancel' reached]

/-- What stands at a position of a group. -/
theorem getElem?_flatMap_start {items : Group → List Item}
    (sizes : ∀ group, (items group).length = size group) {groups : List Group} {index : Nat}
    {group : Group} (found : groups[index]? = some group) {offset : Nat}
    (below : offset < size group) :
    (groups.flatMap items)[start size groups index + offset]? = (items group)[offset]? := by
  induction groups generalizing index with
  | nil => exact absurd found (by simp)
  | cons head rest inductionHypothesis =>
    rw [List.flatMap_cons]
    cases index with
    | zero =>
      obtain rfl : head = group := Option.some.inj found
      rw [start_zero, Nat.zero_add, List.getElem?_append_left (by rwa [sizes])]
    | succ before =>
      rw [start_cons_succ, Nat.add_assoc, List.getElem?_append_right (by simp [sizes]), sizes,
        Nat.add_sub_cancel_left]
      exact inductionHypothesis found

end Positions

/-! ### The vectors -/

/-- A block as the blockchain stores it: the miner transaction in full, the others by their
hashes. -/
structure StoredBlock where
  height : Nat
  timestamp : Nat
  minerTx : Transaction
  txHashes : List String
  deriving DecidableEq, Repr

/-- What the blockchain finds under a hash is a transaction of this hash. -/
structure Chain where
  find : String → Option Transaction
  hash_of_find : ∀ {hash tx}, find hash = some tx → tx.hash = hash

/-- The result vectors of `get_txs_in_blocks`. -/
structure TxVectors where
  txsHashes : List String := []
  txs : List Transaction := []
  txsData : List TxTuple := []
  deriving DecidableEq, Repr

/-- One `emplace_back` and one `push_back`. -/
def TxVectors.push (vectors : TxVectors) (hash : String) (tuple : TxTuple) : TxVectors :=
  { vectors with
    txsHashes := vectors.txsHashes ++ [hash]
    txsData := vectors.txsData ++ [tuple] }

/-- The inner loop of `init_txs_data_vector`, over the `tx_hashes` of a block. -/
def pushTxs (blkHeight blkTimestamp : Nat) : List String → TxVectors → TxVectors
  | [], vectors => vectors
  | txHash :: rest, vectors =>
    pushTxs blkHeight blkTimestamp rest (vectors.push txHash ⟨blkHeight, blkTimestamp, false⟩)

/-- The loop of `init_txs_data_vector` from its index `blk_i` on. -/
def pushBlocks (h1 : Nat) : Nat → List StoredBlock → TxVectors → TxVectors
  | _, [], vectors => vectors
  | blkI, blk :: rest, vectors =>
    pushBlocks h1 (blkI + 1) rest
      (pushTxs (h1 + blkI) blk.timestamp blk.txHashes
        (vectors.push blk.minerTx.hash ⟨h1 + blkI, blk.timestamp, true⟩))

/-- `init_txs_data_vector`. The first block is read before the loop, so that an empty vector of
blocks has no result. -/
def initTxsDataVector : List StoredBlock → Option TxVectors
  | [] => none
  | first :: rest => some (pushBlocks first.height 0 (first :: rest) {})

/-- `get_transactions` of the core. -/
def Chain.getTransactions (chain : Chain) :
    List String → List Transaction × List String → List Transaction × List String
  | [], result => result
  | hash :: rest, (txs, missedTxs) =>
    chain.getTransactions rest
      (match chain.find hash with
        | some tx => (txs ++ [tx], missedTxs)
        | none => (txs, missedTxs ++ [hash]))

/-- `get_txs_in_blocks`. `answers` tells whether the core's call returns true. -/
def getTxsInBlocks (chain : Chain) (answers : Bool) (blocks : List StoredBlock) :
    Option TxVectors :=
  match initTxsDataVector blocks with
  | none => none
  | some vectors =>
    let (txs, missedTxs) := chain.getTransactions vectors.txsHashes (vectors.txs, [])
    if answers = false ∨ missedTxs ≠ [] ∨ vectors.txsHashes.length ≠ txs.length then none
    else some { vectors with txs }

/-! ### The loop of the search thread -/

/-- What the loop reads at one index of the vectors. -/
structure Turn where
  tuple : TxTuple
  hash : String
  tx : Transaction
  deriving DecidableEq, Repr

section Loop

variable {State : Type} (body : Nat → Turn → State → Exit × State) (vectors : TxVectors)

/-- The loop over the tuples, with its running index. It tells what its iterations have read, how
the last of them was left, and the state. A read beyond the end of a vector has no result. -/
def scanTxs : List TxTuple → Nat → State → Option (List Turn × Exit × State)
  | [], _, state => some ([], .next, state)
  | txTuple :: rest, txIdx, state =>
    match vectors.txsHashes[txIdx]?, vectors.txs[txIdx]? with
    | some txHash, some tx =>
      -- `txs_in_blocks[tx_idx++]`: incremented before the body, however that is left
      let nextIdx := txIdx + 1
      match body txIdx ⟨txTuple, txHash, tx⟩ state with
      | (.thrown what, state) => some ([⟨txTuple, txHash, tx⟩], .thrown what, state)
      -- `continue` and the end of the body lead to the same place
      | (.skipped, state) | (.next, state) =>
        (scanTxs rest nextIdx state).map fun after => (⟨txTuple, txHash, tx⟩ :: after.1, after.2)
    | _, _ => none

end Loop

/-! ### What the vectors hold -/

/-- The blocks follow one another. -/
def Consecutive : Nat → List StoredBlock → Prop
  | _, [] => True
  | height, blk :: rest => blk.height = height ∧ Consecutive (height + 1) rest

/-- The number of transactions of a block. -/
def StoredBlock.size (blk : StoredBlock) : Nat := 1 + blk.txHashes.length

/-- The hashes of the transactions of a block. -/
def StoredBlock.hashes (blk : StoredBlock) : List String := blk.minerTx.hash :: blk.txHashes

/-- The tuples of the transactions of a block. -/
def StoredBlock.tuples (blk : StoredBlock) : List TxTuple :=
  ⟨blk.height, blk.timestamp, true⟩ ::
    blk.txHashes.map fun _ => ⟨blk.height, blk.timestamp, false⟩

@[simp] theorem StoredBlock.length_hashes (blk : StoredBlock) :
    blk.hashes.length = blk.size :=
  Nat.add_comm _ _

@[simp] theorem StoredBlock.length_tuples (blk : StoredBlock) :
    blk.tuples.length = blk.size := by
  rw [StoredBlock.tuples, List.length_cons, List.length_map]
  exact Nat.add_comm _ _

theorem pushTxs_eq (blkHeight blkTimestamp : Nat) (txHashes : List String) (vectors : TxVectors) :
    pushTxs blkHeight blkTimestamp txHashes vectors =
      { vectors with
        txsHashes := vectors.txsHashes ++ txHashes
        txsData := vectors.txsData ++ txHashes.map fun _ => ⟨blkHeight, blkTimestamp, false⟩ } := by
  induction txHashes generalizing vectors with
  | nil => simp [pushTxs]
  | cons txHash rest inductionHypothesis =>
    rw [pushTxs, inductionHypothesis]
    simp [TxVectors.push]

/-- The loop appends the hashes and the tuples of the blocks. -/
theorem pushBlocks_eq {h1 blkI : Nat} {blocks : List StoredBlock}
    (consecutive : Consecutive (h1 + blkI) blocks) (vectors : TxVectors) :
    pushBlocks h1 blkI blocks vectors =
      { vectors with
        txsHashes := vectors.txsHashes ++ blocks.flatMap StoredBlock.hashes
        txsData := vectors.txsData ++ blocks.flatMap StoredBlock.tuples } := by
  induction blocks generalizing blkI vectors with
  | nil => simp [pushBlocks]
  | cons blk rest inductionHypothesis =>
    obtain ⟨height, follow⟩ := consecutive
    rw [pushBlocks, inductionHypothesis follow, pushTxs_eq, ← height]
    simp [TxVectors.push, StoredBlock.hashes, StoredBlock.tuples]

/-- What is missed stays missed; when nothing is, the transactions are those of the hashes. -/
theorem getTransactions_spec (chain : Chain) (hashes : List String)
    (before : List Transaction × List String)
    (complete : (chain.getTransactions hashes before).2 = []) :
    before.2 = [] ∧ ∃ txs, (chain.getTransactions hashes before).1 = before.1 ++ txs ∧
      hashes.map chain.find = txs.map some := by
  induction hashes generalizing before with
  | nil => exact ⟨complete, [], (List.append_nil _).symm, rfl⟩
  | cons hash rest inductionHypothesis =>
    obtain ⟨missed, txs, same, found⟩ := inductionHypothesis _ complete
    cases lookup : chain.find hash with
    | none =>
      simp only [lookup] at missed
      exact absurd missed (by simp)
    | some tx =>
      simp only [lookup] at missed same
      refine ⟨missed, tx :: txs, ?_, ?_⟩
      · rw [Chain.getTransactions]
        simp only [lookup, same, List.append_assoc, List.singleton_append]
      · rw [List.map_cons, List.map_cons, lookup, found]

theorem Chain.map_hash_of_find (chain : Chain) {hashes : List String} {txs : List Transaction}
    (found : hashes.map chain.find = txs.map some) : txs.map (·.hash) = hashes := by
  induction hashes generalizing txs with
  | nil =>
    cases txs with
    | nil => rfl
    | cons tx others => exact absurd found (by simp)
  | cons hash rest inductionHypothesis =>
    cases txs with
    | nil => exact absurd found (by simp)
    | cons tx others =>
      rw [List.map_cons, List.map_cons] at found
      obtain ⟨here, later⟩ := List.cons.inj found
      rw [List.map_cons, chain.hash_of_find here, inductionHypothesis later]

section Fetched

variable {chain : Chain} {answers : Bool} {blocks : List StoredBlock} {vectors : TxVectors}

/-- The three vectors of a window. -/
theorem fetched_eq
    (consecutive : Consecutive ((blocks.head?.map StoredBlock.height).getD 0) blocks)
    (fetched : getTxsInBlocks chain answers blocks = some vectors) :
    vectors.txsHashes = blocks.flatMap StoredBlock.hashes ∧
      vectors.txsData = blocks.flatMap StoredBlock.tuples ∧
      vectors.txsHashes.map chain.find = vectors.txs.map some := by
  unfold getTxsInBlocks at fetched
  cases blocks with
  | nil => exact absurd fetched (by simp [initTxsDataVector])
  | cons first rest =>
    have filled : initTxsDataVector (first :: rest) = some
        { txsHashes := (first :: rest).flatMap StoredBlock.hashes
          txsData := (first :: rest).flatMap StoredBlock.tuples } :=
      congrArg some (pushBlocks_eq consecutive {})
    simp only [filled] at fetched
    split at fetched
    · exact absurd fetched (by simp)
    · next complete =>
      obtain ⟨-, noneMissed, -⟩ : ¬ answers = false ∧ _ ∧ _ := by
        simpa only [not_or, ne_eq, not_not] using complete
      obtain ⟨-, txs, same, found⟩ := getTransactions_spec chain _ _ noneMissed
      obtain rfl := Option.some.inj fetched
      refine ⟨rfl, rfl, ?_⟩
      show _ = List.map some (chain.getTransactions _ _).1
      rw [same]
      exact found

end Fetched

/-! ### The property -/

/-- The vectors hold the transactions of the blocks, in block order, each at one index of all
three. -/
structure Aligned (blocks : List StoredBlock) (vectors : TxVectors) : Prop where
  length : vectors.txsHashes.length = (blocks.map StoredBlock.size).sum
  txsLength : vectors.txs.length = vectors.txsHashes.length
  dataLength : vectors.txsData.length = vectors.txsHashes.length
  entries : ∀ k < vectors.txsHashes.length, ∃ index offset blk tx,
    blocks[index]? = some blk ∧ offset ≤ blk.txHashes.length ∧
      k = start StoredBlock.size blocks index + offset ∧
      vectors.txs[k]? = some tx ∧ vectors.txsHashes[k]? = some tx.hash ∧
      (blk.minerTx.hash :: blk.txHashes)[offset]? = some tx.hash ∧
      vectors.txsData[k]? = some ⟨blk.height, blk.timestamp, decide (offset = 0)⟩

/-- The tuple of a transaction of a block tells the block, and whether it is the first. -/
theorem StoredBlock.getElem?_tuples (blk : StoredBlock) {offset : Nat}
    (below : offset < blk.size) :
    blk.tuples[offset]? = some ⟨blk.height, blk.timestamp, decide (offset = 0)⟩ := by
  cases offset with
  | zero => rfl
  | succ before =>
    have inside : before < blk.txHashes.length := by
      rw [StoredBlock.size, Nat.add_comm 1] at below
      exact Nat.lt_of_succ_lt_succ below
    rw [StoredBlock.tuples, List.getElem?_cons_succ, List.getElem?_map,
      List.getElem?_eq_getElem inside]
    rfl

theorem aligned_of_eq {blocks : List StoredBlock} {vectors : TxVectors}
    (hashes : vectors.txsHashes = blocks.flatMap StoredBlock.hashes)
    (data : vectors.txsData = blocks.flatMap StoredBlock.tuples)
    (txs : vectors.txs.map (·.hash) = vectors.txsHashes) : Aligned blocks vectors := by
  have length : vectors.txsHashes.length = (blocks.map StoredBlock.size).sum := by
    simp [hashes, List.length_flatMap]
  refine ⟨length, by rw [← txs, List.length_map], ?_, fun k inside => ?_⟩
  · simp [data, length, List.length_flatMap]
  · obtain ⟨index, offset, blk, found, below, same⟩ := exists_group _ (length ▸ inside)
    have hashHere : vectors.txsHashes[k]? = blk.hashes[offset]? := by
      rw [hashes, same]
      exact getElem?_flatMap_start _ StoredBlock.length_hashes found below
    have dataHere : vectors.txsData[k]? = blk.tuples[offset]? := by
      rw [data, same]
      exact getElem?_flatMap_start _ StoredBlock.length_tuples found below
    have txInside : k < vectors.txs.length := by rwa [← txs, List.length_map] at inside
    have sameHash : vectors.txsHashes[k]? = some (vectors.txs[k]).hash := by
      rw [← txs, List.getElem?_map, List.getElem?_eq_getElem txInside]
      rfl
    refine ⟨index, offset, blk, vectors.txs[k], found, ?_, same,
      List.getElem?_eq_getElem txInside, sameHash, hashHere ▸ sameHash,
      dataHere.trans (blk.getElem?_tuples below)⟩
    rw [StoredBlock.size, Nat.add_comm] at below
    exact Nat.le_of_lt_succ below

section Reads

variable {State : Type} {body : Nat → Turn → State → Exit × State} {vectors : TxVectors}

/-- Each iteration reads one index of all three vectors. No iteration is left out, unless the body
has thrown in the last one that there was, whose exception and state the loop is left with. -/
structure ReadsAligned (body : Nat → Turn → State → Exit × State) (vectors : TxVectors)
    (txIdx : Nat) (data : List TxTuple) (reads : List Turn) (exit : Exit) (final : State) :
    Prop where
  sameIndex : ∀ k turn, reads[k]? = some turn → data[k]? = some turn.tuple ∧
    vectors.txsHashes[txIdx + k]? = some turn.hash ∧ vectors.txs[txIdx + k]? = some turn.tx
  complete : (exit = .next ∧ reads.length = data.length) ∨
    ∃ before last what state, reads = before ++ [last] ∧ exit = .thrown what ∧
      body (txIdx + before.length) last state = (.thrown what, final)

theorem ReadsAligned.cons {txIdx : Nat} {txTuple : TxTuple} {data : List TxTuple}
    {txHash : String} {tx : Transaction} {reads : List Turn} {exit : Exit} {final : State}
    (hash : vectors.txsHashes[txIdx]? = some txHash) (here : vectors.txs[txIdx]? = some tx)
    (later : ReadsAligned body vectors (txIdx + 1) data reads exit final) :
    ReadsAligned body vectors txIdx (txTuple :: data) (⟨txTuple, txHash, tx⟩ :: reads) exit
      final := by
  refine ⟨fun k turn read => ?_, ?_⟩
  · cases k with
    | zero =>
      obtain rfl := Option.some.inj read
      exact ⟨rfl, hash, here⟩
    | succ before =>
      rw [← Nat.add_assoc, Nat.add_right_comm]
      exact later.sameIndex before turn read
  · rcases later.complete with ⟨ended, all⟩ | ⟨before, last, what, state, rfl, thrown, threw⟩
    · exact .inl ⟨ended, by rw [List.length_cons, List.length_cons, all]⟩
    · refine .inr ⟨⟨txTuple, txHash, tx⟩ :: before, last, what, state, rfl, thrown, ?_⟩
      rw [List.length_cons, Nat.add_comm before.length, ← Nat.add_assoc]
      exact threw

/-- The loop stays within the vectors, whatever its body does and however it is left. -/
theorem scanTxs_reads (data : List TxTuple) (txIdx : Nat) (state : State)
    (hashes : vectors.txsHashes.length = txIdx + data.length)
    (txs : vectors.txs.length = txIdx + data.length) :
    ∃ reads exit final, scanTxs body vectors data txIdx state = some (reads, exit, final) ∧
      ReadsAligned body vectors txIdx data reads exit final := by
  induction data generalizing txIdx state with
  | nil => exact ⟨[], .next, state, rfl, fun _ _ read => absurd read (by simp), .inl ⟨rfl, rfl⟩⟩
  | cons txTuple rest inductionHypothesis =>
    have inside : txIdx < txIdx + (txTuple :: rest).length :=
      Nat.lt_add_of_pos_right (Nat.succ_pos _)
    have hash := List.getElem?_eq_getElem (hashes ▸ inside)
    have tx := List.getElem?_eq_getElem (txs ▸ inside)
    have shifted : txIdx + (txTuple :: rest).length = txIdx + 1 + rest.length := by
      rw [List.length_cons, Nat.add_assoc, Nat.add_comm 1]
    have goesOn (state : State) := inductionHypothesis (txIdx + 1) state
      (hashes.trans shifted) (txs.trans shifted)
    rw [scanTxs, hash, tx]
    dsimp only
    cases left : body txIdx ⟨txTuple, vectors.txsHashes[txIdx], vectors.txs[txIdx]⟩ state with
    | mk exit state =>
      cases exit with
      | next | skipped =>
        obtain ⟨reads, exit, final, ran, aligned⟩ := goesOn state
        exact ⟨_, exit, final, congrArg (Option.map _) ran, aligned.cons hash tx⟩
      | thrown what =>
        refine ⟨_, .thrown what, state, rfl, fun k turn read => ?_,
          .inr ⟨[], _, what, _, rfl, rfl, left⟩⟩
        cases k with
        | zero =>
          obtain rfl := Option.some.inj read
          exact ⟨rfl, hash, tx⟩
        | succ before => exact absurd read (by simp)

end Reads

/-- Whenever the transactions of a window are fetched, the three vectors are aligned, and the loop
uses one index for all three, whatever its body does. -/
theorem getTxsInBlocks_aligned {chain : Chain} {answers : Bool} {blocks : List StoredBlock}
    {vectors : TxVectors}
    (consecutive : Consecutive ((blocks.head?.map StoredBlock.height).getD 0) blocks)
    (fetched : getTxsInBlocks chain answers blocks = some vectors) :
    Aligned blocks vectors ∧
      ∀ (State : Type) (body : Nat → Turn → State → Exit × State) (state : State),
        ∃ reads exit final, scanTxs body vectors vectors.txsData 0 state =
          some (reads, exit, final) ∧
          ReadsAligned body vectors 0 vectors.txsData reads exit final := by
  obtain ⟨hashes, data, found⟩ := fetched_eq consecutive fetched
  have aligned := aligned_of_eq hashes data (chain.map_hash_of_find found)
  refine ⟨aligned, fun State body state => scanTxs_reads _ 0 state ?_ ?_⟩
  · rw [Nat.zero_add, aligned.dataLength]
  · rw [Nat.zero_add, aligned.dataLength, aligned.txsLength]

/-- The chain of the window below: three transactions under their hashes. -/
def smallChain : Chain where
  find hash := [("a0", 100), ("b0", 160), ("b1", 0)].findSome? fun stored =>
    if stored.1 = hash then some { hash := stored.1, unlockTime := stored.2 } else none
  hash_of_find := by
    intro hash tx found
    obtain ⟨stored, -, given⟩ := List.exists_of_findSome?_eq_some found
    split at given
    · next same =>
      obtain rfl := Option.some.inj given
      exact same
    · cases given

/-- The blocks of the window: the second has a transaction besides the miner's. -/
def smallBlocks : List StoredBlock :=
  [⟨40, 1600000000, { hash := "a0", unlockTime := 100 }, []⟩,
    ⟨41, 1600000120, { hash := "b0", unlockTime := 160 }, ["b1"]⟩]

/-- What is fetched of it. -/
def smallVectors : TxVectors where
  txsHashes := ["a0", "b0", "b1"]
  txs := [{ hash := "a0", unlockTime := 100 }, { hash := "b0", unlockTime := 160 },
    { hash := "b1" }]
  txsData := [⟨40, 1600000000, true⟩, ⟨41, 1600000120, true⟩, ⟨41, 1600000120, false⟩]

/-- A body that counts the transactions, and throws at the miner transaction of the second block. -/
def countTxs (txIdx : Nat) (read : Turn) (count : Nat) : Exit × Nat :=
  if read.hash = "b0" then (.thrown "b0", count) else (.next, count + txIdx + 1)

theorem getTxsInBlocks_aligned_small :
    getTxsInBlocks smallChain true smallBlocks = some smallVectors ∧
      Aligned smallBlocks smallVectors ∧
      ∃ reads exit final, scanTxs countTxs smallVectors smallVectors.txsData 0 0 =
        some (reads, exit, final) ∧
        ReadsAligned countTxs smallVectors 0 smallVectors.txsData reads exit final := by
  have fetched : getTxsInBlocks smallChain true smallBlocks = some smallVectors := by
    decide +kernel
  have consecutive : Consecutive ((smallBlocks.head?.map StoredBlock.height).getD 0) smallBlocks :=
    ⟨rfl, rfl, trivial⟩
  obtain ⟨aligned, reads⟩ := getTxsInBlocks_aligned consecutive fetched
  exact ⟨fetched, aligned, reads Nat countTxs 0⟩

end LightWallet.Vectors
