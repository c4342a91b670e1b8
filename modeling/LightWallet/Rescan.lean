/-
This file settles whether scanning a window again changes what the tables hold.

A pass over a transaction that is recorded already deletes its rows first. The foreign
keys then delete the spends of its outputs, of whichever transaction they are, and only
the passes of the window that is scanned again can bring theirs back. Windows that are
scanned for the first time post their transactions to the ledger of the tables, and a
window that is scanned again posts the same transactions again.
-/

import LightWallet.Postings
import LightWallet.Refusals
import LightWallet.Windows
import Mathlib.Data.List.Forall2

namespace LightWallet.Rescan

open Windows (Entry Identifies entries)

/-! ### A pass whose calls answer -/

/-- The answers of a pass in which every call answers and no statement fails. -/
def answering (chainTxId : Nat) (chainIndices : List Nat) : Outcomes := { chainTxId, chainIndices }

section Pass

variable (wallet : Wallet) (status : Status) (tuple : TxTuple) (tx : Transaction)
  (chainTxId : Nat) (chainIndices : List Nat) (scanned : Scanned)

/-- The blockchain has an index for every identified output. -/
def Indexed : Prop := ∀ info ∈ wallet.identifier.outputs tx, info.idxInTx < chainIndices.length

/-- What the pass posts. -/
def posting : Posting where
  owner := passOwner wallet tx
  outputs := storedOutputs wallet tuple tx (answering chainTxId chainIndices) scanned 0
  infos := identifiedInputs wallet tx scanned
  timestamp := storedTimestamp tuple scanned
  row := storedTransaction wallet status tuple tx (answering chainTxId chainIndices) scanned

variable {wallet status tuple tx chainTxId chainIndices scanned}

theorem opens_iff :
    Opens wallet tx (answering chainTxId chainIndices) scanned ↔
      Identifies wallet tx (answering chainTxId chainIndices) scanned :=
  ⟨fun opens => ⟨opens.1, opens.2.1⟩,
    fun identifies => ⟨identifies.1, identifies.2, rfl, fun _ => rfl⟩⟩

/-- Something is identified exactly if there is something to post. -/
theorem identifies_iff :
    Identifies wallet tx (answering chainTxId chainIndices) scanned ↔
      ¬ ((posting wallet status tuple tx chainTxId chainIndices scanned).outputs = [] ∧
        (posting wallet status tuple tx chainTxId chainIndices scanned).infos = []) := by
  unfold Identifies posting storedOutputs
  rw [not_and_or, List.map_eq_nil_iff]
  exact ⟨And.right, fun something => ⟨rfl, something⟩⟩

variable (status tuple chainTxId)

theorem acceptsOutputs_iff (valid : scanned.db.Valid)
    (account : scanned.db.hasAccount wallet.account.id = true) (found : List XmrInput) :
    ((clearedDb wallet tx (answering chainTxId chainIndices) scanned.db).appendTransaction
        (storedTransaction wallet status tuple tx (answering chainTxId chainIndices) scanned
          found)).acceptsOutputs
        (storedOutputs wallet tuple tx (answering chainTxId chainIndices) scanned
          (clearedDb wallet tx (answering chainTxId chainIndices)
            scanned.db).nextTransaction) = true ↔
      Tables.Unique XmrOutput.outPubKey
          (posting wallet status tuple tx chainTxId chainIndices scanned).outputs ∧
        ∀ output ∈ (posting wallet status tuple tx chainTxId chainIndices scanned).outputs,
          (scanned.db.ledger.without (passOwner wallet tx)).outputs output.outPubKey = none := by
  rw [acceptsOutputs_iff_ledger (clearedDb_valid valid) account, ledger_clearedDb valid rfl]
  rfl

/-- Where the outputs are accepted, the pass finds an input exactly if the ledger gives a spend,
and the tables accept the inputs exactly if the ledger admits the spends. -/
theorem inputs_iff (valid : scanned.db.Valid)
    (account : scanned.db.hasAccount wallet.account.id = true) {found : List XmrInput}
    (acceptsOutputs : ((clearedDb wallet tx (answering chainTxId chainIndices)
      scanned.db).appendTransaction (storedTransaction wallet status tuple tx
        (answering chainTxId chainIndices) scanned found)).acceptsOutputs
      (storedOutputs wallet tuple tx (answering chainTxId chainIndices) scanned
        (clearedDb wallet tx (answering chainTxId chainIndices)
          scanned.db).nextTransaction) = true) :
    (passInputs wallet tuple tx (answering chainTxId chainIndices) scanned = [] ↔
        (posting wallet status tuple tx chainTxId chainIndices scanned).spends
          (scanned.db.ledger.without (passOwner wallet tx)) = []) ∧
      ((withOutputs wallet status tuple tx (answering chainTxId chainIndices) scanned found
          (clearedDb wallet tx (answering chainTxId chainIndices) scanned.db)).acceptsInputs
          (linkedInputs (passInputs wallet tuple tx (answering chainTxId chainIndices) scanned)
            (clearedDb wallet tx (answering chainTxId chainIndices)
              scanned.db).nextTransaction) = true ↔
        Tables.Unique (fun row : String × XmrInput => (row.1, row.2.keyImage))
            ((posting wallet status tuple tx chainTxId chainIndices scanned).spends
              (scanned.db.ledger.without (passOwner wallet tx))) ∧
          ∀ row ∈ (posting wallet status tuple tx chainTxId chainIndices scanned).spends
              (scanned.db.ledger.without (passOwner wallet tx)),
            (scanned.db.ledger.without (passOwner wallet tx)).inputs (row.1, row.2.keyImage) =
              none) := by
  have afterClear : (clearedDb wallet tx (answering chainTxId chainIndices) scanned.db).Valid :=
    clearedDb_valid valid
  have accepts : (clearedDb wallet tx (answering chainTxId chainIndices)
      scanned.db).acceptsTransaction (storedTransaction wallet status tuple tx
        (answering chainTxId chainIndices) scanned found) = true :=
    clearedDb_acceptsTransaction valid account rfl found
  constructor
  · have same := passInputs_eq_passSpends afterClear (fun _ => rfl) accepts acceptsOutputs
    rw [ledger_clearedDb valid rfl] at same
    rw [← List.map_eq_nil_iff, same, List.map_eq_nil_iff]
    rfl
  · rw [acceptsInputs_iff_ledger afterClear account (fun _ => rfl) accepts acceptsOutputs,
      ledger_clearedDb valid rfl]
    rfl

/-- A pass stores rows exactly if something is identified and the keys admit its rows. -/
theorem stores_iff (valid : scanned.db.Valid)
    (account : scanned.db.hasAccount wallet.account.id = true)
    (indexed : Indexed wallet tx chainIndices) :
    Stores wallet status tuple tx (answering chainTxId chainIndices) scanned ↔
      Identifies wallet tx (answering chainTxId chainIndices) scanned ∧
        (posting wallet status tuple tx chainTxId chainIndices scanned).Admits
          (scanned.db.ledger.without (passOwner wallet tx)) := by
  have noOutputs : (posting wallet status tuple tx chainTxId chainIndices scanned).outputs = [] ↔
      wallet.identifier.outputs tx = [] := List.map_eq_nil_iff
  constructor
  · intro stores
    obtain ⟨sameNil, -⟩ := inputs_iff status tuple chainTxId valid account stores.accepts.2.1
    exact ⟨opens_iff.mp stores.opens,
      fun nothing => stores.something ⟨noOutputs.mp nothing.1, sameNil.mpr nothing.2⟩,
      stores.accepts_ledger valid fun _ => rfl⟩
  · rintro ⟨identifies, something, outputKeys, freshOutputs, inputKeys, freshInputs⟩
    have acceptsRow (found : List XmrInput) :
        (clearedDb wallet tx (answering chainTxId chainIndices) scanned.db).acceptsTransaction
          (storedTransaction wallet status tuple tx (answering chainTxId chainIndices) scanned
            found) = true := clearedDb_acceptsTransaction valid account rfl found
    have acceptsOutputs (found : List XmrInput) :=
      (acceptsOutputs_iff status tuple chainTxId valid account found).mpr
        ⟨outputKeys, freshOutputs⟩
    obtain ⟨sameNil, sameAccepts⟩ := inputs_iff status tuple chainTxId valid account (acceptsOutputs
      (passInputs wallet tuple tx (answering chainTxId chainIndices) scanned))
    refine ⟨opens_iff.mpr identifies, ⟨⟨fun _ => ?_, fun _ _ => rfl, fun _ => ?_⟩, rfl⟩,
      fun nothing => something ⟨noOutputs.mpr nothing.1, sameNil.mp nothing.2⟩⟩
    · exact ⟨rfl, rfl, acceptsRow [], rfl, indexed, rfl, acceptsOutputs []⟩
    · exact ⟨fun _ => rfl, fun _ => acceptsRow _, rfl, sameAccepts.mpr ⟨inputKeys, freshInputs⟩⟩

/-- A pass posts to the ledger of the tables. -/
theorem ledger_recordTx (valid : scanned.db.Valid)
    (account : scanned.db.hasAccount wallet.account.id = true)
    (indexed : Indexed wallet tx chainIndices) :
    (recordTx wallet status tuple tx (answering chainTxId chainIndices) scanned).2.db.ledger =
      (posting wallet status tuple tx chainTxId chainIndices scanned).post scanned.db.ledger := by
  have cases := recordTx_cases wallet status tuple tx (answering chainTxId chainIndices) scanned
  have stored := stores_iff status tuple chainTxId valid account indexed
  unfold Posting.post
  by_cases nothing : (posting wallet status tuple tx chainTxId chainIndices scanned).outputs = [] ∧
      (posting wallet status tuple tx chainTxId chainIndices scanned).infos = []
  · have outputs : wallet.identifier.outputs tx = [] := List.map_eq_nil_iff.mp nothing.1
    rw [if_pos nothing, recordTx_skips wallet status tuple tx _ scanned rfl outputs nothing.2]
  have identifies := identifies_iff.mpr nothing
  rw [if_neg nothing]
  by_cases admits : (posting wallet status tuple tx chainTxId chainIndices scanned).Admits
      (scanned.db.ledger.without (passOwner wallet tx))
  · have stores := stored.mpr ⟨identifies, admits⟩
    rcases cases with ⟨refused, -⟩ | ⟨-, -, filled⟩
    · exact absurd stores refused
    · rw [filled, stores.ledger valid fun _ => rfl]
      exact (if_pos admits).symm
  · have refused := mt (fun stores => (stored.mp stores).2) admits
    have cleared :
        (recordTx wallet status tuple tx (answering chainTxId chainIndices) scanned).2.db =
          clearedDb wallet tx (answering chainTxId chainIndices) scanned.db := by
      by_cases succeeds : StepsSucceed wallet status tuple tx (answering chainTxId chainIndices)
          scanned (clearedDb wallet tx (answering chainTxId chainIndices) scanned.db)
      · rw [(recordTx_stores wallet status tuple tx _ scanned (opens_iff.mpr identifies)
          succeeds).2]
        refine if_pos (not_not.mp fun something => refused ?_)
        exact ⟨opens_iff.mpr identifies, succeeds, something⟩
      · exact (recordTx_clears wallet status tuple tx _ scanned (opens_iff.mpr identifies)
          succeeds).2
    rw [cleared, ledger_clearedDb valid rfl]
    exact (if_neg admits).symm

/-- A pass whose calls answer goes on, or is left by `continue`. -/
theorem recordTx_goes_on (valid : scanned.db.Valid)
    (account : scanned.db.hasAccount wallet.account.id = true)
    (indexed : Indexed wallet tx chainIndices) (what : String) :
    (recordTx wallet status tuple tx (answering chainTxId chainIndices) scanned).1 ≠
      .thrown what := by
  have acceptsRow (found : List XmrInput) :
      (clearedDb wallet tx (answering chainTxId chainIndices) scanned.db).acceptsTransaction
        (storedTransaction wallet status tuple tx (answering chainTxId chainIndices) scanned
          found) = true := clearedDb_acceptsTransaction valid account rfl found
  by_cases identifies : Identifies wallet tx (answering chainTxId chainIndices) scanned
  · have opens := opens_iff.mpr identifies
    by_cases succeeds : StepsSucceed wallet status tuple tx (answering chainTxId chainIndices)
        scanned (clearedDb wallet tx (answering chainTxId chainIndices) scanned.db)
    · rw [(recordTx_stores wallet status tuple tx _ scanned opens succeeds).1]
      exact Exit.noConfusion
    · have skipped : (recordTx wallet status tuple tx (answering chainTxId chainIndices)
          scanned).1 = .skipped := by
        refine (recordTx_skipped_iff wallet status tuple tx _ scanned).mpr ⟨opens, ?_⟩
        by_contra accepted
        obtain ⟨noOutputs, noInputs⟩ := not_or.mp accepted
        have outputs (some : wallet.identifier.outputs tx ≠ []) :
            OutputsSucceed wallet status tuple tx (answering chainTxId chainIndices) scanned
              (clearedDb wallet tx (answering chainTxId chainIndices) scanned.db) := by
          refine ⟨rfl, rfl, acceptsRow [], rfl, indexed, rfl, ?_⟩
          by_contra refused
          exact noOutputs ⟨some, rfl, rfl, acceptsRow [], rfl, indexed, fun both => refused both.2⟩
        refine succeeds ⟨⟨outputs, fun _ _ => rfl, fun found => ⟨fun _ => rfl,
          fun _ => acceptsRow _, rfl, ?_⟩⟩, rfl⟩
        by_contra refused
        exact noInputs ⟨outputs, fun _ => rfl, found, fun _ => rfl, fun _ => acceptsRow _,
          fun both => refused both.2⟩
      rw [skipped]
      exact Exit.noConfusion
  · obtain ⟨outputs, inputs⟩ := not_or.mp fun something => identifies ⟨rfl, something⟩
    rw [recordTx_skips wallet status tuple tx _ scanned rfl (not_not.mp outputs)
      (not_not.mp inputs)]
    exact Exit.noConfusion

theorem insertOutputRows_known {outcomes : Outcomes} {outputs : List OutputInfo} {txMysqlId : Nat}
    (covers : ∀ info ∈ outputs, info.idxInTx < outcomes.chainIndices.length) (pass : Pass) :
    (insertOutputRows wallet tuple tx outcomes outputs txMysqlId pass).pass.known =
      pass.known.insertAll outputs := by
  unfold insertOutputRows
  generalize outputRow wallet tuple tx txMysqlId (pass.blkTimestamp.getD 0) = row
  have collected := collectOutputs_fst row outcomes.chainIndices outputs pass.known covers
  have all := collectOutputs_all row outcomes.chainIndices outputs pass.known
    (by rw [collected]; exact Option.some_ne_none _)
  simp only [collected]
  split <;> exact all

/-- A pass puts the identified keys into the cache. -/
theorem recordTx_known (valid : scanned.db.Valid)
    (account : scanned.db.hasAccount wallet.account.id = true)
    (indexed : Indexed wallet tx chainIndices) :
    (recordTx wallet status tuple tx (answering chainTxId chainIndices) scanned).2.known =
      scanned.known.insertAll (wallet.identifier.outputs tx) := by
  rw [LightWallet.recordTx_known wallet status tuple tx _ scanned rfl]
  unfold outputsPart
  cases outputs : wallet.identifier.outputs tx with
  | nil => rfl
  | cons info rest =>
    have accepts : (lookedUpPass wallet tuple tx (answering chainTxId chainIndices) scanned
        scanned.known).seen.acceptsTransaction (transactionRow wallet status tuple tx chainTxId
          (calcTotalXmr (info :: rest)) 0 (storedTimestamp tuple scanned)) = true := by
      have row : (clearedDb wallet tx (answering chainTxId chainIndices)
          scanned.db).acceptsTransaction (storedTransaction wallet status tuple tx
            (answering chainTxId chainIndices) scanned []) = true :=
        clearedDb_acceptsTransaction valid account rfl []
      unfold storedTransaction at row
      rw [outputs, if_neg (List.cons_ne_nil info rest)] at row
      exact row
    have opened : (openTransaction wallet tuple tx (answering chainTxId chainIndices)
        (initialPass scanned)).andThen (lookUpTx tx (answering chainTxId chainIndices) true) =
        .go (lookedUpPass wallet tuple tx (answering chainTxId chainIndices) scanned
          scanned.known) := by
      rw [openTransaction_go wallet tuple tx (answering chainTxId chainIndices) scanned rfl
        fun _ => rfl]
      rfl
    have inserted := insertTransactionRow_stores wallet status tuple tx
      (answering chainTxId chainIndices) (calcTotalXmr (info :: rest)) 0
      (lookedUpPass wallet tuple tx (answering chainTxId chainIndices) scanned scanned.known) rfl
      accepts
    show (((openTransaction _ _ _ _ _).andThen (lookUpTx _ _ true)).andThen _).pass.known = _
    rw [opened, Step.andThen_go]
    dsimp only
    rw [inserted]
    exact insertOutputRows_known tuple (outputs ▸ indexed) _

variable (wallet tx scanned) in
theorem recordTx_hasAccount (outcomes : Outcomes) (id : Nat) :
    (recordTx wallet status tuple tx outcomes scanned).2.db.hasAccount id =
      scanned.db.hasAccount id :=
  congrArg (List.any · _) (recordTx_accounts wallet status tuple tx outcomes scanned)

end Pass

/-! ### Windows -/

/-- What the blockchain answers about its transactions, and its tip. -/
structure Blockchain where
  status : Status
  txId : String → Nat
  indices : String → List Nat

section Windows

variable (wallet : Wallet) (chain : Blockchain)

/-- A turn of the loop in which every call answers, and nobody else writes. -/
def event (entry : Entry) : Windows.Event where
  entry := entry
  turn := entry.turn
  outside :=
    { status := chain.status
      outcomes := answering (chain.txId entry.tx.hash) (chain.indices entry.tx.hash)
      valid := fun _ valid => valid }

/-- The scan of a window. -/
def scanWindow (blocks : List Block) (scanned : Scanned) : Scanned :=
  (Runs.run (Windows.step wallet) { scanned := { scanned with blkTimestamp := none } }
    ((entries blocks).map (event chain))).scanned

/-- The transactions of a window with what is identified in them by a thread that starts with the
given cache. -/
def postings : List Entry → KnownOutputs → Option Nat → List Posting
  | [], _, _ => []
  | entry :: rest, known, stamp =>
    let scanned : Scanned := ⟨{}, known, stamp⟩
    posting wallet chain.status entry.turn.tuple entry.tx (chain.txId entry.tx.hash)
        (chain.indices entry.tx.hash) scanned ::
      postings rest (known.insertAll (wallet.identifier.outputs entry.tx))
        (if Identifies wallet entry.tx {} scanned then
          some (storedTimestamp entry.turn.tuple scanned) else stamp)

/-- The outputs that are identified in the transactions. -/
def outputsOf (read : List Entry) : List OutputInfo :=
  read.flatMap fun entry => wallet.identifier.outputs entry.tx

/-- Transactions of a blockchain, in its order: their hashes differ, every output has an index,
and the members of a ring are outputs of earlier transactions. Of the ring members, under the
key images of their inputs, those are identified that are known. -/
structure Mined (ring : Transaction → List (String × String)) (read : List Entry) : Prop where
  distinct : (read.map (·.tx.hash)).Nodup
  indexed : ∀ entry ∈ read, Indexed wallet entry.tx (chain.indices entry.tx.hash)
  identifies : ∀ known tx, wallet.identifier.inputs known tx =
    KnownOutputs.identifyKnown known (ring tx)
  notOwn : ∀ entry ∈ read, ∀ member ∈ ring entry.tx,
    ∀ info ∈ wallet.identifier.outputs entry.tx, member.2 ≠ info.pubKey
  notLater : read.Pairwise fun entry later => ∀ member ∈ ring entry.tx,
    ∀ info ∈ wallet.identifier.outputs later.tx, member.2 ≠ info.pubKey

variable {wallet chain}

/-- A turn does the pass of its transaction. -/
theorem step_event {state : Windows.State} {entry : Entry} (goesOn : state.thrown = false)
    (valid : state.scanned.db.Valid)
    (account : state.scanned.db.hasAccount wallet.account.id = true)
    (indexed : Indexed wallet entry.tx (chain.indices entry.tx.hash)) :
    Windows.step wallet state (event chain entry) =
      { scanned := (recordTx wallet chain.status entry.turn.tuple entry.tx
          (answering (chain.txId entry.tx.hash) (chain.indices entry.tx.hash))
          state.scanned).2 } := by
  have done : Windows.turn wallet state (event chain entry).outside (event chain entry).turn =
      recordTx wallet chain.status entry.turn.tuple entry.tx
        (answering (chain.txId entry.tx.hash) (chain.indices entry.tx.hash)) state.scanned := rfl
  have goes := recordTx_goes_on chain.status entry.turn.tuple (chain.txId entry.tx.hash) valid
    account indexed
  unfold Windows.step
  rw [if_neg (by rw [goesOn]; exact Bool.false_ne_true), done]
  split
  · next what scanned thrown => exact absurd (congrArg Prod.fst thrown) (goes what)
  · next exit scanned _ ends => rw [ends]

/-- The scan of a window goes to its end, and posts its transactions. -/
theorem run_postings (read : List Entry) {state : Windows.State} (goesOn : state.thrown = false)
    (valid : state.scanned.db.Valid)
    (account : state.scanned.db.hasAccount wallet.account.id = true)
    (indexed : ∀ entry ∈ read, Indexed wallet entry.tx (chain.indices entry.tx.hash)) :
    let after := Runs.run (Windows.step wallet) state (read.map (event chain))
    after.thrown = false ∧ after.scanned.db.Valid ∧
      after.scanned.db.hasAccount wallet.account.id = true ∧
      after.scanned.known = state.scanned.known.insertAll (outputsOf wallet read) ∧
      after.scanned.db.ledger =
        Posting.postAll (postings wallet chain read state.scanned.known state.scanned.blkTimestamp)
          state.scanned.db.ledger := by
  induction read generalizing state with
  | nil => exact ⟨goesOn, valid, account, rfl, rfl⟩
  | cons entry rest inductionHypothesis =>
    have here := indexed entry List.mem_cons_self
    have later := fun other member => indexed other (List.mem_cons_of_mem entry member)
    rw [List.map_cons, Runs.run_cons, step_event goesOn valid account here]
    have stamp := Windows.recordTx_blkTimestamp wallet chain.status entry.turn.tuple entry.tx
      (answering (chain.txId entry.tx.hash) (chain.indices entry.tx.hash)) state.scanned
    have known := recordTx_known chain.status entry.turn.tuple (chain.txId entry.tx.hash) valid
      account here
    have ledger := ledger_recordTx chain.status entry.turn.tuple (chain.txId entry.tx.hash) valid
      account here
    have stays := (recordTx_hasAccount wallet chain.status entry.turn.tuple entry.tx state.scanned
      (answering (chain.txId entry.tx.hash) (chain.indices entry.tx.hash))
      wallet.account.id).trans account
    obtain ⟨toEnd, validAfter, hasAccount, knownAfter, ledgerAfter⟩ :=
      @inductionHypothesis { scanned := _ } rfl (recordTx_valid valid) stays later
    refine ⟨toEnd, validAfter, hasAccount, ?_, ?_⟩
    · rw [knownAfter, known]
      exact List.foldl_append.symm
    · rw [ledgerAfter, ledger, known, stamp]
      rfl

/-! ### The same postings again -/

theorem outputsOf_append (first second : List Entry) :
    outputsOf wallet (first ++ second) = outputsOf wallet first ++ outputsOf wallet second :=
  List.flatMap_append

/-- What is identified in the transactions depends on the amounts that are known of their ring
members when it is their turn. -/
theorem postings_congr {ring : Transaction → List (String × String)}
    (identifies : ∀ known tx, wallet.identifier.inputs known tx =
      KnownOutputs.identifyKnown known (ring tx))
    (read : List Entry) (stamp : Option Nat) {known other : KnownOutputs}
    (alike : ∀ before entry after, read = before ++ entry :: after → ∀ member ∈ ring entry.tx,
      (known.insertAll (outputsOf wallet before)).amountOf member.2 =
        (other.insertAll (outputsOf wallet before)).amountOf member.2) :
    postings wallet chain read known stamp = postings wallet chain read other stamp := by
  induction read generalizing known other stamp with
  | nil => rfl
  | cons entry rest inductionHypothesis =>
    have infos : wallet.identifier.inputs known entry.tx =
        wallet.identifier.inputs other entry.tx := by
      rw [identifies, identifies]
      refine List.filterMap_congr fun ⟨keyImg, outPubKey⟩ inRing => ?_
      have here : known.amountOf outPubKey = other.amountOf outPubKey :=
        alike [] entry rest rfl (keyImg, outPubKey) inRing
      dsimp only
      rw [here]
    have later (stamp : Option Nat) := @inductionHypothesis stamp
      (known.insertAll (wallet.identifier.outputs entry.tx))
      (other.insertAll (wallet.identifier.outputs entry.tx)) fun before next after split => by
        have found := alike (entry :: before) next after (by rw [split]; rfl)
        rw [show outputsOf wallet (entry :: before) =
          wallet.identifier.outputs entry.tx ++ outputsOf wallet before from rfl,
          KnownOutputs.insertAll_append, KnownOutputs.insertAll_append] at found
        exact found
    have sameIdentified : Identifies wallet entry.tx {} ⟨{}, known, stamp⟩ ↔
        Identifies wallet entry.tx {} ⟨{}, other, stamp⟩ := by
      unfold Identifies identifiedInputs
      dsimp only
      rw [infos]
    have sameStamp : (if Identifies wallet entry.tx {} ⟨{}, known, stamp⟩ then
        some (storedTimestamp entry.turn.tuple ⟨{}, known, stamp⟩) else stamp) =
        if Identifies wallet entry.tx {} ⟨{}, other, stamp⟩ then
          some (storedTimestamp entry.turn.tuple ⟨{}, other, stamp⟩) else stamp :=
      if_congr sameIdentified rfl rfl
    unfold postings
    dsimp only
    rw [sameStamp, later]
    refine congrArg (· :: _) ?_
    unfold posting identifiedInputs
    dsimp only
    rw [infos]
    rfl

/-- A window that is scanned again posts what it posted at first. -/
theorem postings_again {ring : Transaction → List (String × String)} {first second : List Entry}
    (mined : Mined wallet chain ring (first ++ second)) (known : KnownOutputs)
    (stamp : Option Nat) :
    postings wallet chain first (known.insertAll (outputsOf wallet (first ++ second))) stamp =
      postings wallet chain first known stamp := by
  refine postings_congr mined.identifies first stamp
    fun before entry after split member inRing => ?_
  have whole : first ++ second = before ++ entry :: (after ++ second) := by
    rw [split, List.append_assoc, List.cons_append]
  -- later transactions do not have the key
  have unknown : (outputsOf wallet (entry :: (after ++ second))).find? (·.pubKey = member.2) =
      none := by
    refine List.find?_eq_none.mpr fun info found same => ?_
    have isKey : info.pubKey = member.2 := of_decide_eq_true same
    obtain ⟨later, inLater, identified⟩ := List.mem_flatMap.mp found
    have notLater := mined.notLater
    rw [whole] at notLater
    rcases List.mem_cons.mp inLater with rfl | inRest
    · have inRead : later ∈ first ++ second := by
        rw [whole]
        exact List.mem_append_right _ List.mem_cons_self
      exact mined.notOwn later inRead member inRing info identified isKey.symm
    · exact (List.pairwise_cons.mp (List.pairwise_append.mp notLater).2.1).1 later inRest member
        inRing info identified isKey.symm
  rw [whole, outputsOf_append, KnownOutputs.amountOf_insertAll, KnownOutputs.amountOf_insertAll,
    KnownOutputs.amountOf_insertAll, List.find?_append, unknown, Option.or_none, Option.or_assoc,
    Option.or_self]

/-! ### The postings of a blockchain -/

/-- What the pass over a transaction posts: its identified outputs, and inputs from its rings. -/
structure PostsOf (wallet : Wallet) (ring : Transaction → List (String × String)) (entry : Entry)
    (posting : Posting) : Prop where
  owner : posting.owner = passOwner wallet entry.tx
  infos : ∀ info ∈ posting.infos, ∃ member ∈ ring entry.tx, info.outPubKey = member.2
  outputs : ∀ output ∈ posting.outputs, ∃ info ∈ wallet.identifier.outputs entry.tx,
    output.outPubKey = info.pubKey

variable (chain) in
theorem postsOf_postings {ring : Transaction → List (String × String)}
    (identifies : ∀ known tx, wallet.identifier.inputs known tx =
      KnownOutputs.identifyKnown known (ring tx))
    (read : List Entry) (known : KnownOutputs) (stamp : Option Nat) :
    List.Forall₂ (PostsOf wallet ring) read (postings wallet chain read known stamp) := by
  induction read generalizing known stamp with
  | nil => exact List.Forall₂.nil
  | cons entry rest inductionHypothesis =>
    refine List.Forall₂.cons ⟨rfl, fun info member => ?_, fun output member => ?_⟩
      (inductionHypothesis _ _)
    · have found : info ∈ wallet.identifier.inputs known entry.tx := member
      rw [identifies] at found
      obtain ⟨⟨keyImg, outPubKey⟩, inRing, isInfo⟩ := List.mem_filterMap.mp found
      obtain ⟨amount, -, rfl⟩ := Option.map_eq_some_iff.mp isInfo
      exact ⟨(keyImg, outPubKey), inRing, rfl⟩
    · obtain ⟨info, identified, rfl⟩ := List.mem_map.mp member
      exact ⟨info, identified, rfl⟩

section Order

variable {ring : Transaction → List (String × String)} {read : List Entry} {posted : List Posting}

theorem owners_of_postsOf (posts : List.Forall₂ (PostsOf wallet ring) read posted) :
    posted.map Posting.owner = read.map fun entry => passOwner wallet entry.tx := by
  induction posts with
  | nil => rfl
  | cons here _ inductionHypothesis =>
    rw [List.map_cons, List.map_cons, here.owner, inductionHypothesis]

theorem exists_of_mem_posted (posts : List.Forall₂ (PostsOf wallet ring) read posted)
    {posting : Posting} (member : posting ∈ posted) :
    ∃ entry ∈ read, PostsOf wallet ring entry posting := by
  induction posts with
  | nil => exact absurd member List.not_mem_nil
  | cons here _ inductionHypothesis =>
    rcases List.mem_cons.mp member with rfl | inRest
    · exact ⟨_, List.mem_cons_self, here⟩
    · obtain ⟨entry, inRead, postsEntry⟩ := inductionHypothesis inRest
      exact ⟨entry, List.mem_cons_of_mem _ inRead, postsEntry⟩

/-- What the transactions of a blockchain post is in order. -/
theorem inOrder_of_postsOf (mined : Mined wallet chain ring read)
    (posts : List.Forall₂ (PostsOf wallet ring) read posted) : Posting.InOrder posted where
  notOwn posting member info inInfos output inOutputs := by
    obtain ⟨entry, inRead, postsEntry⟩ := exists_of_mem_posted posts member
    obtain ⟨other, inRing, isMember⟩ := postsEntry.infos info inInfos
    obtain ⟨identified, inIdentified, isKey⟩ := postsEntry.outputs output inOutputs
    rw [isMember, isKey]
    exact mined.notOwn entry inRead other inRing identified inIdentified
  notLater := by
    have notLater := mined.notLater
    clear mined
    induction posts with
    | nil => exact List.Pairwise.nil
    | cons here rest inductionHypothesis =>
      obtain ⟨first, others⟩ := List.pairwise_cons.mp notLater
      refine List.pairwise_cons.mpr ⟨fun later member info inInfos output inOutputs => ?_,
        inductionHypothesis others⟩
      obtain ⟨entry, inRead, postsEntry⟩ := exists_of_mem_posted rest member
      obtain ⟨other, inRing, isMember⟩ := here.infos info inInfos
      obtain ⟨identified, inIdentified, isKey⟩ := postsEntry.outputs output inOutputs
      rw [isMember, isKey]
      exact first entry inRead other inRing identified inIdentified

/-- Transactions without rows are new to the ledger. -/
theorem new_of_postsOf {db : Database} (valid : db.Valid) (mined : Mined wallet chain ring read)
    (posts : List.Forall₂ (PostsOf wallet ring) read posted)
    (unscanned : ∀ row ∈ db.transactions, row.accountId = wallet.account.id →
      row.hash ∉ read.map (·.tx.hash)) : Posting.New posted db.ledger where
  distinct := by
    rw [owners_of_postsOf posts]
    refine List.Nodup.of_map Owner.hash ?_
    rw [List.map_map]
    exact mined.distinct
  absent posting member := by
    obtain ⟨entry, inRead, postsEntry⟩ := exists_of_mem_posted posts member
    rw [postsEntry.owner]
    refine Database.absent_ledger valid fun row inRows owner => ?_
    obtain ⟨hash, account⟩ := Owner.mk.inj owner
    exact unscanned row inRows account (hash ▸ List.mem_map_of_mem inRead)

end Order

/-! ### A window is scanned again -/

/-- A window is scanned, then a second one. -/
def scanBoth (wallet : Wallet) (chain : Blockchain) (first second : List Block)
    (scanned : Scanned) : Scanned :=
  scanWindow wallet chain second (scanWindow wallet chain first scanned)

/-- The id is that of a transaction of one of the blocks, for the account. -/
def RowOf (accountId : Nat) (blocks : List Block) (db : Database) (txId : Nat) : Prop :=
  ∃ tx ∈ db.transactions, tx.id = txId ∧ tx.accountId = accountId ∧
    tx.hash ∈ (entries blocks).map (·.tx.hash)

/-- A transaction of the second window has a recorded spend of an output that is recorded for a
transaction of the first one. -/
def SpentLater (accountId : Nat) (first second : List Block) (db : Database) : Prop :=
  ∃ input ∈ db.inputs, ∃ output ∈ db.outputs, input.outputId = output.id ∧
    RowOf accountId first db output.txId ∧ RowOf accountId second db input.txId

instance (accountId : Nat) (first second : List Block) (db : Database) :
    Decidable (SpentLater accountId first second db) := by
  unfold SpentLater RowOf
  infer_instance

/-- The transactions of the blocks, for the account. -/
def passOwners (wallet : Wallet) (blocks : List Block) : List Owner :=
  (entries blocks).map fun entry => passOwner wallet entry.tx

theorem rowOf_iff {db : Database} (valid : db.Valid) {blocks : List Block} {txId : Nat}
    {owner : Owner} (owned : db.ownerOf txId = some owner) :
    RowOf wallet.account.id blocks db txId ↔ owner ∈ passOwners wallet blocks := by
  obtain ⟨row, inRows, isId, rfl⟩ := (Database.ownerOf_eq_some_iff valid).mp owned
  constructor
  · rintro ⟨tx, inTable, sameId, account, hash⟩
    obtain rfl := valid.transactionIds.eq_of_key inTable inRows (sameId.trans isId.symm)
    obtain ⟨entry, inEntries, isHash⟩ := List.mem_map.mp hash
    refine List.mem_map.mpr ⟨entry, inEntries, ?_⟩
    unfold passOwner XmrTransaction.owner
    rw [account, ← isHash]
  · intro member
    obtain ⟨entry, inEntries, isOwner⟩ := List.mem_map.mp member
    obtain ⟨hash, account⟩ := Owner.mk.inj isOwner
    exact ⟨row, inRows, isId, account.symm, List.mem_map.mpr ⟨entry, inEntries, hash⟩⟩

theorem spentLater_iff {db : Database} (valid : db.Valid) {first second : List Block} :
    SpentLater wallet.account.id first second db ↔
      ∃ key entry output, db.ledger.inputs key = some entry ∧
        db.ledger.outputs key.1 = some output ∧ output.1 ∈ passOwners wallet first ∧
          entry.1 ∈ passOwners wallet second := by
  constructor
  · rintro ⟨input, inInputs, output, inOutputs, spends, ofFirst, ofSecond⟩
    obtain ⟨holder, holds⟩ := Database.exists_ownerOf_output valid inOutputs
    have ⟨tx, inRows, isId, _⟩ := ofSecond
    have spender : db.ownerOf input.txId = some tx.owner :=
      (Database.ownerOf_eq_some_iff valid).mpr ⟨tx, inRows, isId, rfl⟩
    refine ⟨(output.outPubKey, input.keyImage), (tx.owner, input.unnumbered),
      (holder, output.unnumbered),
      (Database.ledger_inputs_iff valid).mpr ⟨input, inInputs, ?_, rfl, spender, rfl⟩,
      (Database.ledger_outputs_iff valid).mpr ⟨output, inOutputs, rfl, holds, rfl⟩,
      (rowOf_iff valid holds).mp ofFirst, (rowOf_iff valid spender).mp ofSecond⟩
    exact (Database.keyOf_eq_some_iff valid).mpr ⟨output, inOutputs, spends.symm, rfl⟩
  · rintro ⟨key, ⟨spender, spend⟩, ⟨holder, held⟩, found, holds, ofFirst, ofSecond⟩
    obtain ⟨input, inInputs, ofKey, -, spent, -⟩ := (Database.ledger_inputs_iff valid).mp found
    obtain ⟨output, inOutputs, isKey, owned, -⟩ := (Database.ledger_outputs_iff valid).mp holds
    obtain ⟨other, inTable, isId, sameKey⟩ := (Database.keyOf_eq_some_iff valid).mp ofKey
    obtain rfl := valid.outputKeys.eq_of_key inTable inOutputs (sameKey.trans isKey.symm)
    exact ⟨input, inInputs, other, inOutputs, isId.symm, (rowOf_iff valid owned).mpr ofFirst,
      (rowOf_iff valid spent).mpr ofSecond⟩

theorem closed_ledger {db : Database} (valid : db.Valid) : db.ledger.Closed := by
  rintro key ⟨owner, row⟩ found
  obtain ⟨input, -, spends, -⟩ := (Database.ledger_inputs_iff valid).mp found
  obtain ⟨output, inOutputs, -, isKey⟩ := (Database.keyOf_eq_some_iff valid).mp spends
  obtain ⟨holder, holds⟩ := Database.exists_ownerOf_output valid inOutputs
  have held := (Database.ledger_outputs_iff valid).mpr ⟨output, inOutputs, isKey, holds, rfl⟩
  exact fun none => absurd (none.symm.trans held) nofun

/-- The scan of a window posts its transactions. -/
theorem scanWindow_postings {blocks : List Block} {scanned : Scanned} (valid : scanned.db.Valid)
    (account : scanned.db.hasAccount wallet.account.id = true)
    (indexed : ∀ entry ∈ entries blocks,
      Indexed wallet entry.tx (chain.indices entry.tx.hash)) :
    (scanWindow wallet chain blocks scanned).db.Valid ∧
      (scanWindow wallet chain blocks scanned).db.hasAccount wallet.account.id = true ∧
      (scanWindow wallet chain blocks scanned).known =
        scanned.known.insertAll (outputsOf wallet (entries blocks)) ∧
      (scanWindow wallet chain blocks scanned).db.ledger =
        Posting.postAll (postings wallet chain (entries blocks) scanned.known none)
          scanned.db.ledger :=
  (@run_postings wallet chain (entries blocks) { scanned := { scanned with blkTimestamp := none } }
    rfl valid account indexed).2

/-- Scanning a window again, after a second one, leaves the same rows, up to ids, exactly if no
transaction of the second window has a recorded spend of an output of the first one. -/
theorem rescan_iff (wallet : Wallet) (chain : Blockchain)
    (ring : Transaction → List (String × String)) (first second : List Block)
    (mined : Mined wallet chain ring (entries first ++ entries second)) (scanned : Scanned)
    (valid : scanned.db.Valid) (account : scanned.db.hasAccount wallet.account.id = true)
    (unscanned : ∀ row ∈ scanned.db.transactions, row.accountId = wallet.account.id →
      row.hash ∉ (entries first ++ entries second).map (·.tx.hash)) :
    (scanWindow wallet chain first (scanBoth wallet chain first second scanned)).db.ledger =
        (scanBoth wallet chain first second scanned).db.ledger ↔
      ¬ SpentLater wallet.account.id first second
        (scanBoth wallet chain first second scanned).db := by
  have indexedFirst := fun entry member => mined.indexed entry (List.mem_append_left _ member)
  have indexedSecond := fun entry member => mined.indexed entry (List.mem_append_right _ member)
  obtain ⟨validFirst, accountFirst, knownFirst, ledgerFirst⟩ :=
    scanWindow_postings valid account indexedFirst
  obtain ⟨validBoth, accountBoth, knownBoth, ledgerBoth⟩ :=
    scanWindow_postings validFirst accountFirst indexedSecond
  obtain ⟨-, -, -, ledgerAgain⟩ := scanWindow_postings validBoth accountBoth indexedFirst
  -- the window that is scanned again posts the same
  have again : postings wallet chain (entries first)
      (scanWindow wallet chain second (scanWindow wallet chain first scanned)).known none =
      postings wallet chain (entries first) scanned.known none := by
    rw [knownBoth, knownFirst, ← KnownOutputs.insertAll_append, ← outputsOf_append]
    exact postings_again mined scanned.known none
  rw [again] at ledgerAgain
  have postsFirst := postsOf_postings chain mined.identifies (entries first)
    scanned.known none
  have postsSecond := postsOf_postings chain mined.identifies (entries second)
    (scanWindow wallet chain first scanned).known none
  generalize postings wallet chain (entries first) scanned.known none = postedFirst at *
  generalize postings wallet chain (entries second) (scanWindow wallet chain first scanned).known
    none = postedSecond at *
  have posts := List.rel_append postsFirst postsSecond
  have new := new_of_postsOf valid mined posts unscanned
  rw [ledgerFirst, ← Posting.postAll_append] at ledgerBoth
  show (scanWindow wallet chain first (scanWindow wallet chain second
      (scanWindow wallet chain first scanned))).db.ledger =
        (scanWindow wallet chain second (scanWindow wallet chain first scanned)).db.ledger ↔
      ¬ SpentLater wallet.account.id first second
        (scanWindow wallet chain second (scanWindow wallet chain first scanned)).db
  have owner (posted : List Posting) (blocks : List Block)
      (posts : List.Forall₂ (PostsOf wallet ring) (entries blocks) posted) (owner : Owner) :
      owner ∈ Posting.owners posted ↔ owner ∈ passOwners wallet blocks := by
    unfold Posting.owners passOwners
    rw [← owners_of_postsOf posts]
    rfl
  rw [spentLater_iff validBoth, ledgerAgain, ledgerBoth,
    Posting.postAll_again_eq_iff new (closed_ledger valid) (inOrder_of_postsOf mined posts)]
  simp only [owner postedFirst first postsFirst, owner postedSecond second postsSecond]

end Windows

/-! ### An output is spent in a later window -/

/-- Transaction `b2` has the output `k1` in its ring. -/
def ringOf (tx : Transaction) : List (String × String) :=
  if tx.hash = "b2" then [("i1", "k1")] else []

/-- Transaction `a1` pays 5 to the account, and `d3` pays 3. -/
def payee : Wallet where
  account := { id := 1, address := "4ApA" }
  identifier :=
    { outputs := fun tx =>
        if tx.hash = "a1" then [{ pubKey := "k1", amount := 5 }]
        else if tx.hash = "d3" then [{ pubKey := "k3", amount := 3 }]
        else []
      inputs := fun known tx => KnownOutputs.identifyKnown known (ringOf tx) }

/-- The chain has a hundred blocks, and has every transaction. -/
def mainChain : Blockchain where
  status := { currentHeight := 100 }
  txId _ := 1
  indices _ := [7]

/-- The block in which the account receives. -/
def received : Block where
  height := 10
  timestamp := 1600000000
  minerTx := { hash := "c1" }
  txs := [{ hash := "a1" }]

/-- The block in which it spends. -/
def spent : Block where
  height := 11
  timestamp := 1600000120
  minerTx := { hash := "c2" }
  txs := [{ hash := "b2" }]

/-- The block in which it receives again. -/
def receivedAgain : Block where
  height := 12
  timestamp := 1600000240
  minerTx := { hash := "c3" }
  txs := [{ hash := "d3" }]

/-- The account is new. -/
def created : Scanned where
  db := { accounts := [payee.account], nextAccount := 2 }
  known := []

theorem mined_spent : Mined payee mainChain ringOf (entries [received] ++ entries [spent]) where
  distinct := by decide
  indexed := by
    unfold Indexed
    decide
  identifies _ _ := rfl
  notOwn := by decide
  notLater := by decide

theorem mined_receivedAgain :
    Mined payee mainChain ringOf (entries [received, spent] ++ entries [receivedAgain]) where
  distinct := by decide
  indexed := by
    unfold Indexed
    decide
  identifies _ _ := rfl
  notOwn := by decide
  notLater := by decide

/-- Where the spend is in the window that is scanned again, it is recorded again, and the later
window keeps its rows. -/
theorem rescan_iff_received_spent :
    (scanWindow payee mainChain [received, spent]
        (scanBoth payee mainChain [received, spent] [receivedAgain] created)).db.ledger =
      (scanBoth payee mainChain [received, spent] [receivedAgain] created).db.ledger :=
  (rescan_iff payee mainChain ringOf [received, spent] [receivedAgain] mined_receivedAgain created
    (by decide) (by decide) (by decide)).mpr (by decide +kernel)

/-- Where the spend is in a later window, it is lost. -/
theorem rescan_loses_spend :
    Mined payee mainChain ringOf (entries [received] ++ entries [spent]) ∧
      (scanWindow payee mainChain [received]
          (scanBoth payee mainChain [received] [spent] created)).db.ledger ≠
        (scanBoth payee mainChain [received] [spent] created).db.ledger := by
  refine ⟨mined_spent, fun same => ?_⟩
  have lost : ((scanWindow payee mainChain [received]
      (scanBoth payee mainChain [received] [spent] created)).db.ledger.inputs
        ("k1", "i1")).isSome = false := by decide +kernel
  have recorded : ((scanBoth payee mainChain [received] [spent] created).db.ledger.inputs
      ("k1", "i1")).isSome = true := by decide +kernel
  rw [same, recorded] at lost
  exact absurd lost nofun

end LightWallet.Rescan
