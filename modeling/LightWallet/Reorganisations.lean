/-
This file models the search of an account over a main chain whose last blocks are replaced
under it, and says what the tables should hold.

The search of an account goes forward only, and reads every block once, from the main
chain as it then is. When blocks are replaced, the rows of their transactions stay until
a check finds that a transaction which is still locked is no longer under its stored id,
and deletes it. Whatever enters the main chain below the end of the blocks that were read
is not read again.
-/

import LightWallet.Balances
import LightWallet.ChainPasses
import LightWallet.Deletions

namespace LightWallet.Reorganisations

open MainChain (MinedAt Pays Sound getBlocksRange)
open Windows (Entry entries)

/-! ### A search over a main chain -/

/-- The main chain, and the search of an account. `checked` says whether a check has run since a
block of the main chain was last replaced. -/
structure State where
  chain : List Block
  search : Completeness.State
  checked : Bool := true

/-- The last blocks of the main chain are replaced, or blocks are added to it; a window is read, a
pass goes over its next transaction, and its end is reached; the transactions of the account are
checked. -/
inductive Event where
  | replace (depth : Nat) (blocks : List Block)
  | read (lookahead lastBlockHeight : Nat)
  | pass (status : Status)
  | finish
  | check (status : Status)

/-- The main chain with its last blocks replaced. -/
def replaced (chain : List Block) (depth : Nat) (blocks : List Block) : List Block :=
  chain.take (chain.length - depth) ++ blocks

/-- What a check sees of the blockchain. -/
def backendAt (core : CoreStorage) (backend : Backend) (chain : List Block) (status : Status) :
    Backend :=
  { backend with status, txExist := core.txId chain }

/-- What an event does to the chain and the search. -/
def step (core : CoreStorage) (backend : Backend) (wallet : Wallet) (state : State) :
    Event → State
  | .replace depth blocks =>
    { state with
      chain := replaced state.chain depth blocks
      checked := state.checked && depth = 0 }
  | .read lookahead lastBlockHeight =>
    let h1 := state.search.thread.searchedBlkNo
    let h2 := min (h1 + lookahead - 1) lastBlockHeight
    { state with
      search :=
        Completeness.step wallet state.search (.fetch (getBlocksRange state.chain h1 h2) h2) }
  | .pass status =>
    match state.search.next with
    | none => state
    | some (entry, _) =>
      { state with
        search := Completeness.step wallet state.search
          (.pass
            { status
              outcomes := answers core state.chain entry.tx
              valid := fun _ valid => valid }) }
  | .finish => { state with search := Completeness.step wallet state.search (.finish true) }
  | .check status =>
    let db := Balances.step state.search.scanned.db
      (.check (backendAt core backend state.chain status) wallet.account.id [])
    { state with
      search := { state.search with scanned := { state.search.scanned with db } }
      checked := true }

/-! ### The property -/

section Property

variable (wallet : Wallet) (start : Nat)

/-- A transaction is stored for the account, with a height from the first scanned block on. -/
def Stored (db : Database) (hash : String) (height : Nat) : Prop :=
  ∃ row ∈ db.selectTransactions wallet.account.id,
    row.hash = hash ∧ row.height = height ∧ start ≤ height

instance (db : Database) (hash : String) (height : Nat) :
    Decidable (Stored wallet start db hash height) :=
  inferInstanceAs (Decidable (∃ row ∈ _, _ ∧ _ ∧ _))

/-- A spend is recorded of the transaction. -/
def RecordsSpend (db : Database) (hash : String) : Prop :=
  ∃ row ∈ db.selectTransactions wallet.account.id, row.hash = hash ∧ db.inputsForTx row.id ≠ []

instance (db : Database) (hash : String) : Decidable (RecordsSpend wallet db hash) :=
  inferInstanceAs (Decidable (∃ row ∈ _, _ ∧ _))

/-- The main chain has the transaction at the height, from the first scanned block on, and it has
outputs or recorded spends of the account. -/
def Due (chain : List Block) (db : Database) (hash : String) (height : Nat) : Prop :=
  ∃ entry ∈ entries chain, entry.tx.hash = hash ∧ entry.blk.height = height ∧ start ≤ height ∧
    (wallet.identifier.outputs entry.tx ≠ [] ∨ RecordsSpend wallet db hash)

/-- The scan has reached the tip. -/
def AtTip (state : State) : Prop :=
  state.search.window.isNone ∧ state.chain.length ≤ state.search.thread.searchedBlkNo

instance (state : State) : Decidable (AtTip state) := inferInstanceAs (Decidable (_ ∧ _))

/-- Once the scan has reached the tip, and a check has run after the last reorganisation, exactly
what is due is stored. -/
def Consistent (state : State) : Prop :=
  AtTip state → state.checked = true → ∀ hash height,
    Stored wallet start state.search.scanned.db hash height ↔
      Due wallet start state.chain state.search.scanned.db hash height

end Property

/-! ### The condition -/

/-- The transactions that the window is still to pass over. -/
def State.rest (state : State) : List Entry := (state.search.window.map (·.rest)).getD []

/-- The first block that is not read yet. -/
def State.frontier (state : State) : Nat :=
  (state.search.window.map (·.h2 + 1)).getD state.search.thread.searchedBlkNo

/-- A transaction with the hash, at the height, is still to be passed over. -/
def Coming (state : State) (hash : String) (height : Nat) : Prop :=
  state.frontier ≤ height ∨
    ∃ entry ∈ state.rest, entry.tx.hash = hash ∧ entry.blk.height = height

instance (state : State) (hash : String) (height : Nat) : Decidable (Coming state hash height) :=
  inferInstanceAs (Decidable (_ ∨ ∃ entry ∈ _, _ ∧ _))

section Condition

variable (core : CoreStorage) (backend : Backend) (wallet : Wallet)
  (ring : Transaction → List (String × String)) (exist : Transaction → Prop) (start : Nat)

/-- A transaction of the account: it pays the account, or refers to an output of the account. -/
def OfAccount (tx : Transaction) : Prop :=
  wallet.identifier.outputs tx ≠ [] ∨
    ∃ member ∈ ring tx, ∃ other, exist other ∧ Pays wallet other member.2

/-- A transaction that enters the main chain is in place: at the height at which the window is still
to pass over it, or, if the window is not, at the height of its row, which has outputs or spends, or
else below the first scanned block and without a row. -/
structure InPlace (state : State) (entry : Entry) : Prop where
  inWindow : ∀ other ∈ state.rest, other.tx.hash = entry.tx.hash →
    other.blk.height = entry.blk.height
  stored : (∀ other ∈ state.rest, other.tx.hash ≠ entry.tx.hash) →
    (∃ row ∈ state.search.scanned.db.selectTransactions wallet.account.id,
        row.hash = entry.tx.hash ∧ row.height = entry.blk.height ∧
        (wallet.identifier.outputs entry.tx ≠ [] ∨
          RecordsSpend wallet state.search.scanned.db entry.tx.hash)) ∨
      entry.blk.height < start ∧
        ∀ row ∈ state.search.scanned.db.selectTransactions wallet.account.id,
          row.hash ≠ entry.tx.hash

instance (state : State) (entry : Entry) : Decidable (InPlace wallet start state entry) :=
  decidable_of_iff
    ((∀ other ∈ state.rest, other.tx.hash = entry.tx.hash →
        other.blk.height = entry.blk.height) ∧
      ((∀ other ∈ state.rest, other.tx.hash ≠ entry.tx.hash) →
        (∃ row ∈ state.search.scanned.db.selectTransactions wallet.account.id,
            row.hash = entry.tx.hash ∧ row.height = entry.blk.height ∧
            (wallet.identifier.outputs entry.tx ≠ [] ∨
              RecordsSpend wallet state.search.scanned.db entry.tx.hash)) ∨
          entry.blk.height < start ∧
            ∀ row ∈ state.search.scanned.db.selectTransactions wallet.account.id,
              row.hash ≠ entry.tx.hash))
    ⟨fun ⟨inWindow, stored⟩ => ⟨inWindow, stored⟩,
      fun inPlace => ⟨inPlace.inWindow, inPlace.stored⟩⟩

instance (ledger : Ledger) (outputs : List XmrOutput) (inputs : List (String × XmrInput)) :
    Decidable (ledger.Accepts outputs inputs) :=
  decidable_of_iff
    (Tables.Unique XmrOutput.outPubKey outputs ∧
      (∀ output ∈ outputs, ledger.outputs output.outPubKey = none) ∧
      Tables.Unique (fun input => (input.1, input.2.keyImage)) inputs ∧
      ∀ input ∈ inputs, ledger.inputs (input.1, input.2.keyImage) = none)
    ⟨fun ⟨outputKeys, freshOutputs, inputKeys, freshInputs⟩ =>
        ⟨outputKeys, freshOutputs, inputKeys, freshInputs⟩,
      fun accepts => ⟨accepts.outputKeys, accepts.freshOutputs, accepts.inputKeys,
        accepts.freshInputs⟩⟩

/-- Every transaction of the account that enters the main chain below the first block that is not
read yet is in place. The keys of the tables admit what a pass stores. When the account is checked,
a row whose transaction is not at its height in the main chain is still locked, and the chain does
not have the transaction under its id, and a row whose transaction is there is unlocked or keeps its
id; rows of transactions that the search still comes to may be either. -/
def Met (state : State) : Event → Prop
  | .replace depth blocks => ∀ entry ∈ entries (replaced state.chain depth blocks),
      ¬ MinedAt state.chain entry.tx.hash entry.blk.height → entry.blk.height < state.frontier →
        OfAccount wallet ring exist entry.tx → InPlace wallet start state entry
  | .pass status => ∀ entry window, state.search.next = some (entry, window) →
      ∀ id ∈ core.txId state.chain entry.tx.hash,
        let posting := Rescan.posting wallet status entry.turn.tuple entry.tx id
          (core.indices state.chain entry.tx.hash) state.search.scanned
        let ledger := state.search.scanned.db.ledger.without posting.owner
        ledger.Accepts posting.outputs (posting.spends ledger)
  | .check status => ∀ row ∈ state.search.scanned.db.selectTransactions wallet.account.id,
      (∀ entry ∈ entries state.chain, entry.tx.hash = row.hash →
          ¬ Coming state row.hash entry.blk.height) →
        (Deletes (backendAt core backend state.chain status) row ↔
          ¬ MinedAt state.chain row.hash row.height)
  | _ => True

instance [∀ tx, Decidable (OfAccount wallet ring exist tx)] (state : State) :
    ∀ event, Decidable (Met core backend wallet ring exist start state event)
  | .replace _ _ => inferInstanceAs (Decidable (∀ entry ∈ _, _ → _ → _ → _))
  | .pass status =>
    match next : state.search.next with
    | none => isTrue fun _ _ isNext => nomatch next.symm.trans isNext
    | some (entry, window) =>
      decidable_of_iff
        (∀ id ∈ core.txId state.chain entry.tx.hash,
          let posting := Rescan.posting wallet status entry.turn.tuple entry.tx id
            (core.indices state.chain entry.tx.hash) state.search.scanned
          let ledger := state.search.scanned.db.ledger.without posting.owner
          ledger.Accepts posting.outputs (posting.spends ledger))
        ⟨fun accepts _ _ isNext =>
            (Prod.mk.inj (Option.some.inj (next.symm.trans isNext))).1 ▸ accepts,
          fun met => met entry window next⟩
  | .check _ => inferInstanceAs (Decidable (∀ row ∈ _, (∀ entry ∈ _, _ → _) → (_ ↔ _)))
  | .read _ _ => inferInstanceAs (Decidable True)
  | .finish => inferInstanceAs (Decidable True)

end Condition

/-! ### The invariant -/

/-- What is taken as given of transactions: a hash is that of one transaction, and of the members of
a ring those are identified that are known. -/
structure Assumes (wallet : Wallet) (ring : Transaction → List (String × String))
    (exist : Transaction → Prop) : Prop where
  unique : ∀ first second, exist first → exist second → first.hash = second.hash → first = second
  identifies : ∀ known tx, wallet.identifier.inputs known tx =
    KnownOutputs.identifyKnown known (ring tx)

/-- The ledger of the tables. -/
abbrev State.ledger (state : State) : Ledger := state.search.scanned.db.ledger

section Invariant

variable (wallet : Wallet) (ring : Transaction → List (String × String))
  (exist : Transaction → Prop) (start : Nat)

/-- What is known of a window, of which the given transactions were passed over. Rows have heights
below the window, or are of these transactions. The place that a transaction of the account has in
the main chain is the one that it has in the window, or behind the window. -/
structure Reading (state : State) (window : Completeness.Window) (visited : List Entry) : Prop where
  ordered : state.search.thread.searchedBlkNo ≤ window.h2
  present : ∀ entry ∈ visited ++ window.rest, exist entry.tx
  inside : ∀ entry ∈ visited ++ window.rest,
    state.search.thread.searchedBlkNo ≤ entry.blk.height ∧ entry.blk.height ≤ window.h2
  distinct : ((visited ++ window.rest).map (·.tx.hash)).Nodup
  notLater : (visited ++ window.rest).Pairwise fun entry later =>
    ∀ member ∈ ring entry.tx, ¬ Pays wallet later.tx member.2
  rows : ∀ hash row, state.ledger.transactions ⟨hash, wallet.account.id⟩ = some row →
    row.height < state.search.thread.searchedBlkNo ∨
      ∃ entry ∈ visited, entry.tx.hash = hash ∧ entry.blk.height = row.height
  placed : ∀ entry ∈ window.rest, OfAccount wallet ring exist entry.tx →
    ∀ height, MinedAt state.chain entry.tx.hash height →
      height = entry.blk.height ∨ window.h2 < height

/-- The rows of the account are of transactions that there are. A transaction that has a row has no
other place in the main chain than that of its row, unless the search comes to it. Every transaction
of the main chain that pays the account has its row there, unless the search comes to it. After a
check, no row is of a transaction that has left the main chain. -/
structure Invariant (state : State) : Prop where
  valid : state.search.scanned.db.Valid
  account : state.search.scanned.db.hasAccount wallet.account.id = true
  ours : state.search.thread.acc.id = wallet.account.id
  address : ∀ row ∈ state.search.scanned.db.accounts, row.id = wallet.account.id →
    row.address = state.search.thread.acc.address
  unmoved : state.search.thread.searchedBlockGotUpdated = false
  sound : Sound wallet ring exist state.chain
  started : start ≤ state.search.thread.searchedBlkNo
  cached : ∀ key, state.search.scanned.known.amountOf key ≠ none →
    ∃ tx, exist tx ∧ Pays wallet tx key
  rows : ∀ hash row, state.ledger.transactions ⟨hash, wallet.account.id⟩ = some row →
    start ≤ row.height ∧ ∃ tx, exist tx ∧ tx.hash = hash ∧
      Recognised wallet ring state.search.scanned.known tx
  outputs : ∀ key hash row, state.ledger.outputs key = some (⟨hash, wallet.account.id⟩, row) →
    ∃ tx, exist tx ∧ tx.hash = hash ∧ Pays wallet tx key
  inputs : ∀ key hash row, state.ledger.inputs key = some (⟨hash, wallet.account.id⟩, row) →
    ∃ tx, exist tx ∧ tx.hash = hash ∧ InRing ring tx key.1
  idle : state.search.window = none → state.search.ended = false → ∀ hash row,
    state.ledger.transactions ⟨hash, wallet.account.id⟩ = some row →
      row.height < state.search.thread.searchedBlkNo
  reading : ∀ window, state.search.window = some window →
    ∃ visited, Reading wallet ring exist state window visited
  placed : ∀ hash row height, state.ledger.transactions ⟨hash, wallet.account.id⟩ = some row →
    MinedAt state.chain hash height → height = row.height ∨ Coming state hash height
  complete : ∀ entry ∈ entries state.chain, start ≤ entry.blk.height →
    wallet.identifier.outputs entry.tx ≠ [] →
      (∃ row, state.ledger.transactions (passOwner wallet entry.tx) = some row ∧
        row.height = entry.blk.height) ∨ Coming state entry.tx.hash entry.blk.height
  mined : state.checked = true → ∀ hash row,
    state.ledger.transactions ⟨hash, wallet.account.id⟩ = some row →
      ∃ height, MinedAt state.chain hash height
  holds : ∀ entry ∈ entries state.chain, ∀ row,
    state.ledger.transactions (passOwner wallet entry.tx) = some row →
      row.height = entry.blk.height →
        Coming state entry.tx.hash entry.blk.height ∨ Holds wallet state.ledger entry.tx

end Invariant

section Runs

variable {core : CoreStorage} {backend : Backend} {wallet : Wallet}
  {ring : Transaction → List (String × String)} {exist : Transaction → Prop} {start : Nat}
  {state : State}

theorem State.rest_of_window {window : Completeness.Window}
    (reads : state.search.window = some window) : state.rest = window.rest := by
  unfold State.rest
  rw [reads]
  rfl

theorem State.frontier_of_window {window : Completeness.Window}
    (reads : state.search.window = some window) : state.frontier = window.h2 + 1 := by
  unfold State.frontier
  rw [reads]
  rfl

theorem State.rest_of_none (idle : state.search.window = none) : state.rest = [] := by
  unfold State.rest
  rw [idle]
  rfl

theorem State.frontier_of_none (idle : state.search.window = none) :
    state.frontier = state.search.thread.searchedBlkNo := by
  unfold State.frontier
  rw [idle]
  rfl

theorem coming_of_window {window : Completeness.Window} (reads : state.search.window = some window)
    {hash : String} {height : Nat} :
    Coming state hash height ↔
      window.h2 < height ∨
        ∃ entry ∈ window.rest, entry.tx.hash = hash ∧ entry.blk.height = height := by
  unfold Coming
  rw [State.frontier_of_window reads, State.rest_of_window reads]
  rfl

theorem coming_of_none (idle : state.search.window = none) {hash : String} {height : Nat} :
    Coming state hash height ↔ state.search.thread.searchedBlkNo ≤ height := by
  unfold Coming
  rw [State.frontier_of_none idle, State.rest_of_none idle]
  exact or_iff_left fun ⟨_, absent, _⟩ => List.not_mem_nil absent

/-- At the tip, the search comes to no transaction of the main chain. -/
theorem Invariant.not_coming (invariant : Invariant wallet ring exist start state)
    (tip : AtTip state) {hash : String} {height : Nat} (mined : MinedAt state.chain hash height) :
    ¬ Coming state hash height := by
  rw [coming_of_none (Option.isNone_iff_eq_none.mp tip.1), Nat.not_le]
  exact (invariant.sound.minedAt_lt mined).trans_le tip.2

/-- A recorded spend is one of the ledger. -/
theorem recordsSpend_iff {db : Database} (valid : db.Valid) {hash : String} :
    RecordsSpend wallet db hash ↔
      ∃ key row, db.ledger.inputs key = some (⟨hash, wallet.account.id⟩, row) := by
  constructor
  · rintro ⟨tx, selected, rfl, spends⟩
    obtain ⟨inRows, account⟩ := List.mem_filter.mp selected
    obtain ⟨input, ofTx⟩ := List.exists_mem_of_ne_nil _ spends
    obtain ⟨inInputs, isId⟩ := List.mem_filter.mp ofTx
    obtain ⟨output, inOutputs, isOutput⟩ := (Database.hasOutput_iff _ _).mp
      (valid.inputOutput input inInputs)
    have owner : db.ownerOf input.txId = some ⟨tx.hash, wallet.account.id⟩ :=
      (Database.ownerOf_eq_some_iff valid).mpr ⟨tx, inRows, (of_decide_eq_true isId).symm,
        congrArg (Owner.mk tx.hash) (of_decide_eq_true account)⟩
    exact ⟨(output.outPubKey, input.keyImage), input.unnumbered,
      (Database.ledger_inputs_iff valid).mpr ⟨input, inInputs,
        (Database.keyOf_eq_some_iff valid).mpr ⟨output, inOutputs, isOutput, rfl⟩, rfl, owner, rfl⟩⟩
  · rintro ⟨key, row, found⟩
    obtain ⟨input, inInputs, -, -, owner, -⟩ := (Database.ledger_inputs_iff valid).mp found
    obtain ⟨tx, inRows, isId, isOwner⟩ := (Database.ownerOf_eq_some_iff valid).mp owner
    obtain ⟨isHash, account⟩ := Owner.mk.inj isOwner
    exact ⟨tx, List.mem_filter.mpr ⟨inRows, decide_eq_true account⟩, isHash,
      List.ne_nil_of_mem (List.mem_filter.mpr ⟨inInputs, decide_eq_true isId.symm⟩)⟩

/-- The invariant says at the tip, after a check, that exactly what is due is stored. -/
theorem Invariant.consistent (invariant : Invariant wallet ring exist start state) :
    Consistent wallet start state := by
  intro tip checked hash height
  constructor
  · rintro ⟨tx, selected, rfl, rfl, fromStart⟩
    have row := (exists_row invariant.valid).mpr ⟨tx, selected, rfl, rfl⟩
    obtain ⟨place, mined⟩ := invariant.mined checked tx.hash _ row
    have here := (invariant.placed _ _ place row mined).resolve_right
      (invariant.not_coming tip mined)
    obtain ⟨entry, inChain, isHash, isHeight⟩ := mined
    refine ⟨entry, inChain, isHash, isHeight.trans here, fromStart, ?_⟩
    rw [recordsSpend_iff invariant.valid, ← isHash]
    rw [← isHash] at row
    exact (invariant.holds entry inChain _ row (isHeight.trans here).symm).resolve_left
      (invariant.not_coming tip ⟨entry, inChain, rfl, rfl⟩)
  · rintro ⟨entry, inChain, rfl, rfl, fromStart, pays | spends⟩
    · obtain ⟨row, isRow, isHeight⟩ :=
        (invariant.complete entry inChain fromStart pays).resolve_right
          (invariant.not_coming tip ⟨entry, inChain, rfl, rfl⟩)
      obtain ⟨tx, selected, isHash, rfl⟩ := (exists_row invariant.valid).mp isRow
      exact ⟨tx, selected, isHash, isHeight, fromStart⟩
    · obtain ⟨tx, selected, isHash, -⟩ := spends
      have mined : MinedAt state.chain tx.hash entry.blk.height :=
        ⟨entry, inChain, isHash.symm, rfl⟩
      have row := (exists_row invariant.valid).mpr ⟨tx, selected, rfl, rfl⟩
      have here := (invariant.placed _ _ _ row mined).resolve_right (invariant.not_coming tip mined)
      exact ⟨tx, selected, isHash, here.symm, fromStart⟩

theorem Invariant.ofAccount (invariant : Invariant wallet ring exist start state)
    {tx : Transaction} (recognised : Recognised wallet ring state.search.scanned.known tx) :
    OfAccount wallet ring exist tx := by
  refine recognised.imp_right fun ⟨member, inRing, isKnown⟩ => ?_
  obtain ⟨other, isTx, pays⟩ := invariant.cached _ isKnown
  exact ⟨member, inRing, other, isTx, pays⟩

theorem Invariant.ofAccount_of_row
    (assumes : Assumes wallet ring exist) (invariant : Invariant wallet ring exist start state)
    {tx : Transaction} (isTx : exist tx) {row : XmrTransaction}
    (isRow : state.ledger.transactions ⟨tx.hash, wallet.account.id⟩ = some row) :
    OfAccount wallet ring exist tx := by
  obtain ⟨-, other, isOther, sameHash, recognised⟩ := invariant.rows tx.hash row isRow
  obtain rfl := assumes.unique other tx isOther isTx sameHash
  exact invariant.ofAccount recognised

/-- Where a transaction is in its place, and has a recorded spend, the transaction whose output it
spends is in its place as well. -/
theorem Invariant.holder_in_place
    (assumes : Assumes wallet ring exist) (invariant : Invariant wallet ring exist start state)
    {entry : Entry} (inChain : entry ∈ entries state.chain) {row : XmrTransaction}
    (isRow : state.ledger.transactions (passOwner wallet entry.tx) = some row)
    (height : row.height = entry.blk.height)
    (away : ¬ Coming state entry.tx.hash entry.blk.height) {key : String × String}
    {spend : XmrInput}
    (spends : state.ledger.inputs key = some (passOwner wallet entry.tx, spend)) {hash : String}
    {output : XmrOutput}
    (holds : state.ledger.outputs key.1 = some (⟨hash, wallet.account.id⟩, output)) :
    ∃ holder, state.ledger.transactions ⟨hash, wallet.account.id⟩ = some holder ∧
      MinedAt state.chain hash holder.height ∧ ¬ Coming state hash holder.height := by
  have isEntry := invariant.sound.present entry inChain
  obtain ⟨payer, isPayer, rfl, pays⟩ := invariant.outputs _ _ _ holds
  obtain ⟨spender, isSpender, sameHash, member, inRing, isKey⟩ := invariant.inputs _ _ _ spends
  obtain rfl := assumes.unique spender entry.tx isSpender isEntry sameHash
  rw [← isKey] at pays
  obtain ⟨other, otherInChain, rfl, earlier⟩ :=
    invariant.sound.exists_earlier inChain inRing isPayer pays
  obtain ⟨holder, isHolder⟩ := exists_holder invariant.valid holds
  have mined : MinedAt state.chain other.tx.hash other.blk.height := ⟨other, otherInChain, rfl, rfl⟩
  have notComing : ¬ Coming state other.tx.hash other.blk.height := by
    rintro (behind | ⟨later, inRest, isHash, isHeight⟩)
    · exact away (.inl (behind.trans earlier))
    · cases reads : state.search.window with
      | none =>
        rw [State.rest_of_none reads] at inRest
        exact List.not_mem_nil inRest
      | some window =>
        rw [State.rest_of_window reads] at inRest
        obtain ⟨visited, reading⟩ := invariant.reading window reads
        have inWindow := List.mem_append_right visited inRest
        have isLater : later.tx = other.tx :=
          assumes.unique _ _ (reading.present later inWindow) isPayer isHash
        rcases reading.rows _ row isRow with below | ⟨first, inVisited, firstHash, -⟩
        · have above := (reading.inside later inWindow).1
          omega
        · have isFirst : first.tx = entry.tx := assumes.unique _ _
            (reading.present first (List.mem_append_left _ inVisited)) isEntry firstHash
          refine (List.pairwise_append.mp reading.notLater).2.2 first inVisited later inRest member
            (isFirst ▸ inRing) ?_
          rw [isLater]
          exact pays
  have here := (invariant.placed _ holder _ isHolder mined).resolve_right notComing
  rw [here] at mined notComing
  exact ⟨holder, isHolder, mined, notComing⟩

end Runs

end LightWallet.Reorganisations
