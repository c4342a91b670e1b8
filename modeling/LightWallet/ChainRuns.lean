/-
This file follows the search of an account through the changes of its main chain: each
step that meets the condition keeps the invariant, and so at the tip, after a check,
exactly what is due is stored.
-/

import LightWallet.Reorganisations

namespace LightWallet.Reorganisations

open MainChain (MinedAt Pays Sound getBlocksRange)
open Windows (Entry entries)

section Runs

variable {core : CoreStorage} {backend : Backend} {wallet : Wallet}
  {ring : Transaction → List (String × String)} {exist : Transaction → Prop} {start : Nat}
  {state : State}

/-! ### The main chain changes -/

/-- Blocks are replaced, or added. -/
theorem Invariant.replace
    (assumes : Assumes wallet ring exist) (invariant : Invariant wallet ring exist start state)
    {depth : Nat} {blocks : List Block}
    (sound : Sound wallet ring exist (replaced state.chain depth blocks))
    (met : Met core backend wallet ring exist start state (.replace depth blocks)) :
    Invariant wallet ring exist start (step core backend wallet state (.replace depth blocks)) := by
  -- a transaction of the account that is not read yet, or was there before, or is in place
  have enters {entry : Entry} (inChain : entry ∈ entries (replaced state.chain depth blocks))
      (ofAccount : OfAccount wallet ring exist entry.tx) :
      MinedAt state.chain entry.tx.hash entry.blk.height ∨ state.frontier ≤ entry.blk.height ∨
        InPlace wallet start state entry := by
    by_cases before : MinedAt state.chain entry.tx.hash entry.blk.height
    · exact .inl before
    · by_cases behind : state.frontier ≤ entry.blk.height
      · exact .inr (.inl behind)
      · exact .inr (.inr (met entry inChain before (Nat.lt_of_not_le behind) ofAccount))
  -- where it is in place, it is in the window, or has a row and what belongs to it, or has no row
  have place {entry : Entry} (inPlace : InPlace wallet start state entry) :
      Coming state entry.tx.hash entry.blk.height ∨
        (∃ row, state.ledger.transactions (passOwner wallet entry.tx) = some row ∧
          row.height = entry.blk.height ∧ Holds wallet state.ledger entry.tx) ∨
        entry.blk.height < start ∧
          state.ledger.transactions (passOwner wallet entry.tx) = none := by
    by_cases inRest : ∃ other ∈ state.rest, other.tx.hash = entry.tx.hash
    · obtain ⟨other, member, isHash⟩ := inRest
      exact .inl (.inr ⟨other, member, isHash, inPlace.inWindow other member isHash⟩)
    · refine .inr ((inPlace.stored fun other member isHash => inRest ⟨other, member, isHash⟩).imp
        ?_ fun ⟨below, noRow⟩ => ⟨below, ?_⟩)
      · rintro ⟨row, selected, isHash, height, holds⟩
        rw [recordsSpend_iff invariant.valid] at holds
        exact ⟨row.unnumbered, (exists_row invariant.valid).mpr ⟨row, selected, isHash, rfl⟩,
          height, holds⟩
      · refine Option.eq_none_iff_forall_ne_some.mpr fun row isRow => ?_
        obtain ⟨tx, selected, isHash, -⟩ := (exists_row invariant.valid).mp isRow
        exact noRow tx selected isHash
  exact
    { invariant with
      sound
      idle := invariant.idle
      reading := by
        intro window reads
        change state.search.window = some window at reads
        obtain ⟨visited, reading⟩ := invariant.reading window reads
        refine ⟨visited, { reading with rows := reading.rows, placed := ?_ }⟩
        rintro entry inRest ofAccount _ ⟨other, inChain, isHash, rfl⟩
        have isEntry := reading.present entry (List.mem_append_right visited inRest)
        have isOther : other.tx = entry.tx :=
          assumes.unique _ _ (sound.present other inChain) isEntry isHash
        rcases enters inChain (isOther ▸ ofAccount) with before | behind | inPlace
        · exact reading.placed entry inRest ofAccount _ (isHash ▸ before)
        · rw [State.frontier_of_window reads] at behind
          exact .inr behind
        · rw [← State.rest_of_window reads] at inRest
          exact .inl (inPlace.inWindow entry inRest isHash.symm).symm
      placed := by
        rintro hash row _ isRow ⟨entry, inChain, rfl, rfl⟩
        have ofAccount := invariant.ofAccount_of_row assumes (sound.present entry inChain) isRow
        rcases enters inChain ofAccount with before | behind | inPlace
        · exact invariant.placed _ row _ isRow before
        · exact .inr (.inl behind)
        · rcases place inPlace with coming | ⟨same, isSame, height, -⟩ | ⟨-, noRow⟩
          · exact .inr coming
          · obtain rfl := Option.some.inj (isRow.symm.trans isSame)
            exact .inl height.symm
          · exact absurd (noRow.symm.trans isRow) nofun
      complete := by
        intro entry inChain fromStart pays
        rcases enters inChain (.inl pays) with ⟨other, inOld, isHash, isHeight⟩ | behind | inPlace
        · have isOther : other.tx = entry.tx := assumes.unique _ _
            (invariant.sound.present other inOld) (sound.present entry inChain) isHash
          have complete := invariant.complete other inOld (isHeight ▸ fromStart) (isOther ▸ pays)
          rw [isOther, isHeight] at complete
          exact complete
        · exact .inr (.inl behind)
        · rcases place inPlace with coming | ⟨row, isRow, height, -⟩ | ⟨below, -⟩
          · exact .inr coming
          · exact .inl ⟨row, isRow, height⟩
          · exact absurd fromStart (Nat.not_le.mpr below)
      mined := by
        intro checked hash row isRow
        obtain ⟨wasChecked, isDepth⟩ := Bool.and_eq_true_iff.mp checked
        obtain ⟨height, entry, inChain, isHash, isHeight⟩ :=
          invariant.mined wasChecked hash row isRow
        refine ⟨height, entry, ?_, isHash, isHeight⟩
        show entry ∈ entries (replaced state.chain depth blocks)
        unfold replaced
        rw [of_decide_eq_true isDepth, Nat.sub_zero, List.take_length]
        exact (List.sublist_append_left _ _).flatMap _ |>.subset inChain
      holds := by
        intro entry inChain row isRow height
        have ofAccount := invariant.ofAccount_of_row assumes (sound.present entry inChain) isRow
        rcases enters inChain ofAccount with ⟨other, inOld, isHash, isHeight⟩ | behind | inPlace
        · have isOther : other.tx = entry.tx := assumes.unique _ _
            (invariant.sound.present other inOld) (sound.present entry inChain) isHash
          have holds := invariant.holds other inOld row (isOther ▸ isRow)
            (height.trans isHeight.symm)
          rw [isOther, isHeight] at holds
          exact holds
        · exact .inl (.inl behind)
        · rcases place inPlace with coming | ⟨-, -, -, holds⟩ | ⟨-, noRow⟩
          · exact .inl coming
          · exact .inr holds
          · exact absurd (noRow.symm.trans isRow) nofun }

/-! ### The account is checked -/

theorem step_check_eq {db : Database} (valid : db.Valid) (checks : Backend) (accountId : Nat) :
    Balances.step db (.check checks accountId []) = checkAccount checks accountId db := by
  have quiet : ({ db } : World).Quiet := rfl
  show ((selectTransactions accountId >>= selectTxsForAccountSpendabilityCheck checks)
    { db }).2.db = _
  rw [Handler.bind_apply]
  unfold selectTransactions
  rw [query_quiet _ _ quiet]
  dsimp only
  rw [checkAccount_quiet quiet valid]

/-- A row that is in its place, and to which the search does not come again, stays. -/
theorem Invariant.stays (invariant : Invariant wallet ring exist start state) {status : Status}
    (met : Met core backend wallet ring exist start state (.check status)) {hash : String}
    {row : XmrTransaction}
    (isRow : state.ledger.transactions ⟨hash, wallet.account.id⟩ = some row)
    (mined : MinedAt state.chain hash row.height) (away : ¬ Coming state hash row.height) :
    ∃ after, (checkAccount (backendAt core backend state.chain status) wallet.account.id
        state.search.scanned.db).ledger.transactions ⟨hash, wallet.account.id⟩ = some after ∧
      after.height = row.height := by
  obtain ⟨tx, selected, rfl, rfl⟩ := (exists_row invariant.valid).mp isRow
  obtain ⟨inRows, account⟩ := List.mem_filter.mp selected
  have kept : ¬ Deletes (backendAt core backend state.chain status) tx := by
    refine fun deletes => (met tx selected fun entry inChain isHash coming => away ?_).mp deletes
      mined
    have there : MinedAt state.chain tx.hash entry.blk.height := ⟨entry, inChain, isHash, rfl⟩
    rw [invariant.sound.minedAt_unique mined there]
    exact coming
  obtain ⟨after, isAfter, height⟩ := checkAccount_stays invariant.valid inRows fun _ => kept
  have owner : tx.owner = ⟨tx.hash, wallet.account.id⟩ :=
    congrArg (Owner.mk tx.hash) (of_decide_eq_true account)
  exact ⟨after, owner ▸ isAfter, height⟩

/-- The check of the account keeps the invariant, and ends with nothing of a transaction that has
left the main chain. -/
theorem Invariant.check
    (assumes : Assumes wallet ring exist) (invariant : Invariant wallet ring exist start state)
    {status : Status}
    (met : Met core backend wallet ring exist start state (.check status)) :
    Invariant wallet ring exist start (step core backend wallet state (.check status)) := by
  let checks := backendAt core backend state.chain status
  have accounts : (checkAccount checks wallet.account.id state.search.scanned.db).accounts =
      state.search.scanned.db.accounts := by
    rw [← step_check_eq invariant.valid]
    exact Balances.step_check_invariant
      (fun after => after.accounts = state.search.scanned.db.accounts) (fun _ _ same => same)
      (fun _ _ _ same => same) checks wallet.account.id [] rfl
  have trims : Ledger.Trims state.ledger
      (checkAccount checks wallet.account.id state.search.scanned.db).ledger :=
    trims_checkAccount invariant.valid wallet.account.id
  show Invariant wallet ring exist start
    { state with
      search :=
        { state.search with
          scanned :=
            { state.search.scanned with
              db := Balances.step state.search.scanned.db (.check checks wallet.account.id []) } }
      checked := true }
  rw [step_check_eq invariant.valid]
  exact
    { invariant with
      valid := checkAccount_valid invariant.valid _
      account := (congrArg (List.any · _) accounts).trans invariant.account
      address := fun row member => invariant.address row (accounts ▸ member)
      rows := by
        intro hash row isRow
        obtain ⟨old, was, height⟩ := trims.transactions _ row isRow
        obtain ⟨fromStart, known⟩ := invariant.rows hash old was
        exact ⟨height ▸ fromStart, known⟩
      outputs := fun key hash row found => invariant.outputs key hash row (trims.outputs _ _ found)
      inputs := fun key hash row found => invariant.inputs key hash row (trims.inputs _ _ found)
      idle := by
        intro idle goesOn hash row isRow
        obtain ⟨old, was, height⟩ := trims.transactions _ row isRow
        exact height ▸ invariant.idle idle goesOn hash old was
      reading := by
        intro window reads
        obtain ⟨visited, reading⟩ := invariant.reading window reads
        refine ⟨visited, { reading with rows := fun hash row isRow => ?_ }⟩
        obtain ⟨old, was, height⟩ := trims.transactions _ row isRow
        exact height ▸ reading.rows hash old was
      placed := by
        intro hash row height isRow mined
        obtain ⟨old, was, same⟩ := trims.transactions _ row isRow
        exact same ▸ invariant.placed hash old height was mined
      complete := by
        intro entry inChain fromStart pays
        by_cases coming : Coming state entry.tx.hash entry.blk.height
        · exact .inr coming
        · obtain ⟨row, isRow, height⟩ :=
            (invariant.complete entry inChain fromStart pays).resolve_right coming
          obtain ⟨after, isAfter, same⟩ := invariant.stays met isRow
            ⟨entry, inChain, rfl, height.symm⟩ (height ▸ coming)
          exact .inl ⟨after, isAfter, same.trans height⟩
      mined := by
        intro _ hash row isRow
        obtain ⟨old, was, -⟩ := trims.transactions _ row isRow
        obtain ⟨tx, selected, rfl, rfl⟩ := (exists_row invariant.valid).mp was
        obtain ⟨inRows, account⟩ := List.mem_filter.mp selected
        by_contra nowhere
        have deletes := (met tx selected fun entry inChain isHash =>
          absurd ⟨entry.blk.height, entry, inChain, isHash, rfl⟩ nowhere).mpr
            fun mined => nowhere ⟨_, mined⟩
        have gone := checkAccount_gone invariant.valid inRows deletes
        unfold XmrTransaction.owner at gone
        rw [show tx.accountId = wallet.account.id from of_decide_eq_true account] at gone
        exact absurd (gone.symm.trans isRow) nofun
      holds := by
        intro entry inChain row isRow height
        obtain ⟨old, was, same⟩ := trims.transactions _ row isRow
        by_cases coming : Coming state entry.tx.hash entry.blk.height
        · exact .inl coming
        refine .inr (((invariant.holds entry inChain old was (same.trans height)).resolve_left
          coming).imp_right fun ⟨key, spend, spends⟩ => ⟨key, spend, ?_⟩)
        refine trims.keepsInputs key _ spends ?_ fun ⟨⟨hash, accountId⟩, output⟩ holds => ?_
        · rw [isRow]
          exact Option.some_ne_none row
        · by_cases ours : accountId = wallet.account.id
          · subst ours
            obtain ⟨holder, isHolder, mined, away⟩ := invariant.holder_in_place assumes inChain was
              (same.trans height) coming spends holds
            obtain ⟨after, isAfter, -⟩ := invariant.stays met isHolder mined away
            rw [isAfter]
            exact Option.some_ne_none after
          · obtain ⟨holder, isHolder⟩ := exists_holder invariant.valid holds
            obtain ⟨tx, inRows, owner, -⟩ :=
              (Database.ledger_transactions_iff invariant.valid).mp isHolder
            obtain ⟨after, isAfter, -⟩ : ∃ after, (checkAccount checks wallet.account.id
                state.search.scanned.db).ledger.transactions tx.owner = some after ∧ _ :=
              checkAccount_stays invariant.valid inRows fun same =>
                absurd ((congrArg Owner.accountId owner).symm.trans same) ours
            rw [← owner, isAfter]
            exact Option.some_ne_none after }

/-! ### A window is read, and its end is reached -/

theorem fetch_cases (wallet : Wallet) (search : Completeness.State) (read : Option (List Block))
    (h2 : Nat) :
    Completeness.step wallet search (.fetch read h2) = search ∨
      Completeness.step wallet search (.fetch read h2) = { search with ended := true } ∨
      ∃ blocks, read = some blocks ∧ blocks ≠ [] ∧ search.window = none ∧ search.ended = false ∧
        Completeness.step wallet search (.fetch read h2) =
          { search with
            scanned := { search.scanned with blkTimestamp := none }
            window := some ⟨blocks, h2, entries blocks⟩ } := by
  unfold Completeness.step
  by_cases busy : search.ended = true ∨ search.window.isSome = true
  · exact .inl (if_pos busy)
  · obtain ⟨goesOn, idle⟩ := not_or.mp busy
    dsimp only
    rw [if_neg busy]
    match read with
    | none => exact .inr (.inl rfl)
    | some [] => exact .inl rfl
    | some (blk :: rest) =>
      exact .inr (.inr ⟨blk :: rest, rfl, List.cons_ne_nil blk rest,
        Option.not_isSome_iff_eq_none.mp idle, eq_false_of_ne_true goesOn, rfl⟩)

theorem Invariant.ends (invariant : Invariant wallet ring exist start state) :
    Invariant wallet ring exist start
      { state with search := { state.search with ended := true } } :=
  { invariant with
    idle := fun _ goesOn => nomatch goesOn
    reading := fun window reads => by
      obtain ⟨visited, reading⟩ := invariant.reading window reads
      exact ⟨visited, { reading with }⟩ }

/-- The search comes to the blocks between the heights, as they are in the main chain. -/
theorem Invariant.reads (invariant : Invariant wallet ring exist start state) {h2 : Nat}
    {blocks : List Block}
    (read : getBlocksRange state.chain state.search.thread.searchedBlkNo h2 = some blocks)
    (blocksRead : blocks ≠ []) (idle : state.search.window = none)
    (goesOn : state.search.ended = false) :
    Invariant wallet ring exist start
      { state with
        search :=
          { state.search with
            scanned := { state.search.scanned with blkTimestamp := none }
            window := some ⟨blocks, h2, entries blocks⟩ } } := by
  have member {entry : Entry} :=
    @MainChain.mem_entries_getBlocksRange_iff _ _ _ _ _ _ _ invariant.sound read blocksRead entry
  have sublist := MainChain.sublist_of_getBlocksRange read blocksRead
  obtain ⟨ordered, -, -⟩ := MainChain.of_getBlocksRange read blocksRead
  -- what the search comes to is in the window or behind it
  have later {hash : String} {height : Nat} (mined : MinedAt state.chain hash height)
      (coming : Coming state hash height) :
      h2 < height ∨ ∃ entry ∈ entries blocks, entry.tx.hash = hash ∧ entry.blk.height = height := by
    rw [coming_of_none idle] at coming
    obtain ⟨entry, inChain, isHash, rfl⟩ := mined
    by_cases below : entry.blk.height ≤ h2
    · exact .inr ⟨entry, member.mpr ⟨inChain, coming, below⟩, isHash, rfl⟩
    · exact .inl (Nat.lt_of_not_le below)
  exact
    { invariant with
      idle := nofun
      reading := by
        intro window reads
        obtain rfl := Option.some.inj reads
        exact
          ⟨[],
            { ordered
              present := fun entry inBlocks =>
                invariant.sound.present entry (sublist.subset inBlocks)
              inside := fun entry inBlocks => (member.mp inBlocks).2
              distinct := invariant.sound.distinct.sublist (sublist.map _)
              notLater := invariant.sound.notLater.sublist sublist
              rows := fun hash row isRow => .inl (invariant.idle idle goesOn hash row isRow)
              placed := fun entry inBlocks _ height mined =>
                .inl (invariant.sound.minedAt_unique mined
                  ⟨entry, sublist.subset inBlocks, rfl, rfl⟩) }⟩
      placed := fun hash row height isRow mined =>
        (invariant.placed hash row height isRow mined).imp_right (later mined)
      complete := fun entry inChain fromStart pays =>
        (invariant.complete entry inChain fromStart pays).imp_right
          (later ⟨entry, inChain, rfl, rfl⟩)
      holds := fun entry inChain row isRow height =>
        (invariant.holds entry inChain row isRow height).imp_left
          (later ⟨entry, inChain, rfl, rfl⟩) }

theorem Invariant.read (invariant : Invariant wallet ring exist start state)
    (lookahead lastBlockHeight : Nat) :
    Invariant wallet ring exist start
      (step core backend wallet state (.read lookahead lastBlockHeight)) := by
  unfold step
  dsimp only
  rcases fetch_cases wallet state.search
    (getBlocksRange state.chain state.search.thread.searchedBlkNo
      (min (state.search.thread.searchedBlkNo + lookahead - 1) lastBlockHeight))
    (min (state.search.thread.searchedBlkNo + lookahead - 1) lastBlockHeight) with
    same | ends | ⟨blocks, read, blocksRead, idle, goesOn, reads⟩
  · rw [same]
    exact invariant
  · rw [ends]
    exact invariant.ends
  · rw [reads]
    exact invariant.reads read blocksRead idle goesOn

/-- The end of a window: the search goes on behind it. -/
theorem Invariant.finish (invariant : Invariant wallet ring exist start state) :
    Invariant wallet ring exist start (step core backend wallet state .finish) := by
  unfold step Completeness.step
  dsimp only
  split
  · next blocks h2 inWindow =>
    obtain ⟨visited, reading⟩ := invariant.reading _ inWindow
    have addresses := invariant.address
    rw [← invariant.ours] at addresses
    generalize (blocks.getLast?.map Block.timestamp).getD 0 = blockTimestamp
    obtain ⟨valid, spares⟩ :=
      Completeness.endOfWindow_spares invariant.valid addresses true h2 blockTimestamp
    have acc : (state.search.thread.endOfWindow true h2 blockTimestamp
          state.search.scanned.db).2.acc.id = state.search.thread.acc.id ∧
        (state.search.thread.endOfWindow true h2 blockTimestamp
          state.search.scanned.db).2.acc.address = state.search.thread.acc.address := by
      rw [SearchThread.endOfWindow_acc]
      split <;> exact ⟨rfl, rfl⟩
    have searched : (state.search.thread.endOfWindow true h2 blockTimestamp
        state.search.scanned.db).2.searchedBlkNo = h2 + 1 := by
      unfold SearchThread.endOfWindow SearchThread.updateRow SearchThread.advance
      dsimp only
      rw [apply_ite SearchThread.searchedBlockGotUpdated]
      simp [SearchThread.updateAcc, invariant.unmoved]
    have same {hash : String} {height : Nat} (coming : Coming state hash height) :
        h2 + 1 ≤ height := by
      rw [coming_of_window inWindow] at coming
      exact coming.resolve_right fun ⟨_, absent, _⟩ => List.not_mem_nil absent
    have later {hash : String} {height : Nat} (coming : Coming state hash height) :
        (state.search.thread.endOfWindow true h2 blockTimestamp
          state.search.scanned.db).2.searchedBlkNo ≤ height ∨
          ∃ entry ∈ ([] : List Entry), entry.tx.hash = hash ∧ entry.blk.height = height := by
      rw [searched]
      exact .inl (same coming)
    have ordered := reading.ordered
    exact
      { invariant with
        valid
        account := (Database.updateAccount_hasAccount state.search.scanned.db
          state.search.thread.acc
          (SearchThread.scannedTo state.search.thread.acc h2 blockTimestamp) wallet.account.id
          rfl).trans invariant.account
        ours := acc.1.trans invariant.ours
        address := fun row member id => by
          obtain ⟨old, inRows, isOurs, sameAddress⟩ :=
            spares.address row member (id.trans invariant.ours.symm)
          exact sameAddress.symm.trans
            ((invariant.address old inRows (isOurs.trans invariant.ours)).trans acc.2.symm)
        unmoved := rfl
        started := by
          show start ≤ (state.search.thread.endOfWindow true h2 blockTimestamp
            state.search.scanned.db).2.searchedBlkNo
          rw [searched]
          exact (invariant.started.trans ordered).trans (Nat.le_succ h2)
        idle := by
          intro _ _ hash row isRow
          show row.height < (state.search.thread.endOfWindow true h2 blockTimestamp
            state.search.scanned.db).2.searchedBlkNo
          rw [searched]
          rcases reading.rows hash row isRow with below | ⟨entry, inVisited, -, height⟩
          · exact Nat.lt_succ_of_le (below.le.trans ordered)
          · rw [← height]
            exact Nat.lt_succ_of_le (reading.inside entry (List.mem_append_left _ inVisited)).2
        reading := nofun
        placed := fun hash row height isRow mined =>
          (invariant.placed hash row height isRow mined).imp_right later
        complete := fun entry inChain fromStart pays =>
          (invariant.complete entry inChain fromStart pays).imp_right later
        holds := fun entry inChain row isRow height =>
          (invariant.holds entry inChain row isRow height).imp_left later }
  · exact invariant

/-! ### A pass goes over the next transaction of the window -/

/-- What the blockchain answers: it has ids for the transactions of its main chain and for no
others, and an index for every output. -/
structure Answers (core : CoreStorage) (wallet : Wallet)
    (ring : Transaction → List (String × String)) (exist : Transaction → Prop) : Prop where
  found : ∀ chain, Sound wallet ring exist chain → ∀ hash,
    (∃ id, core.txId chain hash = some id) ↔ ∃ height, MinedAt chain hash height
  indexed : ∀ chain, Sound wallet ring exist chain → ∀ entry ∈ entries chain,
    Rescan.Indexed wallet entry.tx (core.indices chain entry.tx.hash)

theorem after_cases (search : Completeness.State) (visit : Completeness.Visit)
    (window : Completeness.Window) (result : Exit × Scanned) :
    (search.after visit window result).scanned = result.2 ∧
      (search.after visit window result).thread = search.thread ∧
      ((search.after visit window result).window = none ∧
          (search.after visit window result).ended = true ∨
        (search.after visit window result).window = some window) := by
  obtain ⟨exit, scanned⟩ := result
  cases exit with
  | next => exact ⟨rfl, rfl, .inr rfl⟩
  | skipped => exact ⟨rfl, rfl, .inr rfl⟩
  | thrown what => exact ⟨rfl, rfl, .inl ⟨rfl, rfl⟩⟩

/-- What a pass has to know of the next transaction of a window: it is there, it is not below the
window, and where the main chain has it elsewhere, that is behind the window. -/
structure Next (wallet : Wallet) (ring : Transaction → List (String × String))
    (exist : Transaction → Prop) (state : State) (entry : Entry) (window : Completeness.Window) :
    Prop where
  present : exist entry.tx
  above : state.search.thread.searchedBlkNo ≤ entry.blk.height
  coming : Coming state entry.tx.hash entry.blk.height
  placed : OfAccount wallet ring exist entry.tx →
    ∀ height, MinedAt state.chain entry.tx.hash height →
      height = entry.blk.height ∨ window.h2 < height

section Pass

variable {entry : Entry} {window : Completeness.Window}

theorem Invariant.next (invariant : Invariant wallet ring exist start state)
    (next : state.search.next = some (entry, window)) :
    Next wallet ring exist state entry window := by
  have reads := Completeness.State.next_eq_some next
  obtain ⟨visited, reading⟩ := invariant.reading _ reads
  have inWindow :=
    List.mem_append_right visited (List.mem_cons_self (a := entry) (l := window.rest))
  exact
    { present := reading.present entry inWindow
      above := (reading.inside entry inWindow).1
      coming := (coming_of_window reads).mpr (.inr ⟨entry, List.mem_cons_self, rfl, rfl⟩)
      placed := reading.placed entry List.mem_cons_self }

variable {status : Status}

/-- What the blockchain answers in the pass. -/
theorem Answers.indexed_of_found (asks : Answers core wallet ring exist)
    (assumes : Assumes wallet ring exist)
    (sound : Sound wallet ring exist state.chain) (present : exist entry.tx) :
    ∀ id ∈ core.txId state.chain entry.tx.hash,
      Rescan.Indexed wallet entry.tx (core.indices state.chain entry.tx.hash) := by
  intro id isId
  obtain ⟨height, other, inChain, isHash, -⟩ :=
    (asks.found state.chain sound entry.tx.hash).mp ⟨id, isId⟩
  have isTx : other.tx = entry.tx := assumes.unique _ _ (sound.present other inChain) present isHash
  exact isTx ▸ asks.indexed state.chain sound other inChain

/-- What the pass does with the transaction. -/
theorem Invariant.own
    (assumes : Assumes wallet ring exist) (asks : Answers core wallet ring exist)
    (invariant : Invariant wallet ring exist start state)
    (next : state.search.next = some (entry, window))
    (met : Met core backend wallet ring exist start state (.pass status)) :
    Own wallet ring (∃ height, MinedAt state.chain entry.tx.hash height) entry state.search.scanned
      (passed core wallet state.chain status entry state.search.scanned).2 := by
  have own := @own_passed core wallet ring state.chain status entry state.search.scanned
    assumes.identifies invariant.valid invariant.account
    (asks.indexed_of_found assumes invariant.sound (invariant.next next).present)
    (met entry window next)
  rwa [asks.found state.chain invariant.sound] at own

/-- The rows after the pass: those of other transactions, that of the transaction if the main chain
does not have it, and else a new one. -/
theorem Invariant.row_cases
    (assumes : Assumes wallet ring exist) (asks : Answers core wallet ring exist)
    (invariant : Invariant wallet ring exist start state)
    (next : state.search.next = some (entry, window))
    (met : Met core backend wallet ring exist start state (.pass status)) {hash : String}
    {row : XmrTransaction}
    (isRow : (passed core wallet state.chain status entry
      state.search.scanned).2.db.ledger.transactions ⟨hash, wallet.account.id⟩ = some row) :
    (state.ledger.transactions ⟨hash, wallet.account.id⟩ = some row ∧
        (hash = entry.tx.hash → ¬ ∃ height, MinedAt state.chain hash height)) ∨
      hash = entry.tx.hash ∧ row.height = entry.blk.height ∧
        (∃ height, MinedAt state.chain entry.tx.hash height) ∧
        Recognised wallet ring state.search.scanned.known entry.tx ∧
        Holds wallet
          (passed core wallet state.chain status entry state.search.scanned).2.db.ledger
          entry.tx := by
  by_cases own : hash = entry.tx.hash
  · subst own
    cases invariant.own assumes asks next met with
    | kept same nothing =>
      have was : state.ledger.transactions ⟨entry.tx.hash, wallet.account.id⟩ = some row :=
        (congrArg (·.transactions ⟨entry.tx.hash, wallet.account.id⟩) same).symm.trans isRow
      obtain ⟨-, other, isOther, sameHash, recognised⟩ := invariant.rows _ row was
      obtain rfl := assumes.unique other entry.tx isOther (invariant.next next).present sameHash
      exact .inl ⟨was, fun _ mined => nothing mined recognised⟩
    | gone absent nothing => exact absurd (absent.symm.trans isRow) nofun
    | stored new isNew height isFound recognised holds =>
      obtain rfl := Option.some.inj (isNew.symm.trans isRow)
      exact .inr ⟨rfl, height, isFound, recognised, holds⟩
  · have rewrites := @rewrites_passed core wallet ring state.chain status entry
      state.search.scanned assumes.identifies invariant.valid invariant.account
      (asks.indexed_of_found assumes invariant.sound (invariant.next next).present)
    have was : state.ledger.transactions ⟨hash, wallet.account.id⟩ = some row :=
      (rewrites.others ⟨hash, wallet.account.id⟩ fun same => own (Owner.mk.inj same).1).symm.trans
        isRow
    exact .inl ⟨was, fun same => absurd same own⟩

/-- A transaction of the main chain that pays the account has a row after the pass over it. -/
theorem Invariant.stored_of_pays
    (assumes : Assumes wallet ring exist) (asks : Answers core wallet ring exist)
    (invariant : Invariant wallet ring exist start state)
    (next : state.search.next = some (entry, window))
    (met : Met core backend wallet ring exist start state (.pass status))
    (mined : ∃ height, MinedAt state.chain entry.tx.hash height)
    (pays : wallet.identifier.outputs entry.tx ≠ []) :
    ∃ row, (passed core wallet state.chain status entry
        state.search.scanned).2.db.ledger.transactions (passOwner wallet entry.tx) = some row ∧
      row.height = entry.blk.height := by
  cases invariant.own assumes asks next met with
  | kept same nothing => exact absurd (.inl pays) (nothing mined)
  | gone absent nothing => exact absurd (nothing mined) pays
  | stored row isRow height => exact ⟨row, isRow, height⟩

/-- The pass keeps the invariant, whether the loop goes on or ends. -/
theorem Invariant.passes
    (assumes : Assumes wallet ring exist) (asks : Answers core wallet ring exist)
    (invariant : Invariant wallet ring exist start state)
    (next : state.search.next = some (entry, window))
    (met : Met core backend wallet ring exist start state (.pass status))
    {search : Completeness.State}
    (isScanned : search.scanned =
      (passed core wallet state.chain status entry state.search.scanned).2)
    (isThread : search.thread = state.search.thread)
    (goes : search.window = none ∧ search.ended = true ∨ search.window = some window) :
    Invariant wallet ring exist start { state with search } := by
  obtain ⟨scanned, thread, windowAfter, blocks, visits, ended⟩ := search
  change scanned = _ at isScanned
  change thread = _ at isThread
  subst isScanned isThread
  have reads := Completeness.State.next_eq_some next
  have nextEntry := invariant.next next
  have indexed := asks.indexed_of_found assumes invariant.sound nextEntry.present
  have rewrites : Rewrites (passOwner wallet entry.tx) (Pays wallet entry.tx)
      (InRing ring entry.tx) state.ledger
      (passed core wallet state.chain status entry state.search.scanned).2.db.ledger :=
    rewrites_passed assumes.identifies invariant.valid invariant.account indexed
  have within : state.search.scanned.known.Within
      (passed core wallet state.chain status entry state.search.scanned).2.known :=
    recordTx_within wallet status entry.turn.tuple entry.tx (answers core state.chain entry.tx)
      state.search.scanned
  have accounts : (passed core wallet state.chain status entry
      state.search.scanned).2.db.accounts = state.search.scanned.db.accounts :=
    recordTx_accounts wallet status entry.turn.tuple entry.tx (answers core state.chain entry.tx)
      state.search.scanned
  have rowCases {hash : String} {row : XmrTransaction}
      (isRow : (passed core wallet state.chain status entry
        state.search.scanned).2.db.ledger.transactions ⟨hash, wallet.account.id⟩ = some row) :=
    invariant.row_cases assumes asks next met isRow
  let after : State :=
    { state with
      search := ⟨(passed core wallet state.chain status entry state.search.scanned).2,
        state.search.thread, windowAfter, blocks, visits, ended⟩ }
  show Invariant wallet ring exist start after
  obtain ⟨visited, reading⟩ := invariant.reading _ reads
  -- what is behind the window is still to come, and what was to come is, but for the transaction
  have behind {hash : String} {height : Nat} (above : window.h2 < height) :
      Coming after hash height := by
    rcases goes with ⟨idle, -⟩ | goesOn
    · exact (@coming_of_none after idle _ _).mpr (reading.ordered.trans above.le)
    · exact (@coming_of_window after window goesOn _ _).mpr (.inl above)
  have later {hash : String} {height : Nat} (coming : Coming state hash height)
      (other : hash ≠ entry.tx.hash) : Coming after hash height := by
    rcases (coming_of_window reads).mp coming with above | ⟨first, inRest, isHash, isHeight⟩
    · exact behind above
    · rcases List.mem_cons.mp inRest with rfl | inRest
      · exact absurd isHash.symm other
      · rcases goes with ⟨idle, -⟩ | goesOn
        · refine (@coming_of_none after idle _ _).mpr (isHeight ▸ ?_)
          exact (reading.inside first
            (List.mem_append_right _ (List.mem_cons_of_mem _ inRest))).1
        · exact (@coming_of_window after window goesOn _ _).mpr
            (.inr ⟨first, inRest, isHash, isHeight⟩)
  -- the transaction of the pass
  have sameTx {other : Entry} (inChain : other ∈ entries state.chain)
      (isHash : other.tx.hash = entry.tx.hash) : other.tx = entry.tx :=
    assumes.unique _ _ (invariant.sound.present other inChain) nextEntry.present isHash
  have elsewhere (ofAccount : OfAccount wallet ring exist entry.tx) {height : Nat}
      (mined : MinedAt state.chain entry.tx.hash height) :
      height = entry.blk.height ∨ Coming after entry.tx.hash height :=
    (nextEntry.placed ofAccount height mined).imp_right behind
  exact
    { valid := recordTx_valid invariant.valid
      account := (congrArg (List.any · _) accounts).trans invariant.account
      ours := invariant.ours
      address := fun row member => invariant.address row (accounts ▸ member)
      unmoved := invariant.unmoved
      sound := invariant.sound
      started := invariant.started
      cached := fun key isKnown =>
        (cached_passed invariant.valid invariant.account indexed isKnown).elim
          (invariant.cached key) fun pays => ⟨entry.tx, nextEntry.present, pays⟩
      rows := by
        intro hash row isRow
        rcases rowCases isRow with ⟨was, -⟩ | ⟨rfl, height, -, recognised, -⟩
        · obtain ⟨fromStart, tx, isTx, isHash, recognised⟩ := invariant.rows hash row was
          exact ⟨fromStart, tx, isTx, isHash, recognised.mono within⟩
        · rw [height]
          exact ⟨invariant.started.trans nextEntry.above, entry.tx, nextEntry.present, rfl,
            recognised.mono within⟩
      outputs := by
        intro key hash row found
        rcases rewrites.outputs key _ row found with old | ⟨owner, pays⟩
        · exact invariant.outputs key hash row old
        · exact ⟨entry.tx, nextEntry.present, (Owner.mk.inj owner).1.symm, pays⟩
      inputs := by
        intro key hash row found
        rcases rewrites.inputs key _ row found with old | ⟨owner, inRing⟩
        · exact invariant.inputs key hash row old
        · exact ⟨entry.tx, nextEntry.present, (Owner.mk.inj owner).1.symm, inRing⟩
      idle := by
        intro idle goesOn
        rcases goes with ⟨-, ends⟩ | isWindow
        · exact absurd (goesOn.symm.trans ends) Bool.false_ne_true
        · exact absurd (idle.symm.trans isWindow) nofun
      reading := by
        intro current isCurrent
        rcases goes with ⟨idle, -⟩ | isWindow
        · exact absurd (idle.symm.trans isCurrent) nofun
        obtain rfl := Option.some.inj (isWindow.symm.trans isCurrent)
        have split : (visited ++ [entry]) ++ window.rest = visited ++ entry :: window.rest := by
          simp
        refine ⟨visited ++ [entry], ⟨reading.ordered, split ▸ reading.present,
          split ▸ reading.inside, split ▸ reading.distinct, split ▸ reading.notLater,
          fun hash row isRow => ?_,
          fun other inRest => reading.placed other (List.mem_cons_of_mem _ inRest)⟩⟩
        rcases rowCases isRow with ⟨was, -⟩ | ⟨rfl, height, -⟩
        · refine (reading.rows hash row was).imp_right fun ⟨first, inVisited, same⟩ => ?_
          exact ⟨first, List.mem_append_left _ inVisited, same⟩
        · exact .inr ⟨entry, List.mem_append_right _ (List.mem_singleton_self _), rfl, height.symm⟩
      placed := by
        intro hash row height isRow mined
        rcases rowCases isRow with ⟨was, away⟩ | ⟨rfl, isHeight, -, recognised, -⟩
        · refine (invariant.placed hash row height was mined).imp_right fun coming => ?_
          exact later coming fun same => away same ⟨height, mined⟩
        · rw [isHeight]
          exact elsewhere (invariant.ofAccount recognised) mined
      complete := by
        intro other inChain fromStart pays
        by_cases own : other.tx.hash = entry.tx.hash
        · have isTx := sameTx inChain own
          have mined : MinedAt state.chain entry.tx.hash other.blk.height :=
            ⟨other, inChain, own, rfl⟩
          rw [isTx] at pays ⊢
          refine (elsewhere (.inl pays) mined).imp_left fun height => ?_
          rw [height]
          exact invariant.stored_of_pays assumes asks next met ⟨_, mined⟩ pays
        · refine (invariant.complete other inChain fromStart pays).imp
            (fun ⟨row, isRow, height⟩ => ?_) fun coming => later coming own
          exact ⟨row, (rewrites.others _ fun same => own (Owner.mk.inj same).1).trans isRow, height⟩
      mined := by
        intro checked hash row isRow
        rcases rowCases isRow with ⟨was, -⟩ | ⟨rfl, -, mined, -⟩
        · exact invariant.mined checked hash row was
        · exact mined
      holds := by
        intro other inChain row isRow height
        rcases rowCases isRow with ⟨was, away⟩ | ⟨own, -, -, -, holds⟩
        · have notOwn : other.tx.hash ≠ entry.tx.hash := fun same =>
            away same ⟨other.blk.height, other, inChain, rfl, rfl⟩
          by_cases coming : Coming after other.tx.hash other.blk.height
          · exact .inl coming
          have notComing : ¬ Coming state other.tx.hash other.blk.height := fun still =>
            coming (later still notOwn)
          refine .inr (((invariant.holds other inChain row was height).resolve_left
            notComing).imp_right fun ⟨key, spend, spends⟩ => ⟨key, spend, ?_⟩)
          refine rewrites.keeps key _ spend spends (fun same => notOwn (Owner.mk.inj same).1)
            fun holder output holds isOwn => ?_
          subst isOwn
          -- the transaction of the pass would be in its place and not come
          obtain ⟨row, -, mined, away⟩ :=
            invariant.holder_in_place assumes inChain was height notComing spends holds
          obtain ⟨payer, isPayer, isHash, info, paid, -⟩ := invariant.outputs _ _ _ holds
          obtain rfl := assumes.unique payer entry.tx isPayer nextEntry.present isHash
          rcases nextEntry.placed (.inl (List.ne_nil_of_mem paid)) _ mined with here | above
          · exact away (here ▸ nextEntry.coming)
          · exact away ((coming_of_window reads).mpr (.inl above))
        · refine .inr ?_
          rw [sameTx inChain own]
          exact holds }

theorem Invariant.pass
    (assumes : Assumes wallet ring exist) (asks : Answers core wallet ring exist)
    (invariant : Invariant wallet ring exist start state)
    (met : Met core backend wallet ring exist start state (.pass status)) :
    Invariant wallet ring exist start (step core backend wallet state (.pass status)) := by
  unfold step
  dsimp only
  split
  · exact invariant
  · next entry window next =>
    have goesOver : Completeness.step wallet state.search
        (.pass
          { status
            outcomes := answers core state.chain entry.tx
            valid := fun _ valid => valid }) =
        state.search.after ⟨entry.tx, state.search.scanned.db⟩ window
          (passed core wallet state.chain status entry state.search.scanned) := by
      unfold Completeness.step
      dsimp only
      rw [next]
      rfl
    rw [goesOver]
    obtain ⟨isScanned, isThread, goes⟩ := after_cases state.search
      ⟨entry.tx, state.search.scanned.db⟩ window
      (passed core wallet state.chain status entry state.search.scanned)
    exact invariant.passes assumes asks next met isScanned isThread goes

end Pass

/-- Every step that meets the condition keeps the invariant. -/
theorem step_invariant
    (assumes : Assumes wallet ring exist) (asks : Answers core wallet ring exist)
    (invariant : Invariant wallet ring exist start state)
    (event : Event) (sound : Sound wallet ring exist (step core backend wallet state event).chain)
    (met : Met core backend wallet ring exist start state event) :
    Invariant wallet ring exist start (step core backend wallet state event) := by
  cases event with
  | replace depth blocks => exact invariant.replace assumes sound met
  | read lookahead lastBlockHeight => exact invariant.read lookahead lastBlockHeight
  | pass status => exact invariant.pass assumes asks met
  | finish => exact invariant.finish
  | check status => exact invariant.check assumes met

end Runs

open KnownOutputs (walletOf)

/-! ### Whole runs -/

/-- An account of which nothing is stored, before its search begins. -/
def started (chain : List Block) (db : Database) (thread : SearchThread) : State where
  chain := chain
  search := Completeness.started db thread

theorem constructed_eq {backend : Backend} {acc : XmrAccount} {db : Database}
    {throwing : List Bool} {thread : SearchThread}
    (constructed : (constructTxSearch backend acc { db, throwing }).1 = some thread)
    (fresh : db.selectOutputs acc.id = []) :
    thread.acc = acc ∧ thread.known = [] ∧ thread.searchedBlockGotUpdated = false := by
  unfold constructTxSearch at constructed
  split at constructed
  · rw [Handler.bind_apply] at constructed
    rw [← Option.some.inj constructed]
    refine ⟨rfl, ?_, rfl⟩
    unfold selectOutputs query
    by_cases throws : ({ db, throwing } : World).throws = true
    · rw [statement_throws _ _ throws]
      rfl
    · rw [statement_runs _ _ throws]
      exact congrArg (List.map fun out : XmrOutput => (out.outPubKey, out.amount)) fresh
  · cases constructed

/-- The invariant holds before the search of an account begins of which nothing is stored. -/
theorem invariant_started {wallet : Wallet} {ring : Transaction → List (String × String)}
    {exist : Transaction → Prop} {chain : List Block} {db : Database} {thread : SearchThread}
    (valid : db.Valid) (read : { wallet.account with viewkey := "" } ∈ db.accounts)
    (fresh : db.selectTransactions wallet.account.id = []) (isAcc : thread.acc = wallet.account)
    (known : thread.known = []) (unmoved : thread.searchedBlockGotUpdated = false)
    (sound : Sound wallet ring exist chain) :
    Invariant wallet ring exist thread.searchedBlkNo (started chain db thread) := by
  have noRow (hash : String) : db.ledger.transactions ⟨hash, wallet.account.id⟩ = none := by
    refine Option.eq_none_iff_forall_ne_some.mpr fun row isRow => ?_
    obtain ⟨tx, selected, -⟩ := (exists_row valid).mp isRow
    rw [fresh] at selected
    exact List.not_mem_nil selected
  have absent {Result : Prop} (hash : String) (row : XmrTransaction)
      (isRow : db.ledger.transactions ⟨hash, wallet.account.id⟩ = some row) : Result :=
    absurd ((noRow hash).symm.trans isRow) nofun
  exact
    { valid
      account := (Database.hasAccount_iff _ _).mpr ⟨_, read, rfl⟩
      ours := congrArg XmrAccount.id isAcc
      address := fun row member id => by
        rw [valid.accountIds.eq_of_key member read id]
        exact (congrArg XmrAccount.address isAcc).symm
      unmoved
      sound
      started := Nat.le_refl _
      cached := fun key isKnown => by
        change thread.known.amountOf key ≠ none at isKnown
        rw [known] at isKnown
        exact absurd rfl isKnown
      rows := fun hash row => absent hash row
      outputs := fun key hash row found => by
        obtain ⟨holder, isHolder⟩ := exists_holder valid found
        exact absent hash holder isHolder
      inputs := fun key hash row found => by
        obtain ⟨input, -, -, -, owner, -⟩ := (Database.ledger_inputs_iff valid).mp found
        obtain ⟨tx, inRows, -, isOwner⟩ := (Database.ownerOf_eq_some_iff valid).mp owner
        exact absent hash tx.unnumbered
          ((Database.ledger_transactions_iff valid).mpr ⟨tx, inRows, isOwner, rfl⟩)
      idle := fun _ _ hash row => absent hash row
      reading := fun _ => nofun
      placed := fun hash row height isRow => absent hash row isRow
      complete := fun entry _ fromStart _ => .inr ((coming_of_none rfl).mpr fromStart)
      mined := fun _ hash row => absent hash row
      holds := fun entry _ row isRow => absent entry.tx.hash row isRow }

/-- In every run whose steps all meet the condition, exactly what is due is stored in every state
in which the scan has reached the tip, and a check has run after the last reorganisation. -/
theorem consistent_run (backend : Backend) (acc : XmrAccount) (db : Database)
    (throwing : List Bool) (thread : SearchThread) (valid : db.Valid)
    (read : { acc with viewkey := "" } ∈ db.accounts)
    (constructed : (constructTxSearch backend acc { db, throwing }).1 = some thread)
    (noTransactions : db.selectTransactions acc.id = []) (noOutputs : db.selectOutputs acc.id = [])
    (ring : Transaction → List (String × String))
    (identifies : ∀ known tx, (walletOf backend acc).identifier.inputs known tx =
      KnownOutputs.identifyKnown known (ring tx))
    (exist : Transaction → Prop)
    (unique : ∀ first second, exist first → exist second → first.hash = second.hash →
      first = second)
    (core : CoreStorage) (asks : Answers core (walletOf backend acc) ring exist)
    (chain : List Block) (sound : Sound (walletOf backend acc) ring exist chain)
    (events : List Event)
    (chains : Runs.Along (step core backend (walletOf backend acc))
      (fun state event => Sound (walletOf backend acc) ring exist
        (step core backend (walletOf backend acc) state event).chain)
      (started chain db thread) events)
    (met : Runs.Along (step core backend (walletOf backend acc))
      (Met core backend (walletOf backend acc) ring exist thread.searchedBlkNo)
      (started chain db thread) events) :
    Consistent (walletOf backend acc) thread.searchedBlkNo
      (Runs.run (step core backend (walletOf backend acc)) (started chain db thread) events) := by
  obtain ⟨isAcc, known, unmoved⟩ := constructed_eq constructed noOutputs
  have initially : Invariant (walletOf backend acc) ring exist thread.searchedBlkNo
      (started chain db thread) :=
    invariant_started valid read noTransactions isAcc known unmoved sound
  have invariant := Runs.run_invariant (step core backend (walletOf backend acc))
    (fun state event => Sound (walletOf backend acc) ring exist
        (step core backend (walletOf backend acc) state event).chain ∧
      Met core backend (walletOf backend acc) ring exist thread.searchedBlkNo state event)
    (Invariant (walletOf backend acc) ring exist thread.searchedBlkNo)
    (fun state event holds both =>
      step_invariant ⟨unique, identifies⟩ asks holds event both.1 both.2)
    events _ initially
    ((Runs.along_and (step core backend (walletOf backend acc)) _ _ _ _).mpr ⟨chains, met⟩)
  exact invariant.consistent

/-! ### A transaction is mined again -/

open KnownOutputs (account accounts threaded)

/-- Transaction `a1` pays the account. -/
def payer : Backend :=
  { Backend.empty with
    identifier := fun _ _ =>
      { outputs := fun tx => if tx.hash = "a1" then [{ pubKey := "k1", amount := 5 }] else []
        inputs := fun known _ => KnownOutputs.identifyKnown known [] } }

/-- The id of a transaction is its position in the main chain. -/
def positions : CoreStorage where
  txId chain hash := (entries chain).findIdx? (·.tx.hash = hash)
  indices _ _ := [7]

/-- The transactions of which only the hash matters. -/
def Plain (tx : Transaction) : Prop := tx = { hash := tx.hash }

instance (tx : Transaction) : Decidable (Plain tx) := inferInstanceAs (Decidable (_ = _))

theorem answers_positions :
    Answers positions (walletOf payer account) (fun _ => []) Plain where
  found chain _ hash := by
    rw [← Option.isSome_iff_exists]
    show (List.findIdx? _ _).isSome ↔ _
    rw [List.findIdx?_isSome, List.any_eq_true]
    constructor
    · rintro ⟨entry, inChain, isHash⟩
      exact ⟨entry.blk.height, entry, inChain, of_decide_eq_true isHash, rfl⟩
    · rintro ⟨_, entry, inChain, isHash, -⟩
      exact ⟨entry, inChain, decide_eq_true isHash⟩
  indexed chain _ entry _ info identified := by
    change info ∈ (if entry.tx.hash = "a1" then _ else _) at identified
    split at identified
    · rw [List.mem_singleton.mp identified]
      exact Nat.zero_lt_one
    · exact absurd identified List.not_mem_nil

instance (chain : List Block) :
    Decidable (Sound (walletOf payer account) (fun _ => []) Plain chain) :=
  decidable_of_iff
    (chain.map Block.height = List.range chain.length ∧
      ((entries chain).map (·.tx.hash)).Nodup ∧ ∀ entry ∈ entries chain, Plain entry.tx)
    ⟨fun ⟨heights, distinct, present⟩ =>
        ⟨heights, distinct, present, fun _ _ _ _ _ absent => absurd absent List.not_mem_nil⟩,
      fun sound => ⟨sound.heights, sound.distinct, sound.present⟩⟩

instance (tx : Transaction) :
    Decidable (OfAccount (walletOf payer account) (fun _ => []) Plain tx) :=
  decidable_of_iff ((walletOf payer account).identifier.outputs tx ≠ [])
    ⟨.inl, fun ofAccount => ofAccount.resolve_right fun ⟨_, absent, _⟩ => List.not_mem_nil absent⟩

/-- A block with a miner transaction, and further ones. -/
def block (height : Nat) (miner : String) (hashes : List String) : Block where
  height := height
  timestamp := 1600000000
  minerTx := { hash := miner }
  txs := hashes.map fun hash => { hash }

/-- The scan of a window, in which every statement succeeds. -/
def scan (last passes : Nat) : List Event :=
  .read 10 last :: List.replicate passes (.pass { currentHeight := last }) ++ [.finish]

/-- Blocks are replaced, of which the last had transaction `a1`, and the transaction is in none of
the new ones. The check deletes its row. A further block has it again. -/
def minedLater : List Event :=
  scan 1 3 ++ [.replace 1 [block 1 "d1" []], .check { currentHeight := 1 },
    .replace 0 [block 2 "d2" ["a1"]]] ++ scan 2 2

/-- The transaction is in the first of the new blocks, which the search has passed. -/
def minedEarlier : List Event :=
  scan 2 4 ++ [.replace 2 [block 1 "d1" ["a1"], block 2 "d2" [], block 3 "d3" []],
    .check { currentHeight := 3 }] ++ scan 3 1

/-- The transaction is found where it is mined again. -/
theorem consistent_run_minedLater :
    Consistent (walletOf payer account) threaded.searchedBlkNo
      (Runs.run (step positions payer (walletOf payer account))
        (started [block 0 "c0" [], block 1 "c1" ["a1"]] accounts threaded) minedLater) := by
  refine consistent_run payer account accounts [] threaded (by decide) (by decide)
    (by decide +kernel) rfl rfl (fun _ => []) (fun _ _ => rfl) Plain ?_ positions
    answers_positions _ (by decide +kernel) minedLater (by decide +kernel) (by decide +kernel)
  intro first second isFirst isSecond same
  rw [isFirst, isSecond, same]

/-- The transaction is not found again. -/
theorem not_consistent_minedEarlier :
    (constructTxSearch payer account { db := accounts }).1 = some threaded ∧
      Answers positions (walletOf payer account) (fun _ => []) Plain ∧
      Runs.Along (step positions payer (walletOf payer account))
        (fun state event => Sound (walletOf payer account) (fun _ => []) Plain
          (step positions payer (walletOf payer account) state event).chain)
        (started [block 0 "c0" [], block 1 "c1" [], block 2 "c2" ["a1"]] accounts threaded)
        minedEarlier ∧
      ¬ Consistent (walletOf payer account) threaded.searchedBlkNo
        (Runs.run (step positions payer (walletOf payer account))
          (started [block 0 "c0" [], block 1 "c1" [], block 2 "c2" ["a1"]] accounts threaded)
          minedEarlier) := by
  refine ⟨by decide +kernel, answers_positions, by decide +kernel, fun consistent => ?_⟩
  have mined : MinedAt (Runs.run (step positions payer (walletOf payer account))
      (started [block 0 "c0" [], block 1 "c1" [], block 2 "c2" ["a1"]] accounts threaded)
      minedEarlier).chain "a1" 1 := by decide +kernel
  obtain ⟨entry, inChain, isHash, isHeight⟩ := mined
  have pays : (walletOf payer account).identifier.outputs entry.tx ≠ [] := by
    show (if entry.tx.hash = "a1" then _ else _) ≠ []
    rw [if_pos isHash]
    exact List.cons_ne_nil _ _
  have stored := (consistent (by decide +kernel) (by decide +kernel) "a1" 1).mpr
    ⟨entry, inChain, isHash, isHeight, Nat.zero_le 1, .inl pays⟩
  exact absurd stored (by decide +kernel)

end LightWallet.Reorganisations
