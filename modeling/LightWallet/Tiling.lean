/-
This file settles whether the windows of a scan tile the chain.

An iteration of the search loop begins at the next block to be searched, and ends at the
lookahead or at the tip, whichever is lower. The end of the lookahead is computed with unsigned
arithmetic. Where it wraps around, it lies below the beginning, so that the loop takes the
window for one that waits for new blocks, and waits for good.
-/

import LightWallet.Runs
import LightWallet.SearchThread

namespace LightWallet.Tiling

/-! ### The loop -/

/-- A search thread between two iterations: the tables, its copy of the account, and its atomics.
The last three fields are not the code's: the windows that were analysed and the heights of their
blocks, the earliest first, and the tips at which the loop has waited. -/
structure State where
  db : Database
  acc : XmrAccount
  searchedBlkNo : UInt64
  continueSearch : Bool := true
  windows : List (UInt64 × UInt64) := []
  analysed : List Nat := []
  waits : List UInt64 := []
  deriving DecidableEq, Repr

/-- What an iteration meets: the tip, and whether the thread is past its life, which is asked
only when there are no blocks. -/
structure Iteration where
  lastBlockHeight : UInt64
  expired : Bool := false
  deriving DecidableEq, Repr

/-- `get_blocks_range`, as the heights of the blocks. -/
def getBlocksRange (h1 h2 : UInt64) : List Nat := List.range' h1.toNat (h2.toNat + 1 - h1.toNat)

/-- The end of a window. -/
def windowEnd (lookahead lastBlockHeight h1 : UInt64) : UInt64 :=
  min (h1 + lookahead - 1) lastBlockHeight

section Loop

-- the lookahead, and the timestamps of the blocks of the chain
variable (lookahead : UInt64) (blkTimestamp : Nat → Nat)

/-- The end of an iteration: the row and the thread's copy, then the next block. -/
def finishWindow (h1 h2 : UInt64) (blocks : List Nat) (state : State) : State :=
  let updated := SearchThread.scannedTo state.acc h2.toNat (blkTimestamp h2.toNat)
  let (changed, db) := state.db.update true state.acc updated
  { state with
    db
    acc := if changed then updated else state.acc
    searchedBlkNo := h2 + 1
    windows := state.windows ++ [(h1, h2)]
    analysed := state.analysed ++ blocks }

/-- An iteration of `TxSearch::operator()`. The loop tests `continue_search` first. -/
def iterate (state : State) (iteration : Iteration) : State :=
  if state.continueSearch then
    let h1 := state.searchedBlkNo
    let h2 := windowEnd lookahead iteration.lastBlockHeight h1
    match getBlocksRange h1 h2 with
    | [] =>
      { state with
        -- blocks that are there but cannot be read stop the thread
        continueSearch := !(h1 ≤ h2 || iteration.expired)
        waits := state.waits ++ [iteration.lastBlockHeight] }
    | blk :: rest => finishWindow blkTimestamp h1 h2 (blk :: rest) state
  else state

end Loop

/-- A thread as its constructor leaves it. -/
def created (db : Database) (acc : XmrAccount) : State where
  db := db
  acc := acc
  searchedBlkNo := UInt64.ofNat acc.scannedBlockHeight

/-! ### The property -/

/-- Windows that follow one another, from one block to the one before another. -/
def Adjoining : Nat → List (UInt64 × UInt64) → Nat → Prop
  | start, [], next => start = next
  | start, (h1, h2) :: rest, next =>
    h1.toNat = start ∧ h1.toNat ≤ h2.toNat ∧ Adjoining (h2.toNat + 1) rest next

/-- The last block that was analysed, or the one that the thread has begun with. -/
def lastScanned (start : Nat) (windows : List (UInt64 × UInt64)) : Nat :=
  ((windows.getLast?).map fun window => window.2.toNat).getD start

/-- What the windows of a thread have covered, and what the row says of it. Whenever the loop has
waited, all blocks up to the tip had been analysed. -/
structure Tiled (start : Nat) (state : State) : Prop where
  adjoining : Adjoining start state.windows state.searchedBlkNo.toNat
  analysed : state.analysed = List.range' start (state.searchedBlkNo.toNat - start)
  stored : ∀ row ∈ state.db.accounts, row.id = state.acc.id →
    row.scannedBlockHeight = lastScanned start state.windows
  waits : ∀ tip ∈ state.waits, tip.toNat < state.searchedBlkNo.toNat

/-- The window of an iteration ends without wrapping around, and so does the next block. -/
def NoWrap (lookahead : UInt64) (state : State) (iteration : Iteration) : Prop :=
  state.continueSearch = true → state.searchedBlkNo ≤ iteration.lastBlockHeight →
    state.searchedBlkNo.toNat + lookahead.toNat ≤ 2 ^ 64 ∧
      (windowEnd lookahead iteration.lastBlockHeight state.searchedBlkNo).toNat + 1 < 2 ^ 64

instance (lookahead : UInt64) (state : State) (iteration : Iteration) :
    Decidable (NoWrap lookahead state iteration) :=
  inferInstanceAs (Decidable (_ → _ → _ ∧ _))

/-! ### The end of a window -/

theorem toNat_windowEnd (lookahead lastBlockHeight h1 : UInt64) :
    (windowEnd lookahead lastBlockHeight h1).toNat =
      min (h1 + lookahead - 1).toNat lastBlockHeight.toNat :=
  toNat_min _ _

/-- Without wrapping around, the lookahead ends after its blocks. -/
theorem toNat_lookahead {lookahead h1 : UInt64} (positive : 1 ≤ lookahead.toNat)
    (fits : h1.toNat + lookahead.toNat ≤ 2 ^ 64) :
    (h1 + lookahead - 1).toNat = h1.toNat + lookahead.toNat - 1 := by
  have one : (1 : UInt64).toNat = 1 := rfl
  rw [UInt64.toNat_sub, UInt64.toNat_add, one]
  have below := h1.toNat_lt
  omega

/-- When it wraps around, it ends below the first block. -/
theorem toNat_lookahead_wraps {lookahead h1 : UInt64}
    (wraps : 2 ^ 64 < h1.toNat + lookahead.toNat) : (h1 + lookahead - 1).toNat < h1.toNat := by
  have one : (1 : UInt64).toNat = 1 := rfl
  rw [UInt64.toNat_sub, UInt64.toNat_add, one]
  have first := h1.toNat_lt
  have second := lookahead.toNat_lt
  omega

theorem getBlocksRange_eq_nil {h1 h2 : UInt64} :
    getBlocksRange h1 h2 = [] ↔ h2.toNat < h1.toNat := by
  rw [getBlocksRange, List.range'_eq_nil_iff, Nat.sub_eq_zero_iff_le]
  exact Nat.succ_le_iff

/-- An iteration that begins at or below the tip: its window ends at or above its first block
exactly when the end of the lookahead does not wrap around. -/
theorem le_windowEnd_iff {lookahead lastBlockHeight h1 : UInt64} (positive : 1 ≤ lookahead.toNat)
    (reached : h1 ≤ lastBlockHeight) :
    h1.toNat ≤ (windowEnd lookahead lastBlockHeight h1).toNat ↔
      h1.toNat + lookahead.toNat ≤ 2 ^ 64 := by
  rw [toNat_windowEnd]
  constructor
  · intro above
    by_contra wraps
    have first : h1.toNat ≤ (h1 + lookahead - 1).toNat :=
      Nat.le_trans above (Nat.min_le_left _ _)
    exact Nat.not_lt.mpr first (toNat_lookahead_wraps (Nat.lt_of_not_le wraps))
  · intro fits
    rw [toNat_lookahead positive fits]
    exact Nat.le_min.mpr ⟨Nat.le_sub_one_of_lt (Nat.lt_add_of_pos_right positive),
      UInt64.le_iff_toNat_le.mp reached⟩

theorem windowEnd_le (lookahead lastBlockHeight h1 : UInt64) :
    (windowEnd lookahead lastBlockHeight h1).toNat ≤ lastBlockHeight.toNat := by
  rw [toNat_windowEnd]
  exact Nat.min_le_right _ _

/-! ### What an iteration does -/

section Iterate

variable {lookahead : UInt64} {blkTimestamp : Nat → Nat} {state : State} {iteration : Iteration}

theorem iterate_stopped (stopped : state.continueSearch = false) :
    iterate lookahead blkTimestamp state iteration = state :=
  if_neg (by rw [stopped]; exact Bool.false_ne_true)

theorem iterate_waits (goesOn : state.continueSearch = true)
    (below : (windowEnd lookahead iteration.lastBlockHeight state.searchedBlkNo).toNat <
      state.searchedBlkNo.toNat) :
    iterate lookahead blkTimestamp state iteration =
      { state with
        continueSearch := !iteration.expired
        waits := state.waits ++ [iteration.lastBlockHeight] } := by
  have notAbove : ¬ state.searchedBlkNo ≤
      windowEnd lookahead iteration.lastBlockHeight state.searchedBlkNo :=
    fun above => Nat.not_lt.mpr (UInt64.le_iff_toNat_le.mp above) below
  unfold iterate
  rw [if_pos goesOn]
  dsimp only
  rw [getBlocksRange_eq_nil.mpr below]
  simp only [decide_eq_false notAbove, Bool.false_or]

theorem iterate_analyses (goesOn : state.continueSearch = true)
    (above : state.searchedBlkNo.toNat ≤
      (windowEnd lookahead iteration.lastBlockHeight state.searchedBlkNo).toNat) :
    iterate lookahead blkTimestamp state iteration =
      finishWindow blkTimestamp state.searchedBlkNo
        (windowEnd lookahead iteration.lastBlockHeight state.searchedBlkNo)
        (getBlocksRange state.searchedBlkNo
          (windowEnd lookahead iteration.lastBlockHeight state.searchedBlkNo)) state := by
  unfold iterate
  rw [if_pos goesOn]
  dsimp only
  cases found : getBlocksRange state.searchedBlkNo
      (windowEnd lookahead iteration.lastBlockHeight state.searchedBlkNo) with
  | nil => exact absurd (getBlocksRange_eq_nil.mp found) (Nat.not_lt.mpr above)
  | cons blk rest => rfl

end Iterate

/-! ### The row -/

/-- The row is the thread's copy of the account. -/
structure RowKept (state : State) : Prop where
  valid : state.db.Valid
  row : { state.acc with viewkey := "" } ∈ state.db.accounts

/-- The row of the account is unique. -/
theorem RowKept.eq_of_id {state : State} (kept : RowKept state) {row : XmrAccount}
    (member : row ∈ state.db.accounts) (id : row.id = state.acc.id) :
    row = { state.acc with viewkey := "" } :=
  kept.valid.accountIds.eq_of_key member kept.row id

/-- The end of a window writes its last block to the row and to the copy. A row that carries it
already is not changed, and the copy agrees with it. -/
theorem finishWindow_row {state : State} (kept : RowKept state) (blkTimestamp : Nat → Nat)
    (h1 h2 : UInt64) (blocks : List Nat) :
    RowKept (finishWindow blkTimestamp h1 h2 blocks state) ∧
      (finishWindow blkTimestamp h1 h2 blocks state).acc.scannedBlockHeight = h2.toNat := by
  let updated := SearchThread.scannedTo state.acc h2.toNat (blkTimestamp h2.toNat)
  have valid : (state.db.updateAccount state.acc updated).2.Valid :=
    kept.valid.updateAccount kept.row rfl rfl rfl
  by_cases same : ({ state.acc with viewkey := "" } : XmrAccount) = { updated with viewkey := "" }
  · have count : (state.db.updateAccount state.acc updated).1 = 0 := by
      refine List.length_eq_zero_iff.mpr (List.filter_eq_nil_iff.mpr fun row member changed => ?_)
      obtain ⟨id, differs⟩ := of_decide_eq_true changed
      exact differs ((kept.eq_of_id member id).trans same)
    have unchanged := Database.updateAccount_eq_of_count_eq_zero count
    have after : finishWindow blkTimestamp h1 h2 blocks state =
        { state with
          searchedBlkNo := h2 + 1
          windows := state.windows ++ [(h1, h2)]
          analysed := state.analysed ++ blocks } := by
      show ({ state with
        db := (state.db.updateAccount state.acc updated).2
        acc := if decide ((state.db.updateAccount state.acc updated).1 = 1) then updated
          else state.acc
        searchedBlkNo := h2 + 1
        windows := state.windows ++ [(h1, h2)]
        analysed := state.analysed ++ blocks } : State) = _
      rw [unchanged, count]
      rfl
    rw [after]
    exact ⟨⟨kept.valid, kept.row⟩, congrArg XmrAccount.scannedBlockHeight same⟩
  · have count : (state.db.updateAccount state.acc updated).1 = 1 :=
      Database.updateAccount_count_eq_one kept.valid kept.row rfl same
    have after : finishWindow blkTimestamp h1 h2 blocks state =
        { state with
          db := (state.db.updateAccount state.acc updated).2
          acc := updated
          searchedBlkNo := h2 + 1
          windows := state.windows ++ [(h1, h2)]
          analysed := state.analysed ++ blocks } := by
      show ({ state with
        db := (state.db.updateAccount state.acc updated).2
        acc := if decide ((state.db.updateAccount state.acc updated).1 = 1) then updated
          else state.acc
        searchedBlkNo := h2 + 1
        windows := state.windows ++ [(h1, h2)]
        analysed := state.analysed ++ blocks } : State) = _
      rw [count]
      rfl
    rw [after]
    exact ⟨⟨valid, List.mem_map.mpr ⟨_, kept.row, if_pos rfl⟩⟩, rfl⟩

/-! ### Windows that adjoin -/

theorem adjoining_concat {start next : Nat} {windows : List (UInt64 × UInt64)}
    {window : UInt64 × UInt64} :
    Adjoining start (windows ++ [window]) next ↔
      Adjoining start windows window.1.toNat ∧ window.1.toNat ≤ window.2.toNat ∧
        window.2.toNat + 1 = next := by
  induction windows generalizing start with
  | nil =>
    show window.1.toNat = start ∧ _ ∧ _ ↔ start = window.1.toNat ∧ _
    rw [eq_comm]
    rfl
  | cons other rest inductionHypothesis =>
    show _ ∧ _ ∧ Adjoining _ (rest ++ [window]) next ↔ (_ ∧ _ ∧ _) ∧ _
    rw [inductionHypothesis]
    simp only [and_assoc]

theorem Adjoining.le {start next : Nat} {windows : List (UInt64 × UInt64)}
    (adjoining : Adjoining start windows next) : start ≤ next := by
  induction windows generalizing start with
  | nil => exact Nat.le_of_eq adjoining
  | cons window rest inductionHypothesis =>
    obtain ⟨begins, ordered, later⟩ := adjoining
    rw [← begins]
    exact Nat.le_trans ordered (Nat.le_of_succ_le (inductionHypothesis later))

@[simp] theorem lastScanned_concat (start : Nat) (windows : List (UInt64 × UInt64))
    (window : UInt64 × UInt64) :
    lastScanned start (windows ++ [window]) = window.2.toNat := by
  rw [lastScanned, List.getLast?_concat]
  rfl

theorem lastScanned_lt {start : Nat} (fits : start < 2 ^ 64) (windows : List (UInt64 × UInt64)) :
    lastScanned start windows < 2 ^ 64 := by
  unfold lastScanned
  cases windows.getLast? with
  | none => exact fits
  | some window => exact window.2.toNat_lt

/-- The next block is the one after the last that was analysed. -/
theorem Tiled.next_eq {start : Nat} {state : State} (tiled : Tiled start state)
    (some : state.windows ≠ []) :
    state.searchedBlkNo.toNat = lastScanned start state.windows + 1 := by
  obtain ⟨windows, window, same⟩ := (List.eq_nil_or_concat' state.windows).resolve_left some
  have adjoining := tiled.adjoining
  rw [same] at adjoining
  rw [same, lastScanned_concat]
  exact (adjoining_concat.mp adjoining).2.2.symm

/-- Nothing above the last scanned block has been analysed. -/
theorem Tiled.le_lastScanned {start height : Nat} {state : State} (tiled : Tiled start state)
    (analysed : height ∈ state.analysed) : height ≤ lastScanned start state.windows := by
  rw [tiled.analysed, List.mem_range'_1] at analysed
  by_cases none : state.windows = []
  · have adjoining := tiled.adjoining
    rw [none] at adjoining
    have same : start = state.searchedBlkNo.toNat := adjoining
    omega
  · have next := tiled.next_eq none
    omega

/-! ### Every run -/

section Run

variable {lookahead : UInt64} {blkTimestamp : Nat → Nat}

theorem iterate_rowKept {state : State} (kept : RowKept state) (iteration : Iteration) :
    RowKept (iterate lookahead blkTimestamp state iteration) := by
  cases goesOn : state.continueSearch with
  | false => rwa [iterate_stopped goesOn]
  | true =>
    by_cases above : state.searchedBlkNo.toNat ≤
        (windowEnd lookahead iteration.lastBlockHeight state.searchedBlkNo).toNat
    · rw [iterate_analyses goesOn above]
      exact (finishWindow_row kept _ _ _ _).1
    · rw [iterate_waits goesOn (Nat.lt_of_not_le above)]
      exact ⟨kept.valid, kept.row⟩

/-- A window that ends without wrapping around keeps the tiling, and only such a one does. -/
theorem finishWindow_tiled_iff {start : Nat} {state : State} (kept : RowKept state)
    (tiled : Tiled start state) {h2 : UInt64} (above : state.searchedBlkNo.toNat ≤ h2.toNat) :
    Tiled start (finishWindow blkTimestamp state.searchedBlkNo h2
        (getBlocksRange state.searchedBlkNo h2) state) ↔ h2.toNat + 1 < 2 ^ 64 := by
  constructor
  · intro after
    have next : h2.toNat + 1 = (h2 + 1).toNat := (adjoining_concat.mp after.adjoining).2.2
    rw [next]
    exact (h2 + 1).toNat_lt
  · intro fits
    have next : (h2 + 1).toNat = h2.toNat + 1 := by
      rw [UInt64.toNat_add]
      exact Nat.mod_eq_of_lt fits
    obtain ⟨keptAfter, scanned⟩ := finishWindow_row kept blkTimestamp state.searchedBlkNo h2
      (getBlocksRange state.searchedBlkNo h2)
    have begun := tiled.adjoining.le
    refine ⟨adjoining_concat.mpr ⟨tiled.adjoining, above, next.symm⟩, ?_, ?_, ?_⟩
    · show state.analysed ++ List.range' _ _ = List.range' start ((h2 + 1).toNat - start)
      have joined : List.range' start (state.searchedBlkNo.toNat - start) ++
          List.range' (start + (state.searchedBlkNo.toNat - start))
            (h2.toNat + 1 - state.searchedBlkNo.toNat) = _ := List.range'_append_1
      rw [Nat.add_sub_cancel' begun] at joined
      rw [tiled.analysed, joined, next]
      congr 1
      omega
    · intro row member id
      rw [keptAfter.eq_of_id member id]
      exact scanned.trans (lastScanned_concat start state.windows (state.searchedBlkNo, h2)).symm
    · intro tip waited
      show tip.toNat < (h2 + 1).toNat
      rw [next]
      exact Nat.lt_trans (tiled.waits tip waited) (Nat.lt_succ_of_le above)

/-- One iteration. -/
theorem iterate_tiled_iff (positive : 1 ≤ lookahead.toNat) {start : Nat} {state : State}
    (kept : RowKept state) (tiled : Tiled start state) (iteration : Iteration) :
    Tiled start (iterate lookahead blkTimestamp state iteration) ↔
      NoWrap lookahead state iteration := by
  cases goesOn : state.continueSearch with
  | false =>
    rw [iterate_stopped goesOn]
    exact iff_of_true tiled fun still => absurd (goesOn.symm.trans still) Bool.false_ne_true
  | true =>
    have waited (below : (windowEnd lookahead iteration.lastBlockHeight
        state.searchedBlkNo).toNat < state.searchedBlkNo.toNat) :
        Tiled start (iterate lookahead blkTimestamp state iteration) ↔
          iteration.lastBlockHeight.toNat < state.searchedBlkNo.toNat := by
      rw [iterate_waits goesOn below]
      constructor
      · exact fun after => after.waits _ (List.mem_append_right _ (List.mem_singleton_self _))
      · intro covered
        refine ⟨tiled.adjoining, tiled.analysed, tiled.stored, fun tip member => ?_⟩
        rcases List.mem_append.mp member with earlier | now
        · exact tiled.waits tip earlier
        · rw [List.mem_singleton.mp now]
          exact covered
    by_cases reached : state.searchedBlkNo ≤ iteration.lastBlockHeight
    · have noWrapIff : NoWrap lookahead state iteration ↔ _ ∧ _ :=
        (imp_iff_right goesOn).trans (imp_iff_right reached)
      by_cases fits : state.searchedBlkNo.toNat + lookahead.toNat ≤ 2 ^ 64
      · have above := (le_windowEnd_iff positive reached).mpr fits
        rw [iterate_analyses goesOn above, finishWindow_tiled_iff kept tiled above, noWrapIff]
        exact (and_iff_right fits).symm
      · have below := Nat.lt_of_not_le (mt (le_windowEnd_iff positive reached).mp fits)
        rw [waited below, noWrapIff]
        exact iff_of_false (Nat.not_lt.mpr (UInt64.le_iff_toNat_le.mp reached))
          fun met => fits met.1
    · have tipBelow : iteration.lastBlockHeight.toNat < state.searchedBlkNo.toNat :=
        Nat.lt_of_not_le fun le => reached (UInt64.le_iff_toNat_le.mpr le)
      rw [waited (Nat.lt_of_le_of_lt (windowEnd_le _ _ _) tipBelow)]
      exact iff_of_true tipBelow fun _ now => absurd now reached

/-- An iteration that does not wrap around does not go back, and goes on while there are blocks. -/
theorem iterate_advances (positive : 1 ≤ lookahead.toNat) {state : State} {iteration : Iteration}
    (noWrap : NoWrap lookahead state iteration) :
    state.searchedBlkNo.toNat ≤
        (iterate lookahead blkTimestamp state iteration).searchedBlkNo.toNat ∧
      (state.continueSearch = true → state.searchedBlkNo ≤ iteration.lastBlockHeight →
        state.searchedBlkNo.toNat + 1 ≤
            (iterate lookahead blkTimestamp state iteration).searchedBlkNo.toNat ∧
          (iterate lookahead blkTimestamp state iteration).continueSearch = true) := by
  cases goesOn : state.continueSearch with
  | false =>
    rw [iterate_stopped goesOn]
    exact ⟨Nat.le_refl _, fun still => absurd still Bool.false_ne_true⟩
  | true =>
    by_cases reached : state.searchedBlkNo ≤ iteration.lastBlockHeight
    · obtain ⟨fits, nextFits⟩ := noWrap goesOn reached
      have above := (le_windowEnd_iff positive reached).mpr fits
      have next : (iterate lookahead blkTimestamp state iteration).searchedBlkNo.toNat =
          (windowEnd lookahead iteration.lastBlockHeight state.searchedBlkNo).toNat + 1 := by
        rw [iterate_analyses goesOn above]
        exact (UInt64.toNat_add _ _).trans (Nat.mod_eq_of_lt nextFits)
      have stillOn : (iterate lookahead blkTimestamp state iteration).continueSearch = true := by
        rw [iterate_analyses goesOn above]
        exact goesOn
      rw [next]
      exact ⟨Nat.le_succ_of_le above, fun _ _ => ⟨Nat.succ_le_succ above, stillOn⟩⟩
    · have tipBelow : iteration.lastBlockHeight.toNat < state.searchedBlkNo.toNat :=
        Nat.lt_of_not_le fun le => reached (UInt64.le_iff_toNat_le.mpr le)
      rw [iterate_waits goesOn (Nat.lt_of_le_of_lt (windowEnd_le _ _ _) tipBelow)]
      exact ⟨Nat.le_refl _, fun _ now => absurd now reached⟩

/-- A thread whose iterations all see a tip has analysed everything up to it after as many
iterations as there are blocks. A thread that is past its life has got there before. -/
theorem run_reaches (positive : 1 ≤ lookahead.toNat) {tip : Nat} (iterations : List Iteration)
    (state : State)
    (noWrap : Runs.Along (iterate lookahead blkTimestamp) (NoWrap lookahead) state iterations)
    (seen : ∀ iteration ∈ iterations, tip ≤ iteration.lastBlockHeight.toNat)
    (goesOn : tip < state.searchedBlkNo.toNat ∨ state.continueSearch = true)
    (enough : tip + 1 ≤ state.searchedBlkNo.toNat + iterations.length) :
    tip < (Runs.run (iterate lookahead blkTimestamp) state iterations).searchedBlkNo.toNat := by
  induction iterations generalizing state with
  | nil => exact enough
  | cons iteration rest inductionHypothesis =>
    obtain ⟨kept, advances⟩ :
        state.searchedBlkNo.toNat ≤
          (iterate lookahead blkTimestamp state iteration).searchedBlkNo.toNat ∧ _ :=
      iterate_advances positive noWrap.1
    have seenLater := fun other member => seen other (List.mem_cons_of_mem _ member)
    rw [List.length_cons] at enough
    by_cases covered : tip < state.searchedBlkNo.toNat
    · refine inductionHypothesis _ noWrap.2 seenLater (.inl (Nat.lt_of_lt_of_le covered kept)) ?_
      omega
    · have reached : state.searchedBlkNo ≤ iteration.lastBlockHeight :=
        UInt64.le_iff_toNat_le.mpr
          (Nat.le_trans (Nat.le_of_not_lt covered) (seen iteration List.mem_cons_self))
      obtain ⟨further, stillOn⟩ := advances (goesOn.resolve_left covered) reached
      refine inductionHypothesis _ noWrap.2 seenLater (.inr stillOn) ?_
      omega

theorem created_tiled {db : Database} {acc : XmrAccount} (kept : RowKept (created db acc))
    (fits : acc.scannedBlockHeight < 2 ^ 64) :
    Tiled acc.scannedBlockHeight (created db acc) := by
  have begins : (created db acc).searchedBlkNo.toNat = acc.scannedBlockHeight :=
    UInt64.toNat_ofNat_of_lt' fits
  refine ⟨begins.symm, ?_, fun row member id => ?_, fun tip waited => nomatch waited⟩
  · rw [begins, Nat.sub_self]
    rfl
  · rw [kept.eq_of_id member id]
    rfl

/-- All states of a run are tiled exactly when no iteration of it wraps around. -/
theorem tiled_iff_along (positive : 1 ≤ lookahead.toNat) {db : Database} {acc : XmrAccount}
    (kept : RowKept (created db acc)) (fits : acc.scannedBlockHeight < 2 ^ 64)
    (iterations : List Iteration) :
    (∀ first rest, first ++ rest = iterations → Tiled acc.scannedBlockHeight
        (Runs.run (iterate lookahead blkTimestamp) (created db acc) first)) ↔
      Runs.Along (iterate lookahead blkTimestamp) (NoWrap lookahead) (created db acc)
        iterations :=
  Runs.reached_iff_along _ _ RowKept _ (fun _ iteration kept => iterate_rowKept kept iteration)
    (fun _ iteration kept tiled => iterate_tiled_iff positive kept tiled iteration)
    iterations _ kept (created_tiled kept fits)

/-- In a run in which no iteration wraps around, the windows tile the chain in every state; only
in such a run do they. Everything up to a tip is then analysed in as many iterations as there are
blocks, and a thread that is created from the row analyses only the last block again. -/
theorem scan_tiled_iff (positive : 1 ≤ lookahead.toNat) {db : Database} {acc : XmrAccount}
    (kept : RowKept (created db acc)) (fits : acc.scannedBlockHeight < 2 ^ 64)
    (iterations : List Iteration) :
    ((∀ first rest, first ++ rest = iterations → Tiled acc.scannedBlockHeight
        (Runs.run (iterate lookahead blkTimestamp) (created db acc) first)) ↔
      Runs.Along (iterate lookahead blkTimestamp) (NoWrap lookahead) (created db acc)
        iterations) ∧
    (Runs.Along (iterate lookahead blkTimestamp) (NoWrap lookahead) (created db acc)
        iterations →
      let state := Runs.run (iterate lookahead blkTimestamp) (created db acc) iterations
      (∀ tip, (∀ iteration ∈ iterations, tip ≤ iteration.lastBlockHeight.toNat) →
        tip + 1 ≤ acc.scannedBlockHeight + iterations.length →
          ∀ height, acc.scannedBlockHeight ≤ height → height ≤ tip →
            height ∈ state.analysed) ∧
      ∀ (again : XmrAccount) (later : List Iteration),
        { again with viewkey := "" } ∈ state.db.accounts → again.id = state.acc.id →
        Runs.Along (iterate lookahead blkTimestamp) (NoWrap lookahead)
          (created state.db again) later →
        let next := Runs.run (iterate lookahead blkTimestamp) (created state.db again) later
        (∃ blocks, next.analysed =
          List.range' (lastScanned acc.scannedBlockHeight state.windows) blocks) ∧
        ∀ height ∈ state.analysed, height ∈ next.analysed →
          height = lastScanned acc.scannedBlockHeight state.windows) := by
  refine ⟨tiled_iff_along positive kept fits iterations, fun noWrap => ?_⟩
  have begins : (created db acc).searchedBlkNo.toNat = acc.scannedBlockHeight :=
    UInt64.toNat_ofNat_of_lt' fits
  have tiled := (tiled_iff_along positive kept fits iterations).mpr noWrap iterations []
    (List.append_nil _)
  refine ⟨fun tip seen enough height fromStart toTip => ?_,
    fun again later row id noWrapAgain => ?_⟩
  · have reached := run_reaches positive iterations _ noWrap seen (.inr rfl) (begins ▸ enough)
    rw [tiled.analysed, List.mem_range'_1]
    omega
  · have scanned : again.scannedBlockHeight =
        lastScanned acc.scannedBlockHeight
          (Runs.run (iterate lookahead blkTimestamp) (created db acc) iterations).windows :=
      tiled.stored { again with viewkey := "" } row id
    have fitsAgain : again.scannedBlockHeight < 2 ^ 64 := scanned ▸ lastScanned_lt fits _
    have keptAgain : RowKept (created
        (Runs.run (iterate lookahead blkTimestamp) (created db acc) iterations).db again) :=
      ⟨(Runs.run_invariant_of_step _ RowKept
          (fun _ iteration kept => iterate_rowKept kept iteration) iterations _ kept).valid, row⟩
    have tiledAgain := (tiled_iff_along positive keptAgain fitsAgain later).mpr noWrapAgain later []
      (List.append_nil _)
    rw [scanned] at tiledAgain
    refine ⟨⟨_, tiledAgain.analysed⟩, fun height first second => ?_⟩
    refine Nat.le_antisymm (tiled.le_lastScanned first) ?_
    rw [tiledAgain.analysed, List.mem_range'_1] at second
    exact second.1

end Run

/-! ### A lookahead that wraps around -/

/-- The tables with the row of one account, which is scanned to block 2. -/
def smallAccount : XmrAccount :=
  { id := 1, address := "a", viewkeyHash := "h", scannedBlockHeight := 2,
    scannedBlockTimestamp := 0, startHeight := 0 }

/-- The tables with this row. -/
def smallDb : Database := { accounts := [smallAccount], nextAccount := 2 }

theorem smallDb_kept : RowKept (created smallDb smallAccount) :=
  ⟨by decide, by decide⟩

/-- With a lookahead of 50 blocks, two windows take the thread to the tip 100, where it waits. -/
theorem scan_tiled_iff_small :
    Tiled 2 (Runs.run (iterate 50 fun _ => 0) (created smallDb smallAccount)
      [⟨100, false⟩, ⟨100, false⟩, ⟨100, false⟩]) :=
  (scan_tiled_iff (by decide) smallDb_kept (by decide) _).1.mpr (by decide +kernel) _ []
    (List.append_nil _)

/-- With a lookahead of `2 ^ 64 - 1` a thread that is to begin at block 2 waits at the tip 100. -/
theorem not_scan_tiled :
    ¬ ∀ first rest, first ++ rest = [(⟨100, false⟩ : Iteration)] →
      Tiled 2 (Runs.run (iterate 18446744073709551615 fun _ => 0) (created smallDb smallAccount)
        first) := by
  intro tiled
  have waited := (tiled [⟨100, false⟩] [] rfl).waits 100 (by decide +kernel)
  exact absurd waited (by decide +kernel)

end LightWallet.Tiling
