/-
This file follows the arithmetic of an import of recent blocks, and what becomes of the result.

The number of blocks is cut to what is allowed and to what there is. The request is refused when
the account is scanned to fewer blocks, so that the difference does not wrap around. An import that
costs nothing, though, does not go back from the scanned block but from the tip.

The difference is written to the account's row first, and then set as the position of the search
thread. The request fails when the statement has no row to change, which is so where the account is
scanned to that block already, and when the thread is gone.
-/

import LightWallet.FailedImports

namespace LightWallet.RecentImports

/-! ### The numbers -/

/-- The numbers that `import_recent_wallet_request` reads. -/
structure Numbers where
  scannedBlockHeight : UInt64
  requested : UInt64
  maxNumberOfBlocksToImport : UInt64
  currentHeight : UInt64
  importFee : UInt64
  deriving DecidableEq, Repr

namespace Numbers

variable (numbers : Numbers)

/-- `no_blocks_to_import` after both cuts. -/
def noBlocksToImport : UInt64 :=
  min (min numbers.requested numbers.maxNumberOfBlocksToImport) numbers.currentHeight

/-- What the blocks are subtracted from. -/
def base : UInt64 :=
  if numbers.importFee = 0 then numbers.currentHeight else numbers.scannedBlockHeight

/-- The new `scanned_block_height`, unless the request is refused. -/
def newScanned : Option UInt64 :=
  if numbers.scannedBlockHeight < numbers.noBlocksToImport then none
  else some (numbers.base - numbers.noBlocksToImport)

/-- The scan moves back by the blocks from what they are subtracted from, without wrapping around
and not past the block that was scanned; a request is refused only where it would wrap around. -/
def MovesBack : Prop :=
  match numbers.newScanned with
  | none => numbers.base < numbers.noBlocksToImport
  | some new =>
    numbers.noBlocksToImport ≤ numbers.base ∧
      new.toNat = numbers.base.toNat - numbers.noBlocksToImport.toNat ∧
      new ≤ numbers.scannedBlockHeight

instance : Decidable numbers.MovesBack := by
  unfold MovesBack
  cases numbers.newScanned <;> infer_instance

end Numbers

/-! ### What the request does with them -/

namespace Numbers

variable {numbers : Numbers}

theorem toNat_noBlocksToImport (numbers : Numbers) : numbers.noBlocksToImport.toNat =
    min (min numbers.requested.toNat numbers.maxNumberOfBlocksToImport.toNat)
      numbers.currentHeight.toNat := by
  rw [noBlocksToImport, toNat_min, toNat_min]

theorem noBlocksToImport_le (numbers : Numbers) :
    numbers.noBlocksToImport ≤ numbers.currentHeight := by
  rw [UInt64.le_iff_toNat_le, toNat_noBlocksToImport]
  exact Nat.min_le_right _ _

/-- A request that is not refused has blocks enough to go back. -/
theorem noBlocksToImport_le_base
    (accepted : ¬ numbers.scannedBlockHeight < numbers.noBlocksToImport) :
    numbers.noBlocksToImport ≤ numbers.base := by
  unfold base
  split
  · exact numbers.noBlocksToImport_le
  · exact UInt64.not_lt.mp accepted

theorem base_of_paid (paid : numbers.importFee ≠ 0) :
    numbers.base = numbers.scannedBlockHeight :=
  if_neg paid

end Numbers

/-- The numbers of a request, as the words that they are in the code. -/
def numbersOf (backend : Backend) (requested : Nat) (acc : XmrAccount) : Numbers where
  scannedBlockHeight := UInt64.ofNat acc.scannedBlockHeight
  requested := UInt64.ofNat requested
  maxNumberOfBlocksToImport := UInt64.ofNat backend.maxNumberOfBlocksToImport
  currentHeight := UInt64.ofNat backend.status.currentHeight
  importFee := UInt64.ofNat backend.importFee

/-- The numbers are words of 64 bits. -/
structure Fits (backend : Backend) (requested : Nat) (acc : XmrAccount) : Prop where
  scanned : acc.scannedBlockHeight < 2 ^ 64
  requested : requested < 2 ^ 64
  maximum : backend.maxNumberOfBlocksToImport < 2 ^ 64
  current : backend.status.currentHeight < 2 ^ 64
  fee : backend.importFee < 2 ^ 64

section Request

variable {backend : Backend} {requested : Nat} {acc : XmrAccount}

theorem toNat_blocks (fits : Fits backend requested acc) :
    (numbersOf backend requested acc).noBlocksToImport.toNat =
      noBlocksToImport backend requested := by
  rw [Numbers.toNat_noBlocksToImport]
  show min (min (UInt64.ofNat requested).toNat
    (UInt64.ofNat backend.maxNumberOfBlocksToImport).toNat)
    (UInt64.ofNat backend.status.currentHeight).toNat = _
  rw [UInt64.toNat_ofNat_of_lt' fits.requested, UInt64.toNat_ofNat_of_lt' fits.maximum,
    UInt64.toNat_ofNat_of_lt' fits.current]
  rfl

theorem free_iff (fits : Fits backend requested acc) :
    (numbersOf backend requested acc).importFee = 0 ↔ backend.importFee = 0 := by
  rw [← UInt64.toNat_inj]
  show (UInt64.ofNat backend.importFee).toNat = 0 ↔ _
  rw [UInt64.toNat_ofNat_of_lt' fits.fee]

theorem toNat_base (fits : Fits backend requested acc) :
    (numbersOf backend requested acc).base.toNat =
      if backend.importFee = 0 then backend.status.currentHeight else acc.scannedBlockHeight := by
  unfold Numbers.base
  rw [apply_ite UInt64.toNat]
  exact if_congr (free_iff fits) (UInt64.toNat_ofNat_of_lt' fits.current)
    (UInt64.toNat_ofNat_of_lt' fits.scanned)

theorem refused_iff (fits : Fits backend requested acc) :
    (numbersOf backend requested acc).scannedBlockHeight <
        (numbersOf backend requested acc).noBlocksToImport ↔
      acc.scannedBlockHeight < noBlocksToImport backend requested := by
  rw [UInt64.lt_iff_toNat_lt, toNat_blocks fits]
  show (UInt64.ofNat acc.scannedBlockHeight).toNat < _ ↔ _
  rw [UInt64.toNat_ofNat_of_lt' fits.scanned]

/-- The request refuses, or imports the account with the new number. -/
theorem recentImport_eq (fits : Fits backend requested acc) (address : String)
    (response : Json) :
    recentImport backend address requested acc response =
      match (numbersOf backend requested acc).newScanned with
      | none => pure (sessionCloseError response "scanned_block_height < no_blocks_to_import!")
      | some new =>
        applyImport address acc { acc with scannedBlockHeight := new.toNat }
          "Updating account failed!" "Updating searched_blk_no failed!" response
          ((response.set "request_fulfilled" (.bool true)).set "status"
            (.str "Updating account with for importing recent txs successeful.")) := by
  unfold recentImport Numbers.newScanned
  by_cases refused : acc.scannedBlockHeight < noBlocksToImport backend requested
  · rw [if_pos ((refused_iff fits).mpr refused)]
    exact if_pos refused
  · have accepted := mt (refused_iff fits).mp refused
    have new : ((numbersOf backend requested acc).base -
        (numbersOf backend requested acc).noBlocksToImport).toNat =
          (fromRecent backend (noBlocksToImport backend requested) acc).scannedBlockHeight := by
      rw [UInt64.toNat_sub_of_le _ _ (Numbers.noBlocksToImport_le_base accepted),
        toNat_base fits, toNat_blocks fits]
      rfl
    rw [if_neg accepted]
    dsimp only
    rw [new]
    exact if_neg refused

end Request

/-! ### What the import leaves -/

section After

variable {address : String} {acc : XmrAccount} {new : Nat} {world : World}

/-- The account scanned to a block. -/
def scannedAt (acc : XmrAccount) (new : Nat) : XmrAccount := { acc with scannedBlockHeight := new }

/-- The row of the account; view keys are not stored. -/
def rowAt (acc : XmrAccount) (new : Nat) : XmrAccount := { scannedAt acc new with viewkey := "" }

/-- The statement that writes the row does not throw, and the row is not yet as it is to be. -/
def Changes (address : String) (acc : XmrAccount) (new : Nat) (world : World) : Prop :=
  ¬ world.throws = true ∧ world.db.selectAccount address ≠ some (rowAt acc new)

/-- What an import that is not refused leaves of the world before its first statement: without a
row to change it fails and moves nothing, but the row ends at the new block unless the statement
throws. After a change the position of the search thread ends there too, if the next access to the
map finds the thread. The request succeeds exactly if the access after that finds it as well. -/
structure Moves (address : String) (acc : XmrAccount) (new : Nat) (response : Json)
    (before : World) (done : Answer × World) : Prop where
  unchanged : ¬ Changes address acc new before →
    done = (sessionCloseError response "Updating account failed!", before.next)
  row : ¬ before.throws = true → done.2.db.selectAccount address = some (rowAt acc new)
  gone : Changes address acc new before → before.thread? address = none →
    done.1 = sessionCloseError response "Updating searched_blk_no failed!" ∧
      done.2.moved = before.moved ∧ done.2.threadOf address = none
  position : Changes address acc new before → before.thread? address ≠ none →
    done.2.moved = (address, new) :: before.moved ∧
      ∀ thread, done.2.threadOf address = some thread → thread.searchedBlkNo = new
  copy : Changes address acc new before → StaysLive address before →
    ∃ thread, done.2.threadOf address = some thread ∧ thread.acc = scannedAt acc new ∧
      thread.searchedBlkNo = new
  succeeds : ¬ done.1.isError ↔ Changes address acc new before ∧ StaysLive address before

theorem effective_iff (valid : world.db.Valid) (finds : Finds address acc world.db) :
    Effective acc (scannedAt acc new) world ↔ Changes address acc new world := by
  obtain ⟨-, row, member, id, named⟩ := finds
  have stored := selectAccount_of_mem valid member named
  refine and_congr_right fun _ => ?_
  rw [stored]
  constructor
  · intro one same
    obtain ⟨other, inFilter⟩ :=
      List.exists_mem_of_length_pos (Nat.lt_of_lt_of_eq Nat.one_pos one.symm)
    obtain ⟨inAccounts, changes⟩ := List.mem_filter.mp inFilter
    obtain ⟨sameId, differs⟩ := of_decide_eq_true changes
    obtain rfl := valid.accountIds.eq_of_key inAccounts member (sameId.trans id.symm)
    exact differs (Option.some.inj same)
  · intro differs
    exact Database.updateAccount_count_eq_one valid member id fun same =>
      differs (congrArg some same)

/-- The row ends as it is to be, whether or not it was so before. -/
theorem selectAccount_written (valid : world.db.Valid) (finds : Finds address acc world.db) :
    (world.db.updateAccount acc (scannedAt acc new)).2.selectAccount address =
      some (rowAt acc new) := by
  obtain ⟨accNamed, row, member, id, named⟩ := finds
  have validAfter : (world.db.updateAccount acc (scannedAt acc new)).2.Valid :=
    valid.updateAccount member id rfl (accNamed.trans named.symm)
  refine selectAccount_of_mem validAfter ?_ accNamed
  exact List.mem_map.mpr ⟨row, member, if_pos id⟩

/-- The world after the row was written. -/
def written (acc : XmrAccount) (new : Nat) (world : World) : World :=
  { world.next with db := (world.db.updateAccount acc (scannedAt acc new)).2 }

/-- The world after the position was set. -/
def placed (address : String) (acc : XmrAccount) (new : Nat) (thread : SearchThread)
    (world : World) : World :=
  { ((written acc new world).visited address).putThread address (thread.setSearchedBlkNo new) with
    moved := (address, new) :: world.moved }

theorem updateAccount_effective (effective : Effective acc (scannedAt acc new) world) :
    updateAccount acc (scannedAt acc new) world = (true, written acc new world) := by
  rw [updateAccount_runs _ _ effective.1, effective.2]
  rfl

theorem placed_thread? {thread : SearchThread} :
    (placed address acc new thread world).thread? address =
      ((world.visited address).thread? address).map fun _ => thread.setSearchedBlkNo new :=
  putThread_thread? ((written acc new world).visited address) address _

theorem threadOf_visited (world : World) (address : String) :
    (world.visited address).threadOf address = world.thread? address := rfl

theorem putThread_threadOf {world : World} {address : String}
    (found : world.threadOf address ≠ none) (thread : SearchThread) :
    (world.putThread address thread).threadOf address = some thread := by
  unfold World.threadOf at found ⊢
  rw [putThread_find?]
  cases entry : world.searchingThreads.find? (·.1 = address) with
  | none =>
    rw [entry] at found
    exact absurd rfl found
  | some entry =>
    have named := List.find?_some entry
    simp only [decide_eq_true_eq] at named
    simp [named]

section Exits

variable (rowFailed positionFailed : String) (response success : Json)

theorem applyImport_gone (effective : Effective acc (scannedAt acc new) world)
    (absent : world.thread? address = none) :
    applyImport address acc (scannedAt acc new) rowFailed positionFailed response success world =
      (sessionCloseError response positionFailed, (written acc new world).visited address) := by
  have moves : setNewSearchedBlkNo address (scannedAt acc new).scannedBlockHeight
      (written acc new world) = (false, (written acc new world).visited address) :=
    setNewSearchedBlkNo_absent _ absent
  unfold applyImport
  rw [Handler.bind_apply, updateAccount_effective effective]
  dsimp only
  rw [if_pos rfl, Handler.bind_apply, moves]
  rfl

theorem applyImport_placed (effective : Effective acc (scannedAt acc new) world)
    {thread : SearchThread} (live : world.thread? address = some thread) :
    applyImport address acc (scannedAt acc new) rowFailed positionFailed response success world =
      if (updateAcc address (scannedAt acc new) (placed address acc new thread world)).1 then
        (sessionClose success,
          (updateAcc address (scannedAt acc new) (placed address acc new thread world)).2)
      else
        (sessionCloseError response "updating acc in search thread failed!",
          (updateAcc address (scannedAt acc new) (placed address acc new thread world)).2) := by
  have moves : setNewSearchedBlkNo address (scannedAt acc new).scannedBlockHeight
      (written acc new world) = (true, placed address acc new thread world) :=
    setNewSearchedBlkNo_live _ live
  unfold applyImport
  rw [Handler.bind_apply, updateAccount_effective effective]
  dsimp only
  rw [if_pos rfl, Handler.bind_apply, moves]
  dsimp only
  rw [if_pos rfl, Handler.bind_apply]
  split <;> rfl

/-- After the position was set: the copy is replaced if the thread is still there. -/
theorem applyImport_live (effective : Effective acc (scannedAt acc new) world)
    {thread other : SearchThread} (live : world.thread? address = some thread)
    (stays : (world.visited address).thread? address = some other) :
    applyImport address acc (scannedAt acc new) rowFailed positionFailed response success world =
      (sessionClose success, ((placed address acc new thread world).visited address).putThread
        address ((thread.setSearchedBlkNo new).updateAcc (scannedAt acc new))) := by
  have found : (placed address acc new thread world).thread? address =
      some (thread.setSearchedBlkNo new) := by rw [placed_thread?, stays]; rfl
  rw [applyImport_placed _ _ _ _ effective live, updateAcc_live _ found]
  rfl

theorem applyImport_leaves (effective : Effective acc (scannedAt acc new) world)
    {thread : SearchThread} (live : world.thread? address = some thread)
    (leaves : (world.visited address).thread? address = none) :
    applyImport address acc (scannedAt acc new) rowFailed positionFailed response success world =
      (sessionCloseError response "updating acc in search thread failed!",
        (placed address acc new thread world).visited address) := by
  have absent : (placed address acc new thread world).thread? address = none := by
    rw [placed_thread?, leaves]
    rfl
  rw [applyImport_placed _ _ _ _ effective live, updateAcc_absent _ absent]
  rfl

end Exits

/-- An import with a row to change leaves the new block in the row and, where the thread is there,
as its position. -/
theorem applyImport_effective_moves (valid : world.db.Valid)
    (finds : Finds address acc world.db) (changes : Changes address acc new world)
    (response success : Json) :
    Moves address acc new response world
      (applyImport address acc (scannedAt acc new) "Updating account failed!"
        "Updating searched_blk_no failed!" response success world) := by
  have effective := (effective_iff valid finds).mpr changes
  have row := @selectAccount_written address acc new world valid finds
  cases live : world.thread? address with
  | none =>
    rw [applyImport_gone _ _ _ _ effective live]
    exact
      { unchanged := fun same => absurd changes same
        row := fun _ => row
        gone := fun _ _ => ⟨rfl, rfl, live⟩
        position := fun _ some => absurd live some
        copy := fun _ stays => absurd live stays.1
        succeeds := iff_of_false (fun success => success (sessionCloseError_isError _ _))
          fun both => both.2.1 live }
  | some thread =>
    have there : world.thread? address ≠ none := by simp [live]
    cases again : (world.visited address).thread? address with
    | none =>
      rw [applyImport_leaves _ _ _ _ effective live again]
      have lost : ((placed address acc new thread world).visited address).threadOf address =
          none := by rw [threadOf_visited, placed_thread?, again]; rfl
      exact
        { unchanged := fun same => absurd changes same
          row := fun _ => row
          gone := fun _ none => absurd none there
          position := fun _ _ => ⟨rfl, fun other found => by rw [lost] at found; cases found⟩
          copy := fun _ stays => absurd again stays.2
          succeeds := iff_of_false (fun success => success (sessionCloseError_isError _ _))
            fun both => both.2.2 again }
    | some other =>
      rw [applyImport_live _ _ _ _ effective live again]
      have put : (((placed address acc new thread world).visited address).putThread address
          ((thread.setSearchedBlkNo new).updateAcc (scannedAt acc new))).threadOf address =
            some ((thread.setSearchedBlkNo new).updateAcc (scannedAt acc new)) :=
        putThread_threadOf (by rw [threadOf_visited, placed_thread?, again]; simp) _
      exact
        { unchanged := fun same => absurd changes same
          row := fun _ => row
          gone := fun _ none => absurd none there
          position := fun _ _ => ⟨rfl, fun other found => by
            rw [put] at found
            cases found
            rfl⟩
          copy := fun _ _ => ⟨_, put, rfl, rfl⟩
          succeeds := iff_of_true (fun error => error rfl) ⟨changes, there, by simp [again]⟩ }

/-- What an import leaves, exit by exit. -/
theorem applyImport_moves (valid : world.db.Valid) (finds : Finds address acc world.db)
    (response success : Json) :
    Moves address acc new response world
      (applyImport address acc (scannedAt acc new) "Updating account failed!"
        "Updating searched_blk_no failed!" response success world) := by
  by_cases changes : Changes address acc new world
  · exact applyImport_effective_moves valid finds changes response success
  · rw [applyImport_ineffective _ _ _ _ valid (mt (effective_iff valid finds).mp changes)]
    exact
      { unchanged := fun _ => rfl
        row := fun runs => by
          by_contra differs
          exact changes ⟨runs, differs⟩
        gone := fun changed => absurd changed changes
        position := fun changed => absurd changed changes
        copy := fun changed => absurd changed changes
        succeeds := iff_of_false (fun success => success (sessionCloseError_isError _ _))
          fun both => changes both.1 }

end After

/-! ### The request -/

/-- The body asks for so many blocks, with an address and a view key. -/
def Asks (backend : Backend) (body : Option Json) (address viewKey : String)
    (requested : Nat) : Prop :=
  ∃ request text,
    parseRequest body ["address", "view_key", "no_blocks_to_import"]
      (.obj [("request_fulfilled", .bool false)]) = .ok request ∧
    readCredentials backend request = .ok (address, viewKey) ∧
    (request.read "no_blocks_to_import").asString? = some text ∧
    backend.lexicalCast text = some requested

/-- The request once `select_account` has handed out the account. -/
theorem importRecentWalletRequest_eq {backend : Backend} {body : Option Json}
    {address viewKey : String} {requested : Nat} {world found : World} {acc : XmrAccount}
    (asks : Asks backend body address viewKey requested)
    (selected : selectAccount backend address viewKey true world = (some acc, found)) :
    importRecentWalletRequest backend body world =
      recentImport backend address requested acc (.obj [("request_fulfilled", .bool false)])
        found := by
  obtain ⟨request, text, parsed, credentials, string, number⟩ := asks
  unfold importRecentWalletRequest
  simp only [parsed, credentials, string, number, Handler.bind_apply, selected]

/-- The service at height 100000, with an import fee or without. -/
def service (importFee : Nat) : Backend :=
  { Backend.empty with
    importFee
    status := { currentHeight := 100000 }
    lexicalCast := fun _ => some 500 }

/-- The request for 500 blocks. -/
def asking : Json :=
  .obj [("address", .str "4ApA"), ("view_key", .str "c0de"), ("no_blocks_to_import", .str "500")]

/-- The row of the account. -/
def scanned : XmrAccount :=
  { id := 1, address := "4ApA", viewkeyHash := "c0de", scannedBlockHeight := 1000 }

/-- Its search thread is running. -/
def running : World where
  db := { accounts := [scanned], nextAccount := 2 }
  searchingThreads := [("4ApA", { acc := scanned, searchedBlkNo := 1001 })]

end LightWallet.RecentImports
