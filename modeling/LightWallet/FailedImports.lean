/-
This file settles which failed imports leave everything as it was. The row of the
account is updated before the search thread is asked for, and a request may
create an account that its import then fails for. For both requests the file
gives the exact condition under which an error answer means that the row, the
search position and the search thread's copy of the account are unchanged.
-/

import LightWallet.Imports
import LightWallet.Lookups

namespace LightWallet

/-! ### What is compared -/

/-- The search thread of an address. -/
def World.threadOf (world : World) (address : String) : Option SearchThread :=
  (world.searchingThreads.find? (·.1 = address)).map (·.2)

/-- The row of every account is as before, and so are the copy and the position of every search
thread. The monitor may have removed a thread; no request does. -/
def Unchanged (before after : World) : Prop :=
  ∀ address, after.db.selectAccount address = before.db.selectAccount address ∧
    ∀ thread, after.threadOf address = some thread → ∃ old, before.threadOf address = some old ∧
      thread.acc = old.acc ∧ thread.searchedBlkNo = old.searchedBlkNo

/-- The session is closed with an error, or not closed at all. -/
def Answer.isError : Answer → Prop
  | .closed code _ => code ≠ codeOk
  | .escaped => True

theorem sessionCloseError_isError (response : Json) (message : String) :
    (sessionCloseError response message).isError :=
  show unprocessableEntity ≠ codeOk by decide

/-- Every search thread was there before. -/
def NoNewThread (before after : World) : Prop :=
  ∀ address thread, after.threadOf address = some thread → before.threadOf address = some thread

theorem NoNewThread.refl (world : World) : NoNewThread world world := fun _ _ found => found

theorem unchanged_of_noNewThread {before after : World} (db : after.db = before.db)
    (threads : NoNewThread before after) : Unchanged before after := fun address =>
  ⟨by rw [db], fun thread found => ⟨thread, threads address thread found, rfl, rfl⟩⟩

/-! ### Accesses to the map of search threads -/

theorem visited_noNewThread (world : World) (name : String) :
    NoNewThread world (world.visited name) := by
  intro address thread found
  obtain ⟨entry, inMap, rfl⟩ := Option.map_eq_some_iff.mp found
  exact Option.map_eq_some_iff.mpr ⟨entry, remaining_find? world name inMap, rfl⟩

theorem searchThreadExist_noNewThread (address : String) (world : World) :
    NoNewThread world (searchThreadExist address world).2 := by
  unfold searchThreadExist withThread
  cases live : world.thread? address with
  | none => exact visited_noNewThread world address
  | some thread =>
    intro other found inMap
    obtain ⟨entry, put, rfl⟩ := Option.map_eq_some_iff.mp inMap
    rw [putThread_find?] at put
    obtain ⟨before, visited, rfl⟩ := Option.map_eq_some_iff.mp put
    have same := visited_noNewThread world address other before.2
      (Option.map_eq_some_iff.mpr ⟨before, visited, rfl⟩)
    rw [same]
    split
    · next here =>
      -- the thread is put back as it was
      have named := List.find?_some visited
      simp only [decide_eq_true_eq] at named
      obtain rfl : other = address := named.symm.trans here
      have found : world.thread? other = some before.2 :=
        Option.map_eq_some_iff.mpr ⟨before, visited, rfl⟩
      exact found.symm.trans live
    · rfl

/-! ### Creating a search thread -/

theorem NoNewThread.trans {first second third : World} (before : NoNewThread first second)
    (after : NoNewThread second third) : NoNewThread first third :=
  fun address thread found => before address thread (after address thread found)

theorem makeSearchThread_absent (backend : Backend) {acc : XmrAccount} {world : World}
    (absent : world.thread? acc.address = none)
    (parses : backend.parsesAccount acc.address acc.viewkey = true) :
    ∃ txSearch : SearchThread, txSearch.acc = acc ∧
      txSearch.searchedBlkNo = acc.scannedBlockHeight ∧
      makeSearchThread backend acc world =
        let mid := (world.visited acc.address).next.visited acc.address
        if backend.startsThread then
          (true, { mid with
            searchingThreads := mid.searchingThreads ++ [(acc.address, txSearch)] })
        else (false, mid) := by
  let outs := (selectOutputs acc.id (world.visited acc.address)).1
  refine ⟨{ acc, address := acc.address, viewkey := acc.viewkey,
            known := outs.map fun out => (out.outPubKey, out.amount),
            searchedBlkNo := acc.scannedBlockHeight }, rfl, rfl, ?_⟩
  have left : (selectOutputs acc.id (world.visited acc.address)).2 =
      (world.visited acc.address).next := query_world _ _ _
  have still : (world.visited acc.address).next.thread? acc.address = none :=
    thread?_visited_eq_none absent
  unfold makeSearchThread
  rw [Handler.bind_apply, searchThreadExist_absent absent]
  simp only [Bool.false_eq_true, if_false, Handler.bind_apply, constructTxSearch, parses, if_true,
    Handler.pure_apply, startTxSearchThread]
  rw [left, searchThreadExist_absent still]
  simp only [Bool.false_eq_true, if_false]
  cases backend.startsThread with
  | true => rfl
  | false => rfl

/-- No thread is new when there is one already, or none can be built, or none can be started. -/
theorem makeSearchThread_noNewThread (backend : Backend) {acc : XmrAccount} {world : World}
    (starts : ¬ (world.thread? acc.address = none ∧
      backend.parsesAccount acc.address acc.viewkey = true ∧ backend.startsThread = true)) :
    NoNewThread world (makeSearchThread backend acc world).2 := by
  by_cases absent : world.thread? acc.address = none
  · by_cases parses : backend.parsesAccount acc.address acc.viewkey = true
    · obtain ⟨txSearch, -, -, made⟩ := makeSearchThread_absent backend absent parses
      rw [made]
      simp only [show ¬ backend.startsThread = true from fun starting =>
        starts ⟨absent, parses, starting⟩]
      exact (visited_noNewThread world acc.address).trans
        (visited_noNewThread (world.visited acc.address).next acc.address)
    · unfold makeSearchThread
      rw [Handler.bind_apply, searchThreadExist_absent absent]
      simp only [Bool.false_eq_true, if_false, Handler.bind_apply, constructTxSearch, parses]
      exact visited_noNewThread world acc.address
  · unfold makeSearchThread
    rw [Handler.bind_apply, searchThreadExist_live absent]
    exact searchThreadExist_noNewThread acc.address world

theorem makeSearchThread_starts (backend : Backend) {acc : XmrAccount} {world : World}
    (absent : world.thread? acc.address = none)
    (parses : backend.parsesAccount acc.address acc.viewkey = true)
    (starting : backend.startsThread = true) :
    ∃ txSearch : SearchThread, txSearch.acc = acc ∧
      txSearch.searchedBlkNo = acc.scannedBlockHeight ∧
      (makeSearchThread backend acc world).2.threadOf acc.address = some txSearch ∧
      ∀ other thread, other ≠ acc.address →
        (makeSearchThread backend acc world).2.threadOf other = some thread →
        world.threadOf other = some thread := by
  obtain ⟨txSearch, sameAcc, position, made⟩ := makeSearchThread_absent backend absent parses
  refine ⟨txSearch, sameAcc, position, ?_⟩
  rw [made]
  simp only [starting, if_true]
  generalize passed : (world.visited acc.address).next.visited acc.address = mid
  have kept : NoNewThread world mid := passed ▸
    (visited_noNewThread world acc.address).trans
      (visited_noNewThread (world.visited acc.address).next acc.address)
  have gone : mid.searchingThreads.find? (·.1 = acc.address) = none := by
    rw [← passed]
    exact Option.map_eq_none_iff.mp (thread?_visited_eq_none absent)
  unfold World.threadOf
  simp only [List.find?_append]
  constructor
  · rw [gone]
    simp
  · intro other thread notThis found
    refine kept other thread ?_
    rw [show List.find? (fun entry => decide (entry.1 = other)) [(acc.address, txSearch)] = none by
      simpa using notThis.symm, Option.or_none] at found
    exact found

/-! ### Creating an account -/

/-- `select_account` inserts a row: there is none under the address, and the third statement,
which inserts it, does not throw. -/
def CreatesRow (address : String) (world : World) : Prop :=
  world.db.selectAccount address = none ∧ ¬ world.next.next.throws = true

/-- `select_account` creates a search thread for an account that exists: the first statement
throws, the second reads the row, and the thread is not one that was there before in all but
name. The view key is not filled in at that point. -/
def CreatesThread (backend : Backend) (address : String) (world : World) : Prop :=
  ∃ row, world.db.selectAccount address = some row ∧ world.throws = true ∧
    ¬ world.next.throws = true ∧ world.thread? address = none ∧
    backend.parsesAccount row.address row.viewkey = true ∧ backend.startsThread = true ∧
    ∀ old, world.threadOf address = some old →
      ¬ (row = old.acc ∧ row.scannedBlockHeight = old.searchedBlkNo)

/-- `select_account` leaves a row or a search thread that was not there. -/
def Creates (backend : Backend) (address : String) (world : World) : Prop :=
  CreatesRow address world ∨ CreatesThread backend address world

/-- What finding an account leaves when its row exists but was not read at once. -/
theorem makeSearchThread_outcome (backend : Backend) {address : String} {world : World}
    {row : XmrAccount} (present : world.db.selectAccount address = some row)
    (throws : world.throws = true) (runs : ¬ world.next.throws = true) :
    let after := (makeSearchThread backend row world.next.next).2
    (¬ Creates backend address world ∧ Unchanged world after) ∨
      (Creates backend address world ∧ ∃ thread, after.threadOf address = some thread ∧
        ∀ old, world.threadOf address = some old →
          ¬ (thread.acc = old.acc ∧ thread.searchedBlkNo = old.searchedBlkNo)) := by
  intro after
  have db : after.db = world.db := (makeSearchThread_keepsDb backend row world.next.next).1
  have named : row.address = address := (selectAccount_mem present).2
  have noRow : ¬ CreatesRow address world := fun creates => by
    rw [creates.1] at present
    cases present
  by_cases starts : world.next.next.thread? row.address = none ∧
      backend.parsesAccount row.address row.viewkey = true ∧ backend.startsThread = true
  · obtain ⟨absent, parses, starting⟩ := starts
    obtain ⟨txSearch, sameAcc, position, here, elsewhere⟩ :=
      makeSearchThread_starts backend absent parses starting
    rw [named] at here absent
    by_cases alike : ∃ old, world.threadOf address = some old ∧
        row = old.acc ∧ row.scannedBlockHeight = old.searchedBlkNo
    · -- the new thread is like the one that the monitor has just removed
      obtain ⟨old, before, equalAcc, equalPosition⟩ := alike
      refine .inl ⟨?_, fun other => ⟨by rw [db], fun thread found => ?_⟩⟩
      · rintro (creates | ⟨same, read, -, -, -, -, -, differs⟩)
        · exact noRow creates
        · rw [present] at read
          cases read
          exact differs old before ⟨equalAcc, equalPosition⟩
      · by_cases this : other = address
        · subst this
          rw [show after.threadOf other = some txSearch from here] at found
          cases found
          exact ⟨old, before, sameAcc.trans equalAcc, position.trans equalPosition⟩
        · exact ⟨thread, elsewhere other thread (by rwa [named]) found, rfl, rfl⟩
    · refine .inr ⟨.inr ⟨row, present, throws, runs, absent, parses, starting, ?_⟩,
        txSearch, here, ?_⟩
      · exact fun old before same => alike ⟨old, before, same⟩
      · exact fun old before same =>
          alike ⟨old, before, sameAcc.symm.trans same.1, position.symm.trans same.2⟩
  · refine .inl ⟨?_, unchanged_of_noNewThread db (makeSearchThread_noNewThread backend starts)⟩
    rintro (creates | ⟨same, read, -, -, absent, parses, starting, -⟩)
    · exact noRow creates
    · rw [present] at read
      cases read
      rw [← named] at absent
      exact starts ⟨absent, parses, starting⟩

/-- What finding an account leaves: everything as it was, or a new row, or a new thread. -/
theorem selectAccount_outcome (backend : Backend) (address viewKey : String) (world : World) :
    let after := (selectAccount backend address viewKey true world).2
    (¬ Creates backend address world ∧ after.db = world.db ∧ Unchanged world after) ∨
      (Creates backend address world ∧ world.db.selectAccount address = none ∧
        after.db.selectAccount address ≠ none) ∨
      (Creates backend address world ∧ after.db = world.db ∧
        ∃ thread, after.threadOf address = some thread ∧
          ∀ old, world.threadOf address = some old →
            ¬ (thread.acc = old.acc ∧ thread.searchedBlkNo = old.searchedBlkNo)) := by
  cases present : world.db.selectAccount address with
  | none =>
    have unread := congrArg Prod.fst (selectAccountRow_absent present)
    have noThread : ¬ CreatesThread backend address world := fun ⟨row, read, _⟩ => by
      rw [present] at read
      cases read
    by_cases throws : world.next.next.throws = true
    · have refused := createAccount_refused backend viewKey true
        (congrArg Prod.fst (selectAccountRow_absent
          (show world.next.db.selectAccount address = none from present))) (.inl throws)
      rw [selectAccount_uncreated backend unread (congrArg Prod.fst refused), refused]
      refine .inl ⟨?_, rfl, unchanged_of_noNewThread rfl fun _ _ found => found⟩
      rintro (creates | creates)
      · exact creates.2 throws
      · exact noThread creates
    · obtain ⟨acc, created, inserted⟩ :=
        createAccount_inserts backend viewKey true
          (show world.next.db.selectAccount address = none from present) throws
      rw [selectAccount_created backend unread created]
      refine .inr (.inl ⟨.inl ⟨present, throws⟩, rfl, ?_⟩)
      rw [(makeSearchThread_keepsDb backend acc _).1]
      exact inserted
  | some row =>
    have noRow : ¬ CreatesRow address world := fun creates => by
      rw [creates.1] at present
      cases present
    by_cases throws : world.throws = true
    · have unread := congrArg Prod.fst (selectAccountRow_throws address throws)
      by_cases again : world.next.throws = true
      · have refused := createAccount_refused backend viewKey true
          (congrArg Prod.fst (selectAccountRow_throws address again))
          (.inr fun none => by cases present.symm.trans none)
        rw [selectAccount_uncreated backend unread (congrArg Prod.fst refused), refused]
        refine .inl ⟨?_, rfl, unchanged_of_noNewThread rfl fun _ _ found => found⟩
        rintro (creates | ⟨-, -, -, runs, -⟩)
        · exact noRow creates
        · exact runs again
      · have read : (selectAccountRow address world.next).1 = some row := by
          rw [selectAccountRow_runs address again]
          exact present
        have reads := createAccount_reads backend viewKey true read
        rw [selectAccount_created backend unread (congrArg Prod.fst reads), reads]
        have db := (makeSearchThread_keepsDb backend row world.next.next).1
        rcases makeSearchThread_outcome backend present throws again with
          ⟨creates, same⟩ | ⟨creates, thread⟩
        · exact .inl ⟨creates, db, same⟩
        · exact .inr (.inr ⟨creates, db, thread⟩)
    · have read : (selectAccountRow address world).1 = some row := by
        rw [selectAccountRow_runs address throws]
        exact present
      rw [selectAccount_reads backend viewKey true read]
      refine .inl ⟨?_, rfl, unchanged_of_noNewThread rfl fun _ _ found => found⟩
      rintro (creates | ⟨-, -, first, -⟩)
      · exact noRow creates
      · exact throws first

/-! ### The three updates -/

/-- The update of the row takes effect. -/
def Effective (original updated : XmrAccount) (world : World) : Prop :=
  ¬ world.throws = true ∧ (world.db.updateAccount original updated).1 = 1

/-- The search thread is in the map at the next two accesses. -/
def StaysLive (address : String) (world : World) : Prop :=
  world.thread? address ≠ none ∧ (world.visited address).thread? address ≠ none

section ApplyImport

variable {address : String} {original updated : XmrAccount} {world : World}
  (rowFailed positionFailed : String) (response success : Json)

/-- An update that does not take effect ends the import, and leaves everything alone. -/
theorem applyImport_ineffective (valid : world.db.Valid)
    (ineffective : ¬ Effective original updated world) :
    applyImport address original updated rowFailed positionFailed response success world =
      (sessionCloseError response rowFailed, world.next) := by
  unfold applyImport
  rw [Handler.bind_apply]
  by_cases throws : world.throws = true
  · rw [updateAccount_throws _ _ throws]
    rfl
  · have count : (world.db.updateAccount original updated).1 ≠ 1 := fun one =>
      ineffective ⟨throws, one⟩
    have none : (world.db.updateAccount original updated).1 = 0 := by
      have := Database.updateAccount_count_le valid original updated
      omega
    rw [updateAccount_runs _ _ throws, Database.updateAccount_eq_of_count_eq_zero none]
    simp only [count, decide_false, Bool.false_eq_true, if_false]
    rfl

theorem applyImport_effective (effective : Effective original updated world) :
    (applyImport address original updated rowFailed positionFailed response success world).2.db =
        (world.db.updateAccount original updated).2 ∧
      ((applyImport address original updated rowFailed positionFailed response success
        world).1.isError ↔ ¬ StaysLive address world) := by
  obtain ⟨runs, changes⟩ := effective
  let written : World :=
    { world.next with db := (world.db.updateAccount original updated).2 }
  unfold applyImport StaysLive
  rw [Handler.bind_apply, updateAccount_runs _ _ runs]
  simp only [changes, decide_true, if_true, Handler.bind_apply]
  cases live : world.thread? address with
  | none =>
    have absent : written.thread? address = none := live
    rw [setNewSearchedBlkNo_absent _ absent]
    simp only [Bool.false_eq_true, if_false]
    exact ⟨rfl, fun _ both => both.1 rfl, fun _ => sessionCloseError_isError _ _⟩
  | some thread =>
    have found : written.thread? address = some thread := live
    rw [setNewSearchedBlkNo_live _ found]
    simp only [if_true, Handler.bind_apply]
    generalize moved : ({ (written.visited address).putThread address
      (thread.setSearchedBlkNo updated.scannedBlockHeight) with
      moved := (address, updated.scannedBlockHeight) :: written.moved } : World) = mid
    have left : mid.db = written.db := by
      rw [← moved]
      rfl
    have again : mid.thread? address =
        ((world.visited address).thread? address).map fun _ =>
          thread.setSearchedBlkNo updated.scannedBlockHeight := by
      rw [← moved]
      exact putThread_thread? (written.visited address) address _
    cases last : (world.visited address).thread? address with
    | none =>
      rw [last] at again
      rw [updateAcc_absent _ again]
      simp only [Bool.false_eq_true, if_false]
      exact ⟨left, fun _ both => both.2 rfl, fun _ => sessionCloseError_isError _ _⟩
    | some other =>
      rw [last] at again
      rw [updateAcc_live _ again]
      simp only [if_true]
      exact ⟨left, fun error => absurd rfl error, fun gone => absurd ⟨by simp, by simp⟩ gone⟩

end ApplyImport

/-! ### When a failed import changes nothing -/

section Condition

variable (backend : Backend) (address viewKey : String) (updated? : XmrAccount → Option XmrAccount)

/-- The account is found, and the update of its row takes effect. -/
def Applies (world : World) : Prop :=
  ∃ acc updated, (selectAccount backend address viewKey true world).1 = some acc ∧
    updated? acc = some updated ∧
    Effective acc updated (selectAccount backend address viewKey true world).2

/-- If the update of the row takes effect, then the search thread is in the map at both accesses
that follow. If not, then neither a row nor a search thread was created. -/
def LeavesAlone (world : World) : Prop :=
  (Applies backend address viewKey updated? world →
      StaysLive address (selectAccount backend address viewKey true world).2) ∧
    (¬ Applies backend address viewKey updated? world → ¬ Creates backend address world)

variable {backend address viewKey updated?}

/-- A request that ends right after the account was looked for changes nothing unless it has
created something. -/
theorem unchanged_iff_not_creates {world after : World}
    (db : after.db = (selectAccount backend address viewKey true world).2.db)
    (threads : after.searchingThreads =
      (selectAccount backend address viewKey true world).2.searchingThreads) :
    Unchanged world after ↔ ¬ Creates backend address world := by
  have threadOf (other : String) : after.threadOf other =
      (selectAccount backend address viewKey true world).2.threadOf other := by
    unfold World.threadOf
    rw [threads]
  unfold Unchanged
  simp only [db, threadOf]
  rcases selectAccount_outcome backend address viewKey world with
    ⟨creates, -, same⟩ | ⟨creates, absent, inserted⟩ | ⟨creates, -, thread, found, differs⟩
  · exact ⟨fun _ => creates, fun _ => same⟩
  · refine ⟨fun same => ?_, fun not => absurd creates not⟩
    exact absurd ((same address).1.trans absent) inserted
  · refine ⟨fun same => ?_, fun not => absurd creates not⟩
    obtain ⟨old, before, alike⟩ := (same address).2 thread found
    exact absurd alike (differs old before)

/-- An update that takes effect changes the row. -/
theorem changed_of_effective {world after : World} {acc updated : XmrAccount}
    (valid : world.db.Valid)
    (found : (selectAccount backend address viewKey true world).1 = some acc)
    (id : updated.id = acc.id) (named : updated.address = acc.address)
    (effective : Effective acc updated (selectAccount backend address viewKey true world).2)
    (db : after.db =
      ((selectAccount backend address viewKey true world).2.db.updateAccount acc updated).2) :
    ¬ Unchanged world after := by
  intro same
  have finds := selectAccount_finds backend found
  have validMid : (selectAccount backend address viewKey true world).2.db.Valid := by
    obtain ⟨-, kept | ⟨row, id, inserted⟩⟩ :=
      selectAccount_mayInsert backend address viewKey true world
    · rwa [kept]
    · exact valid.insertAccount inserted
  have outcome := selectAccount_outcome backend address viewKey world
  generalize (selectAccount backend address viewKey true world).2 = mid
    at finds validMid outcome effective db
  obtain ⟨accNamed, row, member, rowId, rowNamed⟩ := finds
  obtain ⟨old, inAccounts, changes⟩ : ∃ old ∈ mid.db.accounts,
      old.id = acc.id ∧ old ≠ { updated with viewkey := "" } := by
    obtain ⟨old, inFilter⟩ := List.exists_mem_of_length_pos
      (Nat.lt_of_lt_of_eq Nat.one_pos effective.2.symm)
    obtain ⟨inAccounts, changes⟩ := List.mem_filter.mp inFilter
    exact ⟨old, inAccounts, of_decide_eq_true changes⟩
  obtain rfl : old = row := validMid.accountIds.eq_of_key inAccounts member
    (changes.1.trans rowId.symm)
  have before : mid.db.selectAccount address = some old :=
    selectAccount_of_mem validMid member rowNamed
  have after : after.db.selectAccount address = some { updated with viewkey := "" } := by
    rw [db]
    refine selectAccount_of_mem (validMid.updateAccount member rowId id
      ((named.trans accNamed).trans rowNamed.symm)) ?_ (named.trans accNamed)
    exact List.mem_map.mpr ⟨old, member, if_pos rowId⟩
  have unread : world.db.selectAccount address = some { updated with viewkey := "" } :=
    (same address).1.symm.trans after
  rcases outcome with ⟨-, kept, -⟩ | ⟨-, absent, -⟩ | ⟨-, kept, -⟩
  · rw [← kept, before] at unread
    exact changes.2 (Option.some.inj unread)
  · rw [absent] at unread
    cases unread
  · rw [← kept, before] at unread
    exact changes.2 (Option.some.inj unread)

/-- A request that finds the account and then applies an import. -/
theorem applyImport_unchanged_iff {world : World} {acc updated : XmrAccount}
    (valid : world.db.Valid)
    (found : (selectAccount backend address viewKey true world).1 = some acc)
    (updates : updated? acc = some updated) (id : updated.id = acc.id)
    (named : updated.address = acc.address) (rowFailed positionFailed : String)
    (response success : Json) :
    let done := applyImport address acc updated rowFailed positionFailed response success
      (selectAccount backend address viewKey true world).2
    (done.1.isError → Unchanged world done.2) ↔
      LeavesAlone backend address viewKey updated? world := by
  intro done
  have validMid : (selectAccount backend address viewKey true world).2.db.Valid := by
    obtain ⟨-, kept | ⟨row, id, inserted⟩⟩ :=
      selectAccount_mayInsert backend address viewKey true world
    · rwa [kept]
    · exact valid.insertAccount inserted
  by_cases effective : Effective acc updated (selectAccount backend address viewKey true world).2
  · have applies : Applies backend address viewKey updated? world :=
      ⟨acc, updated, found, updates, effective⟩
    obtain ⟨db, error⟩ :=
      @applyImport_effective address acc updated _ rowFailed positionFailed response success
        effective
    have changed := changed_of_effective valid found id named effective db
    constructor
    · intro unchanged
      refine ⟨fun _ => ?_, fun not => absurd applies not⟩
      by_contra gone
      exact changed (unchanged (error.mpr gone))
    · intro leaves failed
      exact absurd (leaves.1 applies) (error.mp failed)
  · have notApplies : ¬ Applies backend address viewKey updated? world := by
      rintro ⟨other, others, otherFound, otherUpdates, otherEffective⟩
      rw [found] at otherFound
      cases otherFound
      rw [updates] at otherUpdates
      cases otherUpdates
      exact effective otherEffective
    have ends : done = _ := applyImport_ineffective rowFailed positionFailed response success
      validMid effective
    have unchanged : Unchanged world done.2 ↔ ¬ Creates backend address world := by
      rw [ends]
      exact unchanged_iff_not_creates rfl rfl
    have error : done.1.isError := by
      rw [ends]
      exact sessionCloseError_isError _ _
    rw [unchanged]
    exact ⟨fun same => ⟨fun applies => absurd applies notApplies, fun _ => same error⟩,
      fun leaves _ => leaves.2 notApplies⟩

/-- A request that gives up right after looking for the account. -/
theorem refused_unchanged_iff {world : World} {answer : Answer} (error : answer.isError)
    (refused : ∀ acc, (selectAccount backend address viewKey true world).1 = some acc →
      updated? acc = none) :
    (answer.isError → Unchanged world (selectAccount backend address viewKey true world).2) ↔
      LeavesAlone backend address viewKey updated? world := by
  have notApplies : ¬ Applies backend address viewKey updated? world := by
    rintro ⟨acc, updated, found, updates, -⟩
    rw [refused acc found] at updates
    cases updates
  rw [unchanged_iff_not_creates rfl rfl]
  exact ⟨fun same => ⟨fun applies => absurd applies notApplies, fun _ => same error⟩,
    fun leaves _ => leaves.2 notApplies⟩

end Condition

/-! ### The two requests -/

/-- When a failed free import changes nothing. -/
def FreeLeavesAlone (backend : Backend) (body : Option Json) (world : World) : Prop :=
  ∀ request address viewKey, parseRequest body ["address", "view_key"] .null = .ok request →
    readCredentials backend request = .ok (address, viewKey) →
    LeavesAlone backend address viewKey (fun acc => some (fromGenesis acc)) world

/-- The account as the import of the last blocks leaves it, unless there are fewer scanned
blocks. -/
def recentUpdate (backend : Backend) (requested : Nat) (acc : XmrAccount) : Option XmrAccount :=
  let blocks := noBlocksToImport backend requested
  if acc.scannedBlockHeight < blocks then none else some (fromRecent backend blocks acc)

/-- When a failed import of the last blocks changes nothing. -/
def RecentLeavesAlone (backend : Backend) (body : Option Json) (world : World) : Prop :=
  ∀ request address viewKey text requested,
    parseRequest body ["address", "view_key", "no_blocks_to_import"]
      (.obj [("request_fulfilled", .bool false)]) = .ok request →
    readCredentials backend request = .ok (address, viewKey) →
    (request.read "no_blocks_to_import").asString? = some text →
    backend.lexicalCast text = some requested →
    LeavesAlone backend address viewKey (recentUpdate backend requested) world

theorem importWalletRequest_unchanged_iff (backend : Backend) (body : Option Json)
    (world : World) (valid : world.db.Valid) (free : backend.importFee = 0) :
    ((importWalletRequest backend body world).1.isError →
        Unchanged world (importWalletRequest backend body world).2) ↔
      FreeLeavesAlone backend body world := by
  unfold importWalletRequest FreeLeavesAlone
  cases parsed : parseRequest body ["address", "view_key"] .null with
  | error response =>
    exact ⟨fun _ request address viewKey none => (by cases none),
      fun _ _ => unchanged_of_noNewThread rfl (.refl world)⟩
  | ok request =>
    cases read : readCredentials backend request with
    | error what =>
      simp only [read]
      exact ⟨fun _ other address viewKey same none => (by cases same; cases read.symm.trans none),
        fun _ _ => unchanged_of_noNewThread rfl (.refl world)⟩
    | ok credentials =>
      obtain ⟨address, viewKey⟩ := credentials
      have only (condition : LeavesAlone backend address viewKey
          (fun acc => some (fromGenesis acc)) world) : ∀ other address viewKey,
          (Except.ok request : Except Json Json) = .ok other →
          readCredentials backend other = .ok (address, viewKey) →
          LeavesAlone backend address viewKey (fun acc => some (fromGenesis acc)) world := by
        intro other address' viewKey' same again
        cases same
        cases read.symm.trans again
        exact condition
      refine Iff.trans ?_ ⟨only, fun all => all request address viewKey rfl read⟩
      simp only [read, Handler.bind_apply, free, if_true]
      cases found : (selectAccount backend address viewKey true world).1 with
      | none =>
        refine refused_unchanged_iff (sessionCloseError_isError _ _) fun acc some => ?_
        cases found.symm.trans some
      | some acc =>
        exact @applyImport_unchanged_iff backend address viewKey
          (fun acc => some (fromGenesis acc)) world acc (fromGenesis acc) valid found rfl rfl rfl
          _ _ _ _

/-- Looking for the account and importing its last blocks. -/
theorem recentImport_unchanged_iff {backend : Backend} {address viewKey : String} {world : World}
    (valid : world.db.Valid) (response : Json) (requested : Nat) :
    let handler : Handler Answer := do
      match ← selectAccount backend address viewKey true with
      | none => pure (sessionCloseError response "The account login or creation failed!")
      | some acc => recentImport backend address requested acc response
    ((handler world).1.isError → Unchanged world (handler world).2) ↔
      LeavesAlone backend address viewKey (recentUpdate backend requested) world := by
  simp only [Handler.bind_apply]
  cases found : (selectAccount backend address viewKey true world).1 with
  | none =>
    refine refused_unchanged_iff (sessionCloseError_isError _ _) fun acc some => ?_
    cases found.symm.trans some
  | some acc =>
    unfold recentImport
    by_cases few : acc.scannedBlockHeight < noBlocksToImport backend requested
    · simp only [few, if_true]
      refine refused_unchanged_iff (sessionCloseError_isError _ _) fun other some => ?_
      cases found.symm.trans some
      exact if_pos few
    · simp only [few, if_false]
      exact @applyImport_unchanged_iff backend address viewKey (recentUpdate backend requested)
        world acc (fromRecent backend (noBlocksToImport backend requested) acc) valid found
        (if_neg few) rfl rfl _ _ _ _

theorem importRecentWalletRequest_unchanged_iff (backend : Backend) (body : Option Json)
    (world : World) (valid : world.db.Valid) :
    ((importRecentWalletRequest backend body world).1.isError →
        Unchanged world (importRecentWalletRequest backend body world).2) ↔
      RecentLeavesAlone backend body world := by
  have same : Unchanged world world := unchanged_of_noNewThread rfl (.refl world)
  unfold importRecentWalletRequest RecentLeavesAlone
  cases parsed : parseRequest body ["address", "view_key", "no_blocks_to_import"]
      (.obj [("request_fulfilled", .bool false)]) with
  | error response =>
    exact ⟨fun _ request address viewKey text requested none => (by cases none),
      fun _ _ => same⟩
  | ok request =>
    cases read : readCredentials backend request with
    | error what =>
      simp only [read]
      exact ⟨fun _ other address viewKey text requested sameRequest again =>
        (by cases sameRequest; cases read.symm.trans again), fun _ _ => same⟩
    | ok credentials =>
      obtain ⟨address, viewKey⟩ := credentials
      simp only [read]
      cases string : (request.read "no_blocks_to_import").asString? with
      | none =>
        exact ⟨fun _ other address viewKey text requested sameRequest _ again =>
          (by cases sameRequest; cases string.symm.trans again), fun _ _ => same⟩
      | some text =>
        cases number : backend.lexicalCast text with
        | none =>
          simp only [number]
          exact ⟨fun _ other address viewKey other' requested sameRequest _ sameText again =>
            (by cases sameRequest; cases string.symm.trans sameText; cases number.symm.trans again),
            fun _ _ => same⟩
        | some requested =>
          simp only [number]
          have only : (∀ other address' viewKey' text' requested',
              (Except.ok request : Except Json Json) = .ok other →
              readCredentials backend other = .ok (address', viewKey') →
              (other.read "no_blocks_to_import").asString? = some text' →
              backend.lexicalCast text' = some requested' →
              LeavesAlone backend address' viewKey' (recentUpdate backend requested') world) ↔
              LeavesAlone backend address viewKey (recentUpdate backend requested) world := by
            refine ⟨fun all => all request address viewKey text requested rfl read string number,
              fun condition other address' viewKey' text' requested' sameRequest sameRead sameText
                sameNumber => ?_⟩
            cases sameRequest
            cases read.symm.trans sameRead
            cases string.symm.trans sameText
            cases number.symm.trans sameNumber
            exact condition
          rw [only]
          exact recentImport_unchanged_iff valid _ requested

/-- A failed import changes nothing exactly if the update of the account's row is followed by two
accesses that find the search thread, or else nothing was created on the way. -/
theorem failedImports_unchanged_iff (backend : Backend) (body : Option Json) (world : World)
    (valid : world.db.Valid) :
    (backend.importFee = 0 →
      (((importWalletRequest backend body world).1.isError →
          Unchanged world (importWalletRequest backend body world).2) ↔
        FreeLeavesAlone backend body world)) ∧
      (((importRecentWalletRequest backend body world).1.isError →
          Unchanged world (importRecentWalletRequest backend body world).2) ↔
        RecentLeavesAlone backend body world) :=
  ⟨importWalletRequest_unchanged_iff backend body world valid,
    importRecentWalletRequest_unchanged_iff backend body world valid⟩

/-! ### An import without a search thread -/

/-- A chain of height nine, without a fee. Every number reads as two. -/
def freely : Backend :=
  { Backend.empty with
    status := { currentHeight := 9 }
    lexicalCast := fun _ => some 2 }

/-- The body of both imports. -/
def importing : Json :=
  .obj [("address", .str "4ApA"), ("view_key", .str "c0de"), ("no_blocks_to_import", .str "2")]

/-- The account is known, and its search thread has ended. -/
def threadless : World where
  db :=
    { accounts := [{ id := 1, address := "4ApA", viewkeyHash := "c0de", scannedBlockHeight := 8 }]
      nextAccount := 2 }

/-- The exact condition, on a world in which both imports fail. -/
theorem failedImports_unchanged_iff_threadless :
    (freely.importFee = 0 →
      (((importWalletRequest freely (some importing) threadless).1.isError →
          Unchanged threadless (importWalletRequest freely (some importing) threadless).2) ↔
        FreeLeavesAlone freely (some importing) threadless)) ∧
      (((importRecentWalletRequest freely (some importing) threadless).1.isError →
          Unchanged threadless (importRecentWalletRequest freely (some importing) threadless).2) ↔
        RecentLeavesAlone freely (some importing) threadless) :=
  failedImports_unchanged_iff freely (some importing) threadless (by decide)

/-- Without a search thread both imports answer with an error, and both have changed the row. -/
theorem failedImports_change :
    ((importWalletRequest freely (some importing) threadless).1.isError ∧
        ¬ Unchanged threadless (importWalletRequest freely (some importing) threadless).2) ∧
      (importRecentWalletRequest freely (some importing) threadless).1.isError ∧
        ¬ Unchanged threadless
          (importRecentWalletRequest freely (some importing) threadless).2 := by
  have free : (importWalletRequest freely (some importing) threadless).2.db.selectAccount "4ApA" ≠
      threadless.db.selectAccount "4ApA" := by decide +kernel
  have recent : (importRecentWalletRequest freely (some importing)
      threadless).2.db.selectAccount "4ApA" ≠ threadless.db.selectAccount "4ApA" := by
    decide +kernel
  exact ⟨⟨sessionCloseError_isError _ _, fun same => free (same "4ApA").1⟩,
    sessionCloseError_isError _ _, fun same => recent (same "4ApA").1⟩

end LightWallet
