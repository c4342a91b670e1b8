/-
This file settles whether a free import may be repeated.

The import resets the row of the account, and takes the number of rows that the statement has
changed as the sign of success. An account that is reset already, because it was created so or
because the request is a repetition, has no row to change: the request reports a failure, and
neither the search position nor the thread's copy is set.
-/

import LightWallet.Check
import LightWallet.Imports
import LightWallet.Lookups
import LightWallet.Runs

namespace LightWallet.FreeImports

/-! ### Calls and windows -/

/-- A request, or the end of a window of the account's search thread. -/
inductive Event where
  | call
  | window (h2 blockTimestamp : Nat)
  deriving DecidableEq, Repr

section Run

variable (backend : Backend) (address : String) (body : Option Json)

/-- The end of a window, when the search thread is there. -/
def endWindow (h2 blockTimestamp : Nat) (world : World) : World :=
  match world.thread? address with
  | none => world
  | some thread =>
    (world.on (thread.endOfWindow true h2 blockTimestamp world.db).1).putThread address
      (thread.endOfWindow true h2 blockTimestamp world.db).2

/-- What an event does to the tables and the search thread. -/
def step (world : World) : Event → World
  | .call => (importWalletRequest backend body world).2
  | .window h2 blockTimestamp => endWindow address h2 blockTimestamp world

/-! ### The property -/

/-- The session is closed with the code of a success, and says that the request is fulfilled. -/
def Succeeds (answer : Answer) : Prop :=
  ∃ response, answer = .closed codeOk response ∧
    response.get? "request_fulfilled" = some (.bool true)

/-- The row, the thread's copy and the search position are those of an import of the account that
was there before. -/
def Imported (before after : World) : Prop :=
  ∃ row thread, before.db.selectAccount address = some row ∧
    after.db.selectAccount address = some (fromGenesis row) ∧
    after.thread? address = some thread ∧ thread.acc = fromGenesis row ∧ thread.searchedBlkNo = 0

/-- The request succeeds and imports the account. -/
def CallRight (world : World) (event : Event) : Prop :=
  event = .call →
    Succeeds (importWalletRequest backend body world).1 ∧
      Imported address world (importWalletRequest backend body world).2

/-- When the request comes, the row is not reset yet. -/
def RowDiffers (world : World) (event : Event) : Prop :=
  event = .call →
    ∀ row, world.db.selectAccount address = some row →
      ¬ (row.scannedBlockHeight = 0 ∧ row.startHeight = 0)

end Run

/-! ### Worlds in which the account has a live search thread -/

/-- The row and the thread's copy are of the account that the view key belongs to. View keys are
not stored. -/
structure Belongs (backend : Backend) (address viewKey : String) (row : XmrAccount)
    (thread : SearchThread) : Prop where
  named : row.address = address
  viewkey : backend.makeHash viewKey = row.viewkeyHash
  stored : row.viewkey = ""
  id : thread.acc.id = row.id
  sameAddress : thread.acc.address = row.address
  sameHash : thread.acc.viewkeyHash = row.viewkeyHash

/-- No statement throws, the monitor leaves the threads alone, and the account has a live search
thread. -/
structure Live (backend : Backend) (address viewKey : String) (world : World) : Prop where
  quiet : world.Quiet
  uncleaned : world.cleaned = []
  valid : world.db.Valid
  account : ∃ row thread, row ∈ world.db.accounts ∧ world.thread? address = some thread ∧
    Belongs backend address viewKey row thread

/-- The request asks for this account, with this view key. -/
def Asks (backend : Backend) (body : Option Json) (address viewKey : String) : Prop :=
  ∃ request, parseRequest body ["address", "view_key"] .null = .ok request ∧
    readCredentials backend request = .ok (address, viewKey)

section Live

variable {backend : Backend} {address viewKey : String} {body : Option Json} {world : World}

theorem thread?_on (db : Database) : (world.on db).thread? address = world.thread? address := rfl

/-- The request reads the account. -/
theorem selectAccount_live (quiet : world.Quiet) (valid : world.db.Valid) {row : XmrAccount}
    (member : row ∈ world.db.accounts) (named : row.address = address)
    (viewkey : backend.makeHash viewKey = row.viewkeyHash) :
    selectAccount backend address viewKey true world = (some row, world) := by
  have read := selectAccountRow_runs address quiet.runs
  rw [selectAccount_of_mem valid member named] at read
  rw [selectAccount_reads backend viewKey true (congrArg Prod.fst read), quiet.next]
  exact congrArg (·, world) (if_pos viewkey)

theorem importWalletRequest_eq (asks : Asks backend body address viewKey)
    (free : backend.importFee = 0) (live : Live backend address viewKey world)
    {row : XmrAccount} (member : row ∈ world.db.accounts) (named : row.address = address)
    (viewkey : backend.makeHash viewKey = row.viewkeyHash) :
    importWalletRequest backend body world =
      freeImport address row (importResponse backend) world := by
  obtain ⟨request, parsed, credentials⟩ := asks
  unfold importWalletRequest
  rw [parsed]
  dsimp only
  rw [credentials]
  dsimp only
  rw [Handler.bind_apply, selectAccount_live live.quiet live.valid member named viewkey]
  dsimp only
  rw [if_pos free]

/-- The world after a free import that has changed the row. -/
def importedWorld (address : String) (row : XmrAccount) (thread : SearchThread) (world : World) :
    World :=
  { ((world.on (world.db.updateAccount row (fromGenesis row)).2).putThread address
      ((thread.setSearchedBlkNo 0).updateAcc (fromGenesis row))) with
    moved := (address, 0) :: world.moved }

theorem putThread_putThread (world : World) (address : String) (first second : SearchThread) :
    (world.putThread address first).putThread address second = world.putThread address second := by
  unfold World.putThread
  congr 1
  rw [List.map_map]
  refine List.map_congr_left fun entry _ => ?_
  by_cases here : entry.1 = address
  · simp [here]
  · simp [here]

/-- The response to an import that has been applied. -/
def started (backend : Backend) : Json :=
  ((((importResponse backend).set "request_fulfilled" (.bool true)).set "status"
    (.str "Import will start shortly")).set "new_request" (.bool true)).set "error" (.str "")

theorem succeeds_started (backend : Backend) : Succeeds (sessionClose (started backend)) :=
  ⟨started backend, rfl, by simp [started]⟩

theorem not_succeeds_error (response : Json) (message : String) :
    ¬ Succeeds (sessionCloseError response message) := by
  rintro ⟨other, same, -⟩
  exact absurd (Answer.closed.inj same).1 (by decide)

/-- A free import that has a row to change. -/
theorem freeImport_differs (live : Live backend address viewKey world) {row : XmrAccount}
    {thread : SearchThread} (member : row ∈ world.db.accounts)
    (found : world.thread? address = some thread)
    (differs : row ≠ { fromGenesis row with viewkey := "" }) :
    freeImport address row (importResponse backend) world =
      (sessionClose (started backend), importedWorld address row thread world) := by
  have count := Database.updateAccount_count_eq_one live.valid member rfl differs
  have updates : updateAccount row (fromGenesis row) world =
      (true, world.on (world.db.updateAccount row (fromGenesis row)).2) := by
    rw [updateAccount_runs row _ live.quiet.runs, live.quiet.next, count]
    rfl
  let written := world.on (world.db.updateAccount row (fromGenesis row)).2
  have moves : setNewSearchedBlkNo address 0 written = (true,
      { written.putThread address (thread.setSearchedBlkNo 0) with
        moved := (address, 0) :: world.moved }) := by
    have liveThread : written.thread? address = some thread := found
    have uncleaned : written.cleaned = [] := live.uncleaned
    rw [setNewSearchedBlkNo_live 0 liveThread, visited_of_uncleaned uncleaned]
  let placed : World := { written.putThread address (thread.setSearchedBlkNo 0) with
    moved := (address, 0) :: world.moved }
  have stillThere : placed.thread? address = some (thread.setSearchedBlkNo 0) := by
    show (written.putThread address (thread.setSearchedBlkNo 0)).thread? address = _
    rw [putThread_thread?, show written.thread? address = some thread from found]
    rfl
  have copies : updateAcc address (fromGenesis row) placed =
      (true, importedWorld address row thread world) := by
    have uncleaned : placed.cleaned = [] := live.uncleaned
    rw [updateAcc_live _ stillThere, visited_of_uncleaned uncleaned]
    exact congrArg
      (fun after : World => (true, { after with moved := (address, 0) :: world.moved }))
      (putThread_putThread written address _ _)
  unfold freeImport applyImport
  rw [Handler.bind_apply, updates]
  dsimp only
  rw [if_pos rfl, Handler.bind_apply, show (fromGenesis row).scannedBlockHeight = 0 from rfl, moves]
  dsimp only
  rw [if_pos rfl, Handler.bind_apply, copies]
  rfl

/-- A free import that has none. -/
theorem freeImport_reset (live : Live backend address viewKey world) {row : XmrAccount}
    (member : row ∈ world.db.accounts) (same : row = { fromGenesis row with viewkey := "" }) :
    freeImport address row (importResponse backend) world =
      (sessionCloseError (importResponse backend) "Updating scanned_block_height failed!",
        world) := by
  have count : (world.db.updateAccount row (fromGenesis row)).1 = 0 := by
    refine List.length_eq_zero_iff.mpr (List.filter_eq_nil_iff.mpr fun other inRows changed => ?_)
    obtain ⟨id, differs⟩ := of_decide_eq_true changed
    exact differs ((live.valid.accountIds.eq_of_key inRows member id).trans same)
  have updates : updateAccount row (fromGenesis row) world = (false, world) := by
    rw [updateAccount_runs row _ live.quiet.runs, live.quiet.next, count,
      Database.updateAccount_eq_of_count_eq_zero count]
    rfl
  unfold freeImport applyImport
  rw [Handler.bind_apply, updates]
  rfl

theorem fromGenesis_eq_iff {row : XmrAccount} (stored : row.viewkey = "") :
    row = { fromGenesis row with viewkey := "" } ↔
      row.scannedBlockHeight = 0 ∧ row.startHeight = 0 := by
  constructor
  · intro same
    exact ⟨congrArg XmrAccount.scannedBlockHeight same, congrArg XmrAccount.startHeight same⟩
  · rintro ⟨scanned, begins⟩
    cases row
    cases stored
    cases scanned
    cases begins
    rfl

theorem importedWorld_selectAccount (live : Live backend address viewKey world) {row : XmrAccount}
    {thread : SearchThread} (member : row ∈ world.db.accounts) (named : row.address = address)
    (stored : row.viewkey = "") :
    (importedWorld address row thread world).db.selectAccount address = some (fromGenesis row) := by
  have same : ({ fromGenesis row with viewkey := "" } : XmrAccount) = fromGenesis row := by
    rw [← stored]
    rfl
  have valid : (world.db.updateAccount row (fromGenesis row)).2.Valid :=
    live.valid.updateAccount member rfl rfl rfl
  have inRows : fromGenesis row ∈ (world.db.updateAccount row (fromGenesis row)).2.accounts :=
    List.mem_map.mpr ⟨row, member, (if_pos rfl).trans same⟩
  exact selectAccount_of_mem valid inRows named

theorem importedWorld_thread? {row : XmrAccount} {thread : SearchThread}
    (found : world.thread? address = some thread) :
    (importedWorld address row thread world).thread? address =
      some ((thread.setSearchedBlkNo 0).updateAcc (fromGenesis row)) := by
  show ((world.on _).putThread address _).thread? address = _
  rw [putThread_thread?, thread?_on, found]
  rfl

theorem fromGenesis_belongs {row : XmrAccount} {thread : SearchThread}
    (belongs : Belongs backend address viewKey row thread) :
    Belongs backend address viewKey (fromGenesis row)
      ((thread.setSearchedBlkNo 0).updateAcc (fromGenesis row)) :=
  ⟨belongs.named, belongs.viewkey, belongs.stored, rfl, rfl, rfl⟩

theorem importedWorld_live (live : Live backend address viewKey world) {row : XmrAccount}
    {thread : SearchThread} (member : row ∈ world.db.accounts)
    (found : world.thread? address = some thread)
    (belongs : Belongs backend address viewKey row thread) :
    Live backend address viewKey (importedWorld address row thread world) where
  quiet := live.quiet
  uncleaned := live.uncleaned
  valid := live.valid.updateAccount member rfl rfl rfl
  account := ⟨fromGenesis row, _,
    (selectAccount_mem (importedWorld_selectAccount live member belongs.named belongs.stored)).1,
    importedWorld_thread? found, fromGenesis_belongs belongs⟩

/-- A request succeeds and imports the account exactly when its row is not reset yet, and the
account stays live. -/
theorem call_right_iff (asks : Asks backend body address viewKey) (free : backend.importFee = 0)
    (live : Live backend address viewKey world) :
    Live backend address viewKey (importWalletRequest backend body world).2 ∧
      (CallRight backend address body world .call ↔ RowDiffers address world .call) := by
  obtain ⟨row, thread, member, found, belongs⟩ := live.account
  have request := importWalletRequest_eq asks free live member belongs.named belongs.viewkey
  have selected := selectAccount_of_mem live.valid member belongs.named
  have differsIff : RowDiffers address world .call ↔
      ¬ (row.scannedBlockHeight = 0 ∧ row.startHeight = 0) := by
    refine ⟨fun differs => differs rfl row selected, fun differs _ other others => ?_⟩
    obtain rfl := Option.some.inj (selected.symm.trans others)
    exact differs
  rw [differsIff, ← fromGenesis_eq_iff belongs.stored]
  unfold CallRight
  rw [request]
  by_cases same : row = { fromGenesis row with viewkey := "" }
  · rw [freeImport_reset live member same]
    refine ⟨live, iff_of_false (fun right => ?_) fun differs => differs same⟩
    exact not_succeeds_error _ _ (right rfl).1
  · rw [freeImport_differs live member found same]
    refine ⟨importedWorld_live live member found belongs, iff_of_true (fun _ => ?_) same⟩
    exact ⟨succeeds_started backend, row, _, selected,
      importedWorld_selectAccount live member belongs.named belongs.stored,
      importedWorld_thread? found, rfl, rfl⟩

/-- The end of a window keeps the account live. -/
theorem endWindow_live (live : Live backend address viewKey world) (h2 blockTimestamp : Nat) :
    Live backend address viewKey (endWindow address h2 blockTimestamp world) := by
  obtain ⟨row, thread, member, found, belongs⟩ := live.account
  let written := SearchThread.scannedTo thread.acc h2 blockTimestamp
  let after := (thread.endOfWindow true h2 blockTimestamp world.db).2
  have db : (thread.endOfWindow true h2 blockTimestamp world.db).1 =
      (world.db.updateAccount thread.acc written).2 := rfl
  have copied : after.acc = written ∨ after.acc = thread.acc := by
    have acc : after.acc = _ :=
      SearchThread.endOfWindow_acc true h2 blockTimestamp world.db thread
    rw [acc]
    split
    · exact .inl rfl
    · exact .inr rfl
  have afterBelongs : Belongs backend address viewKey { written with viewkey := "" } after := by
    refine ⟨belongs.sameAddress.trans belongs.named, belongs.viewkey.trans belongs.sameHash.symm,
      rfl, ?_, ?_, ?_⟩
    all_goals
      rcases copied with same | same
      all_goals rw [same]
      all_goals rfl
  unfold endWindow
  rw [found]
  refine ⟨live.quiet, live.uncleaned, ?_, { written with viewkey := "" }, after, ?_, ?_,
    afterBelongs⟩
  · show Database.Valid (thread.endOfWindow true h2 blockTimestamp world.db).1
    rw [db]
    exact live.valid.updateAccount member belongs.id.symm rfl belongs.sameAddress
  · show _ ∈ (thread.endOfWindow true h2 blockTimestamp world.db).1.accounts
    rw [db]
    exact List.mem_map.mpr ⟨row, member, if_pos belongs.id.symm⟩
  · show ((world.on _).putThread address _).thread? address = _
    rw [putThread_thread?, thread?_on, found]
    rfl

/-! ### Every run -/

theorem step_right_iff (asks : Asks backend body address viewKey) (free : backend.importFee = 0)
    (live : Live backend address viewKey world) (event : Event) :
    Live backend address viewKey (step backend address body world event) ∧
      (CallRight backend address body world event ↔ RowDiffers address world event) := by
  cases event with
  | call => exact call_right_iff asks free live
  | window h2 blockTimestamp =>
    refine ⟨endWindow_live live h2 blockTimestamp, iff_of_true (fun call => ?_) fun call => ?_⟩
    · cases call
    · cases call

/-- A request that has succeeded is not followed by another that does. -/
theorem not_right_after_right (asks : Asks backend body address viewKey)
    (free : backend.importFee = 0) (live : Live backend address viewKey world)
    (right : CallRight backend address body world .call) :
    ¬ CallRight backend address body (step backend address body world .call) .call := by
  obtain ⟨-, row, thread, -, selected, -⟩ := right rfl
  rw [(step_right_iff asks free (step_right_iff asks free live .call).1 .call).2]
  exact fun differs => differs rfl (fromGenesis row) selected ⟨rfl, rfl⟩

/-- In every run of requests and ends of windows, all requests succeed and import the account
exactly when each of them finds a row that is not reset yet. Requests that follow one another
directly do so only if there is no more than one. -/
theorem freeImports_right_iff (asks : Asks backend body address viewKey)
    (free : backend.importFee = 0) (live : Live backend address viewKey world)
    (events : List Event) :
    (Runs.Along (step backend address body) (CallRight backend address body) world events ↔
      Runs.Along (step backend address body) (RowDiffers address) world events) ∧
    ∀ calls, Runs.Along (step backend address body) (CallRight backend address body) world
        (List.replicate calls .call) ↔
      calls = 0 ∨ calls = 1 ∧ RowDiffers address world .call := by
  refine ⟨Runs.along_congr _ _ _ (Live backend address viewKey)
    (fun state event liveNow => step_right_iff asks free liveNow event) events world live,
    fun calls => ?_⟩
  have one := (step_right_iff asks free live .call).2
  rcases calls with _ | _ | more
  · exact iff_of_true trivial (.inl rfl)
  · show CallRight backend address body world .call ∧ True ↔ _
    rw [one]
    simp
  · refine iff_of_false (fun right => ?_) (by simp)
    exact not_right_after_right asks free live right.1 right.2.1

end Live

/-! ### An account that was just created -/

/-- A free import of an account under the address `a`, whose view key is its own hash. -/
def sampleBody : Option Json := some (.obj [("address", .str "a"), ("view_key", .str "v")])

/-- The row of the account, at the given heights. -/
def sampleAccount (scannedBlockHeight startHeight : Nat) : XmrAccount where
  id := 1
  address := "a"
  viewkeyHash := "v"
  scannedBlockHeight := scannedBlockHeight
  startHeight := startHeight

/-- The row of the account, and its thread, which waits. -/
def sampleWorld (row : XmrAccount) : World where
  db := { accounts := [row], nextAccount := 2 }
  searchingThreads := [("a", { acc := row, searchedBlkNo := row.scannedBlockHeight })]

theorem sampleWorld_live (scannedBlockHeight startHeight : Nat) :
    Live Backend.empty "a" "v" (sampleWorld (sampleAccount scannedBlockHeight startHeight)) where
  quiet := rfl
  uncleaned := rfl
  valid := by constructor <;> simp [sampleWorld, sampleAccount, Tables.Unique]
  account := ⟨sampleAccount scannedBlockHeight startHeight,
    { acc := sampleAccount scannedBlockHeight startHeight, searchedBlkNo := scannedBlockHeight },
    List.mem_singleton_self _, rfl, ⟨rfl, rfl, rfl, rfl, rfl, rfl⟩⟩

theorem sampleBody_asks : Asks Backend.empty sampleBody "a" "v" :=
  ⟨_, rfl, rfl⟩

/-- The account of a wallet that was generated elsewhere is created with both numbers zero: its
first request fails. -/
theorem not_freeImports_right :
    ¬ Runs.Along (step Backend.empty "a" sampleBody) (CallRight Backend.empty "a" sampleBody)
      (sampleWorld (sampleAccount 0 0)) [.call] := by
  rintro ⟨right, -⟩
  rw [(step_right_iff sampleBody_asks rfl (sampleWorld_live 0 0) .call).2] at right
  exact right rfl (sampleAccount 0 0) rfl ⟨rfl, rfl⟩

/-- Between these two requests a window ends. -/
theorem freeImports_right_iff_scanned :
    Runs.Along (step Backend.empty "a" sampleBody) (CallRight Backend.empty "a" sampleBody)
      (sampleWorld (sampleAccount 70 40)) [.call, .window 30 0, .call] := by
  have second : (step Backend.empty "a" sampleBody (step Backend.empty "a" sampleBody
      (sampleWorld (sampleAccount 70 40)) .call) (.window 30 0)).db.selectAccount "a" =
      some (sampleAccount 30 0) := by
    decide +kernel
  refine (freeImports_right_iff sampleBody_asks rfl (sampleWorld_live 70 40) _).1.mpr
    ⟨fun _ row selected => ?_, nofun, fun _ row selected => ?_, trivial⟩
  · rw [← Option.some.inj (show some (sampleAccount 70 40) = some row from selected)]
    decide
  · rw [← Option.some.inj (second.symm.trans selected)]
    decide

end LightWallet.FreeImports
