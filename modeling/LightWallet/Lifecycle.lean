/-
This file settles what the flag of a search thread says of its life.

The flag is false until the thread runs its first statement, it is cleared where
the loop ends and where an exception is caught, and it stays set when the loop is
left because the transactions of a window cannot be had. The monitor erases the
threads whose flag is false, and joins them; a login leaves a thread alone that is
in the map.
-/

import LightWallet.Runs

namespace LightWallet.Lifecycle

/-! ### Threads -/

/-- How `TxSearch::operator()` is left: the loop ends because the thread was stopped, it returns
because `get_txs_in_blocks` fails, or an exception is caught. -/
inductive Exit where
  | loopOver
  | getTxsInBlocksFailed
  | exceptionCaught
  deriving DecidableEq, Repr

/-- How far a thread has got. A thread that has left has at most a log line to write. -/
inductive Place where
  | created
  | searching
  | left (exit : Exit)
  deriving DecidableEq, Repr

/-- A search thread: how far it has got, and its two flags. -/
structure TxSearch where
  place : Place := .created
  continueSearch : Bool := true
  searchingIsOngoing : Bool := false
  deriving DecidableEq, Repr

namespace TxSearch

/-- `still_searching`. -/
def stillSearching (txSearch : TxSearch) : Bool := txSearch.searchingIsOngoing

/-- `operator()` has finished. -/
def Finished (txSearch : TxSearch) : Prop := ∃ exit, txSearch.place = .left exit

instance (txSearch : TxSearch) : Decidable txSearch.Finished :=
  match same : txSearch.place with
  | .created => isFalse fun ⟨exit, left⟩ => by rw [same] at left; cases left
  | .searching => isFalse fun ⟨exit, left⟩ => by rw [same] at left; cases left
  | .left exit => isTrue ⟨exit, same⟩

/-- The first statements of `operator()`. -/
def begin (txSearch : TxSearch) : TxSearch :=
  if txSearch.place = .created then
    { txSearch with place := .searching, searchingIsOngoing := true }
  else txSearch

/-- An exit is taken from the loop: it ends only when `continue_search` is cleared. -/
def leave (exit : Exit) (txSearch : TxSearch) : TxSearch :=
  if txSearch.place = .searching then
    match exit with
    | .loopOver =>
      if txSearch.continueSearch then txSearch
      else { txSearch with place := .left exit, searchingIsOngoing := false }
    | .getTxsInBlocksFailed => { txSearch with place := .left exit }
    | .exceptionCaught =>
      { txSearch with place := .left exit, searchingIsOngoing := false, continueSearch := false }
  else txSearch

/-- `stop`, by the thread itself or when the monitor ends. -/
def stop (txSearch : TxSearch) : TxSearch := { txSearch with continueSearch := false }

end TxSearch

/-! ### The map -/

/-- `joined` is not the code's: the threads that were erased, as the join has found them. -/
structure State where
  searchingThreads : List (String × TxSearch) := []
  joined : List TxSearch := []
  deriving DecidableEq, Repr

namespace State

/-- Change the thread of an address. -/
def change (state : State) (address : String) (run : TxSearch → TxSearch) : State :=
  { state with
    searchingThreads := state.searchingThreads.map fun entry =>
      if entry.1 = address then (entry.1, run entry.2) else entry }

/-- `start_tx_search_thread`, whose answer is true in both cases. -/
def startTxSearchThread (state : State) (address : String) : State :=
  if state.searchingThreads.any (·.1 = address) then state
  else { state with searchingThreads := state.searchingThreads ++ [(address, {})] }

/-- `clean_search_thread_map`: erasing a thread joins it. -/
def cleanSearchThreadMap (state : State) : State where
  searchingThreads := state.searchingThreads.filter (·.2.stillSearching)
  joined :=
    (state.searchingThreads.filter (¬ ·.2.stillSearching)).map (·.2) ++ state.joined

end State

/-- What can happen to the thread of an address, and the cleaning of the map. -/
inductive Event where
  | start (address : String)
  | begin (address : String)
  | stop (address : String)
  | leave (address : String) (exit : Exit)
  | clean
  deriving DecidableEq, Repr

/-- What an event does to the map and its threads. -/
def step (state : State) : Event → State
  | .start address => state.startTxSearchThread address
  | .begin address => state.change address TxSearch.begin
  | .stop address => state.change address TxSearch.stop
  | .leave address exit => state.change address (TxSearch.leave exit)
  | .clean => state.cleanSearchThreadMap

/-! ### What the flag should say -/

/-- The flag is false exactly for the threads that have finished; the monitor erases exactly
these, joins no other, and leaves none of them behind. Until it comes by, a login still finds a
thread that has finished. -/
structure FlagRight (state : State) : Prop where
  flag : ∀ entry ∈ state.searchingThreads, entry.2.stillSearching = false ↔ entry.2.Finished
  erases : state.cleanSearchThreadMap.searchingThreads =
    state.searchingThreads.filter (¬ ·.2.Finished)
  joins : state.cleanSearchThreadMap.joined =
    (state.searchingThreads.filter (·.2.Finished)).map (·.2) ++ state.joined

/-- Every thread of the map has begun, and none has returned out of the loop. -/
def BegunAndNotReturned (state : State) : Prop :=
  ∀ entry ∈ state.searchingThreads,
    entry.2.place ≠ .created ∧ entry.2.place ≠ .left .getTxsInBlocksFailed

instance (state : State) : Decidable (BegunAndNotReturned state) :=
  inferInstanceAs (Decidable (∀ entry ∈ _, _ ∧ _))

/-! ### What the flag says -/

/-- The flag is set while the thread searches, and stays set when it returns. -/
def FlagFollows (txSearch : TxSearch) : Prop :=
  txSearch.searchingIsOngoing = true ↔
    txSearch.place = .searching ∨ txSearch.place = .left .getTxsInBlocksFailed

theorem flagFollows_created : FlagFollows {} := by
  unfold FlagFollows
  decide

theorem FlagFollows.begin {txSearch : TxSearch} (follows : FlagFollows txSearch) :
    FlagFollows txSearch.begin := by
  unfold TxSearch.begin
  split
  · exact ⟨fun _ => .inl rfl, fun _ => rfl⟩
  · exact follows

theorem FlagFollows.leave {txSearch : TxSearch} (follows : FlagFollows txSearch) (exit : Exit) :
    FlagFollows (txSearch.leave exit) := by
  unfold TxSearch.leave
  split
  · next searching =>
    cases exit with
    | loopOver =>
      show FlagFollows (if txSearch.continueSearch = true then txSearch else _)
      split
      · exact follows
      · exact ⟨nofun, nofun⟩
    | getTxsInBlocksFailed => exact ⟨fun _ => .inr rfl, fun _ => follows.mpr (.inl searching)⟩
    | exceptionCaught => exact ⟨nofun, nofun⟩
  · exact follows

/-- The flag of every thread of the map follows. -/
def AllFollow (state : State) : Prop :=
  ∀ entry ∈ state.searchingThreads, FlagFollows entry.2

theorem AllFollow.change {state : State} (all : AllFollow state) (address : String)
    {run : TxSearch → TxSearch}
    (keeps : ∀ txSearch, FlagFollows txSearch → FlagFollows (run txSearch)) :
    AllFollow (state.change address run) := by
  intro entry member
  obtain ⟨before, inMap, rfl⟩ := List.mem_map.mp member
  split
  · exact keeps _ (all before inMap)
  · exact all before inMap

theorem allFollow_step {state : State} (all : AllFollow state) (event : Event) :
    AllFollow (step state event) := by
  cases event with
  | start address =>
    show AllFollow (state.startTxSearchThread address)
    unfold State.startTxSearchThread
    split
    · exact all
    · intro entry member
      rcases List.mem_append.mp member with old | new
      · exact all entry old
      · rw [List.mem_singleton.mp new]
        exact flagFollows_created
  | begin address => exact all.change address fun _ follows => follows.begin
  | stop address => exact all.change address fun _ follows => follows
  | leave address exit => exact all.change address fun _ follows => follows.leave exit
  | clean => exact fun entry member => all entry (List.mem_filter.mp member).1

/-- For a thread whose flag follows, the flag is right unless the thread has yet to begin, or has
returned. -/
theorem flag_right_iff {txSearch : TxSearch} (follows : FlagFollows txSearch) :
    (txSearch.stillSearching = false ↔ txSearch.Finished) ↔
      txSearch.place ≠ .created ∧ txSearch.place ≠ .left .getTxsInBlocksFailed := by
  have cleared : txSearch.stillSearching = false ↔ ¬ (txSearch.place = .searching ∨
      txSearch.place = .left .getTxsInBlocksFailed) :=
    Bool.eq_false_iff.trans (not_congr follows)
  rw [cleared]
  unfold TxSearch.Finished
  cases txSearch.place with
  | created => simp
  | searching => simp
  | left exit => cases exit <;> simp

/-- When the flags are right, so are the monitor's reading of them. -/
theorem flagRight_of_flag {state : State}
    (flag : ∀ entry ∈ state.searchingThreads,
      entry.2.stillSearching = false ↔ entry.2.Finished) : FlagRight state where
  flag := flag
  erases := by
    refine List.filter_congr fun entry member => ?_
    have right := flag entry member
    cases still : entry.2.stillSearching with
    | true => simp [← right, still]
    | false => simp [← right, still]
  joins := by
    refine congrArg (fun erased : List (String × TxSearch) => erased.map (·.2) ++ state.joined)
      (List.filter_congr fun entry member => ?_)
    have right := flag entry member
    cases still : entry.2.stillSearching with
    | true => simp [← right, still]
    | false => simp [← right, still]

/-- In every state that is reached, the flags are right exactly if every thread of the map has
begun and none has returned. -/
theorem flagRight_iff (events : List Event) :
    FlagRight (Runs.run step {} events) ↔ BegunAndNotReturned (Runs.run step {} events) := by
  have all : AllFollow (Runs.run step {} events) :=
    Runs.run_invariant_of_step step AllFollow (fun _ event all => allFollow_step all event) events
      {} fun entry member => absurd member List.not_mem_nil
  constructor
  · intro right entry member
    exact (flag_right_iff (all entry member)).mp (right.flag entry member)
  · intro begun
    exact flagRight_of_flag fun entry member =>
      (flag_right_iff (all entry member)).mpr (begun entry member)

/-! ### A thread that has not begun, and one that has returned -/

/-- What the monitor sees of a thread that has returned. -/
def returned : TxSearch := { place := .left .getTxsInBlocksFailed, searchingIsOngoing := true }

/-- Right after a login the flag is false and the monitor would join a thread that is about to
search; after an exit by `return` it is true, and the monitor never erases the thread. -/
theorem flag_wrong :
    ¬ FlagRight (Runs.run step {} [.start "4ApA"]) ∧
      ¬ FlagRight (Runs.run step {}
        [.start "4ApA", .begin "4ApA", .leave "4ApA" .getTxsInBlocksFailed]) := by
  refine ⟨fun right => ?_, fun right => ?_⟩
  · exact absurd (right.flag ("4ApA", {}) (by decide)) (by decide)
  · exact absurd (right.flag ("4ApA", returned) (by decide)) (by decide)

end LightWallet.Lifecycle
