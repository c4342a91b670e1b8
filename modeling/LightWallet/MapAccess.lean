/-
This file settles whether a search thread that was found in the map is still there
when it is used.

Every function that looks a thread up holds a mutex from the check to the end of the
use, and a block under a mutex excludes the other blocks under the same mutex only.
All of them take the mutex of the map, as the function that erases threads does, but
for the search in the mempool, which takes the mutex of the mempool.
-/

import LightWallet.Runs
import LightWallet.Tables

namespace LightWallet.MapAccess

/-! ### Blocks under a mutex -/

/-- The two mutexes that the functions lock. -/
inductive Mutex where
  | searchingThreadsMapMtx
  | gettingMempoolTxs
  deriving DecidableEq, Repr

/-- The functions that use the map; a cleaning erases the threads that have finished. -/
inductive Operation where
  | startTxSearchThread
  | pingSearchThread
  | getSearchedBlkNo
  | getKnownOutputsKeys
  | searchThreadExist
  | getXmrAddressViewkey
  | findTxsInMempool
  | setNewSearchedBlkNo
  | updateAcc
  | cleanSearchThreadMap (finished : List String)
  deriving DecidableEq, Repr

/-- The mutex that the function locks. -/
def Operation.mutex : Operation → Mutex
  | .findTxsInMempool => .gettingMempoolTxs
  | _ => .searchingThreadsMapMtx

/-- A call that holds its mutex. `found` is what its check has answered. -/
structure Call where
  id : Nat
  operation : Operation
  address : String := ""
  found : Option Bool := none
  deriving DecidableEq, Repr

/-- The mutex that the call holds. -/
def Call.mutex (call : Call) : Mutex := call.operation.mutex

/-- `threw` says whether `get_search_thread` has thrown. -/
structure State where
  searchingThreads : List String := []
  calls : List Call := []
  threw : Bool := false
  deriving DecidableEq, Repr

/-- The parts of a call: it locks its mutex, checks, uses the map, and unlocks. -/
inductive Event where
  | lock (id : Nat) (operation : Operation) (address : String)
  | check (id : Nat)
  | use (id : Nat)
  | unlock (id : Nat)
  deriving DecidableEq, Repr

namespace State

/-- The existence check at the start of a block; a cleaning goes through the map itself. -/
def check (state : State) (call : Call) : Call :=
  match call.operation with
  | .cleanSearchThreadMap _ => call
  | _ => { call with found := some (call.address ∈ state.searchingThreads) }

/-- The rest of a block: `get_search_thread` throws when the thread is not in the map. -/
def perform (state : State) (call : Call) : State :=
  match call.operation with
  | .cleanSearchThreadMap finished =>
    { state with searchingThreads := state.searchingThreads.filter (· ∉ finished) }
  | .startTxSearchThread =>
    if call.found = some true then state
    else { state with searchingThreads := state.searchingThreads ++ [call.address] }
  | _ =>
    if call.found = some true ∧ call.address ∉ state.searchingThreads then
      { state with threw := true }
    else state

/-- The call goes on to its end. -/
def use (state : State) (id : Nat) : State :=
  match state.calls.find? (·.id = id) with
  | none => state
  | some call => state.perform call

/-- The mutex is free. -/
def Free (state : State) (mutex : Mutex) : Prop := ∀ call ∈ state.calls, call.mutex ≠ mutex

instance (state : State) (mutex : Mutex) : Decidable (state.Free mutex) :=
  inferInstanceAs (Decidable (∀ call ∈ _, _ ≠ _))

end State

/-- A call that finds its mutex locked waits: nothing happens yet. -/
def step (state : State) : Event → State
  | .lock id operation address =>
    if state.Free operation.mutex then
      { state with calls := state.calls ++ [{ id, operation, address }] }
    else state
  | .check id =>
    { state with
      calls := state.calls.map fun call => if call.id = id then state.check call else call }
  | .use id => state.use id
  | .unlock id => { state with calls := state.calls.filter (·.id ≠ id) }

/-! ### Safety -/

/-- A thread that a call has found is in the map, and nothing has thrown. -/
structure Safe (state : State) : Prop where
  present : ∀ call ∈ state.calls, call.found = some true → call.address ∈ state.searchingThreads
  silent : state.threw = false

/-- If the call is a cleaning, it erases no thread that a search in the mempool has found. -/
def LeavesToMempool (state : State) (call : Call) : Prop :=
  match call.operation with
  | .cleanSearchThreadMap finished =>
    ∀ other ∈ state.calls, other.operation = .findTxsInMempool → other.found = some true →
      other.address ∉ finished
  | _ => True

instance (state : State) (call : Call) : Decidable (LeavesToMempool state call) := by
  unfold LeavesToMempool
  cases call.operation <;> infer_instance

/-- No cleaning erases a thread that a search in the mempool has found. -/
def Undisturbed (state : State) : Event → Prop
  | .use id => ∀ call ∈ state.calls.find? (·.id = id), LeavesToMempool state call
  | _ => True

instance (state : State) : ∀ event, Decidable (Undisturbed state event)
  | .use _ => inferInstanceAs (Decidable (∀ call ∈ _, LeavesToMempool _ call))
  | .lock _ _ _ => inferInstanceAs (Decidable True)
  | .check _ => inferInstanceAs (Decidable True)
  | .unlock _ => inferInstanceAs (Decidable True)

/-! ### Mutual exclusion -/

/-- At most one call holds a mutex, and a cleaning checks nothing. -/
structure Exclusive (state : State) : Prop where
  mutexes : Tables.Unique Call.mutex state.calls
  cleanings : ∀ call ∈ state.calls, ∀ finished,
    call.operation = .cleanSearchThreadMap finished → call.found = none

theorem check_operation (state : State) (call : Call) :
    (state.check call).operation = call.operation := by
  unfold State.check
  split <;> rfl

theorem check_address (state : State) (call : Call) :
    (state.check call).address = call.address := by
  unfold State.check
  split <;> rfl

theorem perform_calls (state : State) (call : Call) : (state.perform call).calls = state.calls := by
  unfold State.perform
  split
  · rfl
  · split <;> rfl
  · split <;> rfl

theorem use_calls (state : State) (id : Nat) : (step state (.use id)).calls = state.calls := by
  show (state.use id).calls = _
  unfold State.use
  cases state.calls.find? (·.id = id) with
  | none => rfl
  | some call => exact perform_calls state call

theorem Exclusive.step {state : State} (exclusive : Exclusive state) (event : Event) :
    Exclusive (step state event) := by
  cases event with
  | lock id operation address =>
    show Exclusive (if state.Free operation.mutex then _ else _)
    split
    · next free =>
      refine ⟨exclusive.mutexes.append_one free, fun call member finished cleans => ?_⟩
      rcases List.mem_append.mp member with old | new
      · exact exclusive.cleanings call old finished cleans
      · rw [List.mem_singleton.mp new]
    · exact exclusive
  | check id =>
    refine ⟨exclusive.mutexes.map fun call => ?_, fun call member finished cleans => ?_⟩
    · split
      · exact congrArg Operation.mutex (check_operation state call)
      · rfl
    · obtain ⟨before, inCalls, rfl⟩ := List.mem_map.mp member
      split at cleans
      · next here =>
        rw [if_pos here]
        rw [check_operation] at cleans
        unfold State.check
        rw [cleans]
        exact exclusive.cleanings before inCalls finished cleans
      · next elsewhere =>
        rw [if_neg elsewhere]
        exact exclusive.cleanings before inCalls finished cleans
  | use id =>
    have same := use_calls state id
    exact ⟨same ▸ exclusive.mutexes, same ▸ exclusive.cleanings⟩
  | unlock id =>
    exact ⟨exclusive.mutexes.filter _, fun call member finished =>
      exclusive.cleanings call (List.mem_filter.mp member).1 finished⟩

/-- While a cleaning runs, the only other call that can have found a thread is a search in the
mempool. -/
theorem Exclusive.findTxsInMempool {state : State} (exclusive : Exclusive state)
    {call other : Call} {finished : List String} (member : call ∈ state.calls)
    (cleans : call.operation = .cleanSearchThreadMap finished) (memberOther : other ∈ state.calls)
    (found : other.found = some true) : other.operation = .findTxsInMempool := by
  have mutex : call.mutex = .searchingThreadsMapMtx := congrArg Operation.mutex cleans
  by_contra differs
  have same : other.mutex = .searchingThreadsMapMtx := by
    unfold Call.mutex
    cases operation : other.operation with
    | findTxsInMempool => exact absurd operation differs
    | _ => rfl
  obtain rfl := exclusive.mutexes.eq_of_key memberOther member (same.trans mutex.symm)
  rw [exclusive.cleanings other memberOther finished cleans] at found
  cases found

/-! ### Runs -/

theorem perform_safe {state : State} (safe : Safe state) (exclusive : Exclusive state)
    {call : Call} (member : call ∈ state.calls) (undisturbed : LeavesToMempool state call) :
    Safe (state.perform call) := by
  unfold State.perform
  split
  · next finished cleans =>
    refine ⟨fun other memberOther found => ?_, safe.silent⟩
    have mempool := exclusive.findTxsInMempool member cleans memberOther found
    unfold LeavesToMempool at undisturbed
    rw [cleans] at undisturbed
    have kept := undisturbed other memberOther mempool found
    exact List.mem_filter.mpr ⟨safe.present other memberOther found, decide_eq_true kept⟩
  · split
    · exact safe
    · exact ⟨fun other memberOther found =>
        List.mem_append_left _ (safe.present other memberOther found), safe.silent⟩
  · split
    · next gone => exact absurd (safe.present call member gone.1) gone.2
    · exact safe

theorem safe_step {state : State} {event : Event} (kept : Exclusive state ∧ Safe state)
    (undisturbed : Undisturbed state event) :
    Exclusive (step state event) ∧ Safe (step state event) := by
  obtain ⟨exclusive, safe⟩ := kept
  refine ⟨exclusive.step event, ?_⟩
  cases event with
  | lock id operation address =>
    show Safe (if state.Free operation.mutex then _ else _)
    split
    · refine ⟨fun call member found => ?_, safe.silent⟩
      rcases List.mem_append.mp member with old | new
      · exact safe.present call old found
      · rw [List.mem_singleton.mp new] at found
        cases found
    · exact safe
  | check id =>
    refine ⟨fun call member found => ?_, safe.silent⟩
    obtain ⟨before, inCalls, rfl⟩ := List.mem_map.mp member
    split at found
    · next here =>
      rw [if_pos here, check_address]
      unfold State.check at found
      split at found
      · exact safe.present before inCalls found
      · exact of_decide_eq_true (Option.some.inj found)
    · next elsewhere =>
      rw [if_neg elsewhere]
      exact safe.present before inCalls found
  | use id =>
    show Safe (state.use id)
    unfold State.use
    cases found : state.calls.find? (·.id = id) with
    | none => exact safe
    | some call =>
      exact perform_safe safe exclusive (List.mem_of_find?_eq_some found)
        (undisturbed call found)
  | unlock id =>
    exact ⟨fun call member => safe.present call (List.mem_filter.mp member).1, safe.silent⟩

/-- In every run in which no cleaning erases a thread that a search in the mempool has found, every
thread that was found is in the map until its use ends, and nothing throws. -/
theorem access_safe (events : List Event) (undisturbed : Runs.Along step Undisturbed {} events) :
    Safe (Runs.run step {} events) :=
  (Runs.run_invariant step Undisturbed (fun state => Exclusive state ∧ Safe state)
    (fun _ _ kept undisturbedStep => safe_step kept undisturbedStep) events {}
    ⟨⟨Tables.unique_nil _, fun _ member => absurd member List.not_mem_nil⟩,
      ⟨fun _ member => absurd member List.not_mem_nil, rfl⟩⟩ undisturbed).2

/-! ### A search in the mempool, and a cleaning -/

/-- The thread of an address is started. -/
def started (address : String) : List Event :=
  [.lock 0 .startTxSearchThread address, .check 0, .use 0, .unlock 0]

/-- A cleaning waits for a request that has found a thread under the mutex of the map, and erases it
after that. It goes on while a search in the mempool has found the thread of another address, which
the next cleaning erases. -/
def twoCleanings : List Event :=
  started "4ApA" ++ started "9BqB" ++
    [.lock 1 .getSearchedBlkNo "9BqB", .check 1,
      .lock 2 (.cleanSearchThreadMap ["9BqB"]) "", .use 2, .use 1, .unlock 1,
      .lock 3 .findTxsInMempool "4ApA", .check 3,
      .lock 4 (.cleanSearchThreadMap ["9BqB"]) "", .use 4, .unlock 4, .use 3, .unlock 3,
      .lock 5 (.cleanSearchThreadMap ["4ApA"]) "", .use 5, .unlock 5]

theorem access_safe_waiting :
    Safe (Runs.run step {} twoCleanings) ∧
      (Runs.run step {} twoCleanings).searchingThreads = [] :=
  ⟨access_safe twoCleanings (by decide +kernel), by decide +kernel⟩

/-- A cleaning goes on while a search in the mempool is between its check and its use. -/
theorem access_unsafe :
    (Runs.run step {}
      (started "4ApA" ++ [.lock 1 .findTxsInMempool "4ApA", .check 1,
        .lock 2 (.cleanSearchThreadMap ["4ApA"]) "", .use 2, .use 1])).threw = true ∧
    ¬ Safe (Runs.run step {}
      (started "4ApA" ++ [.lock 1 .findTxsInMempool "4ApA", .check 1,
        .lock 2 (.cleanSearchThreadMap ["4ApA"]) "", .use 2, .use 1])) := by
  have threw : (Runs.run step {}
      (started "4ApA" ++ [.lock 1 .findTxsInMempool "4ApA", .check 1,
        .lock 2 (.cleanSearchThreadMap ["4ApA"]) "", .use 2, .use 1])).threw = true := by
    decide +kernel
  exact ⟨threw, fun safe => absurd (threw.symm.trans safe.silent) (by decide)⟩

end LightWallet.MapAccess
