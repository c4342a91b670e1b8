/-
This file settles whether a moved search position can be lost.

A request moves the position of a search thread with two stores: the new value
of `searched_blk_no`, then the flag `searched_block_got_updated`. The search
loop loads the position at the start of a window; at the end of an iteration it
tests the flag, stores the block after the window unless the flag is set, and
clears the flag. Each load and store is one step here, and the steps of any
number of calls interleave with those of the loop.

A value is lost when the loop finds the flag clear although a value was stored
since the window started, and when a value is stored between that test and the
store it guards. The file shows that nothing else loses one: where neither
happens, a stored value stays in place until a window starts from it, and the
loop gets there within five steps of its own.
-/

import LightWallet.Runs

namespace LightWallet.Rewind

/-! ### The loop and the calls -/

/-- Where the loop stands: before the load of the position, before the blocks of the window are
fetched and searched, and before the three steps at the end of the iteration. -/
inductive Place where
  | windowStart
  | window (h1 h2 : UInt64)
  | testFlag (h2 : UInt64)
  | storeNext (h2 : UInt64)
  | clearFlag
  | stopped
  deriving DecidableEq, Repr

/-- What becomes of a window: its blocks are found and searched; there are none, and the thread
may be past its life; or the loop is left by a `return` or an exception. -/
inductive Blocks where
  | found
  | missing (expired : Bool)
  | failed
  deriving DecidableEq, Repr

/-- The atomics and the place of the loop. `setting` are the calls between their two stores.
The last two fields are not the code's: the lower ends of the windows so far, the latest
first, and a value that was set and from which no window has started yet. -/
structure State where
  searchedBlkNo : UInt64
  searchedBlockGotUpdated : Bool := false
  continueSearch : Bool := true
  place : Place := .windowStart
  setting : List Nat := []
  windows : List UInt64 := []
  unread : Option UInt64 := none
  deriving DecidableEq, Repr

/-- A step of the loop, one of the two stores of a call, or a stop. -/
inductive Event where
  | loop (lastBlockHeight : UInt64) (blocks : Blocks)
  | storeValue (call : Nat) (value : UInt64)
  | storeFlag (call : Nat)
  | stop
  deriving DecidableEq, Repr

/-- One step of `TxSearch::operator()`, for a window of `lookahead` blocks. -/
def loopStep (lookahead lastBlockHeight : UInt64) (blocks : Blocks) (state : State) : State :=
  match state.place with
  | .windowStart =>
    if state.continueSearch then
      { state with
        place := .window state.searchedBlkNo
          (min (state.searchedBlkNo + lookahead - 1) lastBlockHeight)
        windows := state.searchedBlkNo :: state.windows
        unread := none }
    else { state with place := .stopped }
  | .window h1 h2 =>
    match blocks with
    | .found => { state with place := .testFlag h2 }
    | .missing expired =>
      -- `stop()` only takes effect at the next test of the loop's condition
      { state with
        place := .windowStart
        continueSearch := state.continueSearch && !(h1 ≤ h2 || expired) }
    | .failed => { state with place := .stopped, continueSearch := false }
  | .testFlag h2 =>
    { state with
      place := if state.searchedBlockGotUpdated then .clearFlag else .storeNext h2 }
  | .storeNext h2 => { state with searchedBlkNo := h2 + 1, place := .clearFlag }
  | .clearFlag => { state with searchedBlockGotUpdated := false, place := .windowStart }
  | .stopped => state

/-- One step of the loop, or of a call of `set_searched_blk_no`. -/
def step (lookahead : UInt64) (state : State) : Event → State
  | .loop lastBlockHeight blocks => loopStep lookahead lastBlockHeight blocks state
  | .storeValue call value =>
    { state with
      searchedBlkNo := value
      setting := call :: state.setting
      unread := some value }
  | .storeFlag call =>
    if call ∈ state.setting then
      { state with
        searchedBlockGotUpdated := true
        setting := state.setting.erase call }
    else state
  | .stop => { state with continueSearch := false }

theorem step_storeFlag (lookahead : UInt64) (state : State) {call : Nat}
    (pending : call ∈ state.setting) :
    step lookahead state (.storeFlag call) =
      { state with
        searchedBlockGotUpdated := true
        setting := state.setting.erase call } := if_pos pending

theorem step_storeFlag_other (lookahead : UInt64) (state : State) {call : Nat}
    (other : call ∉ state.setting) : step lookahead state (.storeFlag call) = state :=
  if_neg other

/-! ### What keeps a value in place -/

/-- The loop does not find the flag clear with an unread value in place, and no value is stored
between the test of the flag and the store it guards. -/
def KeepsValue (state : State) : Event → Prop
  | .loop _ _ => ∀ h2, state.place = .testFlag h2 →
      state.searchedBlockGotUpdated = false → state.unread = none
  | .storeValue _ _ => ∀ h2, state.place ≠ .storeNext h2
  | .storeFlag _ => True
  | .stop => True

/-- An unread value is in place, and the loop is not about to overwrite it. -/
structure InPlace (state : State) : Prop where
  value : ∀ value, state.unread = some value → state.searchedBlkNo = value
  guarded : ∀ h2, state.place = .storeNext h2 → state.unread = none

theorem InPlace.loopStep {state : State} (inPlace : InPlace state)
    (lookahead lastBlockHeight : UInt64) (blocks : Blocks)
    (keeps : KeepsValue state (.loop lastBlockHeight blocks)) :
    InPlace (loopStep lookahead lastBlockHeight blocks state) := by
  unfold Rewind.loopStep
  cases place : state.place with
  | windowStart =>
    cases state.continueSearch with
    | true => exact ⟨fun value unread => (nomatch unread), fun h2 there => rfl⟩
    | false => exact ⟨inPlace.value, fun h2 there => (nomatch there)⟩
  | window h1 h2 =>
    cases blocks with
    | found => exact ⟨inPlace.value, fun h2 there => (nomatch there)⟩
    | missing expired => exact ⟨inPlace.value, fun h2 there => (nomatch there)⟩
    | failed => exact ⟨inPlace.value, fun h2 there => (nomatch there)⟩
  | testFlag h2 =>
    cases flag : state.searchedBlockGotUpdated with
    | true => exact ⟨inPlace.value, fun h2 there => (nomatch there)⟩
    | false => exact ⟨inPlace.value, fun _ _ => keeps h2 place flag⟩
  | storeNext h2 =>
    have read := inPlace.guarded h2 place
    exact ⟨fun value unread => absurd (read.symm.trans unread) (by simp),
      fun h2 there => (nomatch there)⟩
  | clearFlag => exact ⟨inPlace.value, fun h2 there => (nomatch there)⟩
  | stopped => exact inPlace

/-- Every step that meets the condition keeps an unread value in place. -/
theorem InPlace.step {state : State} (inPlace : InPlace state) (lookahead : UInt64)
    (event : Event) (keeps : KeepsValue state event) :
    InPlace (step lookahead state event) := by
  cases event with
  | loop lastBlockHeight blocks => exact inPlace.loopStep lookahead lastBlockHeight blocks keeps
  | storeValue call value =>
    exact ⟨fun other unread => Option.some.inj unread, fun h2 there => absurd there (keeps h2)⟩
  | storeFlag call =>
    by_cases pending : call ∈ state.setting
    · rw [step_storeFlag lookahead state pending]
      exact ⟨inPlace.value, inPlace.guarded⟩
    · rw [step_storeFlag_other lookahead state pending]
      exact inPlace
  | stop => exact ⟨inPlace.value, inPlace.guarded⟩

/-! ### Reaching the next window -/

/-- The loop only adds to the windows. -/
theorem loopStep_windows (lookahead lastBlockHeight : UInt64) (blocks : Blocks) (state : State) :
    ∃ more, (loopStep lookahead lastBlockHeight blocks state).windows = more ++ state.windows := by
  unfold loopStep
  cases state.place with
  | windowStart =>
    cases state.continueSearch with
    | true => exact ⟨[_], rfl⟩
    | false => exact ⟨[], rfl⟩
  | window h1 h2 => cases blocks <;> exact ⟨[], rfl⟩
  | testFlag h2 => exact ⟨[], rfl⟩
  | storeNext h2 => exact ⟨[], rfl⟩
  | clearFlag => exact ⟨[], rfl⟩
  | stopped => exact ⟨[], rfl⟩

/-- How many steps of its own the loop takes until it has loaded the position. -/
def Place.distance : Place → Nat
  | .windowStart => 1
  | .clearFlag => 2
  | .storeNext _ => 3
  | .testFlag _ => 4
  | .window _ _ => 5
  | .stopped => 0

/-- The event is a step of the loop. -/
def Event.isLoop : Event → Bool
  | .loop _ _ => true
  | _ => false

/-- The event is the first store of a call. -/
def Event.isStoreValue : Event → Bool
  | .storeValue _ _ => true
  | _ => false

/-- Since the value was stored, with the given windows before it and after the given number of
steps of the loop: the value is in place, and the loop has come as much closer to its next
load; or the loop has stopped; or a window has started from the value. -/
def Kept (value : UInt64) (before : List UInt64) (steps : Nat) (state : State) : Prop :=
  (state.unread = some value ∧ state.windows = before ∧
    (state.place = .stopped ∨ steps + state.place.distance ≤ 5)) ∨
  ∃ newer, state.windows = newer ++ value :: before

/-- Until a window starts from it, every step that meets the condition and sets no other value
keeps the value, and every step of the loop comes closer to the next load. -/
theorem Kept.step {value : UInt64} {before : List UInt64} {steps : Nat} {state : State}
    (kept : Kept value before steps state) (inPlace : InPlace state) (lookahead : UInt64)
    (event : Event) (sole : event.isStoreValue = false) :
    Kept value before (steps + if event.isLoop then 1 else 0) (step lookahead state event) := by
  rcases kept with ⟨unread, windows, closer⟩ | ⟨newer, windows⟩
  · cases event with
    | loop lastBlockHeight blocks =>
      unfold Rewind.step loopStep
      cases place : state.place with
      | windowStart =>
        cases state.continueSearch with
        | true =>
          refine .inr ⟨[], ?_⟩
          rw [List.nil_append, ← windows, ← inPlace.value value unread]
          rfl
        | false => exact .inl ⟨unread, windows, .inl rfl⟩
      | window h1 h2 =>
        rw [place] at closer
        have near : steps + 5 ≤ 5 := closer.resolve_left (by simp)
        cases blocks with
        | found => exact .inl ⟨unread, windows, .inr (by show steps + 1 + 4 ≤ 5; omega)⟩
        | missing expired => exact .inl ⟨unread, windows, .inr (by show steps + 1 + 1 ≤ 5; omega)⟩
        | failed => exact .inl ⟨unread, windows, .inl rfl⟩
      | testFlag h2 =>
        rw [place] at closer
        have near : steps + 4 ≤ 5 := closer.resolve_left (by simp)
        refine .inl ⟨unread, windows, .inr ?_⟩
        cases state.searchedBlockGotUpdated with
        | true => show steps + 1 + 2 ≤ 5; omega
        | false => show steps + 1 + 3 ≤ 5; omega
      | storeNext h2 =>
        have read := inPlace.guarded h2 place
        rw [read] at unread
        cases unread
      | clearFlag =>
        rw [place] at closer
        have near : steps + 2 ≤ 5 := closer.resolve_left (by simp)
        exact .inl ⟨unread, windows, .inr (by show steps + 1 + 1 ≤ 5; omega)⟩
      | stopped => exact .inl ⟨unread, windows, .inl place⟩
    | storeValue call other => cases sole
    | storeFlag call =>
      by_cases pending : call ∈ state.setting
      · rw [step_storeFlag lookahead state pending]
        exact .inl ⟨unread, windows, closer⟩
      · rw [step_storeFlag_other lookahead state pending]
        exact .inl ⟨unread, windows, closer⟩
    | stop => exact .inl ⟨unread, windows, closer⟩
  · cases event with
    | loop lastBlockHeight blocks =>
      obtain ⟨more, grown⟩ := loopStep_windows lookahead lastBlockHeight blocks state
      refine .inr ⟨more ++ newer, ?_⟩
      rw [List.append_assoc, ← windows]
      exact grown
    | storeValue call other => cases sole
    | storeFlag call =>
      by_cases pending : call ∈ state.setting
      · rw [step_storeFlag lookahead state pending]
        exact .inr ⟨newer, windows⟩
      · rw [step_storeFlag_other lookahead state pending]
        exact .inr ⟨newer, windows⟩
    | stop => exact .inr ⟨newer, windows⟩

/-- A run that meets the condition and sets no other value keeps the value. -/
theorem Kept.run {value : UInt64} {before : List UInt64} (lookahead : UInt64)
    (events : List Event) (sole : ∀ event ∈ events, event.isStoreValue = false)
    {steps : Nat} {state : State} (kept : Kept value before steps state)
    (inPlace : InPlace state)
    (met : Runs.Along (Rewind.step lookahead) KeepsValue state events) :
    Kept value before (steps + events.countP Event.isLoop)
      (Runs.run (Rewind.step lookahead) state events) := by
  induction events generalizing steps state with
  | nil => exact kept
  | cons event rest inductionHypothesis =>
    have next := kept.step inPlace lookahead event (sole event List.mem_cons_self)
    have later := inductionHypothesis
      (fun other member => sole other (List.mem_cons_of_mem _ member)) next
      (inPlace.step lookahead event met.1) met.2
    rw [List.countP_cons, Nat.add_comm (rest.countP _), ← Nat.add_assoc]
    exact later

/-! ### No value is lost -/

/-- The thread when it is created, with the position of its account. -/
def created (scannedBlockHeight : UInt64) : State := { searchedBlkNo := scannedBlockHeight }

theorem inPlace_created (scannedBlockHeight : UInt64) : InPlace (created scannedBlockHeight) :=
  ⟨fun _ unread => (nomatch unread), fun _ there => (nomatch there)⟩

/-- After the given windows, the value is in place or a window has started from it. -/
def NotLost (value : UInt64) (windows : List UInt64) (state : State) : Prop :=
  (state.windows = windows ∧ state.searchedBlkNo = value) ∨
    ∃ newer, state.windows = newer ++ value :: windows

/-- In a run that meets the condition, a value that is stored, and not overwritten by another
call, stays in place until a window starts from it; and a window has started from it once the
loop has taken five steps of its own, unless the loop has stopped. -/
theorem value_not_lost (lookahead scannedBlockHeight value : UInt64) (call : Nat)
    (earlier later : List Event)
    (met : Runs.Along (step lookahead) KeepsValue (created scannedBlockHeight)
      (earlier ++ .storeValue call value :: later))
    (sole : ∀ event ∈ later, event.isStoreValue = false) :
    let windows := (Runs.run (step lookahead) (created scannedBlockHeight) earlier).windows
    let state := Runs.run (step lookahead) (created scannedBlockHeight)
      (earlier ++ .storeValue call value :: later)
    NotLost value windows state ∧
      (5 ≤ later.countP Event.isLoop → state.place ≠ .stopped →
        ∃ newer, state.windows = newer ++ value :: windows) := by
  intro windows state
  obtain ⟨metEarlier, keeps, metLater⟩ := (Runs.along_append _ _ _ _ _).mp met
  have inPlace := Runs.run_invariant (step lookahead) KeepsValue InPlace
    (fun state event inPlace keeps => inPlace.step lookahead event keeps) earlier
    (created scannedBlockHeight) (inPlace_created scannedBlockHeight) metEarlier
  have stored := inPlace.step lookahead _ keeps
  have reached : state = Runs.run (step lookahead)
      (step lookahead (Runs.run (step lookahead) (created scannedBlockHeight) earlier)
        (.storeValue call value)) later := Runs.run_append _ _ _ _
  have atOnce : Kept value windows 0
      (step lookahead (Runs.run (step lookahead) (created scannedBlockHeight) earlier)
        (.storeValue call value)) := by
    refine .inl ⟨rfl, rfl, ?_⟩
    generalize (step lookahead (Runs.run (step lookahead) (created scannedBlockHeight) earlier)
      (.storeValue call value)).place = place
    cases place <;> simp [Place.distance]
  have kept := atOnce.run lookahead later sole stored metLater
  have still := Runs.run_invariant (step lookahead) KeepsValue InPlace
    (fun state event inPlace keeps => inPlace.step lookahead event keeps) later _ stored metLater
  rw [← reached] at kept still
  rcases kept with ⟨unread, unchanged, closer⟩ | started
  · refine ⟨.inl ⟨unchanged, still.value value unread⟩, fun steps running => ?_⟩
    have near := closer.resolve_left running
    have positive : 0 < state.place.distance := by
      cases place : state.place <;> simp_all [Place.distance]
    omega
  · exact ⟨.inr started, fun _ _ => started⟩

/-- A value that is set while a window is searched, by a call that is done in time. -/
theorem value_not_lost_in_time :
    let state := Runs.run (step 11) (created 100)
      ([.loop 110 .found] ++ .storeValue 1 0 :: [.storeFlag 1, .loop 110 .found, .loop 110 .found,
        .loop 110 .found, .loop 110 .found, .loop 110 .found])
    NotLost 0 [100] state ∧
      (5 ≤ 5 → state.place ≠ .stopped → ∃ newer, state.windows = newer ++ 0 :: [100]) :=
  value_not_lost 11 100 0 1 [.loop 110 .found]
    [.storeFlag 1, .loop 110 .found, .loop 110 .found, .loop 110 .found, .loop 110 .found,
      .loop 110 .found]
    (by simp [KeepsValue, step, loopStep, created]) (by simp [Event.isStoreValue])

/-- A call that is done between the test of the flag and the store after it is lost: the next
window starts after the one before. -/
theorem value_lost :
    let state := Runs.run (step 11) (created 100)
      ([.loop 110 .found, .loop 110 .found, .loop 110 .found] ++ .storeValue 1 0 ::
        [.storeFlag 1, .loop 110 .found, .loop 110 .found, .loop 110 .found])
    state.windows = [111, 100] ∧ state.setting = [] ∧ ¬ NotLost 0 [100] state := by
  have reached : (Runs.run (step 11) (created 100)
      ([.loop 110 .found, .loop 110 .found, .loop 110 .found] ++ .storeValue 1 0 ::
        [.storeFlag 1, .loop 110 .found, .loop 110 .found, .loop 110 .found])).windows =
      [111, 100] := by decide
  refine ⟨reached, by decide, ?_⟩
  rintro (⟨same, -⟩ | ⟨newer, same⟩)
  · rw [reached] at same
    exact absurd same (by decide)
  · have started : (0 : UInt64) ∈ [111, 100] := by
      rw [← reached, same]
      exact List.mem_append_right _ List.mem_cons_self
    exact absurd started (by decide)

end LightWallet.Rewind
