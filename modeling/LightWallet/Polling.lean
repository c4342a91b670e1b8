/-
This file settles when a poll sets the search position back.

A poll reads the scanned block of the account's row first, and compares the position
of the search thread with it later. The thread writes the row and stores its position
one after the other, window after window. The position it has when the poll compares
may be ahead of the row the poll has read by every block that was passed in between.
-/

import LightWallet.Runs
import LightWallet.SearchThread

namespace LightWallet.Polling

/-! ### The scan and the polls -/

/-- A window of the scan, and whether its statement on the row has failed. -/
structure Window where
  h1 : Nat
  h2 : Nat
  written : Option Bool := none
  deriving DecidableEq, Repr

/-- A poll that has read the row. The last three are not the code's: what the thread had last
written to the row, whether the row had the window under way, and how many blocks the position
has moved forward since that the row did not have. -/
structure Poll where
  id : Nat
  scannedBlockHeight : Nat
  baseline : Nat
  sees : Bool := false
  unread : Nat := 0
  deriving DecidableEq, Repr

/-- Someone other than the thread had moved the row back. -/
def Poll.MovedBack (poll : Poll) : Prop := poll.scannedBlockHeight < poll.baseline

instance (poll : Poll) : Decidable poll.MovedBack := inferInstanceAs (Decidable (_ < _))

/-- The position has moved forward, by a window which the row the poll has read may have had. -/
def Poll.pass (blocks : Nat) (poll : Poll) : Poll :=
  if poll.sees then { poll with sees := false } else { poll with unread := poll.unread + blocks }

/-- The position was set. -/
def Poll.miss (blocks : Nat) (poll : Poll) : Poll := { poll with unread := poll.unread + blocks }

/-- `rewinding` are the polls that are about to set the position. The last two are not the code's:
what the thread has last written to the row, and how many blocks the position has moved forward
since without the row. -/
structure State where
  scannedBlockHeight : Nat
  thread : SearchThread
  window : Option Window := none
  polls : List Poll := []
  rewinding : List Poll := []
  baseline : Nat
  unwritten : Nat := 0
  deriving DecidableEq, Repr

/-- `edit` is whoever else writes the row. -/
inductive Event where
  | beginWindow (lastBlockHeight : Nat)
  | writeRow (answers : Bool)
  | storePosition
  | readRow (id : Nat)
  | comparePosition (id : Nat)
  | setPosition (id : Nat)
  | edit (height : Nat)
  deriving DecidableEq, Repr

namespace State

variable (state : State)

/-- The choice of a window; without blocks the thread waits. -/
def beginWindow (lookahead lastBlockHeight : Nat) : State :=
  let h1 := state.thread.searchedBlkNo
  let h2 := min (h1 + lookahead - 1) lastBlockHeight
  if state.window = none ∧ h1 ≤ h2 then { state with window := some { h1, h2 } } else state

/-- The statement on the row, at the end of a window. -/
def writeRow (answers : Bool) : State :=
  match state.window with
  | none => state
  | some window =>
    if window.written ≠ none then state
    else if answers then
      { state with
        scannedBlockHeight := window.h2
        window := some { window with written := some true }
        baseline := window.h2
        unwritten := state.thread.searchedBlkNo - (window.h2 + 1) }
    else { state with window := some { window with written := some false } }

/-- The next position is stored, unless the flag is set. -/
def storePosition : State :=
  match state.window with
  | none => state
  | some window =>
    if window.written = none then state
    else
      let thread := state.thread.advance window.h2
      let blocks := thread.searchedBlkNo - state.thread.searchedBlkNo
      { state with
        thread
        window := none
        polls := state.polls.map (Poll.pass blocks)
        unwritten := if window.written = some true then state.unwritten
          else state.unwritten + blocks }

/-- The poll logs in, which reads the row. -/
def readRow (id : Nat) : State :=
  { state with
    polls := state.polls ++
      [{ id
         scannedBlockHeight := state.scannedBlockHeight
         baseline := state.baseline
         sees := (state.window >>= Window.written) = some true
         unread := state.unwritten }] }

/-- The poll finds the position more than ten blocks past the row it has read. -/
def Rewinds (poll : Poll) : Prop :=
  state.thread.searchedBlkNo > poll.scannedBlockHeight + 10

instance (poll : Poll) : Decidable (state.Rewinds poll) := inferInstanceAs (Decidable (_ > _))

/-- The poll compares. -/
def comparePosition (id : Nat) : State :=
  match state.polls.find? (·.id = id) with
  | none => state
  | some poll =>
    { state with
      polls := state.polls.filter (·.id ≠ id)
      rewinding := if state.Rewinds poll then state.rewinding ++ [poll] else state.rewinding }

/-- The poll sets the position to the row it has read. -/
def setPosition (id : Nat) : State :=
  match state.rewinding.find? (·.id = id) with
  | none => state
  | some poll =>
    let thread := state.thread.setSearchedBlkNo poll.scannedBlockHeight
    let blocks := thread.searchedBlkNo - state.thread.searchedBlkNo
    { state with
      thread
      polls := state.polls.map (Poll.miss blocks)
      rewinding := state.rewinding.filter (·.id ≠ id)
      unwritten := state.unwritten + blocks }

end State

/-- What an event does to the row, the position and the requests. -/
def step (lookahead : Nat) (state : State) : Event → State
  | .beginWindow lastBlockHeight => state.beginWindow lookahead lastBlockHeight
  | .writeRow answers => state.writeRow answers
  | .storePosition => state.storePosition
  | .readRow id => state.readRow id
  | .comparePosition id => state.comparePosition id
  | .setPosition id => state.setPosition id
  | .edit height => { state with scannedBlockHeight := height }

/-- A thread is created at the scanned block of the row. -/
def created (acc : XmrAccount) : State where
  scannedBlockHeight := acc.scannedBlockHeight
  thread := { acc, searchedBlkNo := acc.scannedBlockHeight }
  baseline := acc.scannedBlockHeight

/-! ### When a poll may set the position back -/

/-- A poll decides to set the position only if the row it has read had been moved back. -/
def OnlyMovedBack (state : State) : Event → Prop
  | .comparePosition id =>
    ∀ poll ∈ state.polls.find? (·.id = id), state.Rewinds poll → poll.MovedBack
  | _ => True

/-- When a poll compares, the position has moved forward by fewer than ten blocks that the row it
has read did not have. -/
def KeepsUp (state : State) : Event → Prop
  | .comparePosition id => ∀ poll ∈ state.polls.find? (·.id = id), poll.unread < 10
  | _ => True

instance (state : State) : ∀ event, Decidable (OnlyMovedBack state event)
  | .comparePosition _ => inferInstanceAs (Decidable (∀ poll ∈ _, _ → _))
  | .beginWindow _ => inferInstanceAs (Decidable True)
  | .writeRow _ => inferInstanceAs (Decidable True)
  | .storePosition => inferInstanceAs (Decidable True)
  | .readRow _ => inferInstanceAs (Decidable True)
  | .setPosition _ => inferInstanceAs (Decidable True)
  | .edit _ => inferInstanceAs (Decidable True)

instance (state : State) : ∀ event, Decidable (KeepsUp state event)
  | .comparePosition _ => inferInstanceAs (Decidable (∀ poll ∈ _, _ < _))
  | .beginWindow _ => inferInstanceAs (Decidable True)
  | .writeRow _ => inferInstanceAs (Decidable True)
  | .storePosition => inferInstanceAs (Decidable True)
  | .readRow _ => inferInstanceAs (Decidable True)
  | .setPosition _ => inferInstanceAs (Decidable True)
  | .edit _ => inferInstanceAs (Decidable True)

/-! ### The invariant -/

/-- What holds of the window under way while the flag is clear: it starts at the position, and
its end is what the thread has last written, once the row is written. -/
structure Underway (state : State) (window : Window) : Prop where
  starts : window.h1 = state.thread.searchedBlkNo ∧ window.h1 ≤ window.h2
  written : window.written = some true → state.baseline = window.h2
  seen : ∀ poll ∈ state.polls, poll.sees = true → window.h2 ≤ poll.baseline

/-- The position is ahead of a row by no more than the blocks it has moved forward without it. -/
structure Counted (state : State) : Prop where
  position : state.thread.searchedBlkNo ≤ state.baseline + 1 + state.unwritten
  polls : ∀ poll ∈ state.polls, state.thread.searchedBlkNo ≤ poll.baseline + 1 + poll.unread
  underway : ∀ window ∈ state.window, state.thread.searchedBlockGotUpdated = false →
    Underway state window
  sees : ∀ poll ∈ state.polls, poll.sees = true → (state.window >>= Window.written) = some true

theorem created_counted (acc : XmrAccount) : Counted (created acc) where
  position := by
    show acc.scannedBlockHeight ≤ acc.scannedBlockHeight + 1 + 0
    omega
  polls _ member := absurd member List.not_mem_nil
  underway _ absent := absurd absent (Option.not_mem_none _)
  sees _ member := absurd member List.not_mem_nil

namespace Counted

variable {state : State}

theorem beginWindow (counted : Counted state) (lookahead lastBlockHeight : Nat) :
    Counted (state.beginWindow lookahead lastBlockHeight) := by
  unfold State.beginWindow
  dsimp only
  split
  · next begins =>
    obtain ⟨noWindow, blocks⟩ := begins
    -- without a window under way, no poll has seen one
    have unseen : ∀ poll ∈ state.polls, ¬ poll.sees = true := fun poll member seen => by
      have written := counted.sees poll member seen
      rw [noWindow] at written
      cases written
    refine ⟨counted.position, counted.polls, fun window isWindow _ => ?_,
      fun poll member seen => absurd seen (unseen poll member)⟩
    obtain rfl := Option.some.inj isWindow
    exact ⟨⟨rfl, blocks⟩, (nomatch ·),
      fun poll member seen => absurd seen (unseen poll member)⟩
  · exact counted

theorem writeRow (counted : Counted state) (answers : Bool) :
    Counted (state.writeRow answers) := by
  unfold State.writeRow
  split
  · exact counted
  · next window isWindow =>
    split
    · exact counted
    · next unwritten =>
      have unseen : ∀ poll ∈ state.polls, ¬ poll.sees = true := fun poll member seen => by
        have written := counted.sees poll member seen
        rw [isWindow] at written
        exact unwritten (by rw [show window.written = some true from written]; simp)
      cases answers with
      | true =>
        refine ⟨?_, counted.polls, fun other isOther clear => ?_,
          fun poll member seen => absurd seen (unseen poll member)⟩
        · show state.thread.searchedBlkNo ≤
            window.h2 + 1 + (state.thread.searchedBlkNo - (window.h2 + 1))
          omega
        · obtain rfl := Option.some.inj isOther
          exact ⟨(counted.underway window isWindow clear).starts, fun _ => rfl,
            fun poll member seen => absurd seen (unseen poll member)⟩
      | false =>
        refine ⟨counted.position, counted.polls, fun other isOther clear => ?_,
          fun poll member seen => absurd seen (unseen poll member)⟩
        obtain rfl := Option.some.inj isOther
        exact ⟨(counted.underway window isWindow clear).starts, (nomatch ·),
          fun poll member seen => absurd seen (unseen poll member)⟩

/-- A position that moves forward stays within the blocks it has moved forward by. -/
theorem moved (counted : Counted state) (position : Nat) :
    position ≤ state.baseline + 1 + (state.unwritten + (position - state.thread.searchedBlkNo)) ∧
      ∀ poll ∈ state.polls, position ≤
        poll.baseline + 1 + (poll.unread + (position - state.thread.searchedBlkNo)) := by
  have bound := counted.position
  refine ⟨by omega, fun poll member => ?_⟩
  have boundPoll := counted.polls poll member
  omega

theorem storePosition (counted : Counted state) : Counted state.storePosition := by
  unfold State.storePosition
  split
  · exact counted
  · next window isWindow =>
    split
    · exact counted
    · dsimp only
      obtain ⟨moved, movedPolls⟩ :=
        counted.moved (state.thread.advance window.h2).searchedBlkNo
      refine ⟨?_, fun poll member => ?_, fun _ absent => absurd absent (Option.not_mem_none _),
        fun poll member seen => ?_⟩
      · show (state.thread.advance window.h2).searchedBlkNo ≤ state.baseline + 1 + ite _ _ _
        split
        · next written =>
          by_cases flag : state.thread.searchedBlockGotUpdated
          · simpa only [SearchThread.advance, if_pos flag] using counted.position
          · have same := (counted.underway window isWindow (eq_false_of_ne_true flag)).written
              written
            simp only [SearchThread.advance, if_neg flag, same]
            omega
        · exact moved
      · obtain ⟨before, inPolls, rfl⟩ := List.mem_map.mp member
        show (state.thread.advance window.h2).searchedBlkNo ≤ _
        unfold Poll.pass
        split
        · next seen =>
          by_cases flag : state.thread.searchedBlockGotUpdated
          · simpa only [SearchThread.advance, if_pos flag] using counted.polls before inPolls
          · have reached := (counted.underway window isWindow
              (eq_false_of_ne_true flag)).seen before inPolls seen
            simp only [SearchThread.advance, if_neg flag]
            show window.h2 + 1 ≤ before.baseline + 1 + before.unread
            omega
        · exact movedPolls before inPolls
      · obtain ⟨before, _, rfl⟩ := List.mem_map.mp member
        unfold Poll.pass at seen
        split at seen
        · cases seen
        · next unseen => exact absurd seen unseen

theorem readRow (counted : Counted state) (id : Nat) : Counted (state.readRow id) := by
  refine ⟨counted.position, fun poll member => ?_, fun window isWindow clear => ?_,
    fun poll member seen => ?_⟩
  · rcases List.mem_append.mp member with old | new
    · exact counted.polls poll old
    · obtain rfl := List.mem_singleton.mp new
      exact counted.position
  · have underway := counted.underway window isWindow clear
    refine ⟨underway.starts, underway.written, fun poll member seen => ?_⟩
    rcases List.mem_append.mp member with old | new
    · exact underway.seen poll old seen
    · obtain rfl := List.mem_singleton.mp new
      have written := of_decide_eq_true seen
      rw [show state.window = some window from isWindow] at written
      exact Nat.le_of_eq (underway.written written).symm
  · rcases List.mem_append.mp member with old | new
    · exact counted.sees poll old seen
    · obtain rfl := List.mem_singleton.mp new
      exact of_decide_eq_true seen

theorem comparePosition (counted : Counted state) (id : Nat) :
    Counted (state.comparePosition id) := by
  unfold State.comparePosition
  split
  · exact counted
  · refine ⟨counted.position, fun poll member => counted.polls poll (List.mem_filter.mp member).1,
      fun window isWindow clear => ?_,
      fun poll member => counted.sees poll (List.mem_filter.mp member).1⟩
    have underway := counted.underway window isWindow clear
    exact ⟨underway.starts, underway.written,
      fun poll member => underway.seen poll (List.mem_filter.mp member).1⟩

theorem setPosition (counted : Counted state) (id : Nat) : Counted (state.setPosition id) := by
  unfold State.setPosition
  split
  · exact counted
  · next poll _ =>
    obtain ⟨moved, movedPolls⟩ := counted.moved poll.scannedBlockHeight
    refine ⟨moved, fun other member => ?_, fun _ _ clear => Bool.noConfusion clear,
      fun other member seen => ?_⟩
    · obtain ⟨before, inPolls, rfl⟩ := List.mem_map.mp member
      exact movedPolls before inPolls
    · obtain ⟨before, inPolls, rfl⟩ := List.mem_map.mp member
      exact counted.sees before inPolls seen

theorem step (counted : Counted state) (lookahead : Nat) (event : Event) :
    Counted (step lookahead state event) := by
  cases event with
  | beginWindow lastBlockHeight => exact counted.beginWindow lookahead lastBlockHeight
  | writeRow answers => exact counted.writeRow answers
  | storePosition => exact counted.storePosition
  | readRow id => exact counted.readRow id
  | comparePosition id => exact counted.comparePosition id
  | setPosition id => exact counted.setPosition id
  | edit height =>
    exact ⟨counted.position, counted.polls, fun window isWindow clear =>
      ⟨(counted.underway window isWindow clear).starts,
        (counted.underway window isWindow clear).written,
        (counted.underway window isWindow clear).seen⟩, counted.sees⟩

/-- A poll that keeps up finds the position far ahead only if the row had been moved back. -/
theorem onlyMovedBack (counted : Counted state) {event : Event} (keepsUp : KeepsUp state event) :
    OnlyMovedBack state event := by
  cases event with
  | comparePosition id =>
    intro poll found rewinds
    have bound := counted.polls poll (List.mem_of_find?_eq_some found)
    have few : poll.unread < 10 := keepsUp poll found
    have ahead : state.thread.searchedBlkNo > poll.scannedBlockHeight + 10 := rewinds
    show poll.scannedBlockHeight < poll.baseline
    omega
  | _ => trivial

end Counted

/-! ### Runs -/

/-- In every run whose polls keep up with the scan, a poll decides to set the position only if the
row it has read had been moved back by someone other than the thread. -/
theorem rewinds_onlyMovedBack (lookahead : Nat) (acc : XmrAccount) (events : List Event)
    (keepsUp : Runs.Along (step lookahead) KeepsUp (created acc) events) :
    Runs.Along (step lookahead) OnlyMovedBack (created acc) events :=
  Runs.along_of_step (step lookahead) KeepsUp OnlyMovedBack Counted
    (fun _ event counted keeps => ⟨counted.step lookahead event, counted.onlyMovedBack keeps⟩)
    events (created acc) (created_counted acc) keepsUp

/-! ### A poll that is overtaken -/

/-- An account whose scanned block is 100. -/
def account : XmrAccount :=
  { id := 1, address := "4ApA", viewkeyHash := "h", scannedBlockHeight := 100, startHeight := 100 }

/-- A window of ten blocks is passed, and the row is moved back to 90 before the poll reads it. -/
theorem rewinds_onlyMovedBack_edited :
    Runs.Along (step 10) OnlyMovedBack (created account)
      [.beginWindow 500, .writeRow true, .storePosition, .edit 90, .readRow 1, .comparePosition 1,
        .setPosition 1] :=
  rewinds_onlyMovedBack 10 account _ (by decide)

/-- A window of ten blocks is passed after the poll has read the row, which nobody has edited. -/
theorem rewinds_healthy :
    ¬ Runs.Along (step 10) OnlyMovedBack (created account)
      [.beginWindow 500, .writeRow true, .storePosition, .readRow 1, .beginWindow 500,
        .writeRow true, .storePosition, .comparePosition 1, .setPosition 1] ∧
    (Runs.run (step 10) (created account)
      [.beginWindow 500, .writeRow true, .storePosition, .readRow 1, .beginWindow 500,
        .writeRow true, .storePosition, .comparePosition 1, .setPosition 1]).thread.searchedBlkNo =
      109 := by
  decide

end LightWallet.Polling
