/-
This file settles whether an import and the scan agree on the account.

A request that imports writes the account's row, moves the search position, and
replaces the thread's copy of the account, one after the other. At the end of a
window the thread writes the whole row from its copy. Between the first and the
last step of the request that copy is still the old one, so that a window that
ends there writes the old account back; and a window that was under way when the
request finished carries the imported account past the imported height.
-/

import LightWallet.Runs
import LightWallet.SearchThread
import Mathlib.Data.List.Induction

namespace LightWallet.AccountRow

/-! ### The import and the ends of windows -/

/-- The tables, and the search thread of the account. -/
structure State where
  db : Database
  thread : SearchThread
  deriving DecidableEq, Repr

/-- The end of a window at the given block; the statement may fail. -/
structure Window where
  h2 : Nat
  blockTimestamp : Nat := 0
  answers : Bool := true
  deriving DecidableEq, Repr

/-- The three writes of an import, and the end of a window. -/
inductive Event where
  | updateRow
  | setSearchedBlkNo
  | updateAcc
  | endOfWindow (window : Window)
  deriving DecidableEq, Repr

/-- One step of an import that replaces `original` by `imported`, or the end of a window. -/
def step (original imported : XmrAccount) (state : State) : Event → State
  | .updateRow => { state with db := (state.db.update true original imported).2 }
  | .setSearchedBlkNo =>
    { state with thread := state.thread.setSearchedBlkNo imported.scannedBlockHeight }
  | .updateAcc => { state with thread := state.thread.updateAcc imported }
  | .endOfWindow window =>
    let (db, thread) :=
      state.thread.endOfWindow window.answers window.h2 window.blockTimestamp state.db
    { db, thread }

/-- The three steps of an import in their order, with the windows that end before the first,
between them, and after the last. -/
def interleaving (before first second after : List Window) : List Event :=
  before.map .endOfWindow ++ .updateRow :: (first.map .endOfWindow ++
    .setSearchedBlkNo :: (second.map .endOfWindow ++ .updateAcc :: after.map .endOfWindow))

/-- The account carries the import's start height, and is not scanned past it. -/
def Carries (imported account : XmrAccount) : Prop :=
  account.startHeight = imported.startHeight ∧
    account.scannedBlockHeight ≤ imported.scannedBlockHeight

/-- The row and the thread's copy both carry the import. -/
def Agrees (imported : XmrAccount) (state : State) : Prop :=
  (∀ row ∈ state.db.accounts, row.id = imported.id → Carries imported row) ∧
    Carries imported state.thread.acc

instance (imported account : XmrAccount) : Decidable (Carries imported account) :=
  inferInstanceAs (Decidable (_ ∧ _))

instance (imported : XmrAccount) (state : State) : Decidable (Agrees imported state) :=
  inferInstanceAs (Decidable (_ ∧ _))

/-- The last window whose statement did not fail. -/
def lastWritten (windows : List Window) : Option Window :=
  (windows.filter (·.answers)).getLast?

/-- When the import is not lost: a window that ends after the import ends at or below the
imported height; without one, the last window that ends between its first and its last step
does so too, and the thread's old copy had the imported start height. -/
def NotOverwritten (imported : XmrAccount) (acc : XmrAccount)
    (first second after : List Window) : Prop :=
  match lastWritten after with
  | some window => window.h2 ≤ imported.scannedBlockHeight
  | none =>
    match lastWritten (first ++ second) with
    | some window =>
      acc.startHeight = imported.startHeight ∧ window.h2 ≤ imported.scannedBlockHeight
    | none => True

/-! ### The end of a window -/

section Windows

variable (original imported : XmrAccount)

/-- Every row of the account has the given heights. -/
def RowHas (accountId startHeight scannedBlockHeight : Nat) (db : Database) : Prop :=
  ∀ row ∈ db.accounts, row.id = accountId →
    row.startHeight = startHeight ∧ row.scannedBlockHeight = scannedBlockHeight

theorem endOfWindow_db (state : State) (window : Window) :
    (step original imported state (.endOfWindow window)).db =
      (state.db.update window.answers state.thread.acc
        (SearchThread.scannedTo state.thread.acc window.h2 window.blockTimestamp)).2 := rfl

/-- A window whose statement fails changes neither the row nor the copy. -/
theorem endOfWindow_failed (state : State) (window : Window) (failed : window.answers = false) :
    (step original imported state (.endOfWindow window)).db = state.db ∧
      (step original imported state (.endOfWindow window)).thread.acc = state.thread.acc := by
  refine ⟨?_, (SearchThread.endOfWindow_acc _ _ _ _ _).trans ?_⟩
  · rw [endOfWindow_db, failed, Database.update_false]
  · rw [failed, Database.update_false]
    rfl

/-- A window writes the heights of the copy and its own last block to the row. -/
theorem endOfWindow_written (state : State) (window : Window) (answers : window.answers = true) :
    RowHas state.thread.acc.id state.thread.acc.startHeight window.h2
      (step original imported state (.endOfWindow window)).db := by
  intro row member id
  rw [endOfWindow_db, answers, Database.update_true] at member
  rw [Database.updateAccount_row member id]
  exact ⟨rfl, rfl⟩

/-- The copy keeps everything but the scanned block. -/
theorem endOfWindow_acc (state : State) (window : Window) :
    (step original imported state (.endOfWindow window)).thread.acc = state.thread.acc ∨
      (step original imported state (.endOfWindow window)).thread.acc =
        SearchThread.scannedTo state.thread.acc window.h2 window.blockTimestamp := by
  have copied := SearchThread.endOfWindow_acc window.answers window.h2 window.blockTimestamp
    state.db state.thread
  by_cases changed : (state.db.update window.answers state.thread.acc
      (SearchThread.scannedTo state.thread.acc window.h2 window.blockTimestamp)).1 = true
  · exact .inr (copied.trans (if_pos changed))
  · exact .inl (copied.trans (if_neg changed))

theorem endOfWindow_copy (state : State) (window : Window) :
    (step original imported state (.endOfWindow window)).thread.acc.id = state.thread.acc.id ∧
      (step original imported state (.endOfWindow window)).thread.acc.startHeight =
        state.thread.acc.startHeight := by
  rcases endOfWindow_acc original imported state window with same | scanned
  · rw [same]
    exact ⟨rfl, rfl⟩
  · rw [scanned]
    exact ⟨rfl, rfl⟩

theorem endOfWindow_hasAccount (state : State) (window : Window) (accountId : Nat) :
    (step original imported state (.endOfWindow window)).db.hasAccount accountId =
      state.db.hasAccount accountId := by
  cases answers : window.answers with
  | false => rw [(endOfWindow_failed original imported state window answers).1]
  | true =>
    rw [endOfWindow_db, answers, Database.update_true]
    exact Database.updateAccount_hasAccount state.db _ _ accountId rfl

/-- What any number of windows leave: the heights of the copy and the last window that was
written, or the row as it was. -/
theorem windows_leave (windows : List Window) (state : State) :
    let after := Runs.run (step original imported) state (windows.map .endOfWindow)
    (after.thread.acc.id = state.thread.acc.id ∧
        after.thread.acc.startHeight = state.thread.acc.startHeight) ∧
      (∀ accountId, after.db.hasAccount accountId = state.db.hasAccount accountId) ∧
      (lastWritten windows = none →
        after.db = state.db ∧ after.thread.acc = state.thread.acc) ∧
      ∀ window, lastWritten windows = some window →
        RowHas state.thread.acc.id state.thread.acc.startHeight window.h2 after.db := by
  intro after
  -- the windows are taken from the last one on, since the last one written decides
  induction windows using List.reverseRecOn with
  | nil => exact ⟨⟨rfl, rfl⟩, fun _ => rfl, fun _ => ⟨rfl, rfl⟩, fun window last => (nomatch last)⟩
  | append_singleton earlier window inductionHypothesis =>
    obtain ⟨⟨id, startHeight⟩, has, unwritten, written⟩ := inductionHypothesis
    have reached : after = step original imported
        (Runs.run (step original imported) state (earlier.map .endOfWindow))
        (.endOfWindow window) := by
      show Runs.run _ _ ((earlier ++ [window]).map _) = _
      rw [List.map_append, Runs.run_append]
      rfl
    rw [reached]
    have copy := endOfWindow_copy original imported
      (Runs.run (step original imported) state (earlier.map .endOfWindow)) window
    refine ⟨⟨copy.1.trans id, copy.2.trans startHeight⟩, fun accountId =>
      (endOfWindow_hasAccount original imported _ window accountId).trans (has accountId), ?_⟩
    unfold lastWritten at unwritten written ⊢
    rw [List.filter_append]
    cases answers : window.answers with
    | false =>
      rw [List.filter_cons_of_neg (by rw [answers]; exact Bool.false_ne_true), List.filter_nil,
        List.append_nil, (endOfWindow_failed original imported _ window answers).1,
        (endOfWindow_failed original imported _ window answers).2]
      exact ⟨unwritten, written⟩
    | true =>
      rw [List.filter_cons_of_pos answers, List.filter_nil, List.getLast?_concat]
      refine ⟨fun none => (nomatch none), fun last same => ?_⟩
      cases same
      rw [← id, ← startHeight]
      exact endOfWindow_written original imported _ window answers

theorem lastWritten_append (first second : List Window) :
    lastWritten (first ++ second) = (lastWritten second).or (lastWritten first) := by
  unfold lastWritten
  rw [List.filter_append, List.getLast?_append]

end Windows

/-! ### The import and the scan -/

section Import

variable {original imported : XmrAccount} {state : State}

/-- When the request has taken its last step, the copy is the imported account, and the row is
what the last window between its first and its last step has left. -/
theorem import_leaves (same : imported.id = original.id)
    (ours : state.thread.acc.id = original.id) (before first second : List Window) :
    let done := Runs.run (step original imported) state (interleaving before first second [])
    done.thread.acc = imported ∧
      done.db.hasAccount original.id = state.db.hasAccount original.id ∧
      match lastWritten (first ++ second) with
      | some window => RowHas original.id state.thread.acc.startHeight window.h2 done.db
      | none => RowHas original.id imported.startHeight imported.scannedBlockHeight done.db := by
  intro done
  let started := Runs.run (step original imported) state (before.map .endOfWindow)
  let written := step original imported started .updateRow
  let between := Runs.run (step original imported) written (first.map .endOfWindow)
  let moved := step original imported between .setSearchedBlkNo
  let last := Runs.run (step original imported) moved (second.map .endOfWindow)
  have reached : done = step original imported last .updateAcc := by
    show Runs.run _ _ _ = _
    simp only [interleaving, Runs.run_append, Runs.run_cons, List.map_nil, Runs.run_nil]
    rfl
  obtain ⟨⟨startedId, startedHeight⟩, startedHas, -, -⟩ :=
    windows_leave original imported before state
  obtain ⟨⟨betweenId, betweenHeight⟩, betweenHas, betweenNone, betweenSome⟩ :=
    windows_leave original imported first written
  obtain ⟨-, lastHas, lastNone, lastSome⟩ := windows_leave original imported second moved
  -- the copy has the old id and start height until the last step
  have oldId : started.thread.acc.id = original.id := startedId.trans ours
  have oldHeight : started.thread.acc.startHeight = state.thread.acc.startHeight := startedHeight
  have movedId : moved.thread.acc.id = original.id := betweenId.trans oldId
  have movedHeight : moved.thread.acc.startHeight = state.thread.acc.startHeight :=
    betweenHeight.trans oldHeight
  have rowWritten : RowHas original.id imported.startHeight imported.scannedBlockHeight
      written.db := by
    intro row member id
    rw [Database.updateAccount_row member id]
    exact ⟨rfl, rfl⟩
  rw [reached]
  refine ⟨rfl, ?_, ?_⟩
  · show last.db.hasAccount original.id = _
    rw [lastHas, show moved.db = between.db from rfl, betweenHas]
    show (started.db.updateAccount original imported).2.hasAccount original.id = _
    rw [Database.updateAccount_hasAccount _ _ _ _ same, startedHas]
  · rw [lastWritten_append]
    show match (lastWritten second).or (lastWritten first) with
      | some window => RowHas original.id state.thread.acc.startHeight window.h2 last.db
      | none => RowHas original.id imported.startHeight imported.scannedBlockHeight last.db
    cases inSecond : lastWritten second with
    | some window =>
      have left := lastSome window inSecond
      rwa [movedId, movedHeight] at left
    | none =>
      rw [show last.db = between.db from (lastNone inSecond).1]
      cases inFirst : lastWritten first with
      | some window =>
        have left := betweenSome window inFirst
        rw [show written.thread.acc = started.thread.acc from rfl, oldId, oldHeight] at left
        exact left
      | none =>
        rw [show between.db = written.db from (betweenNone inFirst).1]
        exact rowWritten

/-- Whether the row carries the import can be read off its heights. -/
theorem rowHas_carries {db : Database} {startHeight scannedBlockHeight : Nat}
    (same : imported.id = original.id) (has : db.hasAccount original.id = true)
    (row : RowHas original.id startHeight scannedBlockHeight db) :
    (∀ row ∈ db.accounts, row.id = imported.id → Carries imported row) ↔
      startHeight = imported.startHeight ∧ scannedBlockHeight ≤ imported.scannedBlockHeight := by
  unfold Carries
  rw [same]
  constructor
  · intro carries
    obtain ⟨account, member, id⟩ := (Database.hasAccount_iff _ _).mp has
    obtain ⟨start, scanned⟩ := row account member id
    rw [← start, ← scanned]
    exact carries account member id
  · intro carries account member id
    obtain ⟨start, scanned⟩ := row account member id
    rw [start, scanned]
    exact carries

/-- The row and the copy agree on the import, before another window is scanned, exactly when no
window has overwritten it. -/
theorem agrees_iff (same : imported.id = original.id) (ours : state.thread.acc.id = original.id)
    (has : state.db.hasAccount original.id = true) (before first second after : List Window)
    (atMostOne : after.length ≤ 1) :
    Agrees imported
        (Runs.run (step original imported) state (interleaving before first second after)) ↔
      NotOverwritten imported state.thread.acc first second after := by
  obtain ⟨copied, doneHas, row⟩ := import_leaves same ours before first second
  have reached : Runs.run (step original imported) state
      (interleaving before first second after) = Runs.run (step original imported)
        (Runs.run (step original imported) state (interleaving before first second []))
        (after.map .endOfWindow) := by
    simp only [interleaving, Runs.run_append, Runs.run_cons, List.map_nil, Runs.run_nil]
  rw [reached]
  generalize Runs.run (step original imported) state (interleaving before first second []) = done
    at copied doneHas row
  have self : Carries imported imported := ⟨rfl, Nat.le_refl _⟩
  obtain ⟨-, afterHas, afterNone, afterSome⟩ := windows_leave original imported after done
  unfold Agrees NotOverwritten
  cases inAfter : lastWritten after with
  | some window =>
    have left := afterSome window inAfter
    rw [copied, same] at left
    rw [rowHas_carries same ((afterHas _).trans (doneHas.trans has)) left]
    have only : after = [window] := by
      match after, atMostOne, inAfter with
      | [other], _, inAfter =>
        have member := List.mem_of_getLast? inAfter
        rw [List.mem_singleton.mp (List.mem_of_mem_filter member)]
    rw [only]
    constructor
    · rintro ⟨⟨-, scanned⟩, -⟩
      exact scanned
    · intro scanned
      refine ⟨⟨rfl, scanned⟩, ?_⟩
      show Carries imported (step original imported done (.endOfWindow window)).thread.acc
      rcases endOfWindow_acc original imported done window with kept | replaced
      · rw [kept, copied]
        exact self
      · rw [replaced, copied]
        exact ⟨rfl, scanned⟩
  | none =>
    obtain ⟨afterDb, afterAcc⟩ := afterNone inAfter
    rw [afterDb, afterAcc, copied]
    cases between : lastWritten (first ++ second) with
    | some window =>
      rw [between] at row
      rw [rowHas_carries same (doneHas.trans has) row]
      exact and_iff_left self
    | none =>
      rw [between] at row
      rw [rowHas_carries same (doneHas.trans has) row]
      exact ⟨fun _ => trivial, fun _ => ⟨self, self⟩⟩

end Import

/-! ### A window that ends during an import -/

/-- An account that is scanned to block 500. -/
def knownAccount : XmrAccount :=
  { id := 1, address := "4ApA", viewkeyHash := "c0de", scannedBlockHeight := 500,
    startHeight := 400 }

/-- The row with which an import replaces it. -/
def fromScratch : XmrAccount := { knownAccount with scannedBlockHeight := 0, startHeight := 0 }

/-- The search thread is one block further than the row. -/
def searching : State where
  db := { accounts := [knownAccount], nextAccount := 2 }
  thread := { acc := knownAccount, searchedBlkNo := 501 }

/-- The import stands when the window that ends after it ends at the imported height, whatever ended
before; without one, a window that ends between its steps undoes it. -/
theorem agrees_iff_windows :
    Agrees fromScratch (Runs.run (step knownAccount fromScratch) searching
        (interleaving [{ h2 := 510 }] [{ h2 := 520 }] [] [{ h2 := 0 }])) ∧
      ¬ Agrees fromScratch (Runs.run (step knownAccount fromScratch) searching
        (interleaving [{ h2 := 510 }] [] [{ h2 := 520 }] [{ h2 := 0, answers := false }])) := by
  constructor
  · exact (@agrees_iff knownAccount fromScratch searching (by decide) (by decide) (by decide)
      [{ h2 := 510 }] [{ h2 := 520 }] [] [{ h2 := 0 }] (by decide)).mpr (Nat.le_refl 0)
  · intro agrees
    have kept := (@agrees_iff knownAccount fromScratch searching (by decide) (by decide)
      (by decide) [{ h2 := 510 }] [] [{ h2 := 520 }] [{ h2 := 0, answers := false }]
      (by decide)).mp agrees
    exact absurd kept.2 (by decide)

/-- A window that ends after the row was updated writes the old account back. -/
theorem import_overwritten :
    ¬ Agrees fromScratch (Runs.run (step knownAccount fromScratch) searching
        (interleaving [] [{ h2 := 510 }] [] [])) := by
  decide +kernel

end LightWallet.AccountRow
