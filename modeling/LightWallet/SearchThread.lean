/-
This file holds what a search thread shares with the requests: its copy of the
account and its search position, the two calls by which a request changes them,
and the end of a window, where the thread writes the whole account row from its
copy.
-/

import LightWallet.Schema

namespace LightWallet

/-- The members of a `TxSearch` that requests and the search loop both use. `address` and
`viewkey` are those it was created with. -/
structure SearchThread where
  acc : XmrAccount
  address : String := ""
  viewkey : String := ""
  known : KnownOutputs := []
  searchedBlkNo : Nat
  searchedBlockGotUpdated : Bool := false
  deriving DecidableEq, Repr

/-- `MySqlAccounts::update` of an account: whether exactly one row was changed. A statement that
fails changes nothing. -/
def Database.update (db : Database) (answers : Bool) (original new : XmrAccount) :
    Bool × Database :=
  if answers then ((db.updateAccount original new).1 = 1, (db.updateAccount original new).2)
  else (false, db)

namespace SearchThread

/-- `TxSearch::set_searched_blk_no`. -/
def setSearchedBlkNo (thread : SearchThread) (newValue : Nat) : SearchThread :=
  { thread with searchedBlkNo := newValue, searchedBlockGotUpdated := true }

/-- `TxSearch::update_acc`. -/
def updateAcc (thread : SearchThread) (acc : XmrAccount) : SearchThread :=
  { thread with acc := acc }

/-- The account with the last block of a window. -/
def scannedTo (acc : XmrAccount) (h2 blockTimestamp : Nat) : XmrAccount :=
  { acc with scannedBlockHeight := h2, scannedBlockTimestamp := blockTimestamp }

/-- What happens under `access_acc` at the end of a window. The copy is replaced only if the
statement has changed the row. -/
def updateRow (answers : Bool) (h2 blockTimestamp : Nat) (db : Database)
    (thread : SearchThread) : Database × SearchThread :=
  let updated := scannedTo thread.acc h2 blockTimestamp
  let (changed, db) := db.update answers thread.acc updated
  (db, if changed then thread.updateAcc updated else thread)

/-- The test of the flag, the store of the next block, and the clearing of the flag. -/
def advance (h2 : Nat) (thread : SearchThread) : SearchThread :=
  { thread with
    searchedBlkNo := if thread.searchedBlockGotUpdated then thread.searchedBlkNo else h2 + 1
    searchedBlockGotUpdated := false }

/-- The end of a window. -/
def endOfWindow (answers : Bool) (h2 blockTimestamp : Nat) (db : Database)
    (thread : SearchThread) : Database × SearchThread :=
  let (db, thread) := updateRow answers h2 blockTimestamp db thread
  (db, thread.advance h2)

end SearchThread

/-! ### The lower of two heights -/

theorem toNat_min (first second : UInt64) :
    (min first second).toNat = min first.toNat second.toNat := by
  show (if first ≤ second then first else second).toNat = _
  rw [apply_ite UInt64.toNat, Nat.min_def]
  exact if_congr UInt64.le_iff_toNat_le rfl rfl

/-! ### What a request and the end of a window leave -/

namespace SearchThread

theorem endOfWindow_db (answers : Bool) (h2 blockTimestamp : Nat) (db : Database)
    (thread : SearchThread) :
    (endOfWindow answers h2 blockTimestamp db thread).1 =
      (db.update answers thread.acc (scannedTo thread.acc h2 blockTimestamp)).2 := rfl

theorem endOfWindow_acc (answers : Bool) (h2 blockTimestamp : Nat) (db : Database)
    (thread : SearchThread) :
    (endOfWindow answers h2 blockTimestamp db thread).2.acc =
      if (db.update answers thread.acc (scannedTo thread.acc h2 blockTimestamp)).1 then
        scannedTo thread.acc h2 blockTimestamp
      else thread.acc :=
  apply_ite SearchThread.acc _ (thread.updateAcc (scannedTo thread.acc h2 blockTimestamp)) thread

end SearchThread

namespace Database

@[simp] theorem update_false (db : Database) (original new : XmrAccount) :
    db.update false original new = (false, db) := rfl

@[simp] theorem update_true (db : Database) (original new : XmrAccount) :
    (db.update true original new).2 = (db.updateAccount original new).2 := rfl

end Database

end LightWallet
