/-
This file says what a check of an account leaves of the ledger of the tables. Some
transactions are taken out, with their outputs and spends and with every spend of
their outputs, and the others stay at their heights.
-/

import LightWallet.Check
import LightWallet.Ledger

namespace LightWallet

/-! ### Ledgers of which transactions were taken out -/

namespace Ledger

/-- The second ledger is the first one without some of its transactions. Rows that stay keep their
heights, outputs stay with their transactions, and spends with these and with those of the outputs
that they spend. -/
structure Trims (before after : Ledger) : Prop where
  transactions : ∀ owner row, after.transactions owner = some row →
    ∃ old, before.transactions owner = some old ∧ old.height = row.height
  outputs : ∀ key entry, after.outputs key = some entry → before.outputs key = some entry
  inputs : ∀ key entry, after.inputs key = some entry → before.inputs key = some entry
  keepsOutputs : ∀ key entry, before.outputs key = some entry →
    after.transactions entry.1 ≠ none → after.outputs key = some entry
  keepsInputs : ∀ key entry, before.inputs key = some entry →
    after.transactions entry.1 ≠ none →
    (∀ holder, before.outputs key.1 = some holder → after.transactions holder.1 ≠ none) →
    after.inputs key = some entry

theorem Trims.refl (ledger : Ledger) : Trims ledger ledger :=
  ⟨fun _ row found => ⟨row, found, rfl⟩, fun _ _ => id, fun _ _ => id,
    fun _ _ found _ => found, fun _ _ found _ _ => found⟩

theorem Trims.ne_none {before after : Ledger} (trims : Trims before after) {owner : Owner}
    (stays : after.transactions owner ≠ none) : before.transactions owner ≠ none := by
  obtain ⟨row, found⟩ := Option.ne_none_iff_exists'.mp stays
  obtain ⟨old, was, -⟩ := trims.transactions owner row found
  rw [was]
  exact Option.some_ne_none old

theorem Trims.trans {first second third : Ledger} (here : Trims first second)
    (there : Trims second third) : Trims first third where
  transactions owner row found := by
    obtain ⟨between, was, same⟩ := there.transactions owner row found
    obtain ⟨old, first, height⟩ := here.transactions owner between was
    exact ⟨old, first, height.trans same⟩
  outputs key entry found := here.outputs key entry (there.outputs key entry found)
  inputs key entry found := here.inputs key entry (there.inputs key entry found)
  keepsOutputs key entry found stays :=
    there.keepsOutputs key entry (here.keepsOutputs key entry found (there.ne_none stays)) stays
  keepsInputs key entry found stays holders := by
    refine there.keepsInputs key entry (here.keepsInputs key entry found (there.ne_none stays)
      fun holder holds => there.ne_none (holders holder holds)) stays fun holder holds => ?_
    exact holders holder (here.outputs _ _ holds)

theorem ne_of_without {ledger : Ledger} {owner other : Owner}
    (stays : (ledger.without owner).transactions other ≠ none) : other ≠ owner := by
  obtain ⟨row, found⟩ := Option.ne_none_iff_exists'.mp stays
  exact (without_transactions_iff.mp found).2

theorem trims_without (ledger : Ledger) (owner : Owner) : Trims ledger (ledger.without owner) where
  transactions _ row found := ⟨row, (without_transactions_iff.mp found).1, rfl⟩
  outputs _ _ found := (without_outputs_iff.mp found).1
  inputs _ _ found := (without_inputs_iff.mp found).1
  keepsOutputs _ _ found stays := without_outputs_iff.mpr ⟨found, ne_of_without stays⟩
  keepsInputs _ _ found stays holders := without_inputs_iff.mpr ⟨found, ne_of_without stays,
    fun _ _ holds => ne_of_without (holders _ holds)⟩

end Ledger

/-! ### The check of an account -/

section Check

variable {backend : Backend} {db : Database}

/-- The check deletes the row: it is still locked, and its transaction is not under its id. -/
def Deletes (backend : Backend) (row : XmrTransaction) : Prop :=
  row.spendable = false ∧ isTxUnlocked backend.status row.unlockTime row.height = false ∧
    Orphaned backend row

instance (backend : Backend) (row : XmrTransaction) : Decidable (Deletes backend row) :=
  inferInstanceAs (Decidable (_ ∧ _))

theorem rowAfterCheck_of_deletes {row : XmrTransaction} (deletes : Deletes backend row) :
    rowAfterCheck backend row = none := by
  obtain ⟨unmarked, locked, orphaned⟩ := deletes
  unfold rowAfterCheck
  rw [if_neg (ne_true_of_eq_false unmarked), if_neg (ne_true_of_eq_false locked), if_pos orphaned]

theorem rowAfterCheck_of_not_deletes {row : XmrTransaction} (stays : ¬ Deletes backend row) :
    ∃ after, rowAfterCheck backend row = some after ∧ after.owner = row.owner ∧
      after.height = row.height := by
  unfold rowAfterCheck
  by_cases marked : row.spendable = true
  · exact ⟨row, if_pos marked, rfl, rfl⟩
  rw [if_neg marked]
  by_cases unlocked : isTxUnlocked backend.status row.unlockTime row.height = true
  · exact ⟨_, if_pos unlocked, rfl, rfl⟩
  rw [if_neg unlocked]
  have present : ¬ Orphaned backend row := fun orphaned =>
    stays ⟨eq_false_of_ne_true marked, eq_false_of_ne_true unlocked, orphaned⟩
  exact ⟨row, if_neg present, rfl, rfl⟩

theorem ownerOf_markTxSpendable (db : Database) (marked now txId : Nat) :
    (db.markTxSpendable marked now).2.ownerOf txId = db.ownerOf txId := by
  unfold Database.ownerOf Database.markTxSpendable Database.markSpendable
  dsimp only
  rw [List.find?_map, Option.map_map]
  have sameId : ((fun tx : XmrTransaction => decide (tx.id = txId)) ∘ fun row : XmrTransaction =>
      if row.id = marked then { row with spendable := true, timestamp := now } else row) =
        fun tx => decide (tx.id = txId) := by
    funext row
    simp only [Function.comp_apply]
    split <;> rfl
  rw [sameId]
  refine congrArg (Option.map · _) (funext fun row => ?_)
  simp only [Function.comp_apply]
  split <;> rfl

theorem trims_markTxSpendable (valid : db.Valid) (marked now : Nat) :
    Ledger.Trims db.ledger (db.markTxSpendable marked now).2.ledger := by
  have outputs : (db.markTxSpendable marked now).2.ledger.outputs = db.ledger.outputs := by
    unfold Database.ledger
    simp only [ownerOf_markTxSpendable]
    rfl
  have inputs : (db.markTxSpendable marked now).2.ledger.inputs = db.ledger.inputs := by
    unfold Database.ledger
    simp only [ownerOf_markTxSpendable]
    rfl
  refine ⟨fun owner row found => ?_, fun _ _ found => outputs ▸ found,
    fun _ _ found => inputs ▸ found, fun _ _ found _ => outputs.symm ▸ found,
    fun _ _ found _ _ => inputs.symm ▸ found⟩
  obtain ⟨tx, inRows, rfl, rfl⟩ :=
    (Database.ledger_transactions_iff (valid.markTxSpendable marked now)).mp found
  obtain ⟨old, member, rfl⟩ := List.mem_map.mp inRows
  refine ⟨old.unnumbered,
    (Database.ledger_transactions_iff valid).mpr ⟨old, member, ?_, rfl⟩, ?_⟩
  · split <;> rfl
  · split <;> rfl

theorem trims_checkTx (valid : db.Valid) {tx : XmrTransaction} (member : tx ∈ db.transactions) :
    Ledger.Trims db.ledger (checkTx backend db tx).ledger := by
  unfold checkTx
  split
  · exact Ledger.Trims.refl _
  · split
    · exact trims_markTxSpendable valid _ _
    · split
      · rw [Database.ledger_deleteTx valid member]
        exact Ledger.trims_without _ _
      · exact Ledger.Trims.refl _

theorem trims_checkDb (txs : List XmrTransaction) (valid : db.Valid)
    (rows : ∀ tx ∈ txs, tx ∈ db.transactions) (distinct : Tables.Unique XmrTransaction.id txs) :
    Ledger.Trims db.ledger (checkDb backend txs db).ledger := by
  induction txs generalizing db with
  | nil => exact Ledger.Trims.refl _
  | cons tx rest inductionHypothesis =>
    obtain ⟨fresh, distinctRest⟩ := List.nodup_cons.mp distinct
    refine (trims_checkTx valid (rows tx List.mem_cons_self)).trans
      (inductionHypothesis (checkTx_valid backend valid tx) (fun other inRest => ?_) distinctRest)
    exact mem_checkTx backend (rows other (List.mem_cons_of_mem _ inRest)) fun same =>
      fresh (List.mem_map.mpr ⟨other, inRest, same⟩)

/-- The check of an account takes transactions out of the ledger. -/
theorem trims_checkAccount (valid : db.Valid) (accountId : Nat) :
    Ledger.Trims db.ledger (checkAccount backend accountId db).ledger :=
  trims_checkDb _ valid (fun _ member => (List.mem_filter.mp member).1)
    (valid.transactionIds.filter _)

/-- A row of another account stays, and so does one that the check does not delete. -/
theorem checkAccount_stays (valid : db.Valid) {accountId : Nat} {row : XmrTransaction}
    (member : row ∈ db.transactions) (stays : row.accountId = accountId → ¬ Deletes backend row) :
    ∃ after, (checkAccount backend accountId db).ledger.transactions row.owner = some after ∧
      after.height = row.height := by
  have afterValid : (checkAccount backend accountId db).Valid := checkAccount_valid valid accountId
  obtain ⟨after, kept, owner, height⟩ : ∃ after,
      (if row.accountId = accountId then rowAfterCheck backend row else some row) = some after ∧
        after.owner = row.owner ∧ after.height = row.height := by
    split
    · next ours => exact rowAfterCheck_of_not_deletes (stays ours)
    · exact ⟨row, rfl, rfl, rfl⟩
  refine ⟨after.unnumbered, (Database.ledger_transactions_iff afterValid).mpr
    ⟨after, ?_, owner, rfl⟩, height⟩
  rw [checkAccount_transactions valid]
  exact List.mem_filterMap.mpr ⟨row, member, kept⟩

/-- A row that the check deletes is gone. -/
theorem checkAccount_gone (valid : db.Valid) {row : XmrTransaction} (member : row ∈ db.transactions)
    (deletes : Deletes backend row) :
    (checkAccount backend row.accountId db).ledger.transactions row.owner = none := by
  have afterValid : (checkAccount backend row.accountId db).Valid :=
    checkAccount_valid valid row.accountId
  refine Option.eq_none_iff_forall_ne_some.mpr fun after found => ?_
  obtain ⟨kept, inAfter, owner, -⟩ := (Database.ledger_transactions_iff afterValid).mp found
  rw [checkAccount_transactions valid] at inAfter
  obtain ⟨old, inRows, isKept⟩ := List.mem_filterMap.mp inAfter
  have ofOld : kept.owner = old.owner := by
    split at isKept
    · by_cases gone : Deletes backend old
      · rw [rowAfterCheck_of_deletes gone] at isKept
        cases isKept
      · obtain ⟨after, isAfter, sameOwner, -⟩ := rowAfterCheck_of_not_deletes gone
        rw [isAfter] at isKept
        rw [← Option.some.inj isKept, sameOwner]
    · rw [Option.some.inj isKept]
  obtain ⟨hash, account⟩ := Owner.mk.inj (ofOld.symm.trans owner)
  obtain rfl := valid.transactionHashes.eq_of_key inRows member (Prod.ext hash account)
  rw [if_pos rfl, rowAfterCheck_of_deletes deletes] at isKept
  cases isKept

end Check

end LightWallet
