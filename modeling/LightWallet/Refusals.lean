/-
This file says when a pass is left by `continue`: when the insertion of its
outputs, or of its inputs, puts in no row. Every other failure throws.
-/

import LightWallet.Passes

namespace LightWallet

/-! ### Steps that are left by `continue` -/

/-- The step leaves the pass by `continue`. -/
def Step.Skips : Step → Prop
  | .leave .skipped _ => True
  | _ => False

theorem Step.skips_andThen {step : Step} {rest : Pass → Step} (stays : ¬ step.Skips) :
    (step.andThen rest).Skips ↔ ∃ pass, step = .go pass ∧ (rest pass).Skips := by
  cases step with
  | go pass =>
    exact ⟨fun skips => ⟨pass, rfl, skips⟩, fun ⟨_, same, skips⟩ => Step.go.inj same ▸ skips⟩
  | leave exit pass => exact ⟨fun skips => absurd skips stays, fun ⟨_, same, _⟩ => nomatch same⟩

theorem Step.finish_eq_skipped_iff (step : Step) : step.finish.1 = .skipped ↔ step.Skips := by
  cases step with
  | go pass => exact ⟨nofun, False.elim⟩
  | leave exit pass =>
    cases exit with
    | skipped => exact ⟨fun _ => trivial, fun _ => rfl⟩
    | next => exact ⟨nofun, False.elim⟩
    | thrown what => exact ⟨nofun, False.elim⟩

section Steps

variable (wallet : Wallet) (status : Status) (tuple : TxTuple) (tx : Transaction)
  (outcomes : Outcomes) (scanned : Scanned)

theorem beginTransaction_stays (pass : Pass) : ¬ (beginTransaction outcomes pass).Skips := by
  unfold beginTransaction
  split <;> exact id

theorem deleteExistingTxIfExists_stays (pass : Pass) :
    ¬ (deleteExistingTxIfExists wallet tx outcomes pass).Skips := by
  unfold deleteExistingTxIfExists
  dsimp only
  split
  · exact id
  · split <;> exact id

theorem openTransaction_stays (pass : Pass) :
    ¬ (openTransaction wallet tuple tx outcomes pass).Skips := by
  unfold openTransaction
  rw [Step.skips_andThen (beginTransaction_stays outcomes _)]
  rintro ⟨opened, -, skips⟩
  exact deleteExistingTxIfExists_stays wallet tx outcomes opened skips

theorem lookUpTx_stays (answers : Bool) (pass : Pass) :
    ¬ (lookUpTx tx outcomes answers pass).Skips := by
  unfold lookUpTx
  split <;> exact id

theorem openForInputs_stays (pass : Pass) :
    ¬ (openForInputs wallet tuple tx outcomes pass).Skips := by
  unfold openForInputs
  rw [Step.skips_andThen]
  · rintro ⟨opened, -, skips⟩
    revert skips
    split
    · exact lookUpTx_stays tx outcomes _ opened
    · exact id
  · split
    · exact openTransaction_stays wallet tuple tx outcomes pass
    · exact id

theorem commitTransaction_stays (pass : Pass) : ¬ (commitTransaction outcomes pass).Skips := by
  unfold commitTransaction
  split
  · exact id
  · split <;> exact id

theorem insertOutputRows_skips_iff (outputs : List OutputInfo) (txMysqlId : Nat) (pass : Pass) :
    (insertOutputRows wallet tuple tx outcomes outputs txMysqlId pass).Skips ↔
      (∀ info ∈ outputs, info.idxInTx < outcomes.chainIndices.length) ∧
        ¬ (outcomes.insertsOutputs = true ∧
          pass.seen.acceptsOutputs (outputs.map fun info =>
            outputRow wallet tuple tx txMysqlId (pass.blkTimestamp.getD 0) info
              (outcomes.chainIndices.getD info.idxInTx 0)) = true) := by
  unfold insertOutputRows
  by_cases covers : ∀ info ∈ outputs, info.idxInTx < outcomes.chainIndices.length
  · simp only [collectOutputs_fst _ _ _ _ covers, Database.insertOutputs]
    refine Iff.trans ?_ (and_iff_right covers).symm
    by_cases inserts : outcomes.insertsOutputs = true
    · rw [if_pos inserts]
      simp only [inserts, true_and]
      by_cases accepts : pass.seen.acceptsOutputs (outputs.map fun info =>
          outputRow wallet tuple tx txMysqlId (pass.blkTimestamp.getD 0) info
            (outcomes.chainIndices.getD info.idxInTx 0)) = true
      · simp only [Pass.seen] at accepts ⊢
        simp only [accepts, if_true]
        exact iff_of_false id fun refused => refused trivial
      · simp only [Pass.seen] at accepts ⊢
        simp only [accepts, Bool.false_eq_true, if_false]
        exact iff_of_true trivial id
    · rw [if_neg inserts]
      exact iff_of_true trivial fun both => inserts both.1
  · simp only [collectOutputs_fst_eq_none _ _ _ _ covers]
    exact iff_of_false id fun both => covers both.1

theorem insertInputRows_skips_iff (found : List XmrInput) (pass : Pass) :
    (insertInputRows outcomes found pass).Skips ↔
      ∃ txMysqlId, pass.txMysqlId = some txMysqlId ∧
        ¬ (outcomes.insertsInputs = true ∧
          pass.seen.acceptsInputs (linkedInputs found txMysqlId) = true) := by
  unfold insertInputRows
  cases numbered : pass.txMysqlId with
  | none => exact iff_of_false id fun ⟨_, same, _⟩ => nomatch same
  | some txMysqlId =>
    simp only [Option.some.injEq, exists_eq_left', Database.insertInputs]
    by_cases inserts : outcomes.insertsInputs = true
    · rw [if_pos inserts]
      simp only [inserts, true_and]
      by_cases accepts : pass.seen.acceptsInputs (linkedInputs found txMysqlId) = true
      · have given := accepts
        unfold linkedInputs at given
        rw [if_pos given]
        exact iff_of_false id fun refused => refused accepts
      · have given := accepts
        unfold linkedInputs at given
        rw [if_neg given]
        exact iff_of_true trivial accepts
    · rw [if_neg inserts]
      exact iff_of_true trivial fun both => inserts both.1

end Steps

/-! ### Insertions that put in no row -/

section Refusals

variable (wallet : Wallet) (status : Status) (tuple : TxTuple) (tx : Transaction)
  (outcomes : Outcomes) (scanned : Scanned)

/-- The pass gets to the insertion of its outputs, which puts in no row. -/
structure RefusesOutputs (db : Database) : Prop where
  identified : wallet.identifier.outputs tx ≠ []
  looksUp : outcomes.txExistAnswers = true
  inserts : outcomes.insertsTransaction = true
  accepts : db.acceptsTransaction
    (storedTransaction wallet status tuple tx outcomes scanned []) = true
  hasIndices : outcomes.indicesAnswer = true
  covers : ∀ info ∈ wallet.identifier.outputs tx, info.idxInTx < outcomes.chainIndices.length
  refused : ¬ (outcomes.insertsOutputs = true ∧
    (db.appendTransaction
        (storedTransaction wallet status tuple tx outcomes scanned [])).acceptsOutputs
      (storedOutputs wallet tuple tx outcomes scanned db.nextTransaction) = true)

/-- The pass gets to the insertion of the inputs it has found, which puts in no row. -/
structure RefusesInputs (found : List XmrInput) (db : Database) : Prop where
  ofOutputs : wallet.identifier.outputs tx ≠ [] →
    OutputsSucceed wallet status tuple tx outcomes scanned db
  looksUpAgain : wallet.identifier.outputs tx = [] ∨ outcomes.chainTxId = 0 →
    outcomes.txExistAnswersAgain = true
  some : found ≠ []
  inserts : wallet.identifier.outputs tx = [] → outcomes.insertsTransaction = true
  accepts : wallet.identifier.outputs tx = [] → db.acceptsTransaction
    (storedTransaction wallet status tuple tx outcomes scanned found) = true
  refused : ¬ (outcomes.insertsInputs = true ∧
    (withOutputs wallet status tuple tx outcomes scanned found db).acceptsInputs
      (linkedInputs found db.nextTransaction) = true)

theorem outputsPart_skips_iff (identified : wallet.identifier.outputs tx ≠ [])
    (begins : outcomes.begins = true)
    (deletes : existingTx wallet tx outcomes scanned.db ≠ none → outcomes.deleteAnswers = true) :
    (outputsPart wallet status tuple tx outcomes (initialPass scanned)).Skips ↔
      RefusesOutputs wallet status tuple tx outcomes scanned
        (clearedDb wallet tx outcomes scanned.db) := by
  obtain ⟨info, rest, outputs⟩ := List.exists_cons_of_ne_nil identified
  have row : storedTransaction wallet status tuple tx outcomes scanned [] =
      transactionRow wallet status tuple tx outcomes.chainTxId (calcTotalXmr (info :: rest)) 0
        (storedTimestamp tuple scanned) := by
    unfold storedTransaction
    rw [if_neg identified, outputs]
  unfold outputsPart
  rw [outputs]
  simp only [openTransaction_go wallet tuple tx outcomes scanned begins deletes, Step.andThen_go,
    lookUpTx]
  by_cases looksUp : outcomes.txExistAnswers = true
  · simp only [looksUp, if_true, Step.andThen_go]
    by_cases hasIndices : outcomes.indicesAnswer = true
    · rw [if_pos hasIndices]
      by_cases inserts : outcomes.insertsTransaction = true ∧
          (clearedDb wallet tx outcomes scanned.db).acceptsTransaction
            (transactionRow wallet status tuple tx outcomes.chainTxId
              (calcTotalXmr (info :: rest)) 0 (storedTimestamp tuple scanned)) = true
      · have inserted := insertTransactionRow_stores wallet status tuple tx outcomes
          (calcTotalXmr (info :: rest)) 0
          (lookedUpPass wallet tuple tx outcomes scanned scanned.known) inserts.1 inserts.2
        unfold lookedUpPass at inserted
        rw [inserted]
        refine (insertOutputRows_skips_iff wallet tuple tx outcomes _ _ _).trans ?_
        rw [← outputs] at row inserts ⊢
        constructor
        · rintro ⟨covers, refused⟩
          refine ⟨identified, looksUp, inserts.1, row ▸ inserts.2, hasIndices, covers, ?_⟩
          rw [row]
          exact refused
        · intro refuses
          refine ⟨refuses.covers, ?_⟩
          have refused := refuses.refused
          rw [row] at refused
          exact refused
      · have refused := insertTransactionRow_fails wallet status tuple tx outcomes
          (calcTotalXmr (info :: rest)) 0
          (lookedUpPass wallet tuple tx outcomes scanned scanned.known) inserts
        unfold lookedUpPass at refused
        rw [refused]
        exact iff_of_false id fun refuses => inserts ⟨refuses.inserts, row ▸ refuses.accepts⟩
    · rw [if_neg hasIndices]
      exact iff_of_false id fun refuses => hasIndices refuses.hasIndices
  · simp only [looksUp, Bool.false_eq_true, if_false, Step.andThen_leave]
    exact iff_of_false id fun refuses => looksUp refuses.looksUp

theorem recordFound_skips_iff (found : List XmrInput) (known : KnownOutputs) (some : found ≠ []) :
    (recordFound wallet status tuple tx outcomes found
        (readyPass wallet status tuple tx outcomes scanned known)).Skips ↔
      (wallet.identifier.outputs tx = [] → outcomes.insertsTransaction = true ∧
        (clearedDb wallet tx outcomes scanned.db).acceptsTransaction
          (storedTransaction wallet status tuple tx outcomes scanned found) = true) ∧
      ¬ (outcomes.insertsInputs = true ∧
        (withOutputs wallet status tuple tx outcomes scanned found
          (clearedDb wallet tx outcomes scanned.db)).acceptsInputs
          (linkedInputs found (clearedDb wallet tx outcomes scanned.db).nextTransaction) =
            true) := by
  obtain ⟨input, more, rfl⟩ := List.exists_cons_of_ne_nil some
  by_cases identified : wallet.identifier.outputs tx = []
  · rw [readyPass_of_none wallet status tuple tx outcomes scanned known identified,
      withOutputs_of_none wallet status tuple tx outcomes scanned _ _ identified]
    have unnumbered : (lookedUpPass wallet tuple tx outcomes scanned known).txMysqlId = none := rfl
    have row : storedTransaction wallet status tuple tx outcomes scanned (input :: more) =
        transactionRow wallet status tuple tx outcomes.chainTxId 0 (calcTotalSent (input :: more))
          (storedTimestamp tuple scanned) := by
      unfold storedTransaction
      rw [if_pos identified, identified]
      rfl
    simp only [recordFound, unnumbered, imp_iff_right identified]
    by_cases inserts : outcomes.insertsTransaction = true ∧
        (clearedDb wallet tx outcomes scanned.db).acceptsTransaction
          (storedTransaction wallet status tuple tx outcomes scanned (input :: more)) = true
    · refine Iff.trans ?_ (and_iff_right inserts).symm
      have accepts := inserts.2
      rw [row] at accepts
      rw [insertTransactionRow_stores wallet status tuple tx outcomes _ _
        (lookedUpPass wallet tuple tx outcomes scanned known) inserts.1 accepts]
      refine (insertInputRows_skips_iff outcomes _ _).trans ⟨?_, fun refused => ⟨_, rfl, refused⟩⟩
      rintro ⟨txMysqlId, numbered, refused⟩
      cases numbered
      exact refused
    · refine iff_of_false ?_ fun both => inserts both.1
      rw [row] at inserts
      rw [insertTransactionRow_fails wallet status tuple tx outcomes _ _
        (lookedUpPass wallet tuple tx outcomes scanned known) inserts, insertInputRows_skips_iff]
      rintro ⟨txMysqlId, numbered, -⟩
      cases numbered
  · rw [readyPass_of_some wallet status tuple tx outcomes scanned known identified,
      withOutputs_of_some wallet status tuple tx outcomes scanned _ _ identified]
    refine Iff.trans ?_ (and_iff_right fun none => absurd none identified).symm
    refine (insertInputRows_skips_iff outcomes _
      (receivedPass wallet status tuple tx outcomes scanned known)).trans
      ⟨?_, fun refused => ⟨_, rfl, refused⟩⟩
    rintro ⟨txMysqlId, numbered, refused⟩
    cases numbered
    exact refused

/-- The pass gets to an insertion of several rows that puts in none. -/
def Refuses (db : Database) : Prop :=
  RefusesOutputs wallet status tuple tx outcomes scanned db ∨
    RefusesInputs wallet status tuple tx outcomes scanned
      (foundInputs wallet tuple tx outcomes scanned outcomes.outputExistsAnswers db) db

/-- The inputs part is left by `continue` where the outputs part has gone on. -/
theorem inputsPart_skips_iff (pass : Pass) (known : KnownOutputs)
    (identified : identifiedInputs wallet tx scanned ≠ [])
    (ready : openForInputs wallet tuple tx outcomes pass =
      .go (readyPass wallet status tuple tx outcomes scanned known))
    (ofOutputs : wallet.identifier.outputs tx ≠ [] →
      OutputsSucceed wallet status tuple tx outcomes scanned
        (clearedDb wallet tx outcomes scanned.db))
    (looksUpAgain : wallet.identifier.outputs tx = [] ∨ outcomes.chainTxId = 0 →
      outcomes.txExistAnswersAgain = true) :
    (inputsPart wallet status tuple tx outcomes (identifiedInputs wallet tx scanned) pass).Skips ↔
      RefusesInputs wallet status tuple tx outcomes scanned
        (foundInputs wallet tuple tx outcomes scanned outcomes.outputExistsAnswers
          (clearedDb wallet tx outcomes scanned.db)) (clearedDb wallet tx outcomes scanned.db) := by
  rw [inputsPart_ready wallet status tuple tx outcomes scanned pass known identified ready]
  by_cases some : foundInputs wallet tuple tx outcomes scanned outcomes.outputExistsAnswers
      (clearedDb wallet tx outcomes scanned.db) = []
  · rw [some]
    exact iff_of_false id fun refuses => refuses.some rfl
  · rw [recordFound_skips_iff wallet status tuple tx outcomes scanned _ known some]
    exact ⟨fun ⟨inserts, refused⟩ => ⟨ofOutputs, looksUpAgain, some, fun none => (inserts none).1,
        fun none => (inserts none).2, refused⟩,
      fun refuses => ⟨fun none => ⟨refuses.inserts none, refuses.accepts none⟩, refuses.refused⟩⟩

/-- The inputs part is not left by `continue` when the transaction is not looked up. -/
theorem inputsPart_stays (pass : Pass)
    (fails : ∀ opened, openForInputs wallet tuple tx outcomes pass ≠ .go opened) :
    ¬ (inputsPart wallet status tuple tx outcomes (identifiedInputs wallet tx scanned)
        pass).Skips := by
  unfold inputsPart
  split
  · exact id
  · rw [Step.skips_andThen (openForInputs_stays wallet tuple tx outcomes pass)]
    exact fun ⟨opened, goes, _⟩ => fails opened goes

/-- Where the transaction is open, both parts together are left by `continue` exactly if an
insertion puts in no row. -/
theorem parts_skip_iff (opens : Opens wallet tx outcomes scanned) :
    ((outputsPart wallet status tuple tx outcomes (initialPass scanned)).andThen
        (inputsPart wallet status tuple tx outcomes (identifiedInputs wallet tx scanned))).Skips ↔
      Refuses wallet status tuple tx outcomes scanned
        (clearedDb wallet tx outcomes scanned.db) := by
  obtain ⟨-, something, begins, deletes⟩ := opens
  by_cases outputs : wallet.identifier.outputs tx = []
  · have inputs : identifiedInputs wallet tx scanned ≠ [] :=
      something.resolve_left fun some => some outputs
    have nothing : outputsPart wallet status tuple tx outcomes (initialPass scanned) =
        .go (initialPass scanned) := by
      unfold outputsPart
      rw [outputs]
    rw [nothing, Step.andThen_go]
    refine Iff.trans ?_ (or_iff_right fun refuses => refuses.identified outputs).symm
    by_cases looksUp : outcomes.txExistAnswersAgain = true
    · exact inputsPart_skips_iff wallet status tuple tx outcomes scanned _ scanned.known inputs
        (openForInputs_initial wallet status tuple tx outcomes scanned outputs begins deletes
          looksUp)
        (fun some => absurd outputs some) fun _ => looksUp
    · refine iff_of_false ?_ fun refuses => looksUp (refuses.looksUpAgain (.inl outputs))
      have opened := openTransaction_go wallet tuple tx outcomes scanned begins deletes
      refine inputsPart_stays wallet status tuple tx outcomes scanned _ fun pass => ?_
      unfold openForInputs
      show (openTransaction wallet tuple tx outcomes (initialPass scanned)).andThen _ ≠ _
      rw [opened, Step.andThen_go]
      simp only [openedPass, if_true, lookUpTx, looksUp, Bool.false_eq_true, if_false]
      exact Step.noConfusion
  · by_cases stored : OutputsSucceed wallet status tuple tx outcomes scanned
        (clearedDb wallet tx outcomes scanned.db)
    · obtain ⟨known, received⟩ := outputsPart_go wallet status tuple tx outcomes scanned outputs
        begins deletes stored
      rw [received, Step.andThen_go]
      refine Iff.trans ?_ (or_iff_right fun refuses =>
        refuses.refused ⟨stored.insertsOutputs, stored.acceptsOutputs⟩).symm
      by_cases inputs : identifiedInputs wallet tx scanned = []
      · rw [inputs]
        refine iff_of_false id fun refuses => refuses.some ?_
        exact foundInputs_of_none wallet tuple tx outcomes scanned _ _ inputs
      · by_cases looksUp : outcomes.chainTxId = 0 → outcomes.txExistAnswersAgain = true
        · exact inputsPart_skips_iff wallet status tuple tx outcomes scanned _ known inputs
            (openForInputs_received wallet status tuple tx outcomes scanned outputs known looksUp)
            (fun _ => stored) fun either => looksUp (either.resolve_left outputs)
        · obtain ⟨absent, silent⟩ := Classical.not_imp.mp looksUp
          refine iff_of_false ?_ fun refuses => silent (refuses.looksUpAgain (.inr absent))
          refine inputsPart_stays wallet status tuple tx outcomes scanned _ fun pass => ?_
          unfold openForInputs
          simp only [receivedPass, lookedUpPass, Step.andThen_go, stampBlock, absent, if_true,
            lookUpTx, silent, Bool.false_eq_true, if_false]
          exact Step.noConfusion
    · refine Iff.trans ?_ (or_iff_left fun refuses => stored (refuses.ofOutputs outputs)).symm
      rw [← outputsPart_skips_iff wallet status tuple tx outcomes scanned outputs begins deletes]
      have leaves := outputsPart_leaves wallet status tuple tx outcomes scanned outputs begins
        deletes stored
      revert leaves
      cases outputsPart wallet status tuple tx outcomes (initialPass scanned) with
      | go pass => exact False.elim
      | leave exit pass => exact fun _ => Iff.rfl

/-- A pass that does not open its transaction is not left by `continue`. -/
theorem recordPass_stays (closed : ¬ Opens wallet tx outcomes scanned) :
    ¬ (recordPass wallet status tuple tx outcomes scanned).Skips := by
  by_cases identifies : outcomes.identifies = true
  · rw [recordPass_eq wallet status tuple tx outcomes scanned identifies]
    have refused (something : wallet.identifier.outputs tx ≠ [] ∨
        identifiedInputs wallet tx scanned ≠ []) :
        ∃ exit pass, openTransaction wallet tuple tx outcomes (initialPass scanned) =
          .leave exit pass := by
      have leaves := openTransaction_leaves wallet tuple tx outcomes scanned
        fun opened => closed ⟨identifies, something, opened⟩
      revert leaves
      cases openTransaction wallet tuple tx outcomes (initialPass scanned) with
      | go pass => exact False.elim
      | leave exit pass => exact fun _ => ⟨exit, pass, rfl⟩
    have stays := openTransaction_stays wallet tuple tx outcomes (initialPass scanned)
    cases outputs : wallet.identifier.outputs tx with
    | nil =>
      unfold outputsPart
      rw [outputs, Step.andThen_go]
      cases inputs : identifiedInputs wallet tx scanned with
      | nil => exact commitTransaction_stays outcomes (initialPass scanned)
      | cons info rest =>
        obtain ⟨exit, pass, leaves⟩ := refused (.inr (by rw [inputs]; exact List.cons_ne_nil _ _))
        rw [leaves] at stays
        unfold inputsPart openForInputs
        simp only [initialPass] at leaves
        simp only [initialPass, leaves, Step.andThen_leave]
        exact stays
    | cons info rest =>
      obtain ⟨exit, pass, leaves⟩ := refused (.inl (by rw [outputs]; exact List.cons_ne_nil _ _))
      rw [leaves] at stays
      unfold outputsPart
      rw [outputs]
      simp only [leaves, Step.andThen_leave]
      exact stays
  · unfold recordPass
    rw [if_neg identifies]
    exact id

/-- A pass is left by `continue` exactly if it opens its transaction and gets to an insertion
that puts in no row. -/
theorem recordTx_skipped_iff :
    (recordTx wallet status tuple tx outcomes scanned).1 = .skipped ↔
      Opens wallet tx outcomes scanned ∧
        Refuses wallet status tuple tx outcomes scanned
          (clearedDb wallet tx outcomes scanned.db) := by
  unfold recordTx
  rw [Step.finish_eq_skipped_iff]
  by_cases opens : Opens wallet tx outcomes scanned
  · refine Iff.trans ?_ (and_iff_right opens).symm
    rw [← parts_skip_iff wallet status tuple tx outcomes scanned opens,
      recordPass_eq wallet status tuple tx outcomes scanned opens.1]
    cases (outputsPart wallet status tuple tx outcomes (initialPass scanned)).andThen
      (inputsPart wallet status tuple tx outcomes (identifiedInputs wallet tx scanned)) with
    | go pass => exact iff_of_false (commitTransaction_stays outcomes pass) id
    | leave exit pass => exact Iff.rfl
  · exact iff_of_false (recordPass_stays wallet status tuple tx outcomes scanned opens)
      fun both => opens both.1

end Refusals

end LightWallet
