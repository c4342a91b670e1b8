/-
This file settles when a failing query is reported as an empty wallet.

A query that throws reads like one that finds nothing. For each request that reads an
account, the file lists the statements that the request makes as long as nothing is
hidden from it, and says of each whether it finds rows, or changes some. When none of
these throws, the response is the one without failures. When one does, the request goes
on without the rows, unless it was the first one, which reads the account.
-/

import LightWallet.Lookups
import LightWallet.Totals

namespace LightWallet.Failures

/-! ### Scripts of failures -/

/-- No statement that matters throws. -/
def harmless : List Bool → List Bool → Bool
  | throws :: throwing, matters :: statements =>
    !(throws && matters) && harmless throwing statements
  | _, _ => true

theorem harmless_nil (throwing : List Bool) : harmless throwing [] = true := by
  cases throwing <;> rfl

theorem harmless_append {throwing first second : List Bool}
    (harmlessBoth : harmless throwing (first ++ second) = true) :
    harmless throwing first = true ∧ harmless (throwing.drop first.length) second = true := by
  induction first generalizing throwing with
  | nil => exact ⟨harmless_nil throwing, harmlessBoth⟩
  | cons matters rest inductionHypothesis =>
    cases throwing with
    | nil =>
      refine ⟨rfl, ?_⟩
      rw [List.drop_nil]
      cases second <;> rfl
    | cons throws later =>
      obtain ⟨here, after⟩ := Bool.and_eq_true_iff.mp harmlessBoth
      obtain ⟨first, second⟩ := inductionHypothesis after
      exact ⟨Bool.and_eq_true_iff.mpr ⟨here, first⟩, second⟩

/-- The world with the given script of failures. -/
def scripted (world : World) (throwing : List Bool) : World := { world with throwing }

/-- Whatever the script, if no statement that matters throws, the computation ends with the result,
in the world, and with the rest of the script. -/
def RunsTo {Result : Type} (handler : Handler Result) (world : World) (result : Result)
    (after : World) (statements : List Bool) : Prop :=
  ∀ throwing, harmless throwing statements = true →
    handler (scripted world throwing) =
      (result, scripted after (throwing.drop statements.length))

namespace RunsTo

variable {Result Next : Type} {world : World}

theorem pure (result : Result) (world : World) :
    RunsTo (Pure.pure result) world result world [] := fun _ _ => rfl

theorem bind {first : Handler Result} {rest : Result → Handler Next} {result : Result}
    {between after : World} {next : Next} {statements more : List Bool}
    (runsFirst : RunsTo first world result between statements)
    (runsRest : RunsTo (rest result) between next after more) :
    RunsTo (first >>= rest) world next after (statements ++ more) := by
  intro throwing harmlessBoth
  obtain ⟨harmlessFirst, harmlessRest⟩ := harmless_append harmlessBoth
  rw [Handler.bind_apply, runsFirst throwing harmlessFirst, runsRest _ harmlessRest,
    List.drop_drop, List.length_append]

theorem continues {first : Handler Result} {rest : Result → Handler Next} {result : Result}
    {between : World} {statements more : List Bool}
    (runsFirst : RunsTo first world result between statements)
    (runsRest : ∃ next after, RunsTo (rest result) between next after more) :
    ∃ next after, RunsTo (first >>= rest) world next after (statements ++ more) := by
  obtain ⟨next, after, runs⟩ := runsRest
  exact ⟨next, after, runsFirst.bind runs⟩

/-- What is left makes no statement. -/
theorem silent {first : Handler Result} {rest : Result → Handler Next} {result : Result}
    {between after : World} {next : Next} {statements : List Bool}
    (runsFirst : RunsTo first world result between statements)
    (runsRest : RunsTo (rest result) between next after []) :
    RunsTo (first >>= rest) world next after statements := by
  have both := runsFirst.bind runsRest
  rwa [List.append_nil] at both

theorem map {first : Handler Result} {result : Result} {after : World} {statements : List Bool}
    (runs : RunsTo first world result after statements) (f : Result → Next) :
    RunsTo (first >>= fun result => Pure.pure (f result)) world (f result) after statements :=
  runs.silent (.pure (f result) after)

/-- A statement that finds rows, or changes some, must not throw. -/
theorem statement (onThrow : Result) (run : Database → Result × Database) :
    RunsTo (LightWallet.statement onThrow run) world (run world.db).1
      (world.on (run world.db).2) [true] := by
  intro throwing harmlessThis
  have runs : ¬ (scripted world throwing).throws = true := by
    cases throwing with
    | nil => exact Bool.false_ne_true
    | cons throws later =>
      cases throws with
      | false => exact Bool.false_ne_true
      | true => cases harmlessThis
  rw [statement_runs _ _ runs]
  cases throwing <;> rfl

/-- A query that finds nothing may throw. -/
theorem query (onThrow : Result) (read : Database → Result) {finds : Bool}
    (nothing : finds = false → read world.db = onThrow) :
    RunsTo (LightWallet.query onThrow read) world (read world.db) world [finds] := by
  cases finds with
  | true => exact statement onThrow fun db => (read db, db)
  | false =>
    intro throwing _
    unfold LightWallet.query
    by_cases throws : (scripted world throwing).throws = true
    · rw [statement_throws _ _ throws, nothing rfl]
      cases throwing <;> rfl
    · rw [statement_runs _ _ throws]
      cases throwing <;> rfl

/-- The map of search threads does not fail. -/
theorem withThread (address : String) (absent : Result)
    (run : SearchThread → Result × SearchThread) :
    RunsTo (LightWallet.withThread address absent run) world
      (LightWallet.withThread address absent run world).1
      (LightWallet.withThread address absent run world).2 [] := by
  intro throwing _
  unfold LightWallet.withThread
  rw [show (scripted world throwing).thread? address = world.thread? address from rfl]
  split <;> rfl

/-- A query whose result does not matter may throw. -/
theorem query_any {rest : Result → Handler Next} {next : Next} {after : World}
    {more : List Bool} (onThrow : Result) (read : Database → Result)
    (runsRest : ∀ result, RunsTo (rest result) world next after more) :
    RunsTo (LightWallet.query onThrow read >>= rest) world next after (false :: more) := by
  intro throwing harmlessThis
  have tail : (LightWallet.query onThrow read (scripted world throwing)).2 =
      scripted world throwing.tail := query_world onThrow read _
  rw [Handler.bind_apply, tail]
  cases throwing with
  | nil =>
    have runs := runsRest (LightWallet.query onThrow read (scripted world [])).1 []
      (by cases more <;> rfl)
    rwa [List.drop_nil] at runs
  | cons throws later =>
    exact runsRest _ later (Bool.and_eq_true_iff.mp harmlessThis).2

/-- The result and the world are those without failures. -/
theorem eq_quiet {handler : Handler Result} {result : Result} {after : World}
    {statements : List Bool} (runs : RunsTo handler world result after statements) :
    handler (scripted world []) = (result, scripted after []) := by
  rw [runs [] (by cases statements <;> rfl), List.drop_nil]

/-- A list of rows that is searched. -/
theorem queryRows {Row : Type} (read : Database → List Row) :
    RunsTo (LightWallet.query [] read) world (read world.db) world [!(read world.db).isEmpty] :=
  query [] read fun nothing => by simpa using nothing

/-- A row that is searched. -/
theorem queryRow {Row : Type} (read : Database → Option Row) :
    RunsTo (LightWallet.query none read) world (read world.db) world [(read world.db).isSome] :=
  query none read fun nothing => by simpa using nothing

end RunsTo

/-! ### The statements of the loops -/

section Loops

variable (backend : Backend) (db : Database)

/-- The check makes a statement for every transaction that it changes. -/
def checkStatements (txs : List XmrTransaction) : List Bool :=
  (txs.filter (Changes backend ·)).map fun _ => true

/-- Each input selects the output that it refers to. -/
def spentStatements (inputs : List XmrInput) : List Bool :=
  inputs.map fun input => (db.outputByPrimaryId input.outputId).isSome

/-- The loop of `get_address_txs` selects the inputs of each transaction. -/
def txsStatements (txs : List XmrTransaction) : List Bool :=
  txs.flatMap fun tx =>
    (!(db.inputsForTx tx.id).isEmpty) :: spentStatements db (db.inputsForTx tx.id)

/-- Each output selects the inputs that refer to it. -/
def outputsStatements (outs : List XmrOutput) : List Bool :=
  outs.map fun out => !(db.inputsForOut out.id).isEmpty

/-- The loop of `get_address_info` selects the outputs of each transaction. -/
def infoStatements (txs : List XmrTransaction) : List Bool :=
  txs.flatMap fun tx =>
    (!(db.outputsForTx tx.id).isEmpty) :: outputsStatements db (db.outputsForTx tx.id)

/-- The loop of `get_unspent_outs` skips locked transactions and dust. -/
def unspentStatements (dustThreshold : Nat) (txs : List XmrTransaction) : List Bool :=
  (txs.filter fun tx => isTxUnlocked backend.status tx.unlockTime tx.height).flatMap fun tx =>
    (!(db.outputsForTx tx.id).isEmpty) :: outputsStatements db
      ((db.outputsForTx tx.id).filter fun out => ¬ out.amount.toNat < dustThreshold)

/-- The search in the mempool selects the output of each spending that it sees. -/
def mempoolStatements (thread : Option SearchThread) : List Bool :=
  match thread with
  | none => []
  | some thread =>
    backend.mempoolTxs.flatMap fun entry =>
      ((backend.identifier thread.address thread.viewkey).inputs thread.known entry.2).map
        fun info => (db.outputExists info.outPubKey).isSome

end Loops

section Runs

variable {backend : Backend} {world : World}

theorem spentByInputs_runs (inputs : List XmrInput) :
    ∃ spent, RunsTo (spentByInputs inputs) world spent world (spentStatements world.db inputs) := by
  induction inputs with
  | nil => exact ⟨[], .pure [] world⟩
  | cons input rest inductionHypothesis =>
    obtain ⟨spent, runs⟩ := inductionHypothesis
    have first : RunsTo (selectByPrimaryId input.outputId) world _ world _ :=
      .queryRow (·.outputByPrimaryId input.outputId)
    unfold spentByInputs spentStatements
    rw [List.map_cons]
    cases found : world.db.outputByPrimaryId input.outputId with
    | none =>
      rw [found] at first
      exact ⟨spent, first.bind runs⟩
    | some out =>
      rw [found] at first
      exact ⟨spentOutput input out :: spent, first.bind (runs.map (spentOutput input out :: ·))⟩

theorem readAddressTxs_runs (txs : List XmrTransaction) :
    ∃ entries, RunsTo (readAddressTxs txs) world entries world (txsStatements world.db txs) := by
  induction txs with
  | nil => exact ⟨[], .pure [] world⟩
  | cons tx rest inductionHypothesis =>
    obtain ⟨entries, runs⟩ := inductionHypothesis
    have first : RunsTo (selectInputsForTx tx.id) world _ world _ :=
      .queryRows (·.inputsForTx tx.id)
    obtain ⟨entry, one⟩ : ∃ entry, RunsTo (readAddressTx tx) world entry world
        ((!(world.db.inputsForTx tx.id).isEmpty) ::
          spentStatements world.db (world.db.inputsForTx tx.id)) := by
      unfold readAddressTx
      cases inputs : world.db.inputsForTx tx.id with
      | nil =>
        rw [inputs] at first
        exact ⟨_, first.bind (.pure _ world)⟩
      | cons input more =>
        rw [inputs] at first
        obtain ⟨spent, spends⟩ := spentByInputs_runs (input :: more)
        exact ⟨_, first.bind (spends.map fun spent => AddressTx.mk tx (some spent))⟩
    unfold readAddressTxs txsStatements
    rw [List.flatMap_cons]
    exact ⟨entry :: entries, one.bind (runs.map (entry :: ·))⟩

theorem readOutputs_runs (outs : List XmrOutput) :
    ∃ outputs, RunsTo (readOutputs outs) world outputs world (outputsStatements world.db outs) := by
  induction outs with
  | nil => exact ⟨[], .pure [] world⟩
  | cons out rest inductionHypothesis =>
    obtain ⟨outputs, runs⟩ := inductionHypothesis
    have first : RunsTo (selectInputsForOut out.id) world _ world _ :=
      .queryRows (·.inputsForOut out.id)
    unfold readOutputs outputsStatements
    rw [List.map_cons]
    exact ⟨_, first.bind (runs.map fun outs => (out, world.db.inputsForOut out.id) :: outs)⟩

theorem readAddressOutputs_runs (txs : List XmrTransaction) :
    ∃ outputs, RunsTo (readAddressOutputs txs) world outputs world
      (infoStatements world.db txs) := by
  induction txs with
  | nil => exact ⟨[], .pure [] world⟩
  | cons tx rest inductionHypothesis =>
    obtain ⟨more, runs⟩ := inductionHypothesis
    have first : RunsTo (selectOutputsForTx tx.id) world _ world _ :=
      .queryRows (·.outputsForTx tx.id)
    obtain ⟨read, reads⟩ := readOutputs_runs (world.db.outputsForTx tx.id)
    unfold readAddressOutputs infoStatements
    rw [List.flatMap_cons]
    exact ⟨_, first.bind (reads.bind (runs.map (read ++ ·)))⟩

theorem readUnspentOutputs_runs (dustThreshold : Nat) (tx : XmrTransaction)
    (outs : List XmrOutput) :
    ∃ unspent, RunsTo (readUnspentOutputs dustThreshold tx outs) world unspent world
      (outputsStatements world.db (outs.filter fun out => ¬ out.amount.toNat < dustThreshold)) := by
  induction outs with
  | nil => exact ⟨[], .pure [] world⟩
  | cons out rest inductionHypothesis =>
    obtain ⟨unspent, runs⟩ := inductionHypothesis
    unfold readUnspentOutputs
    by_cases dust : out.amount.toNat < dustThreshold
    · rw [if_pos dust, List.filter_cons_of_neg (by simpa using dust)]
      exact ⟨unspent, runs⟩
    · rw [if_neg dust, List.filter_cons_of_pos (by simpa using dust)]
      have first : RunsTo (selectInputsForOut out.id) world _ world _ :=
        .queryRows (·.inputsForOut out.id)
      unfold outputsStatements at runs ⊢
      rw [List.map_cons]
      exact ⟨_, first.bind (runs.map
        ((out.amount, unspentJson tx out (world.db.inputsForOut out.id)) :: ·))⟩

theorem readUnspent_runs (dustThreshold : Nat) (txs : List XmrTransaction) :
    ∃ unspent, RunsTo (readUnspent backend dustThreshold txs) world unspent world
      (unspentStatements backend world.db dustThreshold txs) := by
  induction txs with
  | nil => exact ⟨[], .pure [] world⟩
  | cons tx rest inductionHypothesis =>
    obtain ⟨more, runs⟩ := inductionHypothesis
    unfold readUnspent unspentStatements
    by_cases unlocked : isTxUnlocked backend.status tx.unlockTime tx.height = true
    · rw [if_pos unlocked, List.filter_cons, if_pos unlocked, List.flatMap_cons]
      have first : RunsTo (selectOutputsForTx tx.id) world _ world _ :=
        .queryRows (·.outputsForTx tx.id)
      obtain ⟨unspent, reads⟩ :=
        readUnspentOutputs_runs dustThreshold tx (world.db.outputsForTx tx.id)
      exact ⟨_, first.bind (reads.bind (runs.map (unspent ++ ·)))⟩
    · rw [if_neg unlocked, List.filter_cons, if_neg unlocked]
      exact ⟨more, runs⟩

theorem knownSpent_runs (infos : List InputInfo) :
    ∃ found, RunsTo (knownSpent infos) world found world
      (infos.map fun info => (world.db.outputExists info.outPubKey).isSome) := by
  induction infos with
  | nil => exact ⟨[], .pure [] world⟩
  | cons info rest inductionHypothesis =>
    obtain ⟨found, runs⟩ := inductionHypothesis
    have first : RunsTo (outputExists info.outPubKey) world _ world _ :=
      .queryRow (·.outputExists info.outPubKey)
    unfold knownSpent
    rw [List.map_cons]
    cases output : world.db.outputExists info.outPubKey with
    | none =>
      rw [output] at first
      exact ⟨found, first.bind runs⟩
    | some out =>
      rw [output] at first
      exact ⟨_, first.bind (runs.map ((info, out) :: ·))⟩

theorem findTxs_runs (thread : SearchThread) (txs : List (Nat × Transaction)) :
    ∃ entries, RunsTo (findTxs backend thread txs) world entries world
      (txs.flatMap fun entry =>
        ((backend.identifier thread.address thread.viewkey).inputs thread.known entry.2).map
          fun info => (world.db.outputExists info.outPubKey).isSome) := by
  induction txs with
  | nil => exact ⟨[], .pure [] world⟩
  | cons pair rest inductionHypothesis =>
    obtain ⟨receiveTime, tx⟩ := pair
    obtain ⟨entries, runs⟩ := inductionHypothesis
    obtain ⟨found, finds⟩ := @knownSpent_runs world
      ((backend.identifier thread.address thread.viewkey).inputs thread.known tx)
    obtain ⟨entry, one⟩ : ∃ entry, RunsTo (findTxInMempool backend thread receiveTime tx) world
        entry world
        (((backend.identifier thread.address thread.viewkey).inputs thread.known tx).map
          fun info => (world.db.outputExists info.outPubKey).isSome) := by
      unfold findTxInMempool
      dsimp only
      generalize (backend.identifier thread.address thread.viewkey).outputs tx = outputs
      cases outputs with
      | nil =>
        cases found with
        | nil => exact ⟨_, finds.silent (.pure _ world)⟩
        | cons entry more => exact ⟨_, finds.silent (.pure _ world)⟩
      | cons info rest =>
        cases found with
        | nil => exact ⟨_, finds.silent (.pure _ world)⟩
        | cons entry more => exact ⟨_, finds.silent (.pure _ world)⟩
    unfold findTxs
    rw [List.flatMap_cons]
    exact ⟨_, one.bind (runs.map (entry.toList ++ ·))⟩

theorem findTxsInMempool_runs (address : String) :
    ∃ entries after, RunsTo (findTxsInMempool backend address) world entries after
      (mempoolStatements backend world.db (world.thread? address)) := by
  have first := @RunsTo.withThread _ world address none fun thread => (some thread, thread)
  unfold findTxsInMempool
  cases live : world.thread? address with
  | none =>
    have absent : withThread address none (fun thread => (some thread, thread)) world =
        (none, world.visited address) := by
      unfold withThread
      rw [live]
    rw [absent] at first
    exact ⟨_, _, first.bind (.pure _ _)⟩
  | some thread =>
    have found : withThread address none (fun thread => (some thread, thread)) world =
        (some thread, (world.visited address).putThread address thread) := by
      unfold withThread
      rw [live]
    rw [found] at first
    obtain ⟨entries, runs⟩ := @findTxs_runs backend
      ((world.visited address).putThread address thread) thread backend.mempoolTxs
    exact ⟨_, _, first.bind (runs.map some)⟩

theorem check_runs (txs : List XmrTransaction) (valid : world.db.Valid)
    (rows : ∀ tx ∈ txs, tx ∈ world.db.transactions)
    (distinct : Tables.Unique XmrTransaction.id txs) :
    RunsTo (selectTxsForAccountSpendabilityCheck backend txs) world
      (some (txs.filterMap (txAfterCheck backend))) (world.on (checkDb backend txs world.db))
      (checkStatements backend txs) := by
  induction txs generalizing world with
  | nil => exact .pure _ world
  | cons tx rest inductionHypothesis =>
    obtain ⟨fresh, distinctRest⟩ := List.nodup_cons.mp distinct
    have member := rows tx List.mem_cons_self
    have later : RunsTo (selectTxsForAccountSpendabilityCheck backend rest)
        (world.on (checkTx backend world.db tx))
        (some (rest.filterMap (txAfterCheck backend)))
        (world.on (checkDb backend (tx :: rest) world.db)) (checkStatements backend rest) := by
      refine inductionHypothesis (checkTx_valid backend valid tx) (fun other inRest => ?_)
        distinctRest
      exact mem_checkTx backend (rows other (List.mem_cons_of_mem _ inRest)) fun same =>
        fresh (List.mem_map.mpr ⟨other, inRest, same⟩)
    unfold selectTxsForAccountSpendabilityCheck
    unfold checkStatements at later ⊢
    rw [List.filterMap_cons, List.filter_cons]
    by_cases spendable : tx.spendable = true
    · have idle : ¬ Changes backend tx := fun changes => by
        rw [changes.1] at spendable
        cases spendable
      rw [checkTx_of_not_changes idle] at later
      unfold txAfterCheck at later ⊢
      simp only [if_pos spendable, decide_eq_false idle, Bool.false_eq_true, if_false]
      exact later.map fun checked => checked.map (tx :: ·)
    · have unmarked := eq_false_of_ne_true spendable
      by_cases unlocked : isTxUnlocked backend.status tx.unlockTime tx.height = true
      · have changes : Changes backend tx := ⟨unmarked, .inl unlocked⟩
        have marked : checkTx backend world.db tx =
            (world.db.markTxSpendable tx.id backend.status.now).2 := by
          unfold checkTx
          rw [if_neg spendable, if_pos unlocked]
        have first : RunsTo (markTxSpendable tx.id backend.status.now) world _ _ _ :=
          .statement 0 (·.markTxSpendable tx.id backend.status.now)
        rw [markTxSpendable_count valid member unmarked, ← marked] at first
        rw [if_pos (decide_eq_true changes), txAfterCheck_of_changes changes, if_pos unlocked]
        simp only [if_neg spendable, if_pos unlocked]
        refine first.bind ?_
        rw [if_neg (not_not.mpr rfl)]
        exact later.map (Option.map ({ tx with spendable := true } :: ·))
      · by_cases orphaned : Orphaned backend tx
        · have changes : Changes backend tx := ⟨unmarked, .inr orphaned⟩
          have deleted : checkTx backend world.db tx = (world.db.deleteTx tx.id).2 := by
            unfold checkTx
            rw [if_neg spendable, if_neg unlocked, if_pos orphaned]
          have first : RunsTo (deleteTx tx.id) world _ _ _ := .statement 0 (·.deleteTx tx.id)
          rw [deleteTx_count valid member, ← deleted] at first
          have condition : (backend.txExist tx.hash).getD 0 ≠ tx.blockchainTxId := orphaned
          rw [if_pos (decide_eq_true changes), txAfterCheck_of_changes changes, if_neg unlocked]
          simp only [if_neg spendable, if_neg unlocked, if_pos condition]
          exact first.bind later
        · have idle : ¬ Changes backend tx := fun changes =>
            changes.2.elim unlocked orphaned
          have condition : ¬ (backend.txExist tx.hash).getD 0 ≠ tx.blockchainTxId := orphaned
          rw [checkTx_of_not_changes idle] at later
          unfold txAfterCheck at later ⊢
          simp only [if_neg spendable, if_neg unlocked, if_neg condition, if_neg orphaned,
            decide_eq_false idle, Bool.false_eq_true, if_false]
          exact later.map fun checked => checked.map _

end Runs

/-! ### The statements of the login -/

section Login

variable (backend : Backend) (address viewKey : String) (world : World)

/-- The login reads the account, and, if it creates a search thread, the outputs of the account. -/
def loginStatements : List Bool :=
  match world.db.selectAccount address with
  | none => [false]
  | some row =>
    if backend.makeHash viewKey = row.viewkeyHash ∧ world.thread? row.address = none ∧
        backend.parsesAccount row.address viewKey = true then
      [true, backend.startsThread && !(world.db.selectOutputs row.id).isEmpty]
    else [true]

/-- What a login answers whose first statement does not throw. -/
def loginResult (acc : XmrAccount) (response : Json) : Bool × XmrAccount × Json :=
  match world.db.selectAccount address with
  | none => (false, acc, response)
  | some row =>
    let acc := { row with viewkey := viewKey }
    let success := (response.set "status" (.str "success")).set "new_address" (.bool false)
    if backend.makeHash viewKey = row.viewkeyHash then
      if world.thread? row.address ≠ none then (true, acc, success)
      else if backend.parsesAccount row.address viewKey then
        if backend.startsThread then (true, acc, success)
        else (false, acc, Json.ofError "Failed created search thread for this account")
      else (false, acc, Json.ofError "Failed to construct TxSearch object")
    else (false, row, Json.ofError "Viewkey provided is incorrect")

variable {backend address viewKey world}

theorem startTxSearchThread_absent {acc : XmrAccount} (absent : world.thread? acc.address = none)
    (txSearch : SearchThread) :
    (startTxSearchThread backend acc txSearch world).1 = backend.startsThread := by
  unfold startTxSearchThread
  rw [Handler.bind_apply, searchThreadExist_absent absent]
  simp only [Bool.false_eq_true, if_false]
  cases backend.startsThread <;> rfl

theorem loginAndStartSearchThread_result (runs : ¬ world.throws = true) (acc : XmrAccount)
    (response : Json) :
    (loginAndStartSearchThread backend address viewKey acc response world).1 =
      loginResult backend address viewKey world acc response := by
  unfold loginAndStartSearchThread loginResult
  rw [Handler.bind_apply, selectAccountRow_runs address runs]
  cases world.db.selectAccount address with
  | none => rfl
  | some row =>
    by_cases same : backend.makeHash viewKey = row.viewkeyHash
    · simp only [if_pos same, Handler.bind_apply]
      cases live : world.thread? row.address with
      | some thread =>
        have found : searchThreadExist row.address world.next = _ := searchThreadExist_found live
        rw [found]
        simp
      | none =>
        have absent : searchThreadExist row.address world.next =
            (false, world.next.visited row.address) := searchThreadExist_absent live
        rw [absent]
        unfold constructTxSearch
        by_cases parses : backend.parsesAccount row.address viewKey = true
        · simp only [parses, if_true, Handler.bind_apply, Bool.false_eq_true, if_false, ne_eq,
            not_true_eq_false, Handler.pure_apply]
          have still : ((world.next.visited row.address).next).thread? row.address = none :=
            thread?_visited_eq_none live
          have outs : (selectOutputs row.id (world.next.visited row.address)).2 =
              (world.next.visited row.address).next := query_world _ _ _
          have started := @startTxSearchThread_absent backend
            (world.next.visited row.address).next { row with viewkey := viewKey } still
          rw [outs, started]
          cases backend.startsThread <;> rfl
        · simp [parses]
    · simp only [if_neg same]
      rfl

theorem loginResult_status {acc found : XmrAccount} {response shown : Json}
    (succeeds : loginResult backend address viewKey world acc response = (true, found, shown)) :
    shown.get? "status" = some (.str "success") := by
  unfold loginResult at succeeds
  split at succeeds
  · cases succeeds
  · dsimp only at succeeds
    have set : ((response.set "status" (.str "success")).set "new_address" (.bool false)).get?
        "status" = some (.str "success") := by simp
    split at succeeds
    · split at succeeds
      · rw [← (Prod.mk.inj (Prod.mk.inj succeeds).2).2]
        exact set
      · split at succeeds
        · split at succeeds
          · rw [← (Prod.mk.inj (Prod.mk.inj succeeds).2).2]
            exact set
          · cases succeeds
        · cases succeeds
    · cases succeeds

/-- A login that fails although its first statement does not throw has made no other statement that
matters. -/
theorem loginStatements_harmless {acc : XmrAccount} {response : Json}
    (fails : (loginResult backend address viewKey world acc response).1 = false)
    (runs : ¬ world.throws = true) :
    harmless world.throwing (loginStatements backend address viewKey world) = true := by
  have first {matters : Bool} {more : List Bool}
      (later : harmless world.throwing.tail more = true) :
      harmless world.throwing (matters :: more) = true := by
    unfold World.throws at runs
    cases throwing : world.throwing with
    | nil => rfl
    | cons throws rest =>
      rw [throwing] at runs later
      cases throws with
      | false => exact later
      | true => exact absurd rfl runs
  unfold loginResult at fails
  unfold loginStatements
  split
  · exact first (harmless_nil _)
  · next row found =>
    rw [found] at fails
    dsimp only at fails
    split
    · next created =>
      rw [if_pos created.1, if_neg (not_not.mpr created.2.1), if_pos created.2.2] at fails
      refine first ?_
      split at fails
      · cases fails
      · next refuses =>
        rw [eq_false_of_ne_true refuses, Bool.false_and]
        cases world.throwing.tail with
        | nil => rfl
        | cons throws rest =>
          unfold harmless
          rw [Bool.and_false, harmless_nil]
          rfl
    · exact first (harmless_nil _)

theorem startTxSearchThread_runs {acc : XmrAccount} (absent : world.thread? acc.address = none)
    (txSearch : SearchThread) :
    RunsTo (startTxSearchThread backend acc txSearch) world
      (startTxSearchThread backend acc txSearch world).1
      (startTxSearchThread backend acc txSearch world).2 [] := by
  intro throwing _
  unfold startTxSearchThread
  rw [Handler.bind_apply, Handler.bind_apply, searchThreadExist_absent absent,
    show searchThreadExist acc.address (scripted world throwing) = _ from
      searchThreadExist_absent absent]
  cases backend.startsThread <;> rfl

/-- A search thread that is not started does not need the outputs. -/
theorem createThread_runs {Result : Type} (acc : XmrAccount)
    (txSearch : List XmrOutput → SearchThread) (succeeds fails : Result)
    (absent : world.thread? acc.address = none) :
    ∃ result after, RunsTo (selectOutputs acc.id >>= fun outs =>
        startTxSearchThread backend acc (txSearch outs) >>= fun started =>
          if started then pure succeeds else pure fails) world result after
      [backend.startsThread && !(world.db.selectOutputs acc.id).isEmpty] := by
  have ends (started : Bool) (world : World) : ∃ result after,
      RunsTo (if started then pure succeeds else pure fails) world result after [] := by
    cases started with
    | true => exact ⟨_, _, .pure _ world⟩
    | false => exact ⟨_, _, .pure _ world⟩
  cases starts : backend.startsThread with
  | true =>
    have outs : RunsTo (selectOutputs acc.id) world _ world _ :=
      .queryRows (·.selectOutputs acc.id)
    exact outs.continues ((startTxSearchThread_runs absent _).continues (ends _ _))
  | false =>
    have refuses (txSearch : SearchThread) : startTxSearchThread backend acc txSearch world =
        (false, world.visited acc.address) := by
      unfold startTxSearchThread
      rw [Handler.bind_apply, searchThreadExist_absent absent, starts]
      rfl
    refine ⟨fails, world.visited acc.address,
      .query_any [] (·.selectOutputs acc.id) fun outs => ?_⟩
    have runs := @startTxSearchThread_runs backend world acc absent (txSearch outs)
    rw [refuses] at runs
    exact runs.bind (.pure _ _)

theorem loginStatements_absent (absent : world.db.selectAccount address = none) :
    loginStatements backend address viewKey world = [false] := by
  unfold loginStatements
  rw [absent]

theorem loginStatements_created {row : XmrAccount}
    (found : world.db.selectAccount address = some row)
    (created : backend.makeHash viewKey = row.viewkeyHash ∧ world.thread? row.address = none ∧
      backend.parsesAccount row.address viewKey = true) :
    loginStatements backend address viewKey world =
      [true, backend.startsThread && !(world.db.selectOutputs row.id).isEmpty] := by
  unfold loginStatements
  rw [found]
  exact if_pos created

theorem loginStatements_other {row : XmrAccount}
    (found : world.db.selectAccount address = some row)
    (other : ¬ (backend.makeHash viewKey = row.viewkeyHash ∧ world.thread? row.address = none ∧
      backend.parsesAccount row.address viewKey = true)) :
    loginStatements backend address viewKey world = [true] := by
  unfold loginStatements
  rw [found]
  exact if_neg other

/-- The login, as long as nothing is hidden from it. -/
theorem login_runs (acc : XmrAccount) (response : Json) :
    ∃ result after,
      RunsTo (loginAndStartSearchThread backend address viewKey acc response) world result after
        (loginStatements backend address viewKey world) := by
  have first : RunsTo (selectAccountRow address) world _ world _ :=
    .queryRow (·.selectAccount address)
  unfold loginAndStartSearchThread
  cases found : world.db.selectAccount address with
  | none =>
    rw [found] at first
    rw [loginStatements_absent found]
    exact first.continues ⟨_, _, .pure _ _⟩
  | some row =>
    rw [found] at first
    by_cases same : backend.makeHash viewKey = row.viewkeyHash
    · have asks : RunsTo (searchThreadExist row.address) world _ _ [] :=
        .withThread row.address false fun thread => (true, thread)
      cases live : world.thread? row.address with
      | some thread =>
        rw [show withThread row.address false (fun thread => (true, thread)) world = _ from
          searchThreadExist_found live] at asks
        rw [loginStatements_other found fun created => nomatch live.symm.trans created.2.1]
        refine first.continues ?_
        simp only [if_pos same]
        exact asks.continues ⟨_, _, .pure _ _⟩
      | none =>
        rw [show withThread row.address false (fun thread => (true, thread)) world = _ from
          searchThreadExist_absent live] at asks
        unfold constructTxSearch
        by_cases parses : backend.parsesAccount row.address viewKey = true
        · rw [loginStatements_created found ⟨same, live, parses⟩]
          refine first.continues ?_
          simp only [if_pos same]
          refine asks.continues ?_
          simp only [Bool.false_eq_true, if_false, if_pos parses]
          rw [Handler.bind_assoc]
          exact createThread_runs { row with viewkey := viewKey } _ _ _
            (thread?_visited_eq_none live)
        · rw [loginStatements_other found fun created => parses created.2.2]
          refine first.continues ?_
          simp only [if_pos same]
          refine asks.continues ?_
          simp only [Bool.false_eq_true, if_false, if_neg parses]
          exact ⟨_, _, .pure _ _⟩
    · rw [loginStatements_other found fun created => same created.1]
      refine first.continues ?_
      simp only [if_neg same]
      exact ⟨_, _, .pure _ _⟩

end Login

/-! ### The requests that read an account -/

/-- The three requests that read the tables of an account. -/
inductive ReadRequest where
  | getAddressTxs
  | getAddressInfo
  | getUnspentOuts
  deriving DecidableEq

namespace ReadRequest

variable (backend : Backend)

/-- The handler of the request. -/
def answer : ReadRequest → Option Json → Handler Answer
  | .getAddressTxs, body => LightWallet.getAddressTxs backend body
  | .getAddressInfo, body => LightWallet.getAddressInfo backend body
  | .getUnspentOuts, body => LightWallet.getUnspentOuts backend body

/-- The address, the view key and the dust threshold of a request that gets as far as the
database. -/
def asked (body : Option Json) : ReadRequest → Option (String × String × Nat)
  | .getUnspentOuts =>
    match parseRequest body
        ["address", "view_key", "mixin", "use_dust", "dust_threshold", "amount"] .null with
    | .error _ => none
    | .ok request => readUnspentRequest backend request
  | _ =>
    match parseRequest body ["address", "view_key"] .null with
    | .error _ => none
    | .ok request =>
      match readCredentials backend request with
      | .error _ => none
      | .ok (address, viewKey) => some (address, viewKey, 0)

/-- One of the requests wants a search thread before it logs in. -/
def enter (address : String) : ReadRequest → Handler Bool
  | .getUnspentOuts => searchThreadExist address
  | _ => pure true

/-- The response that the login is given. -/
def initialResponse : ReadRequest → Json
  | .getAddressTxs => addressTxsResponse
  | .getAddressInfo => addressInfoResponse
  | .getUnspentOuts => unspentOutsResponse backend

/-- The answer to a request whose login fails, with the response of the login. -/
def refuse (response : Json) : ReadRequest → Answer
  | .getUnspentOuts => sessionClose response
  | _ => threadMissing

/-- What follows the login. -/
def proceed (address : String) (dustThreshold : Nat) (acc : XmrAccount) (response : Json) :
    ReadRequest → Handler Answer
  | .getAddressTxs => do
    let read ← readAddress backend address acc
    pure (addressTxsAnswer
      (accountHeader backend acc (response.set "total_received" (.ofNat 0))) read)
  | .getAddressInfo => do
    let _ ← searchThreadExist address
    followRow address acc
    let read ← readInfo backend acc
    pure (addressInfoAnswer
      (accountHeader backend acc (response.set "total_received" (.str "0"))) read)
  | .getUnspentOuts => do
    let txs ← selectTransactions acc.id
    let unspent ← readUnspent backend dustThreshold txs
    pure (unspentOutsAnswer backend response unspent)

/-- A request that gets as far as the database. -/
def serve (request : ReadRequest) (address viewKey : String) (dustThreshold : Nat) :
    Handler Answer := do
  if ← request.enter address then
    match ← loginAndStartSearchThread backend address viewKey {} (request.initialResponse backend)
      with
    | (false, _, response) => pure (request.refuse response)
    | (true, acc, response) => request.proceed backend address dustThreshold acc response
  else pure threadMissing

section Asked

variable {backend} {request : ReadRequest} {body : Option Json}

theorem credentials_of_asked (reads : request ≠ .getUnspentOuts)
    {address viewKey : String} {dustThreshold : Nat}
    (isAsked : request.asked backend body = some (address, viewKey, dustThreshold)) :
    ∃ json, parseRequest body ["address", "view_key"] .null = .ok json ∧
      readCredentials backend json = .ok (address, viewKey) ∧ dustThreshold = 0 := by
  unfold asked at isAsked
  split at isAsked
  · exact absurd rfl reads
  · split at isAsked
    · cases isAsked
    · next json parsed =>
      split at isAsked
      · cases isAsked
      · next credentials =>
        cases isAsked
        exact ⟨json, parsed, credentials, rfl⟩

theorem unspent_of_asked {address viewKey : String} {dustThreshold : Nat}
    (isAsked : getUnspentOuts.asked backend body = some (address, viewKey, dustThreshold)) :
    ∃ json, parseRequest body
        ["address", "view_key", "mixin", "use_dust", "dust_threshold", "amount"] .null = .ok json ∧
      readUnspentRequest backend json = some (address, viewKey, dustThreshold) := by
  unfold asked at isAsked
  dsimp only at isAsked
  split at isAsked
  · cases isAsked
  · next json parsed => exact ⟨json, parsed, isAsked⟩

theorem answer_asked {address viewKey : String} {dustThreshold : Nat}
    (isAsked : request.asked backend body = some (address, viewKey, dustThreshold)) :
    request.answer backend body = request.serve backend address viewKey dustThreshold := by
  cases request with
  | getAddressTxs =>
    obtain ⟨json, parsed, credentials, rfl⟩ := credentials_of_asked (by decide) isAsked
    unfold answer LightWallet.getAddressTxs
    simp only [parsed, credentials]
    rfl
  | getAddressInfo =>
    obtain ⟨json, parsed, credentials, rfl⟩ := credentials_of_asked (by decide) isAsked
    unfold answer LightWallet.getAddressInfo
    simp only [parsed, credentials]
    rfl
  | getUnspentOuts =>
    obtain ⟨json, parsed, values⟩ := unspent_of_asked isAsked
    unfold answer LightWallet.getUnspentOuts
    simp only [parsed, values]
    rfl

/-- A request that does not get as far as the database does nothing. -/
theorem answer_unasked (unasked : request.asked backend body = none) :
    ∃ answer, request.answer backend body = pure answer := by
  unfold asked at unasked
  cases request with
  | getAddressTxs =>
    show ∃ answer, LightWallet.getAddressTxs backend body = pure answer
    unfold LightWallet.getAddressTxs
    dsimp only at unasked
    split
    · exact ⟨_, rfl⟩
    · next json parsed =>
      rw [parsed] at unasked
      split
      · exact ⟨_, rfl⟩
      · next credentials =>
        dsimp only at unasked
        rw [credentials] at unasked
        cases unasked
  | getAddressInfo =>
    show ∃ answer, LightWallet.getAddressInfo backend body = pure answer
    unfold LightWallet.getAddressInfo
    dsimp only at unasked
    split
    · exact ⟨_, rfl⟩
    · next json parsed =>
      rw [parsed] at unasked
      split
      · exact ⟨_, rfl⟩
      · next credentials =>
        dsimp only at unasked
        rw [credentials] at unasked
        cases unasked
  | getUnspentOuts =>
    show ∃ answer, LightWallet.getUnspentOuts backend body = pure answer
    unfold LightWallet.getUnspentOuts
    dsimp only at unasked
    split
    · exact ⟨_, rfl⟩
    · next json parsed =>
      rw [parsed] at unasked
      rw [show readUnspentRequest backend json = none from unasked]
      exact ⟨_, rfl⟩

end Asked

/-! ### What a request reads after its login -/

/-- The statements that follow a login. -/
def restStatements (address : String) (dustThreshold : Nat) (acc : XmrAccount) (world : World) :
    ReadRequest → List Bool
  | .getAddressTxs =>
    (!(world.db.selectTransactions acc.id).isEmpty) ::
      (checkStatements backend (world.db.selectTransactions acc.id) ++
        (txsStatements (checkAccount backend acc.id world.db)
            ((world.db.selectTransactions acc.id).filterMap (txAfterCheck backend)) ++
          mempoolStatements backend (checkAccount backend acc.id world.db)
            (world.thread? address)))
  | .getAddressInfo =>
    (!(world.db.selectTransactions acc.id).isEmpty) ::
      (checkStatements backend (world.db.selectTransactions acc.id) ++
        infoStatements (checkAccount backend acc.id world.db)
          ((world.db.selectTransactions acc.id).filterMap (txAfterCheck backend)))
  | .getUnspentOuts =>
    (!(world.db.selectTransactions acc.id).isEmpty) ::
      unspentStatements backend world.db dustThreshold (world.db.selectTransactions acc.id)

/-- The statements of the login, and of what follows it when it succeeds. -/
def loggedStatements (address viewKey : String) (dustThreshold : Nat) (world : World)
    (request : ReadRequest) : List Bool :=
  match loginAndStartSearchThread backend address viewKey {} (request.initialResponse backend)
      (scripted world []) with
  | ((false, _, _), _) => loginStatements backend address viewKey world
  | ((true, acc, _), after) =>
    loginStatements backend address viewKey world ++
      request.restStatements backend address dustThreshold acc after

/-- The statements of a request that gets as far as the database. -/
def serveStatements (address viewKey : String) (dustThreshold : Nat) (world : World)
    (request : ReadRequest) : List Bool :=
  if (request.enter address world).1 then
    request.loggedStatements backend address viewKey dustThreshold (request.enter address world).2
  else []

/-- The statements of a request, as long as nothing is hidden from it. -/
def statements (body : Option Json) (world : World) (request : ReadRequest) : List Bool :=
  match request.asked backend body with
  | none => []
  | some (address, viewKey, dustThreshold) =>
    request.serveStatements backend address viewKey dustThreshold world

section Rest

variable {backend} {world : World}

theorem checkAccount_runs (valid : world.db.Valid) (accountId : Nat) :
    RunsTo (selectTxsForAccountSpendabilityCheck backend (world.db.selectTransactions accountId))
      world (some ((world.db.selectTransactions accountId).filterMap (txAfterCheck backend)))
      (world.on (checkAccount backend accountId world.db))
      (checkStatements backend (world.db.selectTransactions accountId)) :=
  check_runs _ valid (fun _ member => (List.mem_filter.mp member).1)
    (valid.transactionIds.filter _)

theorem readAddress_runs (valid : world.db.Valid) (address : String) (dustThreshold : Nat)
    (acc : XmrAccount) :
    ∃ read after, RunsTo (readAddress backend address acc) world read after
      (getAddressTxs.restStatements backend address dustThreshold acc world) := by
  have first : RunsTo (selectTransactions acc.id) world _ world _ :=
    .queryRows (·.selectTransactions acc.id)
  refine first.continues ((checkAccount_runs valid acc.id).continues ?_)
  obtain ⟨entries, reads⟩ := @readAddressTxs_runs
    (world.on (checkAccount backend acc.id world.db))
    ((world.db.selectTransactions acc.id).filterMap (txAfterCheck backend))
  obtain ⟨mempool, after, finds⟩ := @findTxsInMempool_runs backend
    (world.on (checkAccount backend acc.id world.db)) address
  exact ⟨_, _, reads.bind (finds.map (AddressTxs.mk (some entries)))⟩

theorem readInfo_runs (valid : world.db.Valid) (address : String) (dustThreshold : Nat)
    (acc : XmrAccount) :
    ∃ read after, RunsTo (readInfo backend acc) world read after
      (getAddressInfo.restStatements backend address dustThreshold acc world) := by
  have first : RunsTo (selectTransactions acc.id) world _ world _ :=
    .queryRows (·.selectTransactions acc.id)
  refine first.continues ((checkAccount_runs valid acc.id).continues ?_)
  obtain ⟨outputs, reads⟩ := @readAddressOutputs_runs
    (world.on (checkAccount backend acc.id world.db))
    ((world.db.selectTransactions acc.id).filterMap (txAfterCheck backend))
  exact ⟨_, _, reads.map some⟩

theorem setNewSearchedBlkNo_runs (address : String) (newValue : Nat) (world : World) :
    RunsTo (setNewSearchedBlkNo address newValue) world
      (setNewSearchedBlkNo address newValue world).1
      (setNewSearchedBlkNo address newValue world).2 [] := by
  intro throwing harmlessNone
  have runs := @RunsTo.withThread _ world address false
    (fun thread => (true, thread.setSearchedBlkNo newValue)) throwing harmlessNone
  unfold setNewSearchedBlkNo
  rw [runs]
  obtain ⟨found, after⟩ := withThread address false
    (fun thread => (true, thread.setSearchedBlkNo newValue)) world
  cases found <;> rfl

/-- Following the row makes no statement. -/
theorem followRow_runs (address : String) (acc : XmrAccount) (world : World) :
    ∃ after, RunsTo (followRow address acc) world () after [] := by
  have asks : RunsTo (getSearchedBlkNo address) world _ _ [] :=
    .withThread address none fun thread => (some thread.searchedBlkNo, thread)
  suffices ends : ∃ done after, RunsTo (followRow address acc) world done after [] by
    obtain ⟨done, after, runs⟩ := ends
    exact ⟨after, runs⟩
  refine asks.continues ?_
  generalize (withThread address none _ world).2 = between
  cases (withThread address none _ world).1 with
  | none => exact ⟨_, _, .pure _ between⟩
  | some searchedBlkNo =>
    dsimp only
    split
    · have moves := setNewSearchedBlkNo_runs address acc.scannedBlockHeight between
      exact ⟨_, _, moves.bind (.pure _ _)⟩
    · exact ⟨_, _, .pure _ between⟩

theorem runsTo_db {Result : Type} {handler : Handler Result} {result : Result} {after : World}
    {statements : List Bool} (keeps : Balances.KeepsTables handler)
    (runs : RunsTo handler world result after statements) : after.db = world.db := by
  have kept := (keeps (scripted world []) rfl).2
  rwa [runs.eq_quiet] at kept

/-- What follows the login, as long as nothing is hidden from it. -/
theorem proceed_runs (valid : world.db.Valid) (request : ReadRequest) (address : String)
    (dustThreshold : Nat) (acc : XmrAccount) (response : Json) :
    ∃ answer after,
      RunsTo (request.proceed backend address dustThreshold acc response) world answer after
        (request.restStatements backend address dustThreshold acc world) := by
  cases request with
  | getAddressTxs =>
    obtain ⟨read, after, reads⟩ := readAddress_runs valid address dustThreshold acc
    exact ⟨_, _, reads.map (addressTxsAnswer
      (accountHeader backend acc (response.set "total_received" (.ofNat 0))))⟩
  | getAddressInfo =>
    have pings : RunsTo (searchThreadExist address) world _ _ [] :=
      .withThread address false fun thread => (true, thread)
    obtain ⟨followed, follows⟩ := followRow_runs address acc
      (withThread address false (fun thread => (true, thread)) world).2
    have same : followed.db = world.db :=
      (runsTo_db (Balances.followRow_keepsTables address acc) follows).trans
        (runsTo_db (.withThread address false fun thread => (true, thread)) pings)
    obtain ⟨read, after, reads⟩ := @readInfo_runs backend followed (same ▸ valid) address
      dustThreshold acc
    have sameStatements : getAddressInfo.restStatements backend address dustThreshold acc followed =
        getAddressInfo.restStatements backend address dustThreshold acc world := by
      unfold restStatements
      rw [same]
    rw [sameStatements] at reads
    exact ⟨_, _, pings.bind (follows.bind (reads.map (addressInfoAnswer
      (accountHeader backend acc (response.set "total_received" (.str "0"))))))⟩
  | getUnspentOuts =>
    have first : RunsTo (selectTransactions acc.id) world _ world _ :=
      .queryRows (·.selectTransactions acc.id)
    obtain ⟨unspent, reads⟩ := @readUnspent_runs backend world dustThreshold
      (world.db.selectTransactions acc.id)
    exact ⟨_, _, first.bind (reads.map (unspentOutsAnswer backend response))⟩

theorem enter_keepsTables (request : ReadRequest) (address : String) :
    Balances.KeepsTables (request.enter address) := by
  cases request with
  | getAddressTxs => exact .pure _
  | getAddressInfo => exact .pure _
  | getUnspentOuts => exact .withThread address false fun thread => (true, thread)

theorem enter_runs (request : ReadRequest) (address : String) :
    RunsTo (request.enter address) world (request.enter address world).1
      (request.enter address world).2 [] := by
  cases request with
  | getAddressTxs => exact .pure _ _
  | getAddressInfo => exact .pure _ _
  | getUnspentOuts => exact .withThread address false fun thread => (true, thread)

/-- A request that gets as far as the database, as long as nothing is hidden from it. -/
theorem serve_runs (valid : world.db.Valid) (request : ReadRequest) (address viewKey : String)
    (dustThreshold : Nat) :
    ∃ answer after,
      RunsTo (request.serve backend address viewKey dustThreshold) world answer after
        (request.serveStatements backend address viewKey dustThreshold world) := by
  have same : (request.enter address world).2.db = world.db :=
    runsTo_db (enter_keepsTables request address) (enter_runs request address)
  have enters := @enter_runs world request address
  unfold serve serveStatements
  cases live : (request.enter address world).1 with
  | false =>
    rw [live] at enters
    exact ⟨_, _, enters.bind (.pure threadMissing _)⟩
  | true =>
    rw [live] at enters
    generalize (request.enter address world).2 = between at same enters ⊢
    obtain ⟨⟨success, acc, response⟩, after, logs⟩ := @login_runs backend address viewKey between {}
      (request.initialResponse backend)
    rw [if_pos rfl]
    unfold loggedStatements
    rw [logs.eq_quiet]
    cases success with
    | false => exact ⟨_, _, enters.bind (logs.silent (.pure (request.refuse response) after))⟩
    | true =>
      have kept := runsTo_db (Balances.loginAndStartSearchThread_keepsTables backend address viewKey
        {} (request.initialResponse backend)) logs
      have validAfter : after.db.Valid := kept.trans same ▸ valid
      obtain ⟨answer, last, proceeds⟩ :=
        proceed_runs validAfter request address dustThreshold acc response
      exact ⟨answer, last, enters.bind (logs.bind proceeds)⟩

end Rest

/-! ### The errors that are reported -/

/-- The response says that it is an error. An exception that leaves the request is no response. -/
def IsError : Answer → Prop
  | .closed _ body => body.get? "status" = some (.str "error")
  | .escaped => False

/-- A response that is no error is the one without failures, and when a statement that finds rows,
or changes some, has thrown, the response is an error. -/
def ReportsFailures (body : Option Json) (world : World) (request : ReadRequest) : Prop :=
  let answer := (request.answer backend body world).1
  (¬ IsError answer → answer = (request.answer backend body (scripted world [])).1) ∧
    (harmless world.throwing (request.statements backend body world) = false → IsError answer)

section Reports

variable {backend} {world : World}

theorem answer_of_harmless (valid : world.db.Valid) (request : ReadRequest) {body : Option Json}
    (isHarmless : harmless world.throwing (request.statements backend body world) = true) :
    (request.answer backend body world).1 =
      (request.answer backend body (scripted world [])).1 := by
  unfold statements at isHarmless
  cases isAsked : request.asked backend body with
  | none =>
    obtain ⟨answer, isAnswer⟩ := answer_unasked isAsked
    rw [isAnswer]
    rfl
  | some values =>
    obtain ⟨address, viewKey, dustThreshold⟩ := values
    rw [isAsked] at isHarmless
    rw [answer_asked isAsked]
    obtain ⟨answer, after, serves⟩ :=
      @serve_runs backend world valid request address viewKey dustThreshold
    have actual : request.serve backend address viewKey dustThreshold world = (answer, _) :=
      serves world.throwing isHarmless
    rw [serves.eq_quiet, actual]

/-- After a login, what the request answers is no error. -/
theorem proceed_not_isError (request : ReadRequest) (address : String) (dustThreshold : Nat)
    (acc : XmrAccount) {response : Json}
    (succeeded : response.get? "status" = some (.str "success")) :
    ¬ IsError (request.proceed backend address dustThreshold acc response world).1 := by
  have shows {body : Json} (same : body.get? "status" = response.get? "status") :
      ¬ IsError (sessionClose body) := by
    intro isError
    have isError : body.get? "status" = some (.str "error") := isError
    rw [same, succeeded] at isError
    simp at isError
  cases request with
  | getAddressTxs =>
    show ¬ IsError (addressTxsAnswer _ (readAddress backend address acc world).1)
    unfold addressTxsAnswer accountHeader
    split
    · exact shows (by simp)
    · exact id
    · exact shows (by simp)
  | getAddressInfo =>
    simp only [proceed, Handler.bind_apply, Handler.pure_apply]
    unfold addressInfoAnswer accountHeader
    split
    · exact shows (by simp)
    · exact shows (by simp)
  | getUnspentOuts =>
    simp only [proceed, Handler.bind_apply, Handler.pure_apply]
    unfold unspentOutsAnswer
    exact shows (by simp)

theorem serve_refuses {request : ReadRequest} {address viewKey : String} {dustThreshold : Nat}
    {acc : XmrAccount} {response : Json}
    (live : (request.enter address world).1 = true)
    (fails : (loginAndStartSearchThread backend address viewKey {}
      (request.initialResponse backend) (request.enter address world).2).1 =
        (false, acc, response)) :
    (request.serve backend address viewKey dustThreshold world).1 = request.refuse response := by
  unfold serve
  rw [Handler.bind_apply, live]
  simp only [if_true, Handler.bind_apply]
  rw [fails]
  rfl

theorem serve_proceeds {request : ReadRequest} {address viewKey : String} {dustThreshold : Nat}
    {acc : XmrAccount} {response : Json}
    (live : (request.enter address world).1 = true)
    (succeeds : (loginAndStartSearchThread backend address viewKey {}
      (request.initialResponse backend) (request.enter address world).2).1 =
        (true, acc, response)) :
    (request.serve backend address viewKey dustThreshold world).1 =
      (request.proceed backend address dustThreshold acc response
        (loginAndStartSearchThread backend address viewKey {}
          (request.initialResponse backend) (request.enter address world).2).2).1 := by
  unfold serve
  rw [Handler.bind_apply, live]
  simp only [if_true, Handler.bind_apply]
  rw [succeeds]

/-- Entering does not touch the script. -/
theorem enter_throwing (request : ReadRequest) (address : String) :
    (request.enter address world).2.throwing = world.throwing := by
  cases request with
  | getAddressTxs => rfl
  | getAddressInfo => rfl
  | getUnspentOuts =>
    unfold enter searchThreadExist withThread
    dsimp only
    split <;> rfl

theorem login_throws {address viewKey : String} (throws : world.throws = true) (acc : XmrAccount)
    (response : Json) :
    (loginAndStartSearchThread backend address viewKey acc response world).1 =
      (false, acc, response) := by
  unfold loginAndStartSearchThread
  rw [Handler.bind_apply, selectAccountRow_throws address throws]
  rfl

/-- When the login is refused although its first statement does not throw, no statement that
matters has thrown. -/
theorem harmless_of_refused {request : ReadRequest} {address viewKey : String}
    {dustThreshold : Nat} (runs : ¬ world.throws = true)
    (refused : (loginResult backend address viewKey world {} (request.initialResponse backend)).1 =
      false) :
    harmless world.throwing
      (request.loggedStatements backend address viewKey dustThreshold world) = true := by
  have quiet := @loginAndStartSearchThread_result backend address viewKey (scripted world [])
    Bool.false_ne_true {} (request.initialResponse backend)
  have same : loginResult backend address viewKey (scripted world []) {}
      (request.initialResponse backend) =
      loginResult backend address viewKey world {} (request.initialResponse backend) := rfl
  have alone : request.loggedStatements backend address viewKey dustThreshold world =
      loginStatements backend address viewKey world := by
    unfold loggedStatements
    rw [same] at quiet
    generalize loginAndStartSearchThread backend address viewKey {}
      (request.initialResponse backend) (scripted world []) = login at quiet ⊢
    obtain ⟨⟨success, acc, response⟩, after⟩ := login
    have fails : success = false := (congrArg Prod.fst quiet).trans refused
    rw [fails]
  rw [alone]
  exact loginStatements_harmless refused runs

/-- A request from which something is hidden answers without an error, unless it does not get to
read the account. -/
theorem serve_not_isError {request : ReadRequest} {address viewKey : String} {dustThreshold : Nat}
    (harmful : ¬ harmless world.throwing
      (request.serveStatements backend address viewKey dustThreshold world) = true)
    (reads : request ≠ .getUnspentOuts → ¬ world.throws = true) :
    ¬ IsError (request.serve backend address viewKey dustThreshold world).1 := by
  have sameScript := @enter_throwing world request address
  have sameThrows : (request.enter address world).2.throws = world.throws :=
    congrArg (List.headD · false) sameScript
  unfold serveStatements at harmful
  cases live : (request.enter address world).1 with
  | false =>
    rw [live] at harmful
    exact absurd (harmless_nil _) harmful
  | true =>
    rw [live, if_pos rfl, ← sameScript] at harmful
    by_cases throws : world.throws = true
    · -- only the request for the unspent outputs is left
      have unspent : request = .getUnspentOuts := not_not.mp fun other => reads other throws
      rw [serve_refuses live (login_throws (sameThrows.trans throws) {} _), unspent]
      show ¬ (unspentOutsResponse backend).get? "status" = some (.str "error")
      simp [unspentOutsResponse]
    · have runs : ¬ (request.enter address world).2.throws = true := sameThrows ▸ throws
      have result := @loginAndStartSearchThread_result backend address viewKey _ runs {}
        (request.initialResponse backend)
      cases isResult : loginResult backend address viewKey (request.enter address world).2 {}
          (request.initialResponse backend) with
      | mk success rest =>
        rw [isResult] at result
        cases success with
        | false => exact absurd (harmless_of_refused runs (congrArg Prod.fst isResult)) harmful
        | true =>
          rw [serve_proceeds live result]
          exact proceed_not_isError request address dustThreshold rest.1
            (loginResult_status isResult)

/-- Failures are reported if and only if none of the statements that matter throws, or the
statement that reads the account throws and the request is not the one for the unspent outputs. -/
theorem reportsFailures_iff (valid : world.db.Valid) (request : ReadRequest) (body : Option Json) :
    request.ReportsFailures backend body world ↔
      harmless world.throwing (request.statements backend body world) = true ∨
        request ≠ .getUnspentOuts ∧ (request.asked backend body).isSome ∧ world.throws = true := by
  constructor
  · rintro ⟨-, errs⟩
    by_contra neither
    obtain ⟨harmful, otherwise⟩ := not_or.mp neither
    have isError := errs (eq_false_of_ne_true harmful)
    unfold statements at harmful
    cases isAsked : request.asked backend body with
    | none =>
      rw [isAsked] at harmful
      exact harmful (harmless_nil _)
    | some values =>
      rw [isAsked] at harmful otherwise
      rw [answer_asked isAsked] at isError
      exact serve_not_isError harmful (fun other throws => otherwise ⟨other, rfl, throws⟩) isError
  · rintro (isHarmless | ⟨other, asks, throws⟩)
    · refine ⟨fun _ => answer_of_harmless valid request isHarmless, fun harmful => ?_⟩
      rw [isHarmless] at harmful
      cases harmful
    · obtain ⟨⟨address, viewKey, dustThreshold⟩, isAsked⟩ := Option.isSome_iff_exists.mp asks
      have isError : IsError (request.answer backend body world).1 := by
        rw [answer_asked isAsked]
        cases request with
        | getAddressTxs =>
          rw [serve_refuses rfl (login_throws throws {} _)]
          rfl
        | getAddressInfo =>
          rw [serve_refuses rfl (login_throws throws {} _)]
          rfl
        | getUnspentOuts => exact absurd rfl other
      exact ⟨fun noError => absurd isError noError, fun _ => isError⟩

end Reports

end ReadRequest

/-! ### A wallet that looks empty -/

/-- An account with two transactions, and a script of failures. -/
def sample (throwing : List Bool) : World :=
  { db := Runs.run Balances.step {} Balances.ownSpent, throwing }

theorem sample_valid (throwing : List Bool) : (sample throwing).db.Valid :=
  (Balances.balanced_run Balances.ownSpent (by decide +kernel)).1

/-- The first transaction has no inputs, so that the statement which selects them may throw. -/
theorem reportsFailures_iff_sample :
    ReadRequest.getAddressTxs.ReportsFailures Balances.backend (some (Balances.request "4ApA"))
      (sample [false, false, false, true]) :=
  (ReadRequest.reportsFailures_iff (sample_valid [false, false, false, true]) .getAddressTxs
    (some (Balances.request "4ApA"))).mpr (.inl (by decide +kernel))

/-- How many transactions the answer lists. -/
def countTxs (answer : Answer) : Option Nat :=
  (Balances.Answer.get? answer "transactions").map fun txs => (Balances.items txs).length

/-- The statement that selects the transactions throws, after those that read the account and its
outputs: the wallet is reported as empty. -/
theorem failure_not_reported :
    ¬ ReadRequest.getAddressTxs.ReportsFailures Balances.backend (some (Balances.request "4ApA"))
      (sample [false, false, true]) := by
  rintro ⟨same, -⟩
  have hidden : countTxs (ReadRequest.getAddressTxs.answer Balances.backend
      (some (Balances.request "4ApA")) (sample [false, false, true])).1 = some 0 := by
    decide +kernel
  have stored : countTxs (ReadRequest.getAddressTxs.answer Balances.backend
      (some (Balances.request "4ApA")) (sample [])).1 = some 2 := by
    decide +kernel
  have status : (Balances.Answer.get? (ReadRequest.getAddressTxs.answer Balances.backend
      (some (Balances.request "4ApA")) (sample [false, false, true])).1 "status" >>=
        Json.asString?) = some "success" := by
    decide +kernel
  rw [same fun isError => ?_] at hidden
  · exact absurd (hidden.symm.trans stored) (by decide)
  · generalize (ReadRequest.getAddressTxs.answer Balances.backend
      (some (Balances.request "4ApA")) (sample [false, false, true])).1 = answer at isError status
    cases answer with
    | escaped => exact isError
    | closed code body =>
      have isError : Balances.Answer.get? (.closed code body) "status" = _ := isError
      rw [isError] at status
      exact absurd status (by decide)

end LightWallet.Failures
