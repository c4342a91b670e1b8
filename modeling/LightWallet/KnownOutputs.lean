/-
This file settles whether the cache of known outputs covers the rows of `Outputs`.

The cache is filled once, from a query that reads nothing when it fails. A pass puts the
keys it has identified into it before their rows are committed, and a key that is there
keeps its amount. Rows disappear in several ways, but the cache only grows.
-/

import LightWallet.Balances
import LightWallet.Service

namespace LightWallet

/-! ### The cache -/

/-- `unordered_map::find`. -/
def KnownOutputs.amountOf (known : KnownOutputs) (pubKey : String) : Option UInt64 :=
  (known.find? (·.1 = pubKey)).map (·.2)

/-- The keys of identified outputs are put in one by one. -/
def KnownOutputs.insertAll (known : KnownOutputs) (infos : List OutputInfo) : KnownOutputs :=
  infos.foldl (fun known info => known.insert info.pubKey info.amount) known

/-- Every key of the first cache is in the second, with the same amount. -/
def KnownOutputs.Within (first second : KnownOutputs) : Prop :=
  ∀ pubKey amount, first.amountOf pubKey = some amount → second.amountOf pubKey = some amount

namespace KnownOutputs

variable {known : KnownOutputs}

theorem amountOf_insert (known : KnownOutputs) (pubKey other : String) (amount : UInt64) :
    (known.insert pubKey amount).amountOf other =
      if other = pubKey then some ((known.amountOf pubKey).getD amount)
      else known.amountOf other := by
  unfold KnownOutputs.insert
  cases found : known.find? (·.1 = pubKey) with
  | none =>
    have absent : ¬ known.any (·.1 = pubKey) = true := fun present => by
      obtain ⟨entry, member, same⟩ := List.any_eq_true.mp present
      exact List.find?_eq_none.mp found entry member same
    rw [if_neg absent]
    unfold amountOf
    rw [List.find?_append, found]
    by_cases here : other = pubKey
    · subst here
      rw [found, if_pos rfl]
      simp
    · rw [if_neg here]
      simp [Ne.symm here]
  | some entry =>
    have same := List.find?_some found
    have present : known.any (·.1 = pubKey) = true :=
      List.any_eq_true.mpr ⟨entry, List.mem_of_find?_eq_some found, same⟩
    rw [if_pos present]
    by_cases here : other = pubKey
    · subst here
      rw [if_pos rfl]
      unfold amountOf
      rw [found]
      rfl
    · rw [if_neg here]

theorem Within.refl (known : KnownOutputs) : known.Within known := fun _ _ found => found

theorem Within.trans {first second third : KnownOutputs} (here : first.Within second)
    (there : second.Within third) : first.Within third :=
  fun pubKey amount found => there pubKey amount (here pubKey amount found)

/-- A key that is present keeps its amount. -/
theorem within_insert (known : KnownOutputs) (pubKey : String) (amount : UInt64) :
    known.Within (known.insert pubKey amount) := by
  intro other present found
  rw [amountOf_insert]
  split
  · next here => rw [← here, found, Option.getD_some]
  · exact found

theorem insertAll_append (known : KnownOutputs) (first second : List OutputInfo) :
    known.insertAll (first ++ second) = (known.insertAll first).insertAll second :=
  List.foldl_append

/-- A key has the amount it had, or the first one that it is put in with. -/
theorem amountOf_insertAll (infos : List OutputInfo) (known : KnownOutputs) (key : String) :
    (known.insertAll infos).amountOf key =
      (known.amountOf key).or ((infos.find? (·.pubKey = key)).map (·.amount)) := by
  induction infos generalizing known with
  | nil => exact (Option.or_none).symm
  | cons info rest inductionHypothesis =>
    show ((known.insert info.pubKey info.amount).insertAll rest).amountOf key = _
    rw [inductionHypothesis, amountOf_insert]
    by_cases here : key = info.pubKey
    · subst here
      have found : (info :: rest).find? (·.pubKey = info.pubKey) = some info :=
        List.find?_cons_of_pos (decide_eq_true rfl)
      rw [if_pos rfl, found]
      cases known.amountOf info.pubKey <;> rfl
    · have passed : (info :: rest).find? (·.pubKey = key) = rest.find? (·.pubKey = key) :=
        List.find?_cons_of_neg (by simpa using Ne.symm here)
      rw [if_neg here, passed]

/-- Of different keys, each gets the amount that was put in with it, unless it was there. -/
theorem amountOf_insertAll_of_unique {infos : List OutputInfo}
    (unique : Tables.Unique OutputInfo.pubKey infos) (known : KnownOutputs) {info : OutputInfo}
    (member : info ∈ infos) :
    (known.insertAll infos).amountOf info.pubKey =
      some ((known.amountOf info.pubKey).getD info.amount) := by
  have found : infos.find? (·.pubKey = info.pubKey) = some info :=
    Tables.find?_eq_some_of_unique member (decide_eq_true rfl) fun other inRows same =>
      unique.eq_of_key inRows member (of_decide_eq_true same)
  rw [amountOf_insertAll, found]
  cases known.amountOf info.pubKey <;> rfl

end KnownOutputs

/-! ### The cache after a pass -/

theorem collectOutputs_within (row : OutputInfo → Nat → XmrOutput) (indices : List Nat)
    (infos : List OutputInfo) (known : KnownOutputs) :
    known.Within (collectOutputs row indices infos known).2 := by
  induction infos generalizing known with
  | nil => exact KnownOutputs.Within.refl known
  | cons info rest inductionHypothesis =>
    unfold collectOutputs
    split
    · exact KnownOutputs.Within.refl known
    · exact (KnownOutputs.within_insert known info.pubKey info.amount).trans (inductionHypothesis _)

theorem collectOutputs_all (row : OutputInfo → Nat → XmrOutput) (indices : List Nat)
    (infos : List OutputInfo) (known : KnownOutputs)
    (collected : (collectOutputs row indices infos known).1 ≠ none) :
    (collectOutputs row indices infos known).2 = known.insertAll infos := by
  induction infos generalizing known with
  | nil => rfl
  | cons info rest inductionHypothesis =>
    unfold collectOutputs at collected ⊢
    split at collected
    · exact absurd rfl collected
    · exact inductionHypothesis _ fun none => collected (congrArg (Option.map _) none)

/-- The pass that a step goes on with, or that it leaves. -/
def Step.pass : Step → Pass
  | .go pass => pass
  | .leave _ pass => pass

/-- A step that keeps the cache within. -/
def Step.Keeps (known : KnownOutputs) (step : Step) : Prop := step.pass.known = known

theorem Step.Keeps.andThen {known : KnownOutputs} {step : Step} (keeps : step.Keeps known)
    {rest : Pass → Step} (later : ∀ pass, pass.known = known → (rest pass).Keeps known) :
    (step.andThen rest).Keeps known := by
  cases step with
  | go pass => exact later pass keeps
  | leave exit pass => exact keeps

section Parts

variable (wallet : Wallet) (status : Status) (tuple : TxTuple) (tx : Transaction)
  (outcomes : Outcomes)

theorem lookUpTx_keeps (answers : Bool) (pass : Pass) :
    (lookUpTx tx outcomes answers pass).Keeps pass.known := by
  unfold lookUpTx
  split <;> rfl

theorem openTransaction_keeps (pass : Pass) :
    (openTransaction wallet tuple tx outcomes pass).Keeps pass.known := by
  have begins : (beginTransaction outcomes (stampBlock tuple pass)).Keeps pass.known := by
    unfold beginTransaction
    split <;> rfl
  refine begins.andThen fun pass same => ?_
  unfold deleteExistingTxIfExists
  dsimp only
  split
  · exact same
  · split <;> exact same

theorem insertTransactionRow_known (totalReceived totalSent : UInt64) (pass : Pass) :
    (insertTransactionRow wallet status tuple tx outcomes totalReceived totalSent pass).known =
      pass.known := by
  unfold insertTransactionRow
  dsimp only
  split <;> rfl

theorem insertInputRows_keeps (found : List XmrInput) (pass : Pass) :
    (insertInputRows outcomes found pass).Keeps pass.known := by
  unfold insertInputRows
  split
  · rfl
  · split <;> rfl

theorem openForInputs_keeps (pass : Pass) :
    (openForInputs wallet tuple tx outcomes pass).Keeps pass.known := by
  unfold openForInputs
  refine Step.Keeps.andThen ?_ fun pass same => ?_
  · split
    · exact openTransaction_keeps wallet tuple tx outcomes pass
    · rfl
  · split
    · exact same ▸ lookUpTx_keeps tx outcomes outcomes.txExistAnswersAgain pass
    · exact same

theorem inputsPart_keeps (inputs : List InputInfo) (pass : Pass) :
    (inputsPart wallet status tuple tx outcomes inputs pass).Keeps pass.known := by
  unfold inputsPart
  split
  · rfl
  · refine (openForInputs_keeps wallet tuple tx outcomes pass).andThen fun pass same => ?_
    unfold recordFound
    split
    · exact same
    · rw [← same]
      dsimp only
      split
      · have row := insertTransactionRow_known wallet status tuple tx outcomes 0
        exact (insertInputRows_keeps outcomes _ _).trans (row _ pass)
      · exact insertInputRows_keeps outcomes _ pass

theorem commitTransaction_keeps (pass : Pass) :
    (commitTransaction outcomes pass).Keeps pass.known := by
  unfold commitTransaction
  split
  · rfl
  · split <;> rfl

/-- The outputs part puts in some of the identified keys, and all of them if it goes on. -/
theorem outputsPart_known (pass : Pass) :
    pass.known.Within (outputsPart wallet status tuple tx outcomes pass).pass.known ∧
      ∀ after, outputsPart wallet status tuple tx outcomes pass = .go after →
        after.known = pass.known.insertAll (wallet.identifier.outputs tx) := by
  unfold outputsPart
  split
  · next none =>
    refine ⟨KnownOutputs.Within.refl _, fun after goes => ?_⟩
    obtain rfl := Step.go.inj goes
    rw [none]
    rfl
  · next info rest infos =>
    have opened : ((openTransaction wallet tuple tx outcomes pass).andThen
        (lookUpTx tx outcomes outcomes.txExistAnswers)).Keeps pass.known :=
      (openTransaction_keeps wallet tuple tx outcomes pass).andThen fun other same =>
        same ▸ lookUpTx_keeps tx outcomes outcomes.txExistAnswers other
    revert opened
    cases (openTransaction wallet tuple tx outcomes pass).andThen
      (lookUpTx tx outcomes outcomes.txExistAnswers) with
    | leave exit left =>
      intro same
      have same : left.known = pass.known := same
      exact ⟨same ▸ KnownOutputs.Within.refl _, nofun⟩
    | go opened =>
      intro same
      have row := insertTransactionRow_known wallet status tuple tx outcomes
        (calcTotalXmr (info :: rest)) 0 opened
      have same : opened.known = pass.known := same
      rw [same] at row
      rw [Step.andThen_go]
      dsimp only
      rw [infos, ← row]
      generalize insertTransactionRow wallet status tuple tx outcomes
        (calcTotalXmr (info :: rest)) 0 opened = inserted
      split
      · split
        · exact ⟨KnownOutputs.Within.refl _, nofun⟩
        · next txMysqlId _ =>
          unfold insertOutputRows
          dsimp only
          generalize outputRow wallet tuple tx txMysqlId (inserted.blkTimestamp.getD 0) = toRow
          have within := collectOutputs_within toRow outcomes.chainIndices (info :: rest)
            inserted.known
          have all := collectOutputs_all toRow outcomes.chainIndices (info :: rest) inserted.known
          split
          · exact ⟨within, nofun⟩
          · next rows collected =>
            have known := all (collected ▸ Option.some_ne_none rows)
            split
            · exact ⟨within, nofun⟩
            · refine ⟨within, fun after goes => ?_⟩
              rw [← Step.go.inj goes]
              exact known
      · exact ⟨KnownOutputs.Within.refl _, nofun⟩

variable (scanned : Scanned)

/-- After the outputs part, a pass leaves the cache alone. -/
theorem recordTx_known (identifies : outcomes.identifies = true) :
    (recordTx wallet status tuple tx outcomes scanned).2.known =
      (outputsPart wallet status tuple tx outcomes (initialPass scanned)).pass.known := by
  have finish (step : Step) : step.finish.2.known = step.pass.known := by cases step <;> rfl
  unfold recordTx
  rw [finish, recordPass_eq wallet status tuple tx outcomes scanned identifies]
  have kept : (outputsPart wallet status tuple tx outcomes (initialPass scanned)).Keeps
      (outputsPart wallet status tuple tx outcomes (initialPass scanned)).pass.known := rfl
  exact (kept.andThen fun pass same =>
    same ▸ inputsPart_keeps wallet status tuple tx outcomes
      (identifiedInputs wallet tx scanned) pass).andThen fun pass same =>
        same ▸ commitTransaction_keeps outcomes pass

/-- A pass takes nothing out of the cache. -/
theorem recordTx_within :
    scanned.known.Within (recordTx wallet status tuple tx outcomes scanned).2.known := by
  by_cases identifies : outcomes.identifies = true
  · rw [recordTx_known wallet status tuple tx outcomes scanned identifies]
    exact (outputsPart_known wallet status tuple tx outcomes (initialPass scanned)).1
  · unfold recordTx recordPass
    rw [if_neg identifies]
    exact KnownOutputs.Within.refl _

/-- A pass that stores rows has put every identified key in. -/
theorem Stores.known (stores : Stores wallet status tuple tx outcomes scanned) :
    (recordTx wallet status tuple tx outcomes scanned).2.known =
      scanned.known.insertAll (wallet.identifier.outputs tx) := by
  obtain ⟨known, txMysqlId, written⟩ := parts_go wallet status tuple tx outcomes scanned
    stores.opens stores.succeeds.1
  unfold recordTx
  rw [recordPass_eq wallet status tuple tx outcomes scanned stores.opens.1]
  have outputs := (outputsPart_known wallet status tuple tx outcomes (initialPass scanned)).2
  cases part : outputsPart wallet status tuple tx outcomes (initialPass scanned) with
  | leave exit left =>
    rw [part] at written
    cases written
  | go after =>
    rw [part, Step.andThen_go] at written
    have inputs := inputsPart_keeps wallet status tuple tx outcomes
      (identifiedInputs wallet tx scanned) after
    rw [Step.andThen_go, written, Step.andThen_go, commitTransaction_go outcomes rfl
      stores.succeeds.2]
    rw [written] at inputs
    exact inputs.trans (outputs after part)

end Parts

namespace KnownOutputs

/-! ### A search thread among others -/

/-- The tables and the cache of the search thread of the account. -/
structure State where
  db : Database
  known : KnownOutputs

/-- `pass` is one of the thread; the other events are of everyone else. -/
inductive Event where
  | pass (status : Status) (tuple : TxTuple) (tx : Transaction) (outcomes : Outcomes)
      (blkTimestamp : Option Nat)
  | other (event : Balances.Event)

/-- Another thread records transactions for another account. -/
def Event.foreign (accountId : Nat) : Balances.Event → Bool
  | .pass wallet _ _ _ _ _ _ => wallet.account.id ≠ accountId
  | _ => true

/-- What an event does to the tables and the cache. -/
def step (wallet : Wallet) (state : State) : Event → State
  | .pass status tuple tx outcomes blkTimestamp =>
    let scanned := (recordTx wallet status tuple tx outcomes
      ⟨state.db, state.known, blkTimestamp⟩).2
    { db := scanned.db, known := scanned.known }
  | .other event =>
    if Event.foreign wallet.account.id event then { state with db := Balances.step state.db event }
    else state

/-- Every row of `Outputs` of the account is in the cache, with its amount. -/
def Covers (accountId : Nat) (state : State) : Prop :=
  ∀ output ∈ state.db.outputs, output.accountId = accountId →
    state.known.amountOf output.outPubKey = some output.amount

instance (accountId : Nat) (state : State) : Decidable (Covers accountId state) :=
  inferInstanceAs (Decidable (∀ output ∈ _, _ → _))

/-- If the pass stores rows, an identified key that is in the cache is there with the amount that
is identified now. -/
def AmountsAgree (wallet : Wallet) (state : State) : Event → Prop
  | .pass status tuple tx outcomes blkTimestamp =>
    Stores wallet status tuple tx outcomes ⟨state.db, state.known, blkTimestamp⟩ →
      ∀ info ∈ wallet.identifier.outputs tx, ∀ amount ∈ state.known.amountOf info.pubKey,
        amount = info.amount
  | .other _ => True

variable {wallet : Wallet} {state : State}

/-- The cache covers fewer rows all the more, also when it has grown. -/
theorem Covers.mono {accountId : Nat} {db : Database} {known : KnownOutputs}
    (covers : Covers accountId state) (within : state.known.Within known)
    (fewer : ∀ output ∈ db.outputs, output.accountId = accountId → output ∈ state.db.outputs) :
    Covers accountId { db, known } :=
  fun output member ours => within _ _ (covers output (fewer output member ours) ours)

theorem clearedDb_outputs {tx : Transaction} {outcomes : Outcomes} {db : Database}
    {output : XmrOutput} (member : output ∈ (clearedDb wallet tx outcomes db).outputs) :
    output ∈ db.outputs := by
  unfold clearedDb at member
  split at member
  · exact member
  · exact (Database.mem_deleteTx_outputs.mp member).1

/-- Other events add no row of the account. -/
theorem other_outputs {db : Database} {event : Balances.Event} {accountId : Nat}
    (foreign : Event.foreign accountId event = true) {output : XmrOutput}
    (member : output ∈ (Balances.step db event).outputs) (ours : output.accountId = accountId) :
    output ∈ db.outputs := by
  cases event with
  | create row =>
    obtain ⟨accounts, nextAccount, after⟩ := Balances.createRow_eq db row
    change output ∈ (Balances.createRow db row).outputs at member
    rwa [after] at member
  | save answers id scannedHeight startHeight blkTimestamp =>
    obtain ⟨accounts, after⟩ :=
      Balances.saveRow_eq db answers id scannedHeight startHeight blkTimestamp
    change output ∈ (Balances.saveRow db answers id scannedHeight startHeight blkTimestamp).outputs
      at member
    rwa [after] at member
  | pass other status tuple tx outcomes known blkTimestamp =>
    have differs : other.account.id ≠ accountId := of_decide_eq_true foreign
    change output ∈ (recordTx other status tuple tx outcomes ⟨db, known, blkTimestamp⟩).2.db.outputs
      at member
    rcases recordTx_cases other status tuple tx outcomes ⟨db, known, blkTimestamp⟩ with
      ⟨-, same | cleared⟩ | ⟨stores, -, filled⟩
    · rwa [same] at member
    · rw [cleared] at member
      exact clearedDb_outputs member
    · rw [filled] at member
      rcases mem_filledDb_outputs.mp member with old | new
      · exact clearedDb_outputs old
      · obtain ⟨-, -, -, -, theirs, -⟩ := of_mem_newOutputs new
        exact absurd (theirs.symm.trans ours) differs
  | check backend id throwing =>
    exact Balances.step_check_invariant
      (fun after => ∀ output ∈ after.outputs, output ∈ db.outputs)
      (fun _ _ kept output member => kept output (Database.mem_deleteTx_outputs.mp member).1)
      (fun _ _ _ kept => kept) backend id throwing (fun _ member => member) output member

/-- The keys of a transaction whose rows are stored are different. -/
theorem Stores.unique {status : Status} {tuple : TxTuple} {tx : Transaction} {outcomes : Outcomes}
    {scanned : Scanned} (stores : Stores wallet status tuple tx outcomes scanned) :
    Tables.Unique OutputInfo.pubKey (wallet.identifier.outputs tx) := by
  have accepts := stores.accepts.2.1
  unfold Database.acceptsOutputs at accepts
  have unique := of_decide_eq_true (Bool.and_eq_true_iff.mp accepts).1
  unfold storedOutputs at unique
  rwa [List.map_map] at unique

/-- Every identified output has a new row. -/
theorem newOutput_of_mem {tuple : TxTuple} {tx : Transaction} {outcomes : Outcomes}
    {scanned : Scanned} {info : OutputInfo} (identified : info ∈ wallet.identifier.outputs tx)
    (next txMysqlId : Nat) :
    ∃ output ∈ Database.numbered (fun (row : XmrOutput) id => { row with id }) next
        (storedOutputs wallet tuple tx outcomes scanned txMysqlId),
      output.accountId = wallet.account.id ∧ output.outPubKey = info.pubKey ∧
        output.amount = info.amount := by
  have same := Database.numbered_map (fun (row : XmrOutput) id => { row with id })
    (fun row => (row.accountId, row.outPubKey, row.amount)) (fun _ _ => rfl) next
    (storedOutputs wallet tuple tx outcomes scanned txMysqlId)
  have stored : (wallet.account.id, info.pubKey, info.amount) ∈
      (storedOutputs wallet tuple tx outcomes scanned txMysqlId).map
        fun row => (row.accountId, row.outPubKey, row.amount) :=
    List.mem_map.mpr ⟨_, List.mem_map.mpr ⟨info, identified, rfl⟩, rfl⟩
  rw [← same] at stored
  obtain ⟨output, member, values⟩ := List.mem_map.mp stored
  simp only [Prod.mk.injEq] at values
  exact ⟨output, member, values⟩

/-- From a state in which the cache covers the rows, a step leads to another one exactly if the
amounts agree. -/
theorem covers_step_iff (covers : Covers wallet.account.id state) (event : Event) :
    Covers wallet.account.id (step wallet state event) ↔ AmountsAgree wallet state event := by
  cases event with
  | other event =>
    refine ⟨fun _ => trivial, fun _ => ?_⟩
    unfold step
    dsimp only
    split
    · next foreign =>
      exact covers.mono (Within.refl _) fun output member ours => other_outputs foreign member ours
    · exact covers
  | pass status tuple tx outcomes blkTimestamp =>
    have within := recordTx_within wallet status tuple tx outcomes
      ⟨state.db, state.known, blkTimestamp⟩
    rcases recordTx_cases wallet status tuple tx outcomes ⟨state.db, state.known, blkTimestamp⟩ with
      ⟨idle, same | cleared⟩ | ⟨stores, -, filled⟩
    · refine ⟨fun _ stores => absurd stores idle, fun _ => ?_⟩
      exact covers.mono within fun output member _ => by rwa [same] at member
    · refine ⟨fun _ stores => absurd stores idle, fun _ => ?_⟩
      exact covers.mono within fun output member _ => by
        rw [cleared] at member
        exact clearedDb_outputs member
    · have known := stores.known
      show Covers _ { db := _, known := _ } ↔ _
      rw [filled, known]
      rw [known] at within
      constructor
      · intro after _ info identified amount present
        obtain ⟨output, new, ours, key, value⟩ := newOutput_of_mem identified _ _
        have stored := after output (mem_filledDb_outputs.mpr (.inr new)) ours
        rw [key, value] at stored
        exact Option.some.inj ((within _ _ present).symm.trans stored)
      · intro agree output member ours
        rcases mem_filledDb_outputs.mp member with old | new
        · exact within _ _ (covers output (clearedDb_outputs old) ours)
        · obtain ⟨info, identified, -, -, -, key, value⟩ := of_mem_newOutputs new
          show (state.known.insertAll (wallet.identifier.outputs tx)).amountOf _ = _
          rw [key, value,
            amountOf_insertAll_of_unique (Stores.unique stores) state.known identified]
          cases present : state.known.amountOf info.pubKey with
          | none => rfl
          | some amount => exact congrArg some (agree stores info identified amount present)

/-! ### Runs -/

/-- What a search thread knows of its account. -/
def walletOf (backend : Backend) (acc : XmrAccount) : Wallet where
  account := acc
  identifier := backend.identifier acc.address acc.viewkey

/-- The cache covers the rows at the start of a run, and after every event of it. -/
def CoversAlong (wallet : Wallet) (start : State) (events : List Event) : Prop :=
  Covers wallet.account.id start ∧
    Runs.Along (step wallet)
      (fun state event => Covers wallet.account.id (step wallet state event)) start events

/-- The ring members of a transaction, under the key images of their inputs, that are known. -/
def identifyKnown (known : KnownOutputs) (members : List (String × String)) : List InputInfo :=
  members.filterMap fun (keyImg, outPubKey) =>
    (known.amountOf outPubKey).map fun amount => { keyImg, outPubKey, amount }

theorem amountOf_selected {db : Database} (valid : db.Valid) {accountId : Nat} {output : XmrOutput}
    (member : output ∈ db.outputs) (ours : output.accountId = accountId) :
    amountOf ((db.selectOutputs accountId).map fun out => (out.outPubKey, out.amount))
      output.outPubKey = some output.amount := by
  have selected : output ∈ db.selectOutputs accountId :=
    List.mem_filter.mpr ⟨member, decide_eq_true ours⟩
  unfold amountOf
  rw [List.find?_map, Tables.find?_eq_some_of_unique selected]
  · rfl
  · exact decide_eq_true rfl
  · intro other inRows same
    exact valid.outputKeys.eq_of_key (List.mem_filter.mp inRows).1 member (of_decide_eq_true same)

/-- A new thread's cache covers the rows, unless there are some and their query throws. -/
theorem covers_constructed_iff {backend : Backend} {acc : XmrAccount} {db : Database}
    {throwing : List Bool} {thread : SearchThread} (valid : db.Valid)
    (constructed : (constructTxSearch backend acc { db, throwing }).1 = some thread) :
    Covers acc.id { db, known := thread.known } ↔
      (({ db, throwing } : World).throws = true → db.selectOutputs acc.id = []) := by
  unfold constructTxSearch at constructed
  split at constructed
  · rw [Handler.bind_apply] at constructed
    rw [← Option.some.inj constructed]
    unfold selectOutputs query
    by_cases throws : ({ db, throwing } : World).throws = true
    · rw [statement_throws _ _ throws]
      simp only [throws, true_implies]
      constructor
      · intro covers
        refine List.eq_nil_iff_forall_not_mem.mpr fun output member => ?_
        obtain ⟨inOutputs, ours⟩ := List.mem_filter.mp member
        cases covers output inOutputs (of_decide_eq_true ours)
      · intro none output member ours
        have selected : output ∈ db.selectOutputs acc.id :=
          List.mem_filter.mpr ⟨member, decide_eq_true ours⟩
        rw [none] at selected
        cases selected
    · rw [statement_runs _ _ throws]
      exact ⟨fun _ thrown => absurd thrown throws,
        fun _ output member ours => amountOf_selected valid member ours⟩
  · cases constructed

/-- The cache of a search thread covers the rows of the account all along exactly if the query at
its construction has not hidden rows, and no row is stored under a key that is cached with another
amount. Where it covers them, every ring member that is a recorded output is identified. -/
theorem coversAlong_iff (backend : Backend) (acc : XmrAccount) (db : Database)
    (throwing : List Bool) (thread : SearchThread) (valid : db.Valid)
    (constructed : (constructTxSearch backend acc { db, throwing }).1 = some thread)
    (events : List Event) :
    (CoversAlong (walletOf backend acc) { db, known := thread.known } events ↔
        (({ db, throwing } : World).throws = true → db.selectOutputs acc.id = []) ∧
          Runs.Along (step (walletOf backend acc)) (AmountsAgree (walletOf backend acc))
            { db, known := thread.known } events) ∧
      ∀ ring : Transaction → List (String × String),
        (∀ known tx, (walletOf backend acc).identifier.inputs known tx =
          identifyKnown known (ring tx)) →
        ∀ state, Covers acc.id state → ∀ tx, ∀ member ∈ ring tx, ∀ output ∈ state.db.outputs,
          output.accountId = acc.id → output.outPubKey = member.2 →
          { keyImg := member.1, outPubKey := output.outPubKey, amount := output.amount } ∈
            (walletOf backend acc).identifier.inputs state.known tx := by
  constructor
  · rw [← covers_constructed_iff valid constructed]
    exact and_congr_right fun covers =>
      Runs.along_iff_of_kept (step (walletOf backend acc))
        (fun state event => Covers acc.id (step (walletOf backend acc) state event))
        (AmountsAgree (walletOf backend acc)) (Covers acc.id)
        (fun _ event covers => covers_step_iff covers event)
        (fun _ event covers agree => (covers_step_iff covers event).mpr agree) events _ covers
  · rintro ring looksUp state covers tx ⟨keyImg, outPubKey⟩ inRing output inOutputs ours key
    obtain rfl : output.outPubKey = outPubKey := key
    rw [looksUp]
    refine List.mem_filterMap.mpr ⟨_, inRing, ?_⟩
    simp only [covers output inOutputs ours, Option.map_some]

/-! ### A key with two amounts, and a query that throws -/

/-- Transactions pay one key, under which each hash stands for another amount. -/
def samePubKey : Identifier where
  outputs tx := [{ pubKey := "9f", amount := if tx.hash = "a1" then 5 else 7 }]
  inputs _ _ := []

/-- Every account sees these outputs. -/
def payer : Backend := { Backend.empty with identifier := fun _ _ => samePubKey }

/-- The account that is paid. -/
def account : XmrAccount := { id := 1, address := "4ApA" }

/-- The thread of an account without rows. -/
def threaded : SearchThread := { acc := account, address := "4ApA", searchedBlkNo := 0 }

/-- A scan of a transaction, with the answer of the insertion of its outputs. -/
def scans (hash : String) (insertsOutputs : Bool) : Event :=
  .pass { currentHeight := 20 } { blkHeight := 10, blkTimestamp := 1600000000, isCoinbase := false }
    { hash } { chainIndices := [7], insertsOutputs } none

/-- The tables with its row only. -/
def accounts : Database := { accounts := [account], nextAccount := 2 }

/-- The rows of an account that has received. -/
def received : Database :=
  (step (walletOf payer account) { db := accounts, known := [] } (scans "a1" true)).db

/-- A transaction is scanned twice. -/
theorem coversAlong_iff_rescan :
    CoversAlong (walletOf payer account) { db := accounts, known := threaded.known }
      [scans "a1" true, scans "a1" true] :=
  (coversAlong_iff payer account accounts [] threaded (by decide) (by decide +kernel)
    [scans "a1" true, scans "a1" true]).1.mpr
    ⟨fun throws => absurd throws (by decide), by
      refine ⟨fun _ info _ amount cached => (nomatch cached),
        fun _ info identified amount cached => ?_, trivial⟩
      obtain rfl := List.mem_singleton.mp identified
      have again : KnownOutputs.amountOf (step (walletOf payer account)
          { db := accounts, known := threaded.known } (scans "a1" true)).known "9f" = some 5 := by
        decide +kernel
      exact Option.some.inj (cached.symm.trans again)⟩

/-- A first transaction is not stored, and a second one pays the same key; or the query of the
constructor throws. -/
theorem not_coversAlong :
    ¬ CoversAlong (walletOf payer account) { db := accounts, known := [] }
        [scans "a1" false, scans "b2" true] ∧
      ∃ thread, (constructTxSearch payer account { db := received, throwing := [true] }).1 =
          some thread ∧
        ¬ CoversAlong (walletOf payer account) { db := received, known := thread.known } [] := by
  constructor
  · rintro ⟨-, -, covers, -⟩
    revert covers
    decide +kernel
  · refine ⟨threaded, by decide +kernel, fun covers => ?_⟩
    have start := covers.1
    revert start
    decide +kernel

end KnownOutputs

end LightWallet
