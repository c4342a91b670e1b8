/-
This file settles what the listing of the mempool contains.

The source handles a transaction in two steps. The first appends an entry if the account receives
something; the second amends the last entry if the account spends something as well, and appends
one of its own otherwise. The file follows the list as it grows through both steps, shows that it is
the one the requests are modelled with, and that the entries are those of the transactions the
account has a part in.
-/

import LightWallet.MempoolTotals
import Mathlib.Data.List.ModifyLast

namespace LightWallet.MempoolListing

/-! ### The two steps -/

section Steps

variable (backend : Backend) (thread : SearchThread)

/-- The outputs of a transaction that are the account's. -/
def outputsIdentified (tx : Transaction) : List OutputInfo :=
  (backend.identifier thread.address thread.viewkey).outputs tx

/-- The inputs of a transaction that may spend an output of the account. -/
def inputsIdentified (tx : Transaction) : List InputInfo :=
  (backend.identifier thread.address thread.viewkey).inputs thread.known tx

/-- The first step: an entry for what the account receives. -/
def receivedStep (receiveTime : Nat) (tx : Transaction) (jTransactions : List Json) : List Json :=
  match outputsIdentified backend thread tx with
  | [] => jTransactions
  | info :: rest =>
    jTransactions ++
      [mempoolJson backend receiveTime tx (calcTotalXmr (info :: rest)) 0 (.str "0")]

/-- The loop over the inputs, with `spend_keys` and `total_sent` as they are so far. -/
def collectSpends : List InputInfo → List SpentOutput → UInt64 →
    Handler (List SpentOutput × UInt64)
  | [], spendKeys, totalSent => pure (spendKeys, totalSent)
  | info :: rest, spendKeys, totalSent => do
    match ← outputExists info.outPubKey with
    | none => collectSpends rest spendKeys totalSent
    | some out =>
      collectSpends rest (spendKeys ++ [identifiedSpent (fun _ out => out.amount) (info, out)])
        (totalSent + out.amount)

/-- The second step: what the account spends goes to the last entry if the first step has made
one, and to a new one otherwise. -/
def spentStep (receiveTime : Nat) (tx : Transaction) (jTransactions : List Json) :
    Handler (List Json) :=
  match inputsIdentified backend thread tx with
  | [] => pure jTransactions
  | info :: rest => do
    let (spendKeys, totalSent) ← collectSpends (info :: rest) [] 0
    match spendKeys with
    | [] => pure jTransactions
    | first :: more =>
      let spends := Json.arr ((first :: more).map SpentOutput.toJson)
      match outputsIdentified backend thread tx with
      | _ :: _ =>
        pure (jTransactions.modifyLast fun jTx =>
          (jTx.set "total_sent" (.ofText totalSent.toNat)).set "spent_outputs" spends)
      | [] =>
        pure (jTransactions ++
          [(mempoolJson backend receiveTime tx 0 totalSent (.ofNat 0)).set "spent_outputs" spends])

/-- The loop over the transactions. -/
def findTxsInMempool : List (Nat × Transaction) → List Json → Handler (List Json)
  | [], jTransactions => pure jTransactions
  | (receiveTime, tx) :: rest, jTransactions => do
    let after ← spentStep backend thread receiveTime tx
      (receivedStep backend thread receiveTime tx jTransactions)
    findTxsInMempool rest after

/-! ### What is listed -/

/-- The inputs whose outputs are recorded, with these outputs. -/
def recordedInputs (db : Database) (tx : Transaction) : List (InputInfo × XmrOutput) :=
  (inputsIdentified backend thread tx).filterMap fun info =>
    (db.outputExists info.outPubKey).map (info, ·)

/-- The account has a part in the transaction. -/
def Listed (db : Database) (entry : Nat × Transaction) : Prop :=
  outputsIdentified backend thread entry.2 ≠ [] ∨ recordedInputs backend thread db entry.2 ≠ []

instance (db : Database) (entry : Nat × Transaction) :
    Decidable (Listed backend thread db entry) := inferInstanceAs (Decidable (_ ∨ _))

/-- The sum of what the transaction pays to the account. -/
def received (tx : Transaction) : Nat :=
  Tables.total (·.amount.toNat) (outputsIdentified backend thread tx)

/-- The sum of the recorded outputs that the transaction may spend. -/
def sent (db : Database) (tx : Transaction) : Nat :=
  Tables.total (·.2.amount.toNat) (recordedInputs backend thread db tx)

/-- An entry of `spent_outputs`: the key image of the input, and what is recorded of the output. -/
structure DescribesSpend (found : InputInfo × XmrOutput) (spend : Json) : Prop where
  keyImage : spend.get? "key_image" = some (.str found.1.keyImg)
  amount : spend.get? "amount" = some (.ofText found.2.amount.toNat)
  txPubKey : spend.get? "tx_pub_key" = some (.str found.2.txPubKey)
  outIndex : spend.get? "out_index" = some (.ofNat found.2.outIndex)
  mixin : spend.get? "mixin" = some (.ofNat found.2.mixin)

/-- An entry of a transaction: its hash, what it pays to the account, and what it spends, with an
entry for each recorded input. Sums of 64-bit amounts are taken modulo 2^64. -/
structure Describes (db : Database) (entry : Nat × Transaction) (jTx : Json) : Prop where
  hash : jTx.get? "hash" = some (.str entry.2.hash)
  totalReceived : jTx.get? "total_received" =
    some (.ofText (received backend thread entry.2 % 2 ^ 64))
  noSpends : recordedInputs backend thread db entry.2 = [] → jTx.get? "spent_outputs" = none
  spends : recordedInputs backend thread db entry.2 ≠ [] →
    ∃ spends, jTx.get? "spent_outputs" = some (.arr spends) ∧
      List.Forall₂ DescribesSpend (recordedInputs backend thread db entry.2) spends
  totalSent : jTx.get? "total_sent" =
    some (.ofText (sent backend thread db entry.2 % 2 ^ 64))

/-- Both sums are shown as they are. -/
structure SumsExact (db : Database) (entry : Nat × Transaction) (jTx : Json) : Prop where
  totalReceived : jTx.get? "total_received" = some (.ofText (received backend thread entry.2))
  totalSent : jTx.get? "total_sent" = some (.ofText (sent backend thread db entry.2))

/-- The keys of an entry as they are built. -/
structure Renders (db : Database) (entry : Nat × Transaction) (jTx : Json) : Prop where
  hash : jTx.get? "hash" = some (.str entry.2.hash)
  totalReceived : jTx.get? "total_received" = some (.ofText (UInt64.ofNat
    (Tables.total (·.amount.toNat) (outputsIdentified backend thread entry.2))).toNat)
  spentOutputs : jTx.get? "spent_outputs" =
    if recordedInputs backend thread db entry.2 = [] then none
    else some (.arr ((recordedInputs backend thread db entry.2).map fun found =>
      (identifiedSpent (fun _ out => out.amount) found).toJson))
  totalSent : jTx.get? "total_sent" = some (.ofText (UInt64.ofNat
    (Tables.total (·.2.amount.toNat) (recordedInputs backend thread db entry.2))).toNat)

end Steps

/-! ### What an entry says -/

section Entries

variable {backend : Backend} {thread : SearchThread} {db : Database} {entry : Nat × Transaction}
  {jTx : Json}

theorem describesSpend (found : InputInfo × XmrOutput) :
    DescribesSpend found (identifiedSpent (fun _ out => out.amount) found).toJson := by
  constructor <;> simp [SpentOutput.toJson, identifiedSpent]

theorem Renders.describes (renders : Renders backend thread db entry jTx) :
    Describes backend thread db entry jTx where
  hash := renders.hash
  totalReceived := renders.totalReceived
  noSpends none := by rw [renders.spentOutputs, if_pos none]
  spends some := by
    refine ⟨_, by rw [renders.spentOutputs, if_neg some], ?_⟩
    rw [List.forall₂_map_right_iff, List.forall₂_same]
    exact fun found _ => describesSpend found
  totalSent := renders.totalSent

/-- Sums in the range of 64 bits are shown as they are. -/
theorem Describes.sumsExact (describes : Describes backend thread db entry jTx)
    (receivedFits : received backend thread entry.2 < 2 ^ 64)
    (sentFits : sent backend thread db entry.2 < 2 ^ 64) :
    SumsExact backend thread db entry jTx where
  totalReceived := by rw [describes.totalReceived, Nat.mod_eq_of_lt receivedFits]
  totalSent := by rw [describes.totalSent, Nat.mod_eq_of_lt sentFits]

end Entries

/-! ### The list as it grows -/

/-- The values read alike, whatever the order of their keys. -/
def Alike (first second : Json) : Prop := ∀ key, first.get? key = second.get? key

section Grows

variable {backend : Backend} {thread : SearchThread}

theorem totalStored_cons (entry : InputInfo × XmrOutput) (found : List (InputInfo × XmrOutput)) :
    totalStored (entry :: found) = entry.2.amount + totalStored found := by
  unfold totalStored
  rw [Tables.foldl_add_eq, Tables.foldl_add_eq, Tables.total_cons, zero_add, zero_add]

theorem collectSpends_eq (infos : List InputInfo) (spendKeys : List SpentOutput)
    (totalSent : UInt64) (world : World) :
    collectSpends infos spendKeys totalSent world =
      ((spendKeys ++ (knownSpent infos world).1.map (identifiedSpent fun _ out => out.amount),
        totalSent + totalStored (knownSpent infos world).1), (knownSpent infos world).2) := by
  induction infos generalizing spendKeys totalSent world with
  | nil =>
    show ((spendKeys, totalSent), world) = ((spendKeys ++ [], totalSent + 0), world)
    rw [List.append_nil, add_zero]
  | cons info rest inductionHypothesis =>
    unfold collectSpends knownSpent
    rw [Handler.bind_apply, Handler.bind_apply]
    cases (outputExists info.outPubKey world).1 with
    | none => exact inductionHypothesis spendKeys totalSent _
    | some out =>
      dsimp only
      rw [inductionHypothesis, Handler.bind_apply]
      generalize knownSpent rest _ = answer
      show _ = ((spendKeys ++ ((info, out) :: answer.1).map _,
        totalSent + totalStored ((info, out) :: answer.1)), answer.2)
      rw [totalStored_cons, List.map_cons, List.append_assoc, add_assoc]
      rfl

/-- An entry that reads as the one of the model. -/
def Shows (jTx : Option Json) (entry : Option MempoolTx) : Prop :=
  Option.Rel (fun jTx entry => Alike jTx entry.toJson) jTx entry

theorem toList_alike {jTx : Option Json} {entry : Option MempoolTx} (shows : Shows jTx entry) :
    List.Forall₂ (fun jTx entry => Alike jTx entry.toJson) jTx.toList entry.toList := by
  cases shows with
  | none => exact .nil
  | some same => exact .cons same .nil

theorem alike_spends {first second : Json} (alike : Alike first second)
    (entry : InputInfo × XmrOutput) (others : List (InputInfo × XmrOutput)) :
    Alike
      (first.set "spent_outputs" (.arr ((identifiedSpent (fun _ out => out.amount) entry ::
        others.map (identifiedSpent fun _ out => out.amount)).map SpentOutput.toJson)))
      (second.set "spent_outputs" (.arr ((entry :: others).map fun entry =>
        (identifiedSpent (fun _ out => out.amount) entry).toJson))) := by
  intro key
  rw [Json.get?_set, Json.get?_set, alike key, List.map_cons, List.map_map]
  rfl

/-- Setting the sum afterwards is the same as having it from the start. -/
theorem alike_totalSent (backend : Backend) (receiveTime : Nat) (tx : Transaction)
    (totalReceived totalSent : UInt64) (unlockTime : Json) :
    Alike
      ((mempoolJson backend receiveTime tx totalReceived 0 unlockTime).set "total_sent"
        (.ofText totalSent.toNat))
      (mempoolJson backend receiveTime tx totalReceived totalSent unlockTime) := by
  intro key
  rw [Json.get?_set]
  unfold mempoolJson
  simp only [Json.get?_obj_cons, Json.get?_obj_nil]
  by_cases here : "total_sent" = key
  · subst here
    simp
  · simp [here]

/-- Both steps together add what the transaction adds in the model of the requests. -/
theorem turn_eq (receiveTime : Nat) (tx : Transaction) (jTransactions : List Json)
    (world : World) :
    ∃ jTx, spentStep backend thread receiveTime tx
        (receivedStep backend thread receiveTime tx jTransactions) world =
          (jTransactions ++ jTx.toList, (findTxInMempool backend thread receiveTime tx world).2) ∧
      Shows jTx (findTxInMempool backend thread receiveTime tx world).1 := by
  have known : findTxInMempool backend thread receiveTime tx world = _ :=
    Handler.bind_apply (knownSpent (inputsIdentified backend thread tx)) _ world
  rw [known]
  unfold spentStep receivedStep outputsIdentified
  generalize (backend.identifier thread.address thread.viewkey).outputs tx = outputs
  have nothing (after : World) : (jTransactions, after) =
      (jTransactions ++ (none : Option Json).toList, after) :=
    congrArg (·, after) (List.append_nil jTransactions).symm
  cases inputsIdentified backend thread tx with
  | nil =>
    cases outputs with
    | nil => exact ⟨none, nothing world, .none⟩
    | cons info rest => exact ⟨some _, rfl, .some fun _ => rfl⟩
  | cons info rest =>
    dsimp only
    rw [Handler.bind_apply, collectSpends_eq]
    generalize knownSpent (info :: rest) world = answer
    obtain ⟨found, after⟩ := answer
    cases found with
    | nil =>
      cases outputs with
      | nil => exact ⟨none, nothing after, .none⟩
      | cons first more => exact ⟨some _, rfl, .some fun _ => rfl⟩
    | cons entry others =>
      rw [List.nil_append, zero_add, List.map_cons]
      cases outputs with
      | nil => exact ⟨some _, rfl, .some (alike_spends (fun _ => rfl) entry others)⟩
      | cons first more =>
        refine ⟨some _, congrArg (·, after) (List.modifyLast_concat _ _ _), .some ?_⟩
        exact alike_spends (alike_totalSent backend receiveTime tx _ _ _) entry others

/-- The list is the one of the model of the requests, whatever the statements do. -/
theorem findTxsInMempool_eq (txs : List (Nat × Transaction)) (jTransactions : List Json)
    (world : World) :
    ∃ listed, findTxsInMempool backend thread txs jTransactions world =
        (jTransactions ++ listed, (findTxs backend thread txs world).2) ∧
      List.Forall₂ (fun jTx entry => Alike jTx entry.toJson) listed
        (findTxs backend thread txs world).1 := by
  induction txs generalizing jTransactions world with
  | nil => exact ⟨[], congrArg (·, world) (List.append_nil jTransactions).symm, .nil⟩
  | cons pair rest inductionHypothesis =>
    obtain ⟨receiveTime, tx⟩ := pair
    obtain ⟨jTx, turn, shows⟩ :=
      @turn_eq backend thread receiveTime tx jTransactions world
    obtain ⟨listed, later, alike⟩ := inductionHypothesis (jTransactions ++ jTx.toList)
      (findTxInMempool backend thread receiveTime tx world).2
    unfold findTxsInMempool findTxs
    rw [Handler.bind_apply, turn, Handler.bind_apply]
    refine ⟨jTx.toList ++ listed, ?_, ?_⟩
    · rw [← List.append_assoc]
      exact later
    · exact List.rel_append (toList_alike shows) alike

/-! ### When the statements answer -/

theorem knownSpent_recorded {world : World} (quiet : world.Quiet) (infos : List InputInfo) :
    knownSpent infos world =
      (infos.filterMap fun info => (world.db.outputExists info.outPubKey).map (info, ·),
        world) := by
  induction infos with
  | nil => rfl
  | cons info rest inductionHypothesis =>
    unfold knownSpent
    rw [Handler.bind_apply, outputExists, query_quiet _ _ quiet]
    dsimp only
    cases output : world.db.outputExists info.outPubKey with
    | none => 
      rw [List.filterMap_cons_none (by rw [output]; rfl)]
      exact inductionHypothesis
    | some out =>
      rw [List.filterMap_cons_some (by rw [output]; rfl)]
      dsimp only
      rw [Handler.bind_apply, inductionHypothesis]
      rfl

theorem totalStored_ofNat (found : List (InputInfo × XmrOutput)) :
    totalStored found = .ofNat (Tables.total (·.2.amount.toNat) found) := by
  unfold totalStored
  rw [Tables.foldl_add_eq, zero_add, MempoolTotals.total_ofNat]

section Keys

variable (receiveTime : Nat) (tx : Transaction) (totalReceived totalSent : UInt64)
  (unlockTime : Json)

@[simp] theorem mempoolJson_hash :
    (mempoolJson backend receiveTime tx totalReceived totalSent unlockTime).get? "hash" =
      some (.str tx.hash) := by
  simp [mempoolJson]

@[simp] theorem mempoolJson_totalReceived :
    (mempoolJson backend receiveTime tx totalReceived totalSent unlockTime).get?
      "total_received" = some (.ofText totalReceived.toNat) := by
  simp [mempoolJson]

@[simp] theorem mempoolJson_totalSent :
    (mempoolJson backend receiveTime tx totalReceived totalSent unlockTime).get? "total_sent" =
      some (.ofText totalSent.toNat) := by
  simp [mempoolJson]

@[simp] theorem mempoolJson_spentOutputs :
    (mempoolJson backend receiveTime tx totalReceived totalSent unlockTime).get?
      "spent_outputs" = none := by
  simp [mempoolJson]

end Keys

/-- A transaction that the account has a part in gets an entry, which renders it, and any other
gets none. -/
theorem findTxInMempool_renders {world : World} (quiet : world.Quiet)
    (entry : Nat × Transaction) :
    ∃ added : Option MempoolTx,
      findTxInMempool backend thread entry.1 entry.2 world = (added, world) ∧
      (Listed backend thread world.db entry →
        ∃ tx, added = some tx ∧ Renders backend thread world.db entry tx.toJson) ∧
      (¬ Listed backend thread world.db entry → added = none) := by
  have known : findTxInMempool backend thread entry.1 entry.2 world = _ :=
    Handler.bind_apply (knownSpent (inputsIdentified backend thread entry.2)) _ world
  have recorded : knownSpent (inputsIdentified backend thread entry.2) world =
      (recordedInputs backend thread world.db entry.2, world) := knownSpent_recorded quiet _
  rw [known, recorded]
  unfold Listed
  have sent := totalStored_ofNat (recordedInputs backend thread world.db entry.2)
  have renders (jTx : Json) := @Renders.mk backend thread world.db entry jTx
  unfold outputsIdentified at renders ⊢
  simp only [← MempoolTotals.calcTotalXmr_ofNat, ← sent] at renders
  generalize (backend.identifier thread.address thread.viewkey).outputs entry.2 = outputs
    at renders ⊢
  generalize recordedInputs backend thread world.db entry.2 = found at renders ⊢
  cases outputs with
  | nil =>
    cases found with
    | nil => exact ⟨none, rfl, fun listed => by simp at listed, fun _ => rfl⟩
    | cons spent others =>
      refine ⟨some _, rfl, fun _ => ⟨_, rfl, renders _ ?_ ?_ ?_ ?_⟩, fun listed => ?_⟩
      · simp
      · simp; rfl
      · simp
      · simp
      · simp at listed
  | cons info rest =>
    cases found with
    | nil =>
      refine ⟨some _, rfl, fun _ => ⟨_, rfl, renders _ ?_ ?_ ?_ ?_⟩, fun listed => ?_⟩
      · simp
      · simp
      · simp
      · simp; rfl
      · simp at listed
    | cons spent others =>
      refine ⟨some _, rfl, fun _ => ⟨_, rfl, renders _ ?_ ?_ ?_ ?_⟩, fun listed => ?_⟩
      · simp
      · simp
      · simp
      · simp
      · simp at listed

theorem findTxs_renders {world : World} (quiet : world.Quiet) (txs : List (Nat × Transaction)) :
    ∃ entries, findTxs backend thread txs world = (entries, world) ∧
      List.Forall₂ (fun entry tx => Renders backend thread world.db entry tx.toJson)
        (txs.filter (Listed backend thread world.db)) entries := by
  induction txs with
  | nil => exact ⟨[], rfl, .nil⟩
  | cons pair rest inductionHypothesis =>
    obtain ⟨added, turn, some, none⟩ :=
      @findTxInMempool_renders backend thread world quiet pair
    obtain ⟨entries, later, describe⟩ := inductionHypothesis
    have both : findTxs backend thread (pair :: rest) world = (added.toList ++ entries, world) := by
      unfold findTxs
      rw [Handler.bind_apply, turn]
      dsimp only
      rw [Handler.bind_apply, later]
      rfl
    refine ⟨_, both, ?_⟩
    by_cases listed : Listed backend thread world.db pair
    · obtain ⟨tx, rfl, renders⟩ := some listed
      rw [List.filter_cons_of_pos (by simp [listed])]
      exact .cons renders describe
    · rw [none listed, List.filter_cons_of_neg (by simp [listed])]
      exact describe

/-- A transaction of the mempool is listed as one. -/
theorem findTxInMempool_mempool {receiveTime : Nat} {tx : Transaction} {world : World}
    {entry : MempoolTx}
    (found : (LightWallet.findTxInMempool backend thread receiveTime tx world).1 = some entry) :
    entry.toJson.get? "mempool" = some (.bool true) := by
  have spends (json keys : Json) (shown : json.get? "mempool" = some (.bool true)) :
      (json.set "spent_outputs" keys).get? "mempool" = some (.bool true) := by
    rw [Json.get?_set, if_neg (by decide)]
    exact shown
  unfold LightWallet.findTxInMempool at found
  simp only [Handler.bind_apply] at found
  generalize (knownSpent _ world).1 = spent at found
  generalize (backend.identifier thread.address thread.viewkey).outputs tx = outputs at found
  cases outputs with
  | nil =>
    cases spent with
    | nil => cases found
    | cons first rest =>
      obtain rfl := Option.some.inj found
      exact spends (mempoolJson backend receiveTime tx 0 (totalStored (first :: rest)) (.ofNat 0))
        _ rfl
  | cons output others =>
    cases spent with
    | nil =>
      obtain rfl := Option.some.inj found
      rfl
    | cons first rest =>
      obtain rfl := Option.some.inj found
      exact spends (mempoolJson backend receiveTime tx _ (totalStored (first :: rest)) (.str "0"))
        _ rfl

theorem findTxs_mempool (txs : List (Nat × Transaction)) (world : World) :
    ∀ entry ∈ (findTxs backend thread txs world).1,
      entry.toJson.get? "mempool" = some (.bool true) := by
  induction txs generalizing world with
  | nil => exact fun entry member => absurd member List.not_mem_nil
  | cons tx rest inductionHypothesis =>
    intro entry member
    unfold findTxs at member
    rw [Handler.bind_apply, Handler.bind_apply, Handler.pure_apply] at member
    rcases List.mem_append.mp member with here | later
    · exact findTxInMempool_mempool (Option.mem_toList.mp here)
    · exact inductionHypothesis _ entry later

theorem renders_of_alike {db : Database} {entry : Nat × Transaction} {first second : Json}
    (alike : Alike first second) (renders : Renders backend thread db entry second) :
    Renders backend thread db entry first where
  hash := (alike _).trans renders.hash
  totalReceived := (alike _).trans renders.totalReceived
  spentOutputs := (alike _).trans renders.spentOutputs
  totalSent := (alike _).trans renders.totalSent

theorem forall₂_of_alike {db : Database} {txs : List (Nat × Transaction)} {listed : List Json}
    {entries : List MempoolTx}
    (alike : List.Forall₂ (fun jTx entry => Alike jTx entry.toJson) listed entries)
    (describe : List.Forall₂ (fun entry tx => Renders backend thread db entry tx.toJson)
      txs entries) :
    List.Forall₂ (Renders backend thread db) txs listed := by
  induction alike generalizing txs with
  | nil =>
    cases describe
    exact .nil
  | cons same rest inductionHypothesis =>
    cases describe with
    | cons renders others =>
      exact .cons (renders_of_alike same renders) (inductionHypothesis others)

end Grows

/-- The listing has one entry for each transaction that the account has a part in, in the order of
the mempool, and none for the others. Each entry describes its transaction, and shows the sums as
they are if they are in the range of 64 bits. -/
theorem findTxsInMempool_describes (backend : Backend) (thread : SearchThread)
    (txs : List (Nat × Transaction)) {world : World} (quiet : world.Quiet) :
    (findTxsInMempool backend thread txs [] world).2 = world ∧
      List.Forall₂ (fun entry jTx => Describes backend thread world.db entry jTx ∧
          (received backend thread entry.2 < 2 ^ 64 →
            sent backend thread world.db entry.2 < 2 ^ 64 →
              SumsExact backend thread world.db entry jTx))
        (txs.filter (Listed backend thread world.db))
        (findTxsInMempool backend thread txs [] world).1 := by
  obtain ⟨listed, run, alike⟩ := @findTxsInMempool_eq backend thread txs [] world
  obtain ⟨entries, found, render⟩ := @findTxs_renders backend thread world quiet txs
  rw [found] at run alike
  rw [run]
  refine ⟨rfl, (forall₂_of_alike alike render).imp fun entry jTx renders => ?_⟩
  exact ⟨renders.describes, renders.describes.sumsExact⟩

/-! ### A mempool of four transactions -/

/-- Transaction `b1` pays to the account, `b2` does and spends the output `k1`, `b3` spends it, and
`b4` is a stranger's. -/
def inPool : Identifier where
  outputs tx :=
    if tx.hash = "b1" then [{ pubKey := "k2", amount := 7 }]
    else if tx.hash = "b2" then [{ pubKey := "k3", amount := 2 }]
    else []
  inputs known tx :=
    if tx.hash = "b2" ∨ tx.hash = "b3" then
      known.map fun entry =>
        { keyImg := "i" ++ tx.hash, outPubKey := entry.1, amount := entry.2 }
    else []

/-- The four transactions, with the times at which they came in. -/
def pool : List (Nat × Transaction) :=
  [(1600000000, { hash := "b1" }), (1600000001, { hash := "b2" }),
    (1600000002, { hash := "b3" }), (1600000003, { hash := "b4" })]

/-- The search thread of the account, which knows the output `k1`. -/
def poolThread : SearchThread where
  acc := Balances.account 1 "4ApA"
  address := "4ApA"
  viewkey := "c0de"
  known := [("k1", 5)]
  searchedBlkNo := 10

/-- A backend that identifies this in the transactions. -/
def poolBackend : Backend := { Balances.backend with identifier := fun _ _ => inPool }

/-- Three of them are listed, with sums that are exact. -/
theorem findTxsInMempool_describes_pool :
    List.Forall₂ (fun entry jTx =>
        Describes poolBackend poolThread MempoolTotals.received entry jTx ∧
          SumsExact poolBackend poolThread MempoolTotals.received entry jTx) (pool.take 3)
      (findTxsInMempool poolBackend poolThread pool [] { db := MempoolTotals.received }).1 := by
  have three : pool.filter (Listed poolBackend poolThread MempoolTotals.received) =
      pool.take 3 := by decide +kernel
  have small : ∀ entry ∈ pool.take 3, received poolBackend poolThread entry.2 < 2 ^ 64 ∧
      sent poolBackend poolThread MempoolTotals.received entry.2 < 2 ^ 64 := by decide +kernel
  have described := (@findTxsInMempool_describes poolBackend poolThread pool
    { db := MempoolTotals.received } rfl).2
  dsimp only at described
  rw [three] at described
  refine List.forall₂_iff_zip.mpr ⟨described.length_eq, fun {entry jTx} member => ?_⟩
  obtain ⟨describes, exact⟩ := (List.forall₂_iff_zip.mp described).2 member
  obtain ⟨receivedFits, sentFits⟩ := small entry (List.of_mem_zip member).1
  exact ⟨describes, exact receivedFits sentFits⟩

/-! ### Sums that wrap around -/

/-- Transaction `b1` pays 2^63 to the account twice, and spends two outputs of 2^63. -/
def doubling : Identifier where
  outputs _ := [{ pubKey := "k3", amount := 2 ^ 63 }, { pubKey := "k4", amount := 2 ^ 63 }]
  inputs _ _ := [{ keyImg := "i1", outPubKey := "k1", amount := 2 ^ 63 },
    { keyImg := "i2", outPubKey := "k2", amount := 2 ^ 63 }]

/-- Tables with the two outputs. -/
def large : Database where
  outputs := [
    { id := 1, accountId := 1, txId := 1, outPubKey := "k1", txPubKey := "p1", amount := 2 ^ 63 },
    { id := 2, accountId := 1, txId := 1, outPubKey := "k2", txPubKey := "p1", amount := 2 ^ 63 }]

/-- The backend that identifies this. -/
def doublingBackend : Backend := { poolBackend with identifier := fun _ _ => doubling }

/-- The entry is listed, and neither of its sums is exact: both are shown as zero. -/
theorem not_sumsExact :
    Listed doublingBackend poolThread large (1600000000, { hash := "b1" }) ∧
      ∃ jTx, (findTxsInMempool doublingBackend poolThread (pool.take 1) [] { db := large }).1 =
          [jTx] ∧
        jTx.get? "total_received" ≠
          some (.ofText (received doublingBackend poolThread { hash := "b1" })) ∧
        jTx.get? "total_sent" ≠
          some (.ofText (sent doublingBackend poolThread large { hash := "b1" })) := by
  have shown : (findTxsInMempool doublingBackend poolThread (pool.take 1) [] { db := large }).1.map
      (fun jTx => ((jTx.get? "total_received").bind Json.asString?,
        (jTx.get? "total_sent").bind Json.asString?)) = [(some "0", some "0")] := by decide +kernel
  have differs : toString (2 ^ 64) ≠ "0" := by decide +kernel
  have receivedSum : received doublingBackend poolThread { hash := "b1" } = 2 ^ 64 := by
    decide +kernel
  have sentSum : sent doublingBackend poolThread large { hash := "b1" } = 2 ^ 64 := by
    decide +kernel
  obtain ⟨jTx, listing, zeros⟩ := List.map_eq_singleton_iff.mp shown
  obtain ⟨receivedZero, sentZero⟩ := Prod.mk.inj zeros
  refine ⟨by decide +kernel, jTx, listing, fun exact => ?_, fun exact => ?_⟩
  · rw [exact, receivedSum] at receivedZero
    exact differs (Option.some.inj receivedZero)
  · rw [exact, sentSum] at sentZero
    exact differs (Option.some.inj sentZero)

end LightWallet.MempoolListing
