/-
This file says what the rows of the tables amount to without their ids.

Every table has a unique key, and a reference to a row can be replaced by the
unique key of that row. What remains of the tables is a ledger: the rows under
their unique keys, each with the transaction it belongs to. Two ledgers are equal
exactly if the tables hold the same rows up to ids.

The statements of a pass are operations on ledgers: the deletion of an earlier
scan takes a transaction out, with every spend of its outputs, and a pass that
stores rows adds one. The last part says when the tables accept the rows of a
pass, in terms of their ledger.
-/

import LightWallet.Passes

namespace LightWallet

/-- A transaction of an account. -/
structure Owner where
  hash : String
  accountId : Nat
  deriving DecidableEq, Repr

/-- The rows of the tables by their unique keys: a transaction by hash and account, an output by
its one-time key, and a spend by that key and the key image. -/
@[ext]
structure Ledger where
  transactions : Owner → Option XmrTransaction
  outputs : String → Option (Owner × XmrOutput)
  inputs : String × String → Option (Owner × XmrInput)

/-! ### The ledger of the tables -/

/-- The unique key of the row. -/
def XmrTransaction.owner (row : XmrTransaction) : Owner := ⟨row.hash, row.accountId⟩

/-- The row without its id. -/
def XmrTransaction.unnumbered (row : XmrTransaction) : XmrTransaction := { row with id := 0 }

/-- The row without its id and its reference. -/
def XmrOutput.unnumbered (row : XmrOutput) : XmrOutput := { row with id := 0, txId := 0 }

/-- The row without its id and its references. -/
def XmrInput.unnumbered (row : XmrInput) : XmrInput :=
  { row with id := 0, txId := 0, outputId := 0 }

namespace Database

/-- The transaction with the given id. -/
def ownerOf (db : Database) (txId : Nat) : Option Owner :=
  (db.transactions.find? (·.id = txId)).map (·.owner)

/-- The one-time key of the output with the given id. -/
def keyOf (db : Database) (outputId : Nat) : Option String :=
  (db.outputs.find? (·.id = outputId)).map (·.outPubKey)

/-- The rows of the tables, without their ids. -/
def ledger (db : Database) : Ledger where
  transactions owner := (db.transactions.find? (·.owner = owner)).map (·.unnumbered)
  outputs key :=
    (db.outputs.find? (·.outPubKey = key)).bind fun output =>
      (db.ownerOf output.txId).map (·, output.unnumbered)
  inputs key :=
    (db.inputs.find? fun input =>
        db.keyOf input.outputId = some key.1 ∧ input.keyImage = key.2).bind
      fun input => (db.ownerOf input.txId).map (·, input.unnumbered)

/-! ### Looking rows up -/

section Lookup

variable {db : Database}

/-- A test that at most one row passes finds that row. -/
theorem find?_bind_eq_some_iff {Row Result : Type} {rows : List Row} {test : Row → Bool}
    (only : ∀ first ∈ rows, ∀ second ∈ rows, test first = true → test second = true →
      first = second)
    (read : Row → Option Result) (result : Result) :
    (rows.find? test).bind read = some result ↔
      ∃ row ∈ rows, test row = true ∧ read row = some result := by
  constructor
  · intro found
    obtain ⟨row, isFound, reads⟩ := Option.bind_eq_some_iff.mp found
    exact ⟨row, List.mem_of_find?_eq_some isFound, List.find?_some isFound, reads⟩
  · rintro ⟨row, member, passes, reads⟩
    rw [Tables.find?_eq_some_of_unique member passes fun other inRows holds =>
      only other inRows row member holds passes]
    exact reads

theorem ownerOf_eq_some_iff (valid : db.Valid) {txId : Nat} {owner : Owner} :
    db.ownerOf txId = some owner ↔ ∃ tx ∈ db.transactions, tx.id = txId ∧ tx.owner = owner := by
  unfold ownerOf
  rw [Option.map_eq_bind, find?_bind_eq_some_iff]
  · simp
  · intro first inRows second alsoInRows here there
    exact valid.transactionIds.eq_of_key inRows alsoInRows
      ((of_decide_eq_true here).trans (of_decide_eq_true there).symm)

theorem keyOf_eq_some_iff (valid : db.Valid) {outputId : Nat} {key : String} :
    db.keyOf outputId = some key ↔
      ∃ output ∈ db.outputs, output.id = outputId ∧ output.outPubKey = key := by
  unfold keyOf
  rw [Option.map_eq_bind, find?_bind_eq_some_iff]
  · simp
  · intro first inRows second alsoInRows here there
    exact valid.outputIds.eq_of_key inRows alsoInRows
      ((of_decide_eq_true here).trans (of_decide_eq_true there).symm)

theorem ledger_transactions_iff (valid : db.Valid) {owner : Owner} {row : XmrTransaction} :
    db.ledger.transactions owner = some row ↔
      ∃ tx ∈ db.transactions, tx.owner = owner ∧ tx.unnumbered = row := by
  unfold ledger
  dsimp only
  rw [Option.map_eq_bind, find?_bind_eq_some_iff]
  · simp
  · intro first inRows second alsoInRows here there
    obtain ⟨hash, account⟩ := Owner.mk.inj
      ((of_decide_eq_true here).trans (of_decide_eq_true there).symm)
    exact valid.transactionHashes.eq_of_key inRows alsoInRows (Prod.ext hash account)

theorem ledger_outputs_iff (valid : db.Valid) {key : String} {owner : Owner} {row : XmrOutput} :
    db.ledger.outputs key = some (owner, row) ↔
      ∃ output ∈ db.outputs, output.outPubKey = key ∧ db.ownerOf output.txId = some owner ∧
        output.unnumbered = row := by
  unfold ledger
  dsimp only
  rw [find?_bind_eq_some_iff]
  · simp
  · intro first inRows second alsoInRows here there
    exact valid.outputKeys.eq_of_key inRows alsoInRows
      ((of_decide_eq_true here).trans (of_decide_eq_true there).symm)

theorem ledger_inputs_iff (valid : db.Valid) {key : String × String} {owner : Owner}
    {row : XmrInput} :
    db.ledger.inputs key = some (owner, row) ↔
      ∃ input ∈ db.inputs, db.keyOf input.outputId = some key.1 ∧ input.keyImage = key.2 ∧
        db.ownerOf input.txId = some owner ∧ input.unnumbered = row := by
  unfold ledger
  dsimp only
  rw [find?_bind_eq_some_iff]
  · simp [and_assoc]
  · intro first inRows second alsoInRows here there
    obtain ⟨firstKey, firstImage⟩ := of_decide_eq_true here
    obtain ⟨secondKey, secondImage⟩ := of_decide_eq_true there
    obtain ⟨output, inOutputs, id, same⟩ := (keyOf_eq_some_iff valid).mp firstKey
    obtain ⟨other, alsoInOutputs, otherId, otherSame⟩ := (keyOf_eq_some_iff valid).mp secondKey
    obtain rfl := valid.outputKeys.eq_of_key inOutputs alsoInOutputs (same.trans otherSame.symm)
    exact valid.inputKeys.eq_of_key inRows alsoInRows
      (Prod.ext (id.symm.trans otherId) (firstImage.trans secondImage.symm))

/-- Every output belongs to a transaction. -/
theorem exists_ownerOf_output (valid : db.Valid) {output : XmrOutput}
    (member : output ∈ db.outputs) : ∃ owner, db.ownerOf output.txId = some owner := by
  obtain ⟨tx, inRows, same⟩ := (hasTransaction_iff _ _).mp (valid.outputTransaction output member)
  exact ⟨tx.owner, (ownerOf_eq_some_iff valid).mpr ⟨tx, inRows, same, rfl⟩⟩

end Lookup

end Database

/-! ### Operations on ledgers -/

namespace Ledger

/-- The ledger without a transaction, its outputs and its spends, and without every spend of its
outputs. -/
def without (ledger : Ledger) (owner : Owner) : Ledger where
  transactions other := if other = owner then none else ledger.transactions other
  outputs key := (ledger.outputs key).filter (·.1 ≠ owner)
  inputs key :=
    (ledger.inputs key).filter fun entry =>
      entry.1 ≠ owner ∧ (ledger.outputs key.1).all (·.1 ≠ owner)

/-- The ledger with the row of a transaction. -/
def withTransaction (ledger : Ledger) (owner : Owner) (row : XmrTransaction) : Ledger :=
  { ledger with
    transactions := fun other => if other = owner then some row else ledger.transactions other }

/-- The ledger with outputs of a transaction. -/
def withOutputs (ledger : Ledger) (owner : Owner) (rows : List XmrOutput) : Ledger :=
  { ledger with
    outputs := fun key =>
      ((rows.find? (·.outPubKey = key)).map (owner, ·)).or (ledger.outputs key) }

/-- The ledger with spends of a transaction, under the keys of the outputs that they spend. -/
def withInputs (ledger : Ledger) (owner : Owner) (rows : List (String × XmrInput)) : Ledger :=
  { ledger with
    inputs := fun key =>
      ((rows.find? fun row => (row.1, row.2.keyImage) = key).map (owner, ·.2)).or
        (ledger.inputs key) }

/-- The ledger with a transaction, its outputs and its spends. -/
def add (ledger : Ledger) (owner : Owner) (row : XmrTransaction) (outputs : List XmrOutput)
    (inputs : List (String × XmrInput)) : Ledger :=
  ((ledger.withTransaction owner row).withOutputs owner outputs).withInputs owner inputs

/-- The ledger has nothing of a transaction. -/
structure Absent (ledger : Ledger) (owner : Owner) : Prop where
  transactions : ledger.transactions owner = none
  outputs : ∀ key entry, ledger.outputs key = some entry → entry.1 ≠ owner
  inputs : ∀ key entry, ledger.inputs key = some entry → entry.1 ≠ owner

/-- The unique keys admit the rows of a transaction. -/
structure Accepts (ledger : Ledger) (outputs : List XmrOutput) (inputs : List (String × XmrInput)) :
    Prop where
  outputKeys : Tables.Unique XmrOutput.outPubKey outputs
  freshOutputs : ∀ output ∈ outputs, ledger.outputs output.outPubKey = none
  inputKeys : Tables.Unique (fun input => (input.1, input.2.keyImage)) inputs
  freshInputs : ∀ input ∈ inputs, ledger.inputs (input.1, input.2.keyImage) = none

section Operations

variable {ledger : Ledger} {owner : Owner}

theorem without_transactions_iff {other : Owner} {row : XmrTransaction} :
    (ledger.without owner).transactions other = some row ↔
      ledger.transactions other = some row ∧ other ≠ owner := by
  unfold without
  dsimp only
  by_cases same : other = owner
  · rw [if_pos same]
    exact ⟨nofun, fun ⟨_, differs⟩ => absurd same differs⟩
  · rw [if_neg same]
    exact ⟨fun found => ⟨found, same⟩, And.left⟩

theorem without_outputs_iff {key : String} {other : Owner} {row : XmrOutput} :
    (ledger.without owner).outputs key = some (other, row) ↔
      ledger.outputs key = some (other, row) ∧ other ≠ owner := by
  unfold without
  rw [Option.filter_eq_some_iff]
  exact and_congr_right fun _ => decide_eq_true_iff

theorem without_inputs_iff {key : String × String} {other : Owner} {row : XmrInput} :
    (ledger.without owner).inputs key = some (other, row) ↔
      ledger.inputs key = some (other, row) ∧ other ≠ owner ∧
        ∀ holder output, ledger.outputs key.1 = some (holder, output) → holder ≠ owner := by
  unfold without
  rw [Option.filter_eq_some_iff]
  refine and_congr_right fun _ => decide_eq_true_iff.trans (and_congr_right fun _ => ?_)
  cases ledger.outputs key.1 with
  | none => simp
  | some entry =>
    rw [Option.all_some, decide_eq_true_iff]
    constructor
    · rintro differs holder output same
      cases same
      exact differs
    · exact fun all => all entry.1 entry.2 rfl

/-- Taking out what is not there changes nothing. -/
theorem without_of_absent (absent : ledger.Absent owner) : ledger.without owner = ledger := by
  refine Ledger.ext (funext fun other => Option.ext fun row => ?_)
    (funext fun key => Option.ext fun ⟨other, row⟩ => ?_)
    (funext fun key => Option.ext fun ⟨other, row⟩ => ?_)
  · rw [without_transactions_iff]
    refine ⟨And.left, fun found => ⟨found, ?_⟩⟩
    rintro rfl
    exact absurd (absent.transactions.symm.trans found) nofun
  · rw [without_outputs_iff]
    exact ⟨And.left, fun found => ⟨found, absent.outputs _ _ found⟩⟩
  · rw [without_inputs_iff]
    exact ⟨And.left, fun found =>
      ⟨found, absent.inputs _ _ found, fun holder output holds => absent.outputs _ _ holds⟩⟩

end Operations

end Ledger

/-! ### Taking a transaction out -/

namespace Database

section Delete

variable {db : Database} {row : XmrTransaction}

/-- The id of a transaction names it as well as its hash and account do. -/
theorem owner_eq_iff (valid : db.Valid) (member : row ∈ db.transactions) {txId : Nat}
    {owner : Owner} (names : db.ownerOf txId = some owner) :
    owner = row.owner ↔ txId = row.id := by
  obtain ⟨tx, inRows, rfl, rfl⟩ := (ownerOf_eq_some_iff valid).mp names
  constructor
  · intro same
    obtain ⟨hash, account⟩ := Owner.mk.inj same
    rw [valid.transactionHashes.eq_of_key inRows member (Prod.ext hash account)]
  · intro same
    rw [valid.transactionIds.eq_of_key inRows member same]

theorem ownerOf_deleteTx (valid : db.Valid) {deleted txId : Nat} {owner : Owner} :
    (db.deleteTx deleted).2.ownerOf txId = some owner ↔
      db.ownerOf txId = some owner ∧ txId ≠ deleted := by
  rw [ownerOf_eq_some_iff (valid.deleteTx deleted), ownerOf_eq_some_iff valid]
  constructor
  · rintro ⟨tx, member, rfl, rfl⟩
    obtain ⟨inRows, differs⟩ := mem_deleteTx_transactions.mp member
    exact ⟨⟨tx, inRows, rfl, rfl⟩, differs⟩
  · rintro ⟨⟨tx, inRows, rfl, rfl⟩, differs⟩
    exact ⟨tx, mem_deleteTx_transactions.mpr ⟨inRows, differs⟩, rfl, rfl⟩

/-- Deleting a transaction takes it out of the ledger. -/
theorem ledger_deleteTx (valid : db.Valid) (member : row ∈ db.transactions) :
    (db.deleteTx row.id).2.ledger = db.ledger.without row.owner := by
  have afterValid := valid.deleteTx row.id
  have names {txId : Nat} {owner : Owner} (found : db.ownerOf txId = some owner) :
      owner ≠ row.owner ↔ txId ≠ row.id := (owner_eq_iff valid member found).not
  refine Ledger.ext (funext fun owner => Option.ext fun tx => ?_)
    (funext fun key => Option.ext fun ⟨owner, output⟩ => ?_)
    (funext fun key => Option.ext fun ⟨owner, input⟩ => ?_)
  · rw [Ledger.without_transactions_iff, ledger_transactions_iff afterValid,
      ledger_transactions_iff valid]
    constructor
    · rintro ⟨found, inAfter, rfl, rfl⟩
      obtain ⟨inRows, differs⟩ := mem_deleteTx_transactions.mp inAfter
      refine ⟨⟨found, inRows, rfl, rfl⟩, (names ?_).mpr differs⟩
      exact (ownerOf_eq_some_iff valid).mpr ⟨found, inRows, rfl, rfl⟩
    · rintro ⟨⟨found, inRows, rfl, rfl⟩, differs⟩
      refine ⟨found, mem_deleteTx_transactions.mpr ⟨inRows, (names ?_).mp differs⟩, rfl, rfl⟩
      exact (ownerOf_eq_some_iff valid).mpr ⟨found, inRows, rfl, rfl⟩
  · rw [Ledger.without_outputs_iff, ledger_outputs_iff afterValid, ledger_outputs_iff valid]
    constructor
    · rintro ⟨found, inAfter, rfl, owned, rfl⟩
      obtain ⟨ownedBefore, differs⟩ := (ownerOf_deleteTx valid).mp owned
      exact ⟨⟨found, (mem_deleteTx_outputs.mp inAfter).1, rfl, ownedBefore, rfl⟩,
        (names ownedBefore).mpr differs⟩
    · rintro ⟨⟨found, inRows, rfl, owned, rfl⟩, differs⟩
      have kept := (names owned).mp differs
      exact ⟨found, mem_deleteTx_outputs.mpr ⟨inRows, kept⟩, rfl,
        (ownerOf_deleteTx valid).mpr ⟨owned, kept⟩, rfl⟩
  · rw [Ledger.without_inputs_iff, ledger_inputs_iff afterValid, ledger_inputs_iff valid]
    constructor
    · rintro ⟨found, inAfter, spends, image, owned, rfl⟩
      obtain ⟨inRows, -, others⟩ := mem_deleteTx_inputs.mp inAfter
      obtain ⟨ownedBefore, differs⟩ := (ownerOf_deleteTx valid).mp owned
      obtain ⟨output, inOutputs, id, key⟩ := (keyOf_eq_some_iff afterValid).mp spends
      have inBefore := (mem_deleteTx_outputs.mp inOutputs).1
      refine ⟨⟨found, inRows, (keyOf_eq_some_iff valid).mpr ⟨output, inBefore, id, key⟩, image,
        ownedBefore, rfl⟩, (names ownedBefore).mpr differs, fun holder held holds => ?_⟩
      obtain ⟨same, inTable, sameKey, holderOwns, -⟩ := (ledger_outputs_iff valid).mp holds
      obtain rfl := valid.outputKeys.eq_of_key inBefore inTable (key.trans sameKey.symm)
      exact (names holderOwns).mpr (others output inBefore id)
    · rintro ⟨⟨found, inRows, spends, image, owned, rfl⟩, differs, others⟩
      have kept := (names owned).mp differs
      obtain ⟨output, inOutputs, id, key⟩ := (keyOf_eq_some_iff valid).mp spends
      obtain ⟨holder, holds⟩ := exists_ownerOf_output valid inOutputs
      have stays : output.txId ≠ row.id := (names holds).mp
        (others holder _ ((ledger_outputs_iff valid).mpr ⟨output, inOutputs, key, holds, rfl⟩))
      refine ⟨found, mem_deleteTx_inputs.mpr ⟨inRows, kept, fun other inTable sameId => ?_⟩,
        (keyOf_eq_some_iff afterValid).mpr
          ⟨output, mem_deleteTx_outputs.mpr ⟨inOutputs, stays⟩, id, key⟩, image,
        (ownerOf_deleteTx valid).mpr ⟨owned, kept⟩, rfl⟩
      rw [valid.outputIds.eq_of_key inTable inOutputs (sameId.trans id.symm)]
      exact stays

/-- The ledger has nothing of a transaction without a row. -/
theorem absent_ledger (valid : db.Valid) {owner : Owner}
    (noRow : ∀ tx ∈ db.transactions, tx.owner ≠ owner) : db.ledger.Absent owner := by
  have never {txId : Nat} {other : Owner} (found : db.ownerOf txId = some other) :
      other ≠ owner := by
    obtain ⟨tx, inRows, -, rfl⟩ := (ownerOf_eq_some_iff valid).mp found
    exact noRow tx inRows
  refine ⟨Option.eq_none_iff_forall_ne_some.mpr fun row found => ?_, fun key entry found => ?_,
    fun key entry found => ?_⟩
  · obtain ⟨tx, inRows, isOwner, -⟩ := (ledger_transactions_iff valid).mp found
    exact noRow tx inRows isOwner
  · obtain ⟨output, -, -, owned, -⟩ := (ledger_outputs_iff valid).mp found
    exact never owned
  · obtain ⟨input, -, -, -, owned, -⟩ := (ledger_inputs_iff valid).mp found
    exact never owned

end Delete

end Database

/-! ### Adding a transaction -/

namespace Database

section Append

variable {db : Database}

/-- A row is found under a key exactly if it is one of the added ones or was found before, where
the added ones have keys of their own. -/
theorem find?_map_or_eq_some_iff {Row Key Result : Type} [DecidableEq Key] {key : Row → Key}
    {rows : List Row} (unique : Tables.Unique key rows) (read : Row → Result) {sought : Key}
    {old : Option Result} (fresh : ∀ row ∈ rows, key row = sought → old = none)
    (result : Result) :
    ((rows.find? (key · = sought)).map read).or old = some result ↔
      (∃ row ∈ rows, key row = sought ∧ read row = result) ∨ old = some result := by
  by_cases present : ∃ row ∈ rows, key row = sought
  · obtain ⟨row, member, rfl⟩ := present
    rw [Tables.find?_eq_some_of_unique member (decide_eq_true rfl) fun other inRows same =>
        unique.eq_of_key inRows member (of_decide_eq_true same), fresh row member rfl]
    constructor
    · intro found
      exact .inl ⟨row, member, rfl, Option.some.inj found⟩
    · rintro (⟨other, inRows, same, rfl⟩ | never)
      · rw [unique.eq_of_key inRows member same]
        rfl
      · cases never
  · rw [List.find?_eq_none.mpr fun row member same =>
      present ⟨row, member, of_decide_eq_true same⟩]
    refine (or_iff_right ?_).symm
    rintro ⟨row, member, same, -⟩
    exact present ⟨row, member, same⟩

/-- Tables that look alike have rows for the same things. -/
theorem exists_mem_iff_of_map_eq {First Second Key : Type} {first : List First}
    {second : List Second} {read : First → Key} {readSecond : Second → Key}
    (same : first.map read = second.map readSecond) (holds : Key → Prop) :
    (∃ row ∈ first, holds (read row)) ↔ ∃ row ∈ second, holds (readSecond row) := by
  have keys : (∃ key ∈ first.map read, holds key) ↔ ∃ key ∈ second.map readSecond, holds key := by
    rw [same]
  simpa using keys

theorem ownerOf_appendTransaction (valid : db.Valid) {row : XmrTransaction}
    (accepts : db.acceptsTransaction row = true) {txId : Nat} {owner : Owner} :
    (db.appendTransaction row).ownerOf txId = some owner ↔
      db.ownerOf txId = some owner ∨ txId = db.nextTransaction ∧ owner = row.owner := by
  rw [ownerOf_eq_some_iff (valid.appendTransaction accepts), ownerOf_eq_some_iff valid]
  constructor
  · rintro ⟨tx, member, rfl, rfl⟩
    rcases List.mem_append.mp member with old | new
    · exact .inl ⟨tx, old, rfl, rfl⟩
    · rw [List.mem_singleton.mp new]
      exact .inr ⟨rfl, rfl⟩
  · rintro (⟨tx, inRows, rfl, rfl⟩ | ⟨rfl, rfl⟩)
    · exact ⟨tx, List.mem_append_left _ inRows, rfl, rfl⟩
    · exact ⟨_, List.mem_append_right _ List.mem_cons_self, rfl, rfl⟩

/-- An id that was given out names the transaction that it named before. -/
theorem ownerOf_appendTransaction_of_lt (valid : db.Valid) {row : XmrTransaction}
    (accepts : db.acceptsTransaction row = true) {txId : Nat} (old : txId < db.nextTransaction) :
    (db.appendTransaction row).ownerOf txId = db.ownerOf txId := by
  refine Option.ext fun owner => (ownerOf_appendTransaction valid accepts).trans ?_
  exact or_iff_left fun new => Nat.ne_of_lt old new.1

theorem ledger_appendTransaction (valid : db.Valid) {row : XmrTransaction}
    (accepts : db.acceptsTransaction row = true) :
    (db.appendTransaction row).ledger = db.ledger.withTransaction row.owner row.unnumbered := by
  have afterValid := valid.appendTransaction accepts
  obtain ⟨-, fresh⟩ := (acceptsTransaction_iff db row).mp accepts
  refine Ledger.ext (funext fun owner => Option.ext fun tx => ?_)
    (funext fun key => Option.ext fun ⟨owner, output⟩ => ?_)
    (funext fun key => Option.ext fun ⟨owner, input⟩ => ?_)
  · rw [ledger_transactions_iff afterValid]
    show _ ↔ (if owner = row.owner then some row.unnumbered else db.ledger.transactions owner) = _
    by_cases here : owner = row.owner
    · rw [if_pos here, Option.some_inj]
      constructor
      · rintro ⟨found, member, owned, rfl⟩
        rcases List.mem_append.mp member with old | new
        · obtain ⟨hash, account⟩ := Owner.mk.inj (owned.trans here)
          exact absurd (Prod.ext hash account) (fresh found old)
        · rw [List.mem_singleton.mp new]
          rfl
      · rintro rfl
        exact ⟨_, List.mem_append_right _ List.mem_cons_self, here.symm, rfl⟩
    · rw [if_neg here, ledger_transactions_iff valid]
      constructor
      · rintro ⟨found, member, owned, rfl⟩
        rcases List.mem_append.mp member with old | new
        · exact ⟨found, old, owned, rfl⟩
        · rw [List.mem_singleton.mp new] at owned
          exact absurd owned.symm here
      · rintro ⟨found, inRows, owned, rfl⟩
        exact ⟨found, List.mem_append_left _ inRows, owned, rfl⟩
  · rw [ledger_outputs_iff afterValid]
    show _ ↔ db.ledger.outputs key = _
    rw [ledger_outputs_iff valid]
    refine exists_congr fun found => and_congr_right fun (inRows : found ∈ db.outputs) => ?_
    rw [ownerOf_appendTransaction_of_lt valid accepts (valid.output_txId_lt inRows)]
  · rw [ledger_inputs_iff afterValid]
    show _ ↔ db.ledger.inputs key = _
    rw [ledger_inputs_iff valid]
    refine exists_congr fun found => and_congr_right fun (inRows : found ∈ db.inputs) => ?_
    rw [ownerOf_appendTransaction_of_lt valid accepts (valid.input_txId_lt inRows)]
    rfl

/-- An id that was given out names the output that it named before. -/
theorem keyOf_appendOutputs_of_lt (valid : db.Valid) {rows : List XmrOutput}
    (accepts : db.acceptsOutputs rows = true) {outputId : Nat} (old : outputId < db.nextOutput) :
    (db.appendOutputs rows).keyOf outputId = db.keyOf outputId := by
  refine Option.ext fun key => ?_
  rw [keyOf_eq_some_iff (valid.appendOutputs accepts), keyOf_eq_some_iff valid]
  refine exists_congr fun output => and_congr_left fun ⟨id, _⟩ => ?_
  refine List.mem_append.trans (or_iff_left fun new => ?_)
  obtain ⟨row, -, number, least, -, rfl⟩ := mem_numbered _ new
  exact absurd (id ▸ least : db.nextOutput ≤ outputId) (Nat.not_le_of_lt old)

theorem ledger_appendOutputs (valid : db.Valid) {rows : List XmrOutput}
    (accepts : db.acceptsOutputs rows = true) {txId : Nat} {owner : Owner}
    (owned : db.ownerOf txId = some owner) (ofTx : ∀ row ∈ rows, row.txId = txId) :
    (db.appendOutputs rows).ledger = db.ledger.withOutputs owner (rows.map (·.unnumbered)) := by
  have afterValid := valid.appendOutputs accepts
  obtain ⟨distinct, fresh⟩ := (acceptsOutputs_iff db rows).mp accepts
  refine Ledger.ext rfl (funext fun key => Option.ext fun ⟨other, output⟩ => ?_)
    (funext fun key => Option.ext fun ⟨other, input⟩ => ?_)
  · have unique : Tables.Unique XmrOutput.outPubKey (rows.map (·.unnumbered)) := by
      unfold Tables.Unique
      rw [List.map_map]
      exact distinct
    have unheld : ∀ row ∈ rows.map (·.unnumbered), row.outPubKey = key →
        db.ledger.outputs key = none := by
      rintro row member rfl
      obtain ⟨original, inRows, rfl⟩ := List.mem_map.mp member
      refine Option.eq_none_iff_forall_ne_some.mpr fun entry found => ?_
      obtain ⟨old, inOutputs, same, -⟩ := (ledger_outputs_iff valid).mp found
      exact (fresh original inRows).2.2 old inOutputs same
    refine Iff.trans ?_ (find?_map_or_eq_some_iff unique (owner, ·) unheld (other, output)).symm
    rw [ledger_outputs_iff afterValid, or_comm, ledger_outputs_iff valid]
    simp only [appendOutputs, List.mem_append, or_and_right, exists_or]
    refine or_congr Iff.rfl ?_
    have alike := (numbered_map (fun (row : XmrOutput) id => { row with id })
      (fun row => (row.txId, row.unnumbered)) (fun _ _ => rfl) db.nextOutput rows).trans
      (List.map_congr_left fun row inRows => by rw [ofTx row inRows] :
        _ = rows.map fun row => (txId, row.unnumbered))
    have unnumberedRows : (rows.map fun row => (txId, row.unnumbered)) =
        (rows.map (·.unnumbered)).map (txId, ·) := List.map_map.symm
    refine (exists_mem_iff_of_map_eq (alike.trans unnumberedRows) fun row =>
      row.2.outPubKey = key ∧ db.ownerOf row.1 = some other ∧ row.2 = output).trans ?_
    simp only [owned, Option.some_inj, Prod.mk.injEq]
  · rw [ledger_inputs_iff afterValid]
    show _ ↔ db.ledger.inputs key = _
    rw [ledger_inputs_iff valid]
    refine exists_congr fun found => and_congr_right fun (inRows : found ∈ db.inputs) => ?_
    rw [keyOf_appendOutputs_of_lt valid accepts (valid.input_outputId_lt inRows)]
    rfl

/-- Spends of different outputs, or under different key images, are spends of different keys, or
under different key images. -/
theorem spends_unique (valid : db.Valid) {rows : List XmrInput}
    (distinct : Tables.Unique (fun row : XmrInput => (row.outputId, row.keyImage)) rows)
    {entries : List (String × XmrInput)}
    (ofKeys : rows.map (fun row => (db.keyOf row.outputId, row.unnumbered)) =
      entries.map fun entry => (some entry.1, entry.2)) :
    Tables.Unique (fun entry : String × XmrInput => (entry.1, entry.2.keyImage)) entries := by
  have keys := congrArg (List.map fun pair => (pair.1, pair.2.keyImage)) ofKeys
  rw [List.map_map, List.map_map] at keys
  have paired : (rows.map fun row => (db.keyOf row.outputId, row.keyImage)).Nodup := by
    refine List.Nodup.map_on ?_ (List.Nodup.of_map _ distinct)
    intro first inRows second alsoInRows same
    obtain ⟨sameKey, sameImage⟩ := Prod.mk.inj same
    have isEntry : (db.keyOf first.outputId, first.unnumbered) ∈
        entries.map fun entry => (some entry.1, entry.2) := by
      rw [← ofKeys]
      exact List.mem_map_of_mem inRows
    obtain ⟨entry, -, values⟩ := List.mem_map.mp isEntry
    have firstKey : db.keyOf first.outputId = some entry.1 := (Prod.mk.inj values).1.symm
    obtain ⟨output, inOutputs, id, isKey⟩ := (keyOf_eq_some_iff valid).mp firstKey
    obtain ⟨other, alsoInOutputs, otherId, otherKey⟩ :=
      (keyOf_eq_some_iff valid).mp (sameKey.symm.trans firstKey)
    obtain rfl := valid.outputKeys.eq_of_key inOutputs alsoInOutputs (isKey.trans otherKey.symm)
    exact distinct.eq_of_key inRows alsoInRows (Prod.ext (id.symm.trans otherId) sameImage)
  have mapped : (entries.map fun entry => (some entry.1, entry.2.keyImage)).Nodup := by
    rw [show (entries.map fun entry => (some entry.1, entry.2.keyImage)) = _ from keys.symm]
    exact paired
  refine List.Nodup.of_map (fun pair : String × String => (some pair.1, pair.2)) ?_
  rw [List.map_map]
  exact mapped

theorem ledger_appendInputs (valid : db.Valid) {rows : List XmrInput}
    (accepts : db.acceptsInputs rows = true) {txId : Nat} {owner : Owner}
    (owned : db.ownerOf txId = some owner) (ofTx : ∀ row ∈ rows, row.txId = txId)
    {entries : List (String × XmrInput)}
    (ofKeys : rows.map (fun row => (db.keyOf row.outputId, row.unnumbered)) =
      entries.map fun entry => (some entry.1, entry.2)) :
    (db.appendInputs rows).ledger = db.ledger.withInputs owner entries := by
  have afterValid := valid.appendInputs accepts
  obtain ⟨distinct, fresh⟩ := (acceptsInputs_iff db rows).mp accepts
  refine Ledger.ext rfl rfl (funext fun key => Option.ext fun ⟨other, input⟩ => ?_)
  have unheld : ∀ entry ∈ entries, (entry.1, entry.2.keyImage) = key →
      db.ledger.inputs key = none := by
    rintro entry inEntries rfl
    have isEntry : (some entry.1, entry.2) ∈ entries.map fun entry => (some entry.1, entry.2) :=
      List.mem_map_of_mem inEntries
    rw [← ofKeys] at isEntry
    obtain ⟨row, inRows, values⟩ := List.mem_map.mp isEntry
    obtain ⟨rowKey, isRow⟩ := Prod.mk.inj values
    refine Option.eq_none_iff_forall_ne_some.mpr fun ⟨holder, held⟩ found => ?_
    obtain ⟨old, inInputs, spends, image, -⟩ := (ledger_inputs_iff valid).mp found
    obtain ⟨output, inOutputs, id, isKey⟩ := (keyOf_eq_some_iff valid).mp rowKey
    obtain ⟨spent, alsoInOutputs, spentId, spentKey⟩ := (keyOf_eq_some_iff valid).mp spends
    obtain rfl := valid.outputKeys.eq_of_key inOutputs alsoInOutputs (isKey.trans spentKey.symm)
    refine (fresh row inRows).2.2.2 old inInputs (Prod.ext (spentId.symm.trans id) ?_)
    exact image.trans (congrArg XmrInput.keyImage isRow).symm
  refine Iff.trans ?_ (find?_map_or_eq_some_iff (spends_unique valid distinct ofKeys)
    (owner, ·.2) unheld (other, input)).symm
  rw [ledger_inputs_iff afterValid, or_comm, ledger_inputs_iff valid]
  simp only [appendInputs, List.mem_append, or_and_right, exists_or]
  refine or_congr Iff.rfl ?_
  have alike := (numbered_map (fun (row : XmrInput) id => { row with id })
    (fun row => (row.txId, db.keyOf row.outputId, row.unnumbered)) (fun _ _ => rfl)
    db.nextInput rows).trans (List.map_congr_left fun row inRows => by rw [ofTx row inRows] :
      _ = rows.map fun row => (txId, db.keyOf row.outputId, row.unnumbered))
  have alikeEntries := congrArg (List.map fun pair => (txId, pair)) ofKeys
  rw [List.map_map, List.map_map] at alikeEntries
  refine (exists_mem_iff_of_map_eq (alike.trans alikeEntries) fun row => row.2.1 = some key.1 ∧
    row.2.2.keyImage = key.2 ∧ db.ownerOf row.1 = some other ∧ row.2.2 = input).trans ?_
  refine exists_congr fun entry => and_congr_right fun inEntries => ?_
  simp only [Function.comp, owned, Option.some_inj, Prod.ext_iff, and_assoc]

end Append

end Database

/-! ### A transaction is added -/

namespace Ledger

section Add

variable {ledger : Ledger} {owner : Owner} {row : XmrTransaction} {outputs : List XmrOutput}
  {inputs : List (String × XmrInput)}

theorem add_transactions (ledger : Ledger) (owner other : Owner) (row : XmrTransaction)
    (outputs : List XmrOutput) (inputs : List (String × XmrInput)) :
    (ledger.add owner row outputs inputs).transactions other =
      if other = owner then some row else ledger.transactions other := rfl

theorem add_outputs_iff (accepts : ledger.Accepts outputs inputs) {key : String}
    {entry : Owner × XmrOutput} :
    (ledger.add owner row outputs inputs).outputs key = some entry ↔
      (∃ output ∈ outputs, output.outPubKey = key ∧ (owner, output) = entry) ∨
        ledger.outputs key = some entry := by
  refine Database.find?_map_or_eq_some_iff accepts.outputKeys (owner, ·) ?_ entry
  rintro output member rfl
  exact accepts.freshOutputs output member

theorem add_inputs_iff (accepts : ledger.Accepts outputs inputs) {key : String × String}
    {entry : Owner × XmrInput} :
    (ledger.add owner row outputs inputs).inputs key = some entry ↔
      (∃ input ∈ inputs, (input.1, input.2.keyImage) = key ∧ (owner, input.2) = entry) ∨
        ledger.inputs key = some entry := by
  refine Database.find?_map_or_eq_some_iff accepts.inputKeys (owner, ·.2) ?_ entry
  rintro input member rfl
  exact accepts.freshInputs input member

end Add

end Ledger

/-! ### A pass -/

/-- The spends that are found of the given inputs: those of outputs that are in the ledger. -/
def Ledger.spends (ledger : Ledger) (accountId timestamp : Nat) (infos : List InputInfo) :
    List (String × XmrInput) :=
  infos.filterMap fun info =>
    (ledger.outputs info.outPubKey).map fun entry =>
      (info.outPubKey,
        { accountId, keyImage := info.keyImg, amount := entry.2.amount, timestamp })

theorem collectInputs_eq_filterMap (row : InputInfo → XmrOutput → XmrInput)
    {answers : Nat → Bool} (all : ∀ index, answers index = true) (db : Database) (index : Nat)
    (infos : List InputInfo) :
    collectInputs row answers db index infos =
      infos.filterMap fun info => (db.outputExists info.outPubKey).map (row info) := by
  induction infos generalizing index with
  | nil => rfl
  | cons info rest inductionHypothesis =>
    rw [List.filterMap_cons]
    cases found : db.outputExists info.outPubKey with
    | none =>
      rw [collectInputs_cons_none row answers fun _ => found]
      exact inductionHypothesis _
    | some output =>
      rw [collectInputs_cons_some row answers (all index) found, inductionHypothesis]
      rfl

/-- What is sent depends on the amounts alone. -/
theorem calcTotalSent_congr {first second : List XmrInput}
    (same : first.map (·.amount) = second.map (·.amount)) :
    calcTotalSent first = calcTotalSent second := by
  have ofAmounts (rows : List XmrInput) :
      calcTotalSent rows = (rows.map (·.amount)).foldl (· + ·) 0 := List.foldl_map.symm
  rw [ofAmounts, ofAmounts, same]

namespace Database

/-- A lookup by key finds the output that the ledger has under the key. -/
theorem outputExists_map {db : Database} (valid : db.Valid) (key : String) :
    (db.outputExists key).map (fun output => (db.keyOf output.id, output.unnumbered)) =
      (db.ledger.outputs key).map fun entry => (some key, entry.2) := by
  cases found : db.outputExists key with
  | none =>
    have absent : db.ledger.outputs key = none := by
      unfold ledger
      dsimp only
      rw [show db.outputs.find? (·.outPubKey = key) = none from found]
      rfl
    rw [absent]
    rfl
  | some output =>
    have member := List.mem_of_find?_eq_some found
    have passes := List.find?_some found
    have isKey : output.outPubKey = key := of_decide_eq_true passes
    obtain ⟨owner, owned⟩ := exists_ownerOf_output valid member
    rw [(ledger_outputs_iff valid).mpr ⟨output, member, isKey, owned, rfl⟩, Option.map_some,
      Option.map_some, (keyOf_eq_some_iff valid).mpr ⟨output, member, rfl, isKey⟩]

end Database

section Pass

variable {wallet : Wallet} {status : Status} {tuple : TxTuple} {tx : Transaction}
  {outcomes : Outcomes} {scanned : Scanned}

/-- The transaction of a pass, for the account of the search thread. -/
def passOwner (wallet : Wallet) (tx : Transaction) : Owner := ⟨tx.hash, wallet.account.id⟩

/-- The spends that a pass finds in the ledger without the rows of an earlier scan. -/
def passSpends (wallet : Wallet) (tuple : TxTuple) (tx : Transaction) (outcomes : Outcomes)
    (scanned : Scanned) (ledger : Ledger) : List (String × XmrInput) :=
  (ledger.withOutputs (passOwner wallet tx)
      (storedOutputs wallet tuple tx outcomes scanned 0)).spends
    wallet.account.id (storedTimestamp tuple scanned) (identifiedInputs wallet tx scanned)

/-- Clearing the tables takes the transaction out of the ledger. -/
theorem ledger_clearedDb (valid : scanned.db.Valid) (answers : outcomes.existsAnswers = true) :
    (clearedDb wallet tx outcomes scanned.db).ledger =
      scanned.db.ledger.without (passOwner wallet tx) := by
  unfold clearedDb
  cases existing : existingTx wallet tx outcomes scanned.db with
  | none =>
    refine (Ledger.without_of_absent (Database.absent_ledger valid fun row member same => ?_)).symm
    obtain ⟨hash, account⟩ := Owner.mk.inj same
    unfold existingTx Database.txExists at existing
    rw [if_pos answers] at existing
    exact List.find?_eq_none.mp existing row member (decide_eq_true ⟨account, hash⟩)
  | some old =>
    obtain ⟨member, account, hash⟩ := existingTx_mem wallet tx outcomes existing
    rw [Database.ledger_deleteTx valid member]
    exact congrArg scanned.db.ledger.without (congrArg₂ Owner.mk hash account)

/-- The tables once they have the row of the transaction and those of its outputs. -/
theorem ledger_withOutputs (cleared : (clearedDb wallet tx outcomes scanned.db).Valid)
    {found : List XmrInput}
    (accepts : (clearedDb wallet tx outcomes scanned.db).acceptsTransaction
      (storedTransaction wallet status tuple tx outcomes scanned found) = true)
    (acceptsOutputs : ((clearedDb wallet tx outcomes scanned.db).appendTransaction
      (storedTransaction wallet status tuple tx outcomes scanned found)).acceptsOutputs
      (storedOutputs wallet tuple tx outcomes scanned
        (clearedDb wallet tx outcomes scanned.db).nextTransaction) = true) :
    (withOutputs wallet status tuple tx outcomes scanned found
        (clearedDb wallet tx outcomes scanned.db)).ledger =
      ((clearedDb wallet tx outcomes scanned.db).ledger.withTransaction (passOwner wallet tx)
        (storedTransaction wallet status tuple tx outcomes scanned found)).withOutputs
          (passOwner wallet tx) (storedOutputs wallet tuple tx outcomes scanned 0) := by
  have owned := (Database.ownerOf_appendTransaction cleared accepts).mpr (.inr ⟨rfl, rfl⟩)
  have unnumbered (txMysqlId : Nat) :
      (storedOutputs wallet tuple tx outcomes scanned txMysqlId).map (·.unnumbered) =
        storedOutputs wallet tuple tx outcomes scanned 0 := by
    unfold storedOutputs
    rw [List.map_map]
    rfl
  unfold LightWallet.withOutputs
  rw [Database.ledger_appendOutputs (cleared.appendTransaction accepts) acceptsOutputs owned,
    Database.ledger_appendTransaction cleared accepts, unnumbered]
  · rfl
  · intro row member
    obtain ⟨info, -, rfl⟩ := List.mem_map.mp member
    rfl

/-- The rows of the inputs that a pass finds are the spends that the ledger gives. -/
theorem passInputs_eq_passSpends (cleared : (clearedDb wallet tx outcomes scanned.db).Valid)
    (answers : ∀ index, outcomes.outputExistsAnswers index = true) {found : List XmrInput}
    (accepts : (clearedDb wallet tx outcomes scanned.db).acceptsTransaction
      (storedTransaction wallet status tuple tx outcomes scanned found) = true)
    (acceptsOutputs : ((clearedDb wallet tx outcomes scanned.db).appendTransaction
      (storedTransaction wallet status tuple tx outcomes scanned found)).acceptsOutputs
      (storedOutputs wallet tuple tx outcomes scanned
        (clearedDb wallet tx outcomes scanned.db).nextTransaction) = true) :
    (passInputs wallet tuple tx outcomes scanned).map (fun row =>
        ((withOutputs wallet status tuple tx outcomes scanned found
          (clearedDb wallet tx outcomes scanned.db)).keyOf row.outputId, row.unnumbered)) =
      (passSpends wallet tuple tx outcomes scanned
        (clearedDb wallet tx outcomes scanned.db).ledger).map fun entry =>
          (some entry.1, entry.2) := by
  have valid := (cleared.appendTransaction accepts).appendOutputs acceptsOutputs
  have ledger := ledger_withOutputs cleared accepts acceptsOutputs
  unfold passInputs foundInputs passSpends Ledger.spends
  rw [collectInputs_eq_filterMap _ answers, List.map_filterMap, List.map_filterMap]
  refine List.filterMap_congr fun info _ => ?_
  have looks := Database.outputExists_map valid info.outPubKey
  change (withOutputs wallet status tuple tx outcomes scanned found
    (clearedDb wallet tx outcomes scanned.db)).ledger = _ at ledger
  rw [show (((clearedDb wallet tx outcomes scanned.db).appendTransaction
    (storedTransaction wallet status tuple tx outcomes scanned found)).appendOutputs
    (storedOutputs wallet tuple tx outcomes scanned
      (clearedDb wallet tx outcomes scanned.db).nextTransaction)).ledger = _ from ledger] at looks
  have read := congrArg (Option.map fun pair : Option String × XmrOutput => (pair.1,
    ({ accountId := wallet.account.id, keyImage := info.keyImg, amount := pair.2.amount,
       timestamp := storedTimestamp tuple scanned } : XmrInput))) looks
  rw [Option.map_map, Option.map_map] at read
  rw [Option.map_map, Option.map_map]
  exact read

theorem linkedInputs_map {Key : Type} (read : XmrInput → Key)
    (fixed : ∀ row txId, read { row with txId } = read row) (found : List XmrInput) (txId : Nat) :
    (linkedInputs found txId).map read = found.map read := by
  unfold linkedInputs
  rw [List.map_map]
  exact List.map_congr_left fun row _ => fixed row txId

/-- Before a pass stores rows, it takes those of an earlier scan out, if there are any: else their
key would be taken. -/
theorem Stores.ledger_clearedDb (stores : Stores wallet status tuple tx outcomes scanned)
    (valid : scanned.db.Valid) :
    (clearedDb wallet tx outcomes scanned.db).ledger =
      scanned.db.ledger.without (passOwner wallet tx) := by
  by_cases looksUp : outcomes.existsAnswers = true
  · exact LightWallet.ledger_clearedDb valid looksUp
  · have same : clearedDb wallet tx outcomes scanned.db = scanned.db := by
      unfold clearedDb existingTx
      rw [if_neg looksUp]
    obtain ⟨-, fresh⟩ := (Database.acceptsTransaction_iff _ _).mp stores.accepts.1
    rw [same] at fresh ⊢
    refine (Ledger.without_of_absent (Database.absent_ledger valid fun row member owner => ?_)).symm
    obtain ⟨hash, account⟩ := Owner.mk.inj owner
    exact fresh row member (Prod.ext hash account)

/-- A pass that stores rows adds the transaction to the ledger, without the rows of an earlier
scan. -/
theorem Stores.ledger (stores : Stores wallet status tuple tx outcomes scanned)
    (valid : scanned.db.Valid)
    (answers : ∀ index, outcomes.outputExistsAnswers index = true) :
    let ledger := scanned.db.ledger.without (passOwner wallet tx)
    let spends := passSpends wallet tuple tx outcomes scanned ledger
    (filledDb wallet status tuple tx outcomes scanned).ledger =
      ledger.add (passOwner wallet tx)
        (storedTransaction wallet status tuple tx outcomes scanned (spends.map (·.2)))
        (storedOutputs wallet tuple tx outcomes scanned 0) spends := by
  intro ledger spends
  have cleared : (clearedDb wallet tx outcomes scanned.db).Valid := clearedDb_valid valid
  have clearedLedger : (clearedDb wallet tx outcomes scanned.db).ledger = ledger :=
    stores.ledger_clearedDb valid
  obtain ⟨accepts, acceptsOutputs, acceptsInputs⟩ := stores.accepts
  have found := passInputs_eq_passSpends cleared answers accepts acceptsOutputs
  rw [clearedLedger] at found
  have amounts : (passInputs wallet tuple tx outcomes scanned).map (·.amount) =
      (spends.map (·.2)).map (·.amount) := by
    have rows := congrArg (List.map fun pair => pair.2.amount) found
    simp only [List.map_map] at rows ⊢
    exact rows
  have sent : storedTransaction wallet status tuple tx outcomes scanned (spends.map (·.2)) =
      storedTransaction wallet status tuple tx outcomes scanned
        (passInputs wallet tuple tx outcomes scanned) := by
    unfold storedTransaction
    rw [calcTotalSent_congr amounts]
  have owned : (withOutputs wallet status tuple tx outcomes scanned
      (passInputs wallet tuple tx outcomes scanned)
      (clearedDb wallet tx outcomes scanned.db)).ownerOf
      (clearedDb wallet tx outcomes scanned.db).nextTransaction = some (passOwner wallet tx) :=
    (Database.ownerOf_appendTransaction cleared accepts).mpr (.inr ⟨rfl, rfl⟩)
  have received : (withOutputs wallet status tuple tx outcomes scanned
      (passInputs wallet tuple tx outcomes scanned)
      (clearedDb wallet tx outcomes scanned.db)).Valid :=
    (cleared.appendTransaction accepts).appendOutputs acceptsOutputs
  unfold filledDb
  rw [Database.ledger_appendInputs received acceptsInputs owned
      (fun row member => by obtain ⟨-, -, rfl⟩ := List.mem_map.mp member; rfl)
      ((linkedInputs_map _ (fun _ _ => rfl) _ _).trans found),
    ledger_withOutputs cleared accepts acceptsOutputs, clearedLedger, sent]
  rfl

end Pass

/-! ### When the keys admit a pass -/

namespace Database

variable {db : Database}

theorem ledger_outputs_eq_none_iff (valid : db.Valid) {key : String} :
    db.ledger.outputs key = none ↔ ∀ output ∈ db.outputs, output.outPubKey ≠ key := by
  constructor
  · rintro absent output member rfl
    obtain ⟨owner, owned⟩ := exists_ownerOf_output valid member
    have found := (ledger_outputs_iff valid).mpr ⟨output, member, rfl, owned, rfl⟩
    rw [absent] at found
    cases found
  · intro others
    refine Option.eq_none_iff_forall_ne_some.mpr fun ⟨owner, row⟩ found => ?_
    obtain ⟨output, member, same, -⟩ := (ledger_outputs_iff valid).mp found
    exact others output member same

/-- No spend of an output is recorded under a key image exactly if the ledger has none. -/
theorem ledger_inputs_eq_none_iff (valid : db.Valid) {outputId : Nat} {key keyImage : String}
    (isKey : db.keyOf outputId = some key) :
    db.ledger.inputs (key, keyImage) = none ↔
      ∀ input ∈ db.inputs, (input.outputId, input.keyImage) ≠ (outputId, keyImage) := by
  constructor
  · intro absent input member same
    obtain ⟨rfl, rfl⟩ := Prod.mk.inj same
    obtain ⟨tx, inRows, id⟩ := (hasTransaction_iff _ _).mp (valid.inputTransaction input member)
    have owned := (ownerOf_eq_some_iff valid).mpr ⟨tx, inRows, id, rfl⟩
    have found : db.ledger.inputs (key, input.keyImage) = some (tx.owner, input.unnumbered) :=
      (ledger_inputs_iff valid).mpr ⟨input, member, isKey, rfl, owned, rfl⟩
    rw [absent] at found
    cases found
  · intro others
    refine Option.eq_none_iff_forall_ne_some.mpr fun ⟨owner, row⟩ found => ?_
    obtain ⟨input, member, spends, image, -⟩ := (ledger_inputs_iff valid).mp found
    obtain ⟨output, inOutputs, id, outputKey⟩ := (keyOf_eq_some_iff valid).mp isKey
    obtain ⟨spent, alsoInOutputs, spentId, spentKey⟩ := (keyOf_eq_some_iff valid).mp spends
    obtain rfl := valid.outputKeys.eq_of_key inOutputs alsoInOutputs (outputKey.trans spentKey.symm)
    exact others input member (Prod.ext (spentId.symm.trans id) image)

end Database

section Pass

variable {wallet : Wallet} {status : Status} {tuple : TxTuple} {tx : Transaction}
  {outcomes : Outcomes} {scanned : Scanned}

theorem clearedDb_hasAccount (db : Database) (id : Nat) :
    (clearedDb wallet tx outcomes db).hasAccount id = db.hasAccount id :=
  congrArg (List.any · _) (clearedDb_accounts wallet tx outcomes db)

/-- Without the rows of an earlier scan, the row of the transaction is accepted. -/
theorem clearedDb_acceptsTransaction (valid : scanned.db.Valid)
    (account : scanned.db.hasAccount wallet.account.id = true)
    (looksUp : outcomes.existsAnswers = true) (found : List XmrInput) :
    (clearedDb wallet tx outcomes scanned.db).acceptsTransaction
      (storedTransaction wallet status tuple tx outcomes scanned found) = true := by
  refine (Database.acceptsTransaction_iff _ _).mpr
    ⟨(clearedDb_hasAccount _ _).trans account, fun old member same => ?_⟩
  obtain ⟨hash, accountId⟩ := Prod.mk.inj same
  have there := (Database.ledger_transactions_iff (clearedDb_valid valid)).mpr
    ⟨old, member, congrArg₂ Owner.mk hash accountId, rfl⟩
  rw [ledger_clearedDb valid looksUp] at there
  exact (Ledger.without_transactions_iff.mp there).2 rfl

/-- The keys of the outputs are new to the tables exactly if they are new to the ledger. -/
theorem acceptsOutputs_iff_ledger (cleared : (clearedDb wallet tx outcomes scanned.db).Valid)
    (account : scanned.db.hasAccount wallet.account.id = true) {found : List XmrInput} :
    ((clearedDb wallet tx outcomes scanned.db).appendTransaction
        (storedTransaction wallet status tuple tx outcomes scanned found)).acceptsOutputs
        (storedOutputs wallet tuple tx outcomes scanned
          (clearedDb wallet tx outcomes scanned.db).nextTransaction) = true ↔
      Tables.Unique XmrOutput.outPubKey (storedOutputs wallet tuple tx outcomes scanned 0) ∧
        ∀ output ∈ storedOutputs wallet tuple tx outcomes scanned 0,
          (clearedDb wallet tx outcomes scanned.db).ledger.outputs output.outPubKey = none := by
  rw [Database.acceptsOutputs_iff]
  unfold Tables.Unique storedOutputs
  rw [List.map_map, List.map_map]
  refine and_congr Iff.rfl ?_
  rw [List.forall_mem_map, List.forall_mem_map]
  refine forall₂_congr fun info _ => ?_
  rw [Database.ledger_outputs_eq_none_iff cleared]
  have has : ((clearedDb wallet tx outcomes scanned.db).appendTransaction
      (storedTransaction wallet status tuple tx outcomes scanned found)).hasTransaction
      (clearedDb wallet tx outcomes scanned.db).nextTransaction = true :=
    (Database.hasTransaction_iff _ _).mpr ⟨_, List.mem_append_right _ List.mem_cons_self, rfl⟩
  exact ⟨fun accepted => accepted.2.2, fun others =>
    ⟨(clearedDb_hasAccount _ _).trans account, has, others⟩⟩

/-- The spends are new to the tables exactly if they are new to the ledger. -/
theorem acceptsInputs_iff_ledger (cleared : (clearedDb wallet tx outcomes scanned.db).Valid)
    (account : scanned.db.hasAccount wallet.account.id = true)
    (answers : ∀ index, outcomes.outputExistsAnswers index = true) {found : List XmrInput}
    (accepts : (clearedDb wallet tx outcomes scanned.db).acceptsTransaction
      (storedTransaction wallet status tuple tx outcomes scanned found) = true)
    (acceptsOutputs : ((clearedDb wallet tx outcomes scanned.db).appendTransaction
      (storedTransaction wallet status tuple tx outcomes scanned found)).acceptsOutputs
      (storedOutputs wallet tuple tx outcomes scanned
        (clearedDb wallet tx outcomes scanned.db).nextTransaction) = true) :
    (withOutputs wallet status tuple tx outcomes scanned found
        (clearedDb wallet tx outcomes scanned.db)).acceptsInputs
        (linkedInputs (passInputs wallet tuple tx outcomes scanned)
          (clearedDb wallet tx outcomes scanned.db).nextTransaction) = true ↔
      Tables.Unique (fun row : String × XmrInput => (row.1, row.2.keyImage))
          (passSpends wallet tuple tx outcomes scanned
            (clearedDb wallet tx outcomes scanned.db).ledger) ∧
        ∀ row ∈ passSpends wallet tuple tx outcomes scanned
            (clearedDb wallet tx outcomes scanned.db).ledger,
          (clearedDb wallet tx outcomes scanned.db).ledger.inputs (row.1, row.2.keyImage) =
            none := by
  have valid : (withOutputs wallet status tuple tx outcomes scanned found
      (clearedDb wallet tx outcomes scanned.db)).Valid :=
    (cleared.appendTransaction accepts).appendOutputs acceptsOutputs
  have spends := passInputs_eq_passSpends cleared answers accepts acceptsOutputs
  have ledger := ledger_withOutputs cleared accepts acceptsOutputs
  have sameInputs : (withOutputs wallet status tuple tx outcomes scanned found
      (clearedDb wallet tx outcomes scanned.db)).ledger.inputs =
      (clearedDb wallet tx outcomes scanned.db).ledger.inputs := by rw [ledger]; rfl
  have linked := (linkedInputs_map (fun row => ((withOutputs wallet status tuple tx outcomes scanned
    found (clearedDb wallet tx outcomes scanned.db)).keyOf row.outputId, row.unnumbered))
    (fun _ _ => rfl) _ (clearedDb wallet tx outcomes scanned.db).nextTransaction).trans spends
  rw [Database.acceptsInputs_iff]
  constructor
  · rintro ⟨distinct, fresh⟩
    refine ⟨Database.spends_unique valid distinct linked, fun row member => ?_⟩
    have isEntry : (some row.1, row.2) ∈ (passSpends wallet tuple tx outcomes scanned
        (clearedDb wallet tx outcomes scanned.db).ledger).map fun row => (some row.1, row.2) :=
      List.mem_map_of_mem member
    rw [← linked] at isEntry
    obtain ⟨input, inRows, values⟩ := List.mem_map.mp isEntry
    obtain ⟨isKey, isRow⟩ := Prod.mk.inj values
    rw [← sameInputs, ← isRow]
    exact (Database.ledger_inputs_eq_none_iff valid isKey).mpr (fresh input inRows).2.2.2
  · rintro ⟨distinct, fresh⟩
    have keys := congrArg (List.map fun pair => (pair.1, pair.2.keyImage)) linked
    rw [List.map_map, List.map_map] at keys
    constructor
    · -- a repeated output id would repeat its key
      refine List.Nodup.of_map (fun pair : Nat × String => ((withOutputs wallet status tuple tx
        outcomes scanned found (clearedDb wallet tx outcomes scanned.db)).keyOf pair.1, pair.2)) ?_
      rw [List.map_map]
      refine (show _ = _ from keys).symm ▸ ?_
      have injective : Function.Injective fun pair : String × String => (some pair.1, pair.2) := by
        intro first second same
        obtain ⟨key, image⟩ := Prod.mk.inj same
        exact Prod.ext (Option.some.inj key) image
      have wrapped := List.Nodup.map injective distinct
      rw [List.map_map] at wrapped
      exact wrapped
    · intro input member
      obtain ⟨row, inFound, rfl⟩ := List.mem_map.mp member
      have isLinked : ((withOutputs wallet status tuple tx outcomes scanned found
          (clearedDb wallet tx outcomes scanned.db)).keyOf row.outputId, row.unnumbered) ∈
          (passInputs wallet tuple tx outcomes scanned).map fun row =>
            ((withOutputs wallet status tuple tx outcomes scanned found
              (clearedDb wallet tx outcomes scanned.db)).keyOf row.outputId, row.unnumbered) :=
        List.mem_map_of_mem inFound
      rw [spends] at isLinked
      obtain ⟨entry, inSpends, values⟩ := List.mem_map.mp isLinked
      obtain ⟨isKey, isRow⟩ := Prod.mk.inj values
      have absent := fresh entry inSpends
      rw [← sameInputs, isRow] at absent
      obtain ⟨output, inOutputs, id, -⟩ := (Database.keyOf_eq_some_iff valid).mp isKey.symm
      obtain ⟨info, -, spent, -, -, rfl⟩ := mem_collectInputs inFound
      refine ⟨(clearedDb_hasAccount _ _).trans account, ?_, ?_,
        (Database.ledger_inputs_eq_none_iff valid isKey.symm).mp absent⟩
      · exact (Database.hasTransaction_iff _ _).mpr
          ⟨_, List.mem_append_right _ List.mem_cons_self, rfl⟩
      · exact (Database.hasOutput_iff _ _).mpr ⟨output, inOutputs, id⟩

/-- The keys of the ledger admit what a pass stores. -/
theorem Stores.accepts_ledger (stores : Stores wallet status tuple tx outcomes scanned)
    (valid : scanned.db.Valid) (answers : ∀ index, outcomes.outputExistsAnswers index = true) :
    let ledger := scanned.db.ledger.without (passOwner wallet tx)
    ledger.Accepts (storedOutputs wallet tuple tx outcomes scanned 0)
      (passSpends wallet tuple tx outcomes scanned ledger) := by
  intro ledger
  have cleared : (clearedDb wallet tx outcomes scanned.db).Valid := clearedDb_valid valid
  obtain ⟨accepts, acceptsOutputs, acceptsInputs⟩ := stores.accepts
  have account : scanned.db.hasAccount wallet.account.id = true :=
    (clearedDb_hasAccount _ _).symm.trans ((Database.acceptsTransaction_iff _ _).mp accepts).1
  obtain ⟨outputKeys, freshOutputs⟩ := (acceptsOutputs_iff_ledger cleared account).mp acceptsOutputs
  obtain ⟨inputKeys, freshInputs⟩ := (acceptsInputs_iff_ledger cleared account answers accepts
    acceptsOutputs).mp acceptsInputs
  rw [stores.ledger_clearedDb valid] at freshOutputs inputKeys freshInputs
  exact ⟨outputKeys, freshOutputs, inputKeys, freshInputs⟩

end Pass

end LightWallet
