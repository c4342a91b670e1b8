/-
This file says what happens to a ledger when transactions are posted to it, and
posted to it again.

A transaction that is new to the ledger only adds to it. One that is posted again is
taken out first, with every spend of its outputs, and the spends of other
transactions do not come back with it. When the first transactions of a list are
posted again, these spends are therefore all that is lost, as far as they are not of
transactions that are posted again themselves.
-/

import LightWallet.Ledger
import Mathlib.Data.Set.Basic
import Mathlib.Data.Set.Insert

namespace LightWallet

/-! ### Postings -/

/-- What is to be posted of a transaction: its outputs, and spends of those outputs that the
ledger has. What is sent enters the row. -/
structure Posting where
  owner : Owner
  outputs : List XmrOutput
  infos : List InputInfo
  timestamp : Nat
  row : List XmrInput → XmrTransaction

namespace Posting

section

variable (posting : Posting) (ledger : Ledger)

/-- The spends that are found, of outputs in the ledger or of the transaction's own. -/
def spends : List (String × XmrInput) :=
  (ledger.withOutputs posting.owner posting.outputs).spends posting.owner.accountId
    posting.timestamp posting.infos

/-- There is something to post, and the keys admit it. -/
structure Admits : Prop where
  something : ¬ (posting.outputs = [] ∧ posting.spends ledger = [])
  accepts : ledger.Accepts posting.outputs (posting.spends ledger)

open Classical in
/-- The ledger once the transaction is posted. -/
noncomputable def post : Ledger :=
  if posting.outputs = [] ∧ posting.infos = [] then ledger
  else if posting.Admits (ledger.without posting.owner) then
    (ledger.without posting.owner).add posting.owner
      (posting.row ((posting.spends (ledger.without posting.owner)).map (·.2))) posting.outputs
      (posting.spends (ledger.without posting.owner))
  else ledger.without posting.owner

end

/-- The ledger once all are posted, in their order. -/
noncomputable def postAll (postings : List Posting) (ledger : Ledger) : Ledger :=
  postings.foldl (fun ledger posting => posting.post ledger) ledger

end Posting

namespace Ledger

/-- The second ledger has everything that the first one has. -/
structure Within (first second : Ledger) : Prop where
  transactions : ∀ owner row, first.transactions owner = some row →
    second.transactions owner = some row
  outputs : ∀ key entry, first.outputs key = some entry → second.outputs key = some entry
  inputs : ∀ key entry, first.inputs key = some entry → second.inputs key = some entry

/-- The second ledger has of a transaction what the first one has. -/
structure SameOf (owner : Owner) (first second : Ledger) : Prop where
  transactions : second.transactions owner = first.transactions owner
  outputs : ∀ key row, second.outputs key = some (owner, row) →
    first.outputs key = some (owner, row)
  inputs : ∀ key row, second.inputs key = some (owner, row) → first.inputs key = some (owner, row)

/-- Spends are of outputs that the ledger has. -/
def Closed (ledger : Ledger) : Prop :=
  ∀ key entry, ledger.inputs key = some entry → ledger.outputs key.1 ≠ none

open Classical in
/-- The ledger without the spends, by other transactions, of outputs of the given transactions. -/
noncomputable def forgets (ledger : Ledger) (again : Set Owner) : Ledger :=
  { ledger with
    inputs := fun key =>
      (ledger.inputs key).filter fun entry =>
        (∃ output ∈ ledger.outputs key.1, output.1 ∈ again) → entry.1 ∈ again }

section

variable {ledger : Ledger} {owner : Owner}

theorem Within.refl (ledger : Ledger) : Within ledger ledger :=
  ⟨fun _ _ => id, fun _ _ => id, fun _ _ => id⟩

theorem Within.trans {first second third : Ledger} (here : Within first second)
    (there : Within second third) : Within first third where
  transactions owner row found := there.transactions owner row (here.transactions owner row found)
  outputs key entry found := there.outputs key entry (here.outputs key entry found)
  inputs key entry found := there.inputs key entry (here.inputs key entry found)

theorem SameOf.refl (owner : Owner) (ledger : Ledger) : SameOf owner ledger ledger :=
  ⟨rfl, fun _ _ => id, fun _ _ => id⟩

theorem SameOf.trans {first second third : Ledger} (here : SameOf owner first second)
    (there : SameOf owner second third) : SameOf owner first third where
  transactions := there.transactions.trans here.transactions
  outputs key row found := here.outputs key row (there.outputs key row found)
  inputs key row found := here.inputs key row (there.inputs key row found)

/-- What is not there is not there in a ledger that has the same of it. -/
theorem SameOf.absent {first second : Ledger} (same : SameOf owner first second)
    (absent : first.Absent owner) : second.Absent owner where
  transactions := same.transactions.trans absent.transactions
  outputs key entry found := by
    obtain ⟨other, row⟩ := entry
    rintro rfl
    exact absent.outputs key _ (same.outputs key row found) rfl
  inputs key entry found := by
    obtain ⟨other, row⟩ := entry
    rintro rfl
    exact absent.inputs key _ (same.inputs key row found) rfl

end

end Ledger

/-! ### Spends -/

namespace Ledger

/-- The spends that are found are of outputs that the ledger has, under the keys of the inputs. -/
theorem mem_spends {ledger : Ledger} {accountId timestamp : Nat} {infos : List InputInfo}
    {spend : String × XmrInput} (member : spend ∈ ledger.spends accountId timestamp infos) :
    (∃ info ∈ infos, info.outPubKey = spend.1) ∧ ledger.outputs spend.1 ≠ none := by
  obtain ⟨info, inInfos, found⟩ := List.mem_filterMap.mp member
  obtain ⟨entry, holds, rfl⟩ := Option.map_eq_some_iff.mp found
  exact ⟨⟨info, inInfos, rfl⟩, fun none => absurd (none.symm.trans holds) nofun⟩

/-- The spends depend on the outputs under the keys of the inputs. -/
theorem spends_congr {first second : Ledger} {accountId timestamp : Nat} {infos : List InputInfo}
    (same : ∀ info ∈ infos, first.outputs info.outPubKey = second.outputs info.outPubKey) :
    first.spends accountId timestamp infos = second.spends accountId timestamp infos :=
  List.filterMap_congr fun info member => by rw [same info member]

end Ledger

namespace Posting

open Ledger (Absent Within SameOf Closed)

variable {posting : Posting} {ledger : Ledger}

theorem spends_nil (none : posting.infos = []) (ledger : Ledger) : posting.spends ledger = [] := by
  unfold spends Ledger.spends
  rw [none]
  rfl

/-- A transaction of which there is nothing leaves the ledger alone, or is added to it. -/
theorem post_of_absent (absent : ledger.Absent posting.owner) :
    (¬ posting.Admits ledger ∧ posting.post ledger = ledger) ∨
      (posting.Admits ledger ∧ posting.post ledger =
        ledger.add posting.owner (posting.row ((posting.spends ledger).map (·.2))) posting.outputs
          (posting.spends ledger)) := by
  unfold post
  rw [Ledger.without_of_absent absent]
  by_cases nothing : posting.outputs = [] ∧ posting.infos = []
  · rw [if_pos nothing]
    exact .inl ⟨fun admits => admits.something ⟨nothing.1, spends_nil nothing.2 ledger⟩, rfl⟩
  · rw [if_neg nothing]
    by_cases admits : posting.Admits ledger
    · rw [if_pos admits]
      exact .inr ⟨admits, rfl⟩
    · rw [if_neg admits]
      exact .inl ⟨admits, rfl⟩

/-- What the ledger has, it keeps when a new transaction is posted. -/
theorem within_post (absent : ledger.Absent posting.owner) :
    Within ledger (posting.post ledger) := by
  rcases post_of_absent absent with ⟨-, same⟩ | ⟨admits, added⟩
  · rw [same]
    exact Within.refl ledger
  · rw [added]
    refine ⟨fun other row found => ?_, fun key entry found => ?_, fun key entry found => ?_⟩
    · rw [Ledger.add_transactions, if_neg]
      · exact found
      · rintro rfl
        exact absurd (absent.transactions.symm.trans found) nofun
    · exact (Ledger.add_outputs_iff admits.accepts).mpr (.inr found)
    · exact (Ledger.add_inputs_iff admits.accepts).mpr (.inr found)

/-- An output that was not there is one of the transaction. -/
theorem outputs_post (absent : ledger.Absent posting.owner) {key : String}
    {entry : Owner × XmrOutput} (found : (posting.post ledger).outputs key = some entry) :
    ledger.outputs key = some entry ∨
      entry.1 = posting.owner ∧ ∃ output ∈ posting.outputs, output.outPubKey = key := by
  rcases post_of_absent absent with ⟨-, same⟩ | ⟨admits, added⟩
  · rw [same] at found
    exact .inl found
  · rw [added, Ledger.add_outputs_iff admits.accepts] at found
    rcases found with ⟨output, member, isKey, rfl⟩ | old
    · exact .inr ⟨rfl, output, member, isKey⟩
    · exact .inl old

/-- A spend that was not there is one of the transaction, of an input. -/
theorem inputs_post (absent : ledger.Absent posting.owner) {key : String × String}
    {entry : Owner × XmrInput} (found : (posting.post ledger).inputs key = some entry) :
    ledger.inputs key = some entry ∨
      entry.1 = posting.owner ∧ ∃ info ∈ posting.infos, info.outPubKey = key.1 := by
  rcases post_of_absent absent with ⟨-, same⟩ | ⟨admits, added⟩
  · rw [same] at found
    exact .inl found
  · rw [added, Ledger.add_inputs_iff admits.accepts] at found
    rcases found with ⟨spend, member, rfl, rfl⟩ | old
    · exact .inr ⟨rfl, (Ledger.mem_spends member).1⟩
    · exact .inl old

/-- Nothing changes of other transactions. -/
theorem sameOf_post (absent : ledger.Absent posting.owner) {other : Owner}
    (differs : other ≠ posting.owner) : SameOf other ledger (posting.post ledger) where
  transactions := by
    rcases post_of_absent absent with ⟨-, same⟩ | ⟨-, added⟩
    · rw [same]
    · rw [added, Ledger.add_transactions, if_neg differs]
  outputs key row found :=
    (outputs_post absent found).resolve_right fun own => differs own.1
  inputs key row found :=
    (inputs_post absent found).resolve_right fun own => differs own.1

/-! ### New transactions are posted -/

/-- What is known of a list of transactions that are new to a ledger: each is posted once. -/
structure New (postings : List Posting) (ledger : Ledger) : Prop where
  distinct : (postings.map Posting.owner).Nodup
  absent : ∀ posting ∈ postings, ledger.Absent posting.owner

theorem New.tail {rest : List Posting} (new : New (posting :: rest) ledger) :
    New rest (posting.post ledger) where
  distinct := (List.nodup_cons.mp new.distinct).2
  absent other member := by
    have own := new.absent posting List.mem_cons_self
    refine (sameOf_post own ?_).absent (new.absent other (List.mem_cons_of_mem _ member))
    rintro same
    exact (List.nodup_cons.mp new.distinct).1 (same ▸ List.mem_map_of_mem member)

theorem postAll_cons (rest : List Posting) :
    postAll (posting :: rest) ledger = postAll rest (posting.post ledger) := rfl

theorem postAll_append (first second : List Posting) :
    postAll (first ++ second) ledger = postAll second (postAll first ledger) :=
  List.foldl_append

theorem within_postAll {postings : List Posting} (new : New postings ledger) :
    Within ledger (postAll postings ledger) := by
  induction postings generalizing ledger with
  | nil => exact Within.refl ledger
  | cons posting rest inductionHypothesis =>
    exact (within_post (new.absent posting List.mem_cons_self)).trans (inductionHypothesis new.tail)

theorem sameOf_postAll {postings : List Posting} (new : New postings ledger) {owner : Owner}
    (other : owner ∉ postings.map Posting.owner) :
    SameOf owner ledger (postAll postings ledger) := by
  induction postings generalizing ledger with
  | nil => exact SameOf.refl owner ledger
  | cons posting rest inductionHypothesis =>
    obtain ⟨differs, others⟩ := not_or.mp (mt List.mem_cons.mpr other)
    exact (sameOf_post (new.absent posting List.mem_cons_self) differs).trans
      (inductionHypothesis new.tail others)

/-- An output that was not there is one of a transaction of the list. -/
theorem outputs_postAll {postings : List Posting} (new : New postings ledger) {key : String}
    {entry : Owner × XmrOutput} (found : (postAll postings ledger).outputs key = some entry) :
    ledger.outputs key = some entry ∨
      ∃ posting ∈ postings, ∃ output ∈ posting.outputs, output.outPubKey = key := by
  induction postings generalizing ledger with
  | nil => exact .inl found
  | cons posting rest inductionHypothesis =>
    rcases inductionHypothesis new.tail found with early | ⟨later, member, output⟩
    · refine (outputs_post (new.absent posting List.mem_cons_self) early).imp id fun own => ?_
      exact ⟨posting, List.mem_cons_self, own.2⟩
    · exact .inr ⟨later, List.mem_cons_of_mem _ member, output⟩

/-- A spend that was not there is one of a transaction of the list, of an input. -/
theorem inputs_postAll {postings : List Posting} (new : New postings ledger)
    {key : String × String} {entry : Owner × XmrInput}
    (found : (postAll postings ledger).inputs key = some entry) :
    ledger.inputs key = some entry ∨ ∃ posting ∈ postings, posting.owner = entry.1 ∧
      ∃ info ∈ posting.infos, info.outPubKey = key.1 := by
  induction postings generalizing ledger with
  | nil => exact .inl found
  | cons posting rest inductionHypothesis =>
    rcases inductionHypothesis new.tail found with early | ⟨later, member, spend⟩
    · refine (inputs_post (new.absent posting List.mem_cons_self) early).imp id fun own => ?_
      exact ⟨posting, List.mem_cons_self, own.1.symm, own.2⟩
    · exact .inr ⟨later, List.mem_cons_of_mem _ member, spend⟩

end Posting

/-! ### A transaction is posted again -/

namespace Ledger

section Forgets

variable {ledger : Ledger} {again : Set Owner}

theorem forgets_inputs_iff {key : String × String} {entry : Owner × XmrInput} :
    (ledger.forgets again).inputs key = some entry ↔
      ledger.inputs key = some entry ∧
        ∀ output, ledger.outputs key.1 = some output → output.1 ∈ again → entry.1 ∈ again := by
  unfold forgets
  rw [Option.filter_eq_some_iff]
  refine and_congr_right fun _ => ?_
  simp only [decide_eq_true_eq]
  exact ⟨fun forgotten output holds inAgain => forgotten ⟨output, holds, inAgain⟩,
    fun forgotten ⟨output, holds, inAgain⟩ => forgotten output holds inAgain⟩

theorem forgets_empty (ledger : Ledger) : ledger.forgets ∅ = ledger := by
  refine Ledger.ext rfl rfl (funext fun key => Option.ext fun entry => ?_)
  rw [forgets_inputs_iff]
  exact ⟨And.left, fun found => ⟨found, fun _ _ => False.elim⟩⟩

/-- Nothing is lost exactly if every spend of an output of these transactions is by one of them. -/
theorem forgets_eq_iff : ledger.forgets again = ledger ↔
    ∀ key entry output, ledger.inputs key = some entry → ledger.outputs key.1 = some output →
      output.1 ∈ again → entry.1 ∈ again := by
  constructor
  · intro same key entry output spend holds inAgain
    rw [← same, forgets_inputs_iff] at spend
    exact spend.2 output holds inAgain
  · intro own
    refine Ledger.ext rfl rfl (funext fun key => Option.ext fun entry => ?_)
    rw [forgets_inputs_iff]
    exact ⟨And.left, fun found => ⟨found, fun output holds => own key entry output found holds⟩⟩

end Forgets

end Ledger

namespace Posting

open Ledger (Absent Within SameOf Closed)

/-- A ledger to which a transaction was posted, when it had nothing of it, and other transactions
before and after it. -/
structure Posted (posting : Posting) (before : Ledger) (again : Set Owner) (ledger : Ledger) :
    Prop where
  absent : before.Absent posting.owner
  within : Within (posting.post before) ledger
  same : SameOf posting.owner (posting.post before) ledger
  sameOutputs : ∀ info ∈ posting.infos,
    ledger.outputs info.outPubKey = before.outputs info.outPubKey
  notOwn : ∀ info ∈ posting.infos, ∀ output ∈ posting.outputs,
    info.outPubKey ≠ output.outPubKey
  notAgain : posting.owner ∉ again
  earlier : ∀ key entry row, ledger.inputs key = some entry → entry.1 ∈ again →
    ledger.outputs key.1 ≠ some (posting.owner, row)
  kept : ∀ key entry output, before.inputs key = some entry →
    ledger.outputs key.1 = some output → output.1 ∈ again → entry.1 ∈ again

section Again

variable {posting : Posting} {before ledger : Ledger} {again : Set Owner}

/-- The outputs that the inputs may spend are there as before. -/
theorem Posted.spendable (posted : Posted posting before again ledger) {info : InputInfo}
    (member : info ∈ posting.infos) :
    ((ledger.forgets again).without posting.owner).outputs info.outPubKey =
      before.outputs info.outPubKey := by
  refine Option.ext fun ⟨owner, row⟩ => ?_
  rw [Ledger.without_outputs_iff]
  show ledger.outputs _ = _ ∧ _ ↔ _
  rw [posted.sameOutputs info member]
  exact ⟨And.left, fun found => ⟨found, posted.absent.outputs _ _ found⟩⟩

theorem Posted.spends_eq (posted : Posted posting before again ledger) :
    posting.spends ((ledger.forgets again).without posting.owner) = posting.spends before := by
  refine Ledger.spends_congr fun info member => ?_
  show Option.or _ (Ledger.outputs _ _) = Option.or _ (Ledger.outputs _ _)
  rw [posted.spendable member]

/-- The ledger that has not posted the transaction has nothing of it. -/
theorem Posted.absent_of_refused (posted : Posted posting before again ledger)
    (refused : ¬ posting.Admits before) : ledger.Absent posting.owner := by
  rcases post_of_absent posted.absent with ⟨-, unchanged⟩ | ⟨admits, -⟩
  · refine posted.same.absent ?_
    rw [unchanged]
    exact posted.absent
  · exact absurd admits refused

theorem Posted.added (posted : Posted posting before again ledger)
    (admits : posting.Admits before) : posting.post before =
      before.add posting.owner (posting.row ((posting.spends before).map (·.2))) posting.outputs
        (posting.spends before) := by
  rcases post_of_absent posted.absent with ⟨refused, -⟩ | ⟨-, added⟩
  · exact absurd admits refused
  · exact added

/-- The keys admit the transaction again exactly if they did at first. -/
theorem Posted.admits_iff (posted : Posted posting before again ledger) :
    posting.Admits ((ledger.forgets again).without posting.owner) ↔ posting.Admits before := by
  have beforeWithin := (within_post posted.absent).trans posted.within
  constructor
  · rintro ⟨something, outputKeys, freshOutputs, inputKeys, freshInputs⟩
    rw [posted.spends_eq] at something inputKeys freshInputs
    refine ⟨something, outputKeys, fun output member => ?_, inputKeys, fun spend member => ?_⟩
    · refine Option.eq_none_iff_forall_ne_some.mpr fun entry found => ?_
      have there : ((ledger.forgets again).without posting.owner).outputs output.outPubKey =
          some entry := Ledger.without_outputs_iff.mpr
        ⟨beforeWithin.outputs _ _ found, posted.absent.outputs _ _ found⟩
      exact absurd ((freshOutputs output member).symm.trans there) nofun
    · refine Option.eq_none_iff_forall_ne_some.mpr fun entry found => ?_
      obtain ⟨info, inInfos, isKey⟩ := (Ledger.mem_spends member).1
      have there : ((ledger.forgets again).without posting.owner).inputs
          (spend.1, spend.2.keyImage) = some entry := by
        refine Ledger.without_inputs_iff.mpr ⟨Ledger.forgets_inputs_iff.mpr
          ⟨beforeWithin.inputs _ _ found, fun output => posted.kept _ _ output found⟩,
          posted.absent.inputs _ _ found, fun holder output holds => ?_⟩
        have holdsBefore : before.outputs spend.1 = some (holder, output) := by
          rw [← isKey, ← posted.sameOutputs info inInfos, isKey]
          exact holds
        exact posted.absent.outputs _ _ holdsBefore
      exact absurd ((freshInputs spend member).symm.trans there) nofun
  · intro admits
    have added := posted.added admits
    refine ⟨?_, admits.accepts.outputKeys, fun output member => ?_, ?_, fun spend member => ?_⟩
    · rw [posted.spends_eq]
      exact admits.something
    · refine Option.eq_none_iff_forall_ne_some.mpr fun ⟨owner, row⟩ found => ?_
      obtain ⟨there, differs⟩ := Ledger.without_outputs_iff.mp found
      have own : ledger.outputs output.outPubKey = some (posting.owner, output) := by
        refine posted.within.outputs _ _ ?_
        rw [added]
        exact (Ledger.add_outputs_iff admits.accepts).mpr (.inl ⟨output, member, rfl, rfl⟩)
      exact differs (congrArg Prod.fst (Option.some.inj (there.symm.trans own)))
    · rw [posted.spends_eq]
      exact admits.accepts.inputKeys
    · rw [posted.spends_eq] at member
      refine Option.eq_none_iff_forall_ne_some.mpr fun ⟨owner, row⟩ found => ?_
      obtain ⟨there, differs, -⟩ := Ledger.without_inputs_iff.mp found
      have own : ledger.inputs (spend.1, spend.2.keyImage) = some (posting.owner, spend.2) := by
        refine posted.within.inputs _ _ ?_
        rw [added]
        exact (Ledger.add_inputs_iff admits.accepts).mpr (.inl ⟨spend, member, rfl, rfl⟩)
      have recorded := (Ledger.forgets_inputs_iff.mp there).1
      exact differs (congrArg Prod.fst (Option.some.inj (recorded.symm.trans own)))

/-- Where the ledger has nothing of a transaction, forgetting about its outputs loses nothing. -/
theorem forgets_insert_of_absent {owner : Owner} (absent : ledger.Absent owner) :
    ledger.forgets (insert owner again) = ledger.forgets again := by
  refine Ledger.ext rfl rfl (funext fun key => Option.ext fun entry => ?_)
  rw [Ledger.forgets_inputs_iff, Ledger.forgets_inputs_iff]
  refine and_congr_right fun found => forall_congr' fun output => forall_congr' fun holds => ?_
  have spender := absent.inputs _ _ found
  have holder := absent.outputs _ _ holds
  simp only [Set.mem_insert_iff, spender, holder, false_or]

/-- Posting the transaction again loses the spends of its outputs by transactions that are not
posted again. -/
theorem Posted.post_forgets (posted : Posted posting before again ledger) :
    posting.post (ledger.forgets again) = ledger.forgets (insert posting.owner again) := by
  have absentIn (absent : ledger.Absent posting.owner) :
      (ledger.forgets again).Absent posting.owner :=
    ⟨absent.transactions, absent.outputs,
      fun key entry found => absent.inputs key entry (Ledger.forgets_inputs_iff.mp found).1⟩
  unfold post
  by_cases nothing : posting.outputs = [] ∧ posting.infos = []
  · rw [if_pos nothing]
    have refused : ¬ posting.Admits before := fun admits =>
      admits.something ⟨nothing.1, spends_nil nothing.2 before⟩
    exact (forgets_insert_of_absent (posted.absent_of_refused refused)).symm
  rw [if_neg nothing]
  by_cases admits : posting.Admits before
  · have accepts := (posted.admits_iff.mpr admits).accepts
    have acceptsBefore := admits.accepts
    have added := posted.added admits
    rw [if_pos (posted.admits_iff.mpr admits)]
    rw [posted.spends_eq] at accepts ⊢
    refine Ledger.ext (funext fun other => ?_) (funext fun key => Option.ext fun entry => ?_)
      (funext fun key => Option.ext fun entry => ?_)
    · rw [Ledger.add_transactions]
      show _ = ledger.transactions other
      by_cases own : other = posting.owner
      · rw [if_pos own, own, posted.same.transactions, added, Ledger.add_transactions, if_pos rfl]
      · rw [if_neg own]
        exact if_neg own
    · rw [Ledger.add_outputs_iff accepts]
      show _ ↔ ledger.outputs key = some entry
      obtain ⟨owner, row⟩ := entry
      rw [Ledger.without_outputs_iff]
      constructor
      · rintro (own | ⟨found, -⟩)
        · refine posted.within.outputs _ _ ?_
          rw [added]
          exact (Ledger.add_outputs_iff acceptsBefore).mpr (.inl own)
        · exact found
      · intro found
        by_cases own : owner = posting.owner
        · subst own
          have fromPost := posted.same.outputs _ _ found
          rw [added, Ledger.add_outputs_iff acceptsBefore] at fromPost
          exact .inl (fromPost.resolve_right fun old => posted.absent.outputs _ _ old rfl)
        · exact .inr ⟨found, own⟩
    · rw [Ledger.add_inputs_iff accepts, Ledger.forgets_inputs_iff]
      obtain ⟨owner, row⟩ := entry
      rw [Ledger.without_inputs_iff, Ledger.forgets_inputs_iff]
      constructor
      · rintro (own | ⟨⟨found, kept⟩, differs, others⟩)
        · have there : ledger.inputs key = some (owner, row) := by
            refine posted.within.inputs _ _ ?_
            rw [added]
            exact (Ledger.add_inputs_iff acceptsBefore).mpr (.inl own)
          obtain ⟨spend, -, -, values⟩ := own
          exact ⟨there, fun _ _ _ => .inl (congrArg Prod.fst values).symm⟩
        · refine ⟨found, fun output holds inAgain => .inr ?_⟩
          rcases inAgain with own | earlier
          · exact absurd own (others output.1 output.2 holds)
          · exact kept output holds earlier
      · rintro ⟨found, kept⟩
        by_cases own : owner = posting.owner
        · subst own
          have fromPost := posted.same.inputs _ _ found
          rw [added, Ledger.add_inputs_iff acceptsBefore] at fromPost
          exact .inl (fromPost.resolve_right fun old => posted.absent.inputs _ _ old rfl)
        · have spender (output : Owner × XmrOutput) (holds : ledger.outputs key.1 = some output)
              (inAgain : output.1 ∈ insert posting.owner again) : owner ∈ again :=
            (kept output holds inAgain).resolve_left own
          refine .inr ⟨⟨found, fun output holds inAgain => spender output holds (.inr inAgain)⟩,
            own, fun holder output holds same => ?_⟩
          subst same
          exact posted.earlier _ _ output found (spender _ holds (.inl rfl)) holds
  · have refused : ¬ posting.Admits ((ledger.forgets again).without posting.owner) :=
      mt posted.admits_iff.mp admits
    have absent := posted.absent_of_refused admits
    rw [if_neg refused, Ledger.without_of_absent (absentIn absent)]
    exact (forgets_insert_of_absent absent).symm

end Again

/-! ### The first of a list are posted again -/

/-- The inputs of a transaction refer to outputs of earlier transactions. -/
structure InOrder (postings : List Posting) : Prop where
  notOwn : ∀ posting ∈ postings, ∀ info ∈ posting.infos, ∀ output ∈ posting.outputs,
    info.outPubKey ≠ output.outPubKey
  notLater : postings.Pairwise fun posting later => ∀ info ∈ posting.infos,
    ∀ output ∈ later.outputs, info.outPubKey ≠ output.outPubKey

/-- The transactions of a list. -/
def owners (postings : List Posting) : Set Owner := fun owner => owner ∈ postings.map Posting.owner

section List

variable {done later : List Posting} {posting : Posting} {ledger : Ledger}

theorem owners_append : owners (done ++ [posting]) = insert posting.owner (owners done) := by
  refine Set.ext fun owner => ?_
  show owner ∈ List.map _ _ ↔ _
  rw [List.map_append, List.mem_append, List.map_singleton, List.mem_singleton, or_comm]
  rfl

theorem New.append {first second : List Posting} (new : New (first ++ second) ledger) :
    New first ledger ∧ New second (postAll first ledger) := by
  induction first generalizing ledger with
  | nil => exact ⟨⟨List.nodup_nil, nofun⟩, new⟩
  | cons posting rest inductionHypothesis =>
    obtain ⟨newRest, newSecond⟩ := inductionHypothesis new.tail
    have distinct := new.distinct
    rw [List.map_append] at distinct
    refine ⟨⟨(List.nodup_append.mp distinct).1, fun other member => ?_⟩, newSecond⟩
    exact new.absent other (List.mem_append_left _ member)

/-- Every transaction of a list that was posted in order was posted between the others. -/
theorem posted_of_split (new : New (done ++ posting :: later) ledger) (closed : ledger.Closed)
    (inOrder : InOrder (done ++ posting :: later)) :
    Posted posting (postAll done ledger) (owners done)
      (postAll (done ++ posting :: later) ledger) := by
  obtain ⟨newDone, newHere⟩ := new.append
  have own := List.mem_append_right done (List.mem_cons_self : posting ∈ posting :: later)
  have distinct := new.distinct
  rw [List.map_append, List.map_cons] at distinct
  obtain ⟨-, distinctHere, apart⟩ := List.nodup_append.mp distinct
  have notLater := (List.pairwise_append.mp inOrder.notLater)
  have absent := newHere.absent posting List.mem_cons_self
  have whole : postAll (done ++ posting :: later) ledger =
      postAll later (posting.post (postAll done ledger)) := postAll_append done (posting :: later)
  have within := within_postAll newHere.tail
  have same := sameOf_postAll newHere.tail (List.nodup_cons.mp distinctHere).1
  have allWithin := within_postAll new
  refine ⟨absent, whole ▸ within, whole ▸ same, fun info member => Option.ext fun entry => ?_,
    inOrder.notOwn posting own, fun isDone => ?_, fun key entry row found isDone holds => ?_,
    fun key entry output found holds inDone => ?_⟩
  · constructor
    · intro found
      rw [show postAll (done ++ posting :: later) ledger =
        postAll (posting :: later) (postAll done ledger) from whole] at found
      refine (outputs_postAll newHere found).resolve_right ?_
      rintro ⟨other, inHere, output, inOutputs, isKey⟩
      rcases List.mem_cons.mp inHere with rfl | inLater
      · exact inOrder.notOwn other own info member output inOutputs isKey.symm
      · exact (List.pairwise_cons.mp notLater.2.1).1 other inLater info member output inOutputs
          isKey.symm
    · intro found
      rw [whole]
      exact within.outputs _ _ ((within_post absent).outputs _ _ found)
  · exact apart _ isDone _ List.mem_cons_self rfl
  · -- the spend was posted with its transaction, which is before this one
    have posts : ∃ spender ∈ done, ∃ info ∈ spender.infos, info.outPubKey = key.1 := by
      rcases inputs_postAll new found with old | ⟨spender, member, owner, spends⟩
      · obtain ⟨early, inDone, owner⟩ := List.mem_map.mp isDone
        exact absurd owner.symm (newDone.absent early inDone |>.inputs key entry old)
      · rcases List.mem_append.mp member with inDone | inHere
        · exact ⟨spender, inDone, spends⟩
        · exact absurd owner.symm (apart _ isDone _ (List.mem_map_of_mem inHere))
    obtain ⟨spender, inDone, info, inInfos, isKey⟩ := posts
    rw [whole] at holds
    rcases outputs_post absent (same.outputs _ _ holds) with old | ⟨-, output, inOutputs, outKey⟩
    · exact absent.outputs _ _ old rfl
    · exact notLater.2.2 spender inDone posting List.mem_cons_self info inInfos output inOutputs
        (isKey.trans outKey.symm)
  · rcases inputs_postAll newDone found with old | ⟨spender, member, owner, -⟩
    · -- an old spend is of an old output
      obtain ⟨first, isFirst⟩ := Option.ne_none_iff_exists'.mp (closed key entry old)
      obtain ⟨early, member, owner⟩ := List.mem_map.mp inDone
      obtain rfl := Option.some.inj (holds.symm.trans (allWithin.outputs _ _ isFirst))
      exact absurd owner.symm ((newDone.absent early member).outputs _ _ isFirst)
    · exact List.mem_map.mpr ⟨spender, member, owner⟩

/-- When the first transactions are posted again, what is lost are the spends of their outputs by
the others. -/
theorem postAll_again (first second : List Posting) (new : New (first ++ second) ledger)
    (closed : ledger.Closed) (inOrder : InOrder (first ++ second)) :
    postAll first (postAll (first ++ second) ledger) =
      (postAll (first ++ second) ledger).forgets (owners first) := by
  have steps (rest done : List Posting) (split : first = done ++ rest) :
      postAll rest ((postAll (first ++ second) ledger).forgets (owners done)) =
        (postAll (first ++ second) ledger).forgets (owners first) := by
    induction rest generalizing done with
    | nil =>
      rw [split, List.append_nil]
      rfl
    | cons posting rest inductionHypothesis =>
      have whole : first ++ second = done ++ posting :: (rest ++ second) := by
        rw [split, List.append_assoc, List.cons_append]
      have posted := @posted_of_split done (rest ++ second) posting ledger (whole ▸ new) closed
        (whole ▸ inOrder)
      rw [← whole] at posted
      rw [postAll_cons, posted.post_forgets, ← owners_append]
      exact inductionHypothesis (done ++ [posting]) (by rw [split, List.append_assoc]; rfl)
  have none : owners [] = ∅ := Set.eq_empty_iff_forall_notMem.mpr fun owner => List.not_mem_nil
  have all := steps first [] rfl
  rwa [none, Ledger.forgets_empty] at all

/-- An output of a new transaction can only be spent by a new transaction. -/
theorem spender_postAll {postings : List Posting} (new : New postings ledger)
    (closed : ledger.Closed) {key : String × String} {entry : Owner × XmrInput}
    {output : Owner × XmrOutput} (found : (postAll postings ledger).inputs key = some entry)
    (holds : (postAll postings ledger).outputs key.1 = some output)
    (own : output.1 ∈ owners postings) : entry.1 ∈ owners postings := by
  rcases inputs_postAll new found with old | ⟨spender, member, owner, -⟩
  · obtain ⟨first, isFirst⟩ := Option.ne_none_iff_exists'.mp (closed key entry old)
    obtain ⟨posting, member, owner⟩ := List.mem_map.mp own
    obtain rfl := Option.some.inj (holds.symm.trans ((within_postAll new).outputs _ _ isFirst))
    exact absurd owner.symm ((new.absent posting member).outputs _ _ isFirst)
  · exact List.mem_map.mpr ⟨spender, member, owner⟩

/-- When the first transactions are posted again, nothing is lost exactly if the others spend none
of their outputs. -/
theorem postAll_again_eq_iff {first second : List Posting} (new : New (first ++ second) ledger)
    (closed : ledger.Closed) (inOrder : InOrder (first ++ second)) :
    postAll first (postAll (first ++ second) ledger) = postAll (first ++ second) ledger ↔
      ¬ ∃ key entry output, (postAll (first ++ second) ledger).inputs key = some entry ∧
        (postAll (first ++ second) ledger).outputs key.1 = some output ∧
          output.1 ∈ owners first ∧ entry.1 ∈ owners second := by
  have distinct := new.distinct
  rw [List.map_append] at distinct
  have apart := (List.nodup_append.mp distinct).2.2
  rw [postAll_again first second new closed inOrder, Ledger.forgets_eq_iff]
  constructor
  · rintro own ⟨key, entry, output, found, holds, ofFirst, ofSecond⟩
    exact apart _ (own key entry output found holds ofFirst) _ ofSecond rfl
  · intro notSpent key entry output found holds ofFirst
    have ofBoth (owner : Owner) :
        owner ∈ owners (first ++ second) ↔ owner ∈ owners first ∨ owner ∈ owners second := by
      show owner ∈ List.map _ _ ↔ _
      rw [List.map_append, List.mem_append]
      rfl
    have spender := spender_postAll new closed found holds ((ofBoth _).mpr (.inl ofFirst))
    exact ((ofBoth _).mp spender).resolve_right fun ofSecond =>
      notSpent ⟨key, entry, output, found, holds, ofFirst, ofSecond⟩

end List

end Posting

end LightWallet
