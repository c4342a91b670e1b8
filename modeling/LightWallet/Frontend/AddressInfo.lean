/-
This file models how the wallet's page takes over the totals of an account.

The server names as spent whatever may be spent by the account, and the page subtracts
what has the image of another key. Each image is made by a timer of its own, which then
resolves a promise; when all promises are resolved the page shows the result. With a
view key only there are promises but no timers, so that nothing is ever shown.
-/

import Mathlib.Algebra.BigOperators.Group.List.Basic
import LightWallet.Json
import LightWallet.Frontend.AccountService

namespace LightWallet.Frontend.AddressInfo

open CnUtil AccountService

/-! ### The page -/

/-- An entry of `spent_outputs`. The amount is a text of digits. -/
structure SpentOutput where
  amount : Nat
  keyImage : JsString
  txPubKey : JsString
  outIndex : Nat
deriving DecidableEq

/-- What is read of a response. -/
structure Data where
  lockedFunds : Option Nat := none
  totalSent : Option Int := none
  scannedBlockHeight : Option Nat := none
  scannedBlockTimestamp : Option Nat := none
  startHeight : Option Nat := none
  blockchainHeight : Option Nat := none
  spentOutputs : Option (List SpentOutput) := none
deriving DecidableEq

/-- What comes back of the request. -/
inductive Response where
  | error (reason : String)
  | ok (data : Data)

/-- `scanned_block_timestamp`, which becomes a date unless it is zero. A date counts
milliseconds. -/
inductive ScannedTime where
  | zero
  | date (milliseconds : Nat)
deriving DecidableEq

/-- What `fetchAddressInfo` writes of the page. -/
structure Scope where
  error : Option String := none
  transactions : List Json := []
  lockedBalance : Int := 0
  totalSent : Int := 0
  accountScannedBlockHeight : Nat := 0
  accountScannedBlockTimestamp : ScannedTime := .zero
  accountScanStartHeight : Nat := 0
  blockchainHeight : Nat := 0

/-- What the callback of `$q.all` makes of the page. -/
def updateScope (scope : Scope) (data : Data) : Scope :=
  { scope with
    lockedBalance := data.lockedFunds.getD 0
    totalSent := data.totalSent.getD 0
    accountScannedBlockHeight := data.scannedBlockHeight.getD 0
    accountScannedBlockTimestamp :=
      if 0 < data.scannedBlockTimestamp.getD 0 then
        .date (data.scannedBlockTimestamp.getD 0 * 1000)
      else .zero
    accountScanStartHeight := data.startHeight.getD 0
    blockchainHeight := data.blockchainHeight.getD 0 }

/-- The page while a response is taken over: the timers that have not fired, the promises that are
not resolved, both by the index of their entry, and whether the callback has run. -/
structure Fetch where
  service : Service
  scope : Scope
  data : Data := {}
  timers : List Nat := []
  promises : List Nat := []
  updated : Bool := false

/-- `$q.all(promises)` with its callback. -/
def settle (fetch : Fetch) : Fetch :=
  if fetch.promises = [] then
    { fetch with scope := updateScope fetch.scope fetch.data, updated := true }
  else fetch

/-- The callback of `fetchAddressInfo`, up to the timers it sets. -/
def fetchAddressInfo (service : Service) (scope : Scope) : Response → Fetch
  | .error reason =>
    { service := service
      scope := { scope with
        error := some ("An error occured in fetchAddressInfo: " ++ reason)
        transactions := [] } }
  | .ok data =>
    let indices := List.range (data.spentOutputs.getD []).length
    settle
      { service := service
        scope := scope
        data := data
        timers := if service.viewOnly = false then indices else []
        promises := indices }

section

variable (primitives : Primitives)

/-- The timer of an entry. An exception ends it before the promise is resolved. -/
def timer (fetch : Fetch) (index : Nat) (output : SpentOutput) : Fetch :=
  match cachedKeyImage primitives fetch.service output.txPubKey output.outIndex with
  | .error _ => fetch
  | .ok (service, keyImage) =>
    settle { fetch with
      service := service
      data := if output.keyImage ≠ keyImage then
          { fetch.data with totalSent := some (fetch.data.totalSent.getD 0 - output.amount) }
        else fetch.data
      promises := fetch.promises.erase index }

/-- A timer fires, if it was set and has not fired before. -/
def fire (fetch : Fetch) (index : Nat) : Fetch :=
  match (fetch.data.spentOutputs.getD [])[index]? with
  | none => fetch
  | some output =>
    if index ∈ fetch.timers then
      timer primitives { fetch with timers := fetch.timers.erase index } index output
    else fetch

end

/-! ### Cached images -/

theorem append_cons_inj {first second digits others : JsString} {mark : UInt16}
    (digitsFree : mark ∉ digits) (othersFree : mark ∉ others)
    (same : first ++ mark :: digits = second ++ mark :: others) :
    first = second ∧ digits = others := by
  rcases List.append_eq_append_iff.mp same with ⟨between, rfl, rest⟩ | ⟨between, rfl, rest⟩
  · cases between with
    | nil => exact ⟨(List.append_nil _).symm, (List.cons.inj rest).2⟩
    | cons unit between =>
      rw [(List.cons.inj rest).2] at digitsFree
      exact absurd (List.mem_append_right _ List.mem_cons_self) digitsFree
  · cases between with
    | nil => exact ⟨List.append_nil _, (List.cons.inj rest).2.symm⟩
    | cons unit between =>
      rw [(List.cons.inj rest).2] at othersFree
      exact absurd (List.mem_append_right _ List.mem_cons_self) othersFree

/-- Two entries that are looked up alike are the same. -/
theorem cacheIndex_inj {service : Service} {txPubKey otherKey : JsString} {outIndex other : Nat}
    (same : cacheIndex service txPubKey outIndex = cacheIndex service otherKey other) :
    txPubKey = otherKey ∧ outIndex = other := by
  unfold cacheIndex at same
  rw [List.append_assoc _ [58] (toString10 _), List.append_assoc _ [58] (toString10 _)] at same
  obtain ⟨keys, numbers⟩ := append_cons_inj (colon_notMem_toString10 _)
    (colon_notMem_toString10 _) same
  exact ⟨List.append_cancel_right (List.append_cancel_right keys), toString10_inj numbers⟩

section

variable {nettype : Nat} {primitives : Primitives}

/-- What is cached is the image that the service would make. -/
def CacheCorrect (primitives : Primitives) (service : Service) : Prop :=
  ∀ txPubKey outIndex image,
    service.keyImages.lookup (cacheIndex service txPubKey outIndex) = some image → image ≠ [] →
      ownKeyImage primitives service txPubKey outIndex = .ok image

/-- With a correct cache, an image is that which the service would make, and the cache stays
correct. -/
theorem cachedKeyImage_of_correct {service : Service} (correct : CacheCorrect primitives service)
    (txPubKey : JsString) (outIndex : Nat) :
    (∃ error, ownKeyImage primitives service txPubKey outIndex = .error error ∧
      cachedKeyImage primitives service txPubKey outIndex = .error error) ∨
    (∃ image keyImages, ownKeyImage primitives service txPubKey outIndex = .ok image ∧
      cachedKeyImage primitives service txPubKey outIndex =
        .ok ({ service with keyImages := keyImages }, image) ∧
      CacheCorrect primitives { service with keyImages := keyImages }) := by
  unfold cachedKeyImage
  split
  · next unit image found =>
    exact .inr ⟨unit :: image, service.keyImages,
      correct _ _ _ found (List.cons_ne_nil unit image), rfl, correct⟩
  · cases made : ownKeyImage primitives service txPubKey outIndex with
    | error error => exact .inl ⟨error, rfl, rfl⟩
    | ok image =>
      refine .inr ⟨image, _, rfl, rfl, fun otherKey other found present nonempty => ?_⟩
      show ownKeyImage primitives service otherKey other = _
      have lookup : ((cacheIndex service txPubKey outIndex, image) :: service.keyImages).lookup
          (cacheIndex service otherKey other) = some found := present
      rw [List.lookup_cons] at lookup
      split at lookup
      · next same =>
        obtain ⟨rfl, rfl⟩ := cacheIndex_inj (eq_of_beq same)
        rw [made, Option.some.inj lookup]
      · exact correct _ _ _ lookup nonempty

theorem cacheCorrect_of_nil {service : Service} (empty : service.keyImages = []) :
    CacheCorrect primitives service := by
  intro txPubKey outIndex image cached
  rw [empty] at cached
  cases cached

theorem cacheCorrect_step {world : World} (correct : CacheCorrect primitives world.service)
    (event : Event) : CacheCorrect primitives (step nettype primitives world event).service := by
  cases event with
  | login credentials =>
    refine cacheCorrect_of_nil ?_
    have cases := @login_case nettype primitives world.service credentials
    show (login nettype primitives world.service credentials).1.keyImages = []
    generalize login nettype primitives world.service credentials = result at cases
    cases cases <;> rfl
  | logout => exact cacheCorrect_of_nil rfl
  | reply index answer =>
    show CacheCorrect primitives (reply world index answer).service
    rcases reply_cases world index answer with ⟨generatedAccount, _, taken⟩ | ⟨_, ignored⟩
    · rw [taken]
      cases answer with
      | error reason => exact cacheCorrect_of_nil rfl
      | failure error => exact cacheCorrect_of_nil rfl
      | success newAddress => exact correct
    · rw [ignored]
      exact correct
  | keyImage txPubKey outIndex =>
    show CacheCorrect primitives (afterKeyImage primitives world.service txPubKey outIndex)
    unfold afterKeyImage
    rcases cachedKeyImage_of_correct correct txPubKey outIndex with
      ⟨error, _, thrown⟩ | ⟨image, keyImages, _, cached, kept⟩
    · rw [thrown]
      exact correct
    · rw [cached]
      exact kept

/-- Whatever the page does with the service, its cache stays correct. -/
theorem cacheCorrect_run (events : List Event) :
    CacheCorrect primitives (Runs.run (step nettype primitives) {} events).service :=
  Runs.run_invariant_of_step _ (fun world : World => CacheCorrect primitives world.service)
    (fun _ event correct => cacheCorrect_step correct event) events {} (cacheCorrect_of_nil rfl)

/-! ### Timers -/

/-- The entry is spent by the account: it has the image that the service makes. -/
def Own (primitives : Primitives) (service : Service) (output : SpentOutput) : Prop :=
  ownKeyImage primitives service output.txPubKey output.outIndex = .ok output.keyImage

instance (service : Service) (output : SpentOutput) : Decidable (Own primitives service output) :=
  inferInstanceAs (Decidable (_ = _))

/-- What is subtracted for an entry. -/
def foreign (primitives : Primitives) (service : Service) (output : SpentOutput) : Int :=
  if Own primitives service output then 0 else output.amount

/-- An image can be made of the entry. -/
def Imaged (primitives : Primitives) (service : Service) (output : SpentOutput) : Prop :=
  ∃ image, ownKeyImage primitives service output.txPubKey output.outIndex = .ok image

/-- The data with another sum. -/
def Data.withTotal (data : Data) (total : Int) : Data := { data with totalSent := some total }

theorem updateScope_withTotal (scope : Scope) (data : Data) :
    updateScope scope (data.withTotal (data.totalSent.getD 0)) = updateScope scope data := rfl

/-- What a timer that fires does: without an image it leaves its promise, with one it subtracts the
entry or not and resolves the promise. -/
inductive FireCase (primitives : Primitives) (fetch : Fetch) (index : Nat)
    (output : SpentOutput) : Fetch → Prop where
  | thrown (unimaged : ¬ Imaged primitives fetch.service output) :
      FireCase primitives fetch index output { fetch with timers := fetch.timers.erase index }
  | resolved (imaged : Imaged primitives fetch.service output)
      (keyImages : List (JsString × JsString)) (totalSent : Option Int)
      (correct : CacheCorrect primitives { fetch.service with keyImages := keyImages })
      (total : totalSent.getD 0 =
        fetch.data.totalSent.getD 0 - foreign primitives fetch.service output) :
      FireCase primitives fetch index output
        (settle { fetch with
          service := { fetch.service with keyImages := keyImages }
          data := { fetch.data with totalSent := totalSent }
          timers := fetch.timers.erase index
          promises := fetch.promises.erase index })

theorem fire_case {fetch : Fetch} (correct : CacheCorrect primitives fetch.service) {index : Nat}
    {output : SpentOutput} (entry : (fetch.data.spentOutputs.getD [])[index]? = some output)
    (waiting : index ∈ fetch.timers) :
    FireCase primitives fetch index output (fire primitives fetch index) := by
  unfold fire
  simp only [entry, if_pos waiting]
  unfold timer
  rcases cachedKeyImage_of_correct correct output.txPubKey output.outIndex with
    ⟨error, made, thrown⟩ | ⟨image, keyImages, made, cached, kept⟩
  · simp only [thrown]
    refine .thrown fun ⟨image, imaged⟩ => ?_
    rw [made] at imaged
    cases imaged
  · simp only [cached]
    have own : Own primitives fetch.service output ↔ output.keyImage = image := by
      unfold Own
      rw [made, Except.ok.injEq, eq_comm]
    by_cases same : output.keyImage = image
    · rw [if_neg (not_not_intro same)]
      refine .resolved ⟨image, made⟩ keyImages fetch.data.totalSent kept ?_
      rw [foreign, if_pos (own.mpr same), Int.sub_zero]
    · rw [if_pos same]
      refine .resolved ⟨image, made⟩ keyImages (some _) kept ?_
      rw [foreign, if_neg (mt own.mp same), Option.getD_some]

/-! ### All timers -/

/-- The sum of what is subtracted for the entries with these indices. -/
def foreignSum (primitives : Primitives) (service : Service) (data : Data) (indices : List Nat) :
    Int :=
  (indices.map fun index =>
    (((data.spentOutputs.getD [])[index]?).map (foreign primitives service)).getD 0).sum

/-- When the timers of all promises have fired and made their images, the page is updated once with
what is left of the sum. -/
theorem foldl_fire_of_imaged {order : List Nat} {fetch : Fetch} (nonempty : order ≠ [])
    (correct : CacheCorrect primitives fetch.service) (timers : fetch.timers.Perm order)
    (promises : fetch.promises.Perm order)
    (imaged : ∀ index ∈ order, ∃ output, (fetch.data.spentOutputs.getD [])[index]? = some output ∧
      Imaged primitives fetch.service output) :
    (order.foldl (fire primitives) fetch).updated = true ∧
      (order.foldl (fire primitives) fetch).scope = updateScope fetch.scope
        (fetch.data.withTotal (fetch.data.totalSent.getD 0 -
          foreignSum primitives fetch.service fetch.data order)) := by
  induction order generalizing fetch with
  | nil => exact absurd rfl nonempty
  | cons index rest inductionHypothesis =>
    obtain ⟨output, entry, image⟩ := imaged index List.mem_cons_self
    have waiting : index ∈ fetch.timers := timers.mem_iff.mpr List.mem_cons_self
    have left : (fetch.promises.erase index).Perm rest := by
      have erased := promises.erase index
      rwa [List.erase_cons_head] at erased
    have cases := fire_case correct entry waiting
    rw [List.foldl_cons]
    generalize fire primitives fetch index = next at cases
    cases cases with
    | thrown unimaged => exact absurd image unimaged
    | resolved _ keyImages totalSent kept total =>
      have split : foreignSum primitives fetch.service fetch.data (index :: rest) =
          foreign primitives fetch.service output +
            foreignSum primitives fetch.service fetch.data rest := by
        unfold foreignSum
        rw [List.map_cons, List.sum_cons, entry]
        rfl
      have sums : (fetch.data.totalSent.getD 0 - (foreign primitives fetch.service output +
            foreignSum primitives fetch.service fetch.data rest)) =
          totalSent.getD 0 - foreignSum primitives fetch.service fetch.data rest := by
        rw [total]
        omega
      rw [split, sums]
      cases rest with
      | nil =>
        rw [settle, if_pos left.eq_nil]
        refine ⟨rfl, ?_⟩
        show updateScope fetch.scope _ = _
        rw [foreignSum, List.map_nil, List.sum_nil, Int.sub_zero]
        rfl
      | cons other others =>
        have more : fetch.promises.erase index ≠ [] := by
          intro empty
          rw [empty] at left
          cases left.nil_eq
        rw [settle, if_neg more]
        refine inductionHypothesis (List.cons_ne_nil _ _) kept ?_ left fun next member =>
          imaged next (List.mem_cons_of_mem _ member)
        have erased := timers.erase index
        rwa [List.erase_cons_head] at erased

/-- An entry without an image keeps its promise waiting, so that the page is never updated. -/
theorem foldl_fire_of_unimaged {order : List Nat} {fetch : Fetch} {stuck : Nat}
    {output : SpentOutput} (correct : CacheCorrect primitives fetch.service)
    (entry : (fetch.data.spentOutputs.getD [])[stuck]? = some output)
    (unimaged : ¬ Imaged primitives fetch.service output) (promise : stuck ∈ fetch.promises)
    (before : fetch.updated = false) : (order.foldl (fire primitives) fetch).updated = false := by
  induction order generalizing fetch with
  | nil => exact before
  | cons index rest inductionHypothesis =>
    rw [List.foldl_cons]
    by_cases fires : ∃ other, (fetch.data.spentOutputs.getD [])[index]? = some other ∧
        index ∈ fetch.timers
    · obtain ⟨other, otherEntry, waiting⟩ := fires
      have cases := fire_case correct otherEntry waiting
      generalize fire primitives fetch index = next at cases
      cases cases with
      | thrown => exact inductionHypothesis correct entry unimaged promise before
      | resolved imaged keyImages totalSent kept =>
        have different : stuck ≠ index := by
          rintro rfl
          rw [entry] at otherEntry
          exact unimaged (Option.some.inj otherEntry ▸ imaged)
        have still : stuck ∈ fetch.promises.erase index :=
          (List.mem_erase_of_ne different).mpr promise
        rw [settle, if_neg (List.ne_nil_of_mem still)]
        exact inductionHypothesis kept entry unimaged still before
    · have same : fire primitives fetch index = fetch := by
        unfold fire
        split
        · rfl
        · next found => exact if_neg fun waiting => fires ⟨_, found, waiting⟩
      rw [same]
      exact inductionHypothesis correct entry unimaged promise before

/-! ### Totals -/

/-- The sum of the amounts of all entries. -/
def amountSum (data : Data) : Nat := ((data.spentOutputs.getD []).map (·.amount)).sum

/-- The sum of the amounts of the entries that the account has spent. -/
def ownSum (primitives : Primitives) (service : Service) (data : Data) : Nat :=
  (((data.spentOutputs.getD []).filter fun output => Own primitives service output).map
    (·.amount)).sum

theorem sum_foreign (service : Service) (outputs : List SpentOutput) :
    (outputs.map (foreign primitives service)).sum =
      ((outputs.map (·.amount)).sum : Nat) -
        (((outputs.filter fun output =>
          Own primitives service output).map (·.amount)).sum : Nat) := by
  induction outputs with
  | nil => rfl
  | cons output rest inductionHypothesis =>
    rw [List.map_cons, List.sum_cons, inductionHypothesis]
    by_cases own : Own primitives service output
    · rw [foreign, if_pos own, List.filter_cons_of_pos (by simpa using own)]
      simp only [List.map_cons, List.sum_cons, Nat.cast_add]
      omega
    · rw [foreign, if_neg own, List.filter_cons_of_neg (by simpa using own)]
      simp only [List.map_cons, List.sum_cons]
      omega

/-- In whatever order the entries are gone through, what is subtracted is what is not spent by the
account. -/
theorem foreignSum_of_perm {service : Service} {data : Data} {order : List Nat}
    (every : (List.range (data.spentOutputs.getD []).length).Perm order) :
    foreignSum primitives service data order =
      (amountSum data : Int) - ownSum primitives service data := by
  unfold foreignSum
  rw [← (every.map _).sum_eq]
  have entries : (List.range (data.spentOutputs.getD []).length).map (fun index =>
      (((data.spentOutputs.getD [])[index]?).map (foreign primitives service)).getD 0) =
      (data.spentOutputs.getD []).map (foreign primitives service) := by
    refine List.ext_getElem (by simp) fun index inside _ => ?_
    rw [List.length_map, List.length_range] at inside
    simp [inside]
  rw [entries, sum_foreign]
  rfl

/-- What the page is to show: the sum of the response with a view key only, else the sum of what the
account has spent. -/
def shownData (primitives : Primitives) (service : Service) (data : Data) : Data :=
  data.withTotal (if service.viewOnly then data.totalSent.getD 0
    else ownSum primitives service data)

/-- There is nothing to ask for, or every entry has a timer that makes its image. -/
def Answered (primitives : Primitives) (service : Service) (data : Data) : Prop :=
  data.spentOutputs.getD [] = [] ∨ (service.viewOnly = false ∧
    ∀ output ∈ data.spentOutputs.getD [], Imaged primitives service output)

theorem updated_iff {service : Service} (correct : CacheCorrect primitives service) (scope : Scope)
    {data : Data} {order : List Nat} (total : data.totalSent.getD 0 = amountSum data)
    (every : (fetchAddressInfo service scope (.ok data)).timers.Perm order) :
    ((order.foldl (fire primitives) (fetchAddressInfo service scope (.ok data))).updated = true ∧
      (order.foldl (fire primitives) (fetchAddressInfo service scope (.ok data))).scope =
        updateScope scope (shownData primitives service data)) ↔
      Answered primitives service data := by
  by_cases empty : data.spentOutputs.getD [] = []
  · -- No promise is waited for, and no timer was set.
    have settled : fetchAddressInfo service scope (.ok data) =
        { service := service, scope := updateScope scope data, data := data, updated := true } := by
      unfold fetchAddressInfo settle
      simp [empty]
    rw [settled] at every ⊢
    obtain rfl : order = [] := every.symm.eq_nil
    refine iff_of_true ⟨rfl, ?_⟩ (.inl empty)
    have shown : shownData primitives service data =
        data.withTotal (data.totalSent.getD 0) := by
      unfold shownData
      split
      · rfl
      · rw [total, amountSum, ownSum, empty]
        rfl
    rw [shown]
    exact (updateScope_withTotal scope data).symm
  · have waits : List.range (data.spentOutputs.getD []).length ≠ [] := by
      rw [Ne, List.range_eq_nil]
      exact fun none => empty (List.eq_nil_of_length_eq_zero none)
    have unsettled : fetchAddressInfo service scope (.ok data) =
        { service := service
          scope := scope
          data := data
          timers := if service.viewOnly = false then
            List.range (data.spentOutputs.getD []).length else []
          promises := List.range (data.spentOutputs.getD []).length } := by
      unfold fetchAddressInfo
      exact if_neg waits
    rw [unsettled] at every ⊢
    cases mode : service.viewOnly with
    | true =>
      rw [mode, if_neg (by decide)] at every
      obtain rfl : order = [] := every.symm.eq_nil
      refine iff_of_false (fun done => by cases done.1) ?_
      rintro (none | ⟨spend, _⟩)
      · exact empty none
      · rw [mode] at spend
        cases spend
    | false =>
      have every : (List.range (data.spentOutputs.getD []).length).Perm order := by
        rwa [mode, if_pos rfl] at every
      by_cases imaged : ∀ output ∈ data.spentOutputs.getD [], Imaged primitives service output
      · have fired := @foldl_fire_of_imaged primitives order
          ⟨service, scope, data, List.range (data.spentOutputs.getD []).length,
            List.range (data.spentOutputs.getD []).length, false⟩
          (fun none => waits (none ▸ every).eq_nil) correct every every ?_
        · rw [if_pos rfl]
          refine iff_of_true ⟨fired.1, ?_⟩ (.inr ⟨mode, imaged⟩)
          rw [fired.2, foreignSum_of_perm every, shownData, mode, if_neg (by decide), total,
            Int.sub_sub_self]
        · intro index member
          have inside := List.mem_range.mp (every.mem_iff.mpr member)
          exact ⟨_, List.getElem?_eq_getElem inside, imaged _ (List.getElem_mem inside)⟩
      · obtain ⟨output, member, unimaged⟩ : ∃ output ∈ data.spentOutputs.getD [],
            ¬ Imaged primitives service output := by
          simpa only [not_forall, exists_prop] using imaged
        obtain ⟨stuck, inside, entry⟩ := List.getElem_of_mem member
        have waiting := @foldl_fire_of_unimaged primitives order
          ⟨service, scope, data, List.range (data.spentOutputs.getD []).length,
            List.range (data.spentOutputs.getD []).length, false⟩ stuck output correct
          ((List.getElem?_eq_getElem inside).trans (congrArg some entry)) unimaged
          (List.mem_range.mpr inside) rfl
        rw [if_pos rfl]
        refine iff_of_false (fun done => ?_) ?_
        · rw [waiting] at done
          cases done.1
        · rintro (none | ⟨_, all⟩)
          · exact empty none
          · exact imaged all

/-- What the page shows in the end: as spent the sum of the response with a view key only, else the
sum of what the account has spent; the heights, the time and the locked funds of the response. The
error and the transactions are those of before. -/
structure Shown (primitives : Primitives) (service : Service) (data : Data) (before after : Scope) :
    Prop where
  totalSent : after.totalSent =
    if service.viewOnly then data.totalSent.getD 0 else (ownSum primitives service data : Int)
  lockedBalance : after.lockedBalance = data.lockedFunds.getD 0
  scannedBlockHeight : after.accountScannedBlockHeight = data.scannedBlockHeight.getD 0
  scannedBlockTimestamp : after.accountScannedBlockTimestamp =
    if 0 < data.scannedBlockTimestamp.getD 0 then
      .date (data.scannedBlockTimestamp.getD 0 * 1000)
    else .zero
  scanStartHeight : after.accountScanStartHeight = data.startHeight.getD 0
  blockchainHeight : after.blockchainHeight = data.blockchainHeight.getD 0
  error : after.error = before.error
  transactions : after.transactions = before.transactions

theorem shown_iff {service : Service} {data : Data} {before after : Scope} :
    Shown primitives service data before after ↔
      after = updateScope before (shownData primitives service data) := by
  constructor
  · rintro ⟨total, locked, scanned, time, start, height, error, transactions⟩
    obtain ⟨_, _, _, _, _, _, _, _⟩ := after
    dsimp only at total locked scanned time start height error transactions
    rw [total, locked, scanned, time, start, height, error, transactions]
    rfl
  · rintro rfl
    exact ⟨rfl, rfl, rfl, rfl, rfl, rfl, rfl, rfl⟩

end

section

variable (nettype : Nat) (primitives : Primitives)

/-- The service after what the page has done with it. -/
def serviceAfter (events : List Event) : Service :=
  (Runs.run (step nettype primitives) {} events).service

/-- In whatever order the timers fire, the page is updated, with the sum of what the account has
spent or with the sum of the response in a session without a spend key, just when the response
names nothing as spent or the session has a spend key and an image can be made of every entry. -/
theorem fetchAddressInfo_shown_iff (events : List Event) (scope : Scope) (data : Data)
    (order : List Nat) (total : data.totalSent.getD 0 = amountSum data)
    (every : (fetchAddressInfo (serviceAfter nettype primitives events) scope
      (.ok data)).timers.Perm order) :
    ((order.foldl (fire primitives)
        (fetchAddressInfo (serviceAfter nettype primitives events) scope
          (.ok data))).updated = true ∧
      Shown primitives (serviceAfter nettype primitives events) data scope
        (order.foldl (fire primitives)
          (fetchAddressInfo (serviceAfter nettype primitives events) scope (.ok data))).scope) ↔
      Answered primitives (serviceAfter nettype primitives events) data := by
  rw [shown_iff]
  exact updated_iff (cacheCorrect_run events) scope total every

end

/-- Two entries, of which the first has the image that the zeros give. -/
def twoEntries : Data where
  totalSent := some 12
  blockchainHeight := some 1000
  spentOutputs := some [⟨5, List.replicate 64 48, List.replicate 64 48, 0⟩,
    ⟨7, List.replicate 64 49, List.replicate 64 48, 1⟩]

theorem fetchAddressInfo_shown_iff_spend :
    let service := serviceAfter 0 zeros
      [.login { viewCredentials with spendKey := some (List.replicate 64 48) }]
    (([1, 0].foldl (fire zeros) (fetchAddressInfo service {} (.ok twoEntries))).updated = true ∧
      Shown zeros service twoEntries {}
        ([1, 0].foldl (fire zeros) (fetchAddressInfo service {} (.ok twoEntries))).scope) ↔
      Answered zeros service twoEntries :=
  fetchAddressInfo_shown_iff 0 zeros
    [.login { viewCredentials with spendKey := some (List.replicate 64 48) }] {} twoEntries [1, 0]
    (by decide +kernel) (by decide +kernel)

/-- With a view key only, the page is not updated. -/
theorem not_fetchAddressInfo_shown :
    ¬ ∀ primitives events scope data order, data.totalSent.getD 0 = amountSum data →
      (fetchAddressInfo (serviceAfter 0 primitives events) scope (.ok data)).timers.Perm order →
      (order.foldl (fire primitives)
        (fetchAddressInfo (serviceAfter 0 primitives events) scope (.ok data))).updated = true := by
  intro shown
  have updated := shown zeros [.login viewCredentials] {} twoEntries [] (by decide +kernel)
    (by decide +kernel)
  revert updated
  decide +kernel

end LightWallet.Frontend.AddressInfo
