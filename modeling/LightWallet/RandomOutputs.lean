/-
This file settles what the search for decoy outputs promises.

For each amount the search draws indices until it has as many different ones as it was asked for,
and gives up after a hundred and one draws. The key of an index is looked up, but a failure is only
logged: the entry is kept, with whatever the variable of the key holds. And where an amount has no
unlocked output, the index that is drawn is the one below zero.

An index is the product of a fraction and the number of outputs, both as doubles. A number of more
than 53 bits may be rounded up, and a fraction of one then gives an index that is too large. The
fractions that are drawn are roots, and the largest of them is the double below one, so that this
does not come up with them.
-/

import LightWallet.Doubles
import LightWallet.Draws

namespace LightWallet.RandomOutputs

open Draws (firsts after)

/-! ### The search -/

/-- An entry of the histogram. -/
structure HistogramEntry where
  amount : UInt64
  unlockedInstances : UInt64
  deriving DecidableEq, Repr

/-- The request for the histogram. -/
structure HistogramRequest where
  amounts : List UInt64
  unlocked : Bool
  recentCutoff : UInt64
  minCount : UInt64
  maxCount : UInt64
  deriving DecidableEq, Repr

/-- An output found: its index among the outputs of the amount, and its key. -/
structure OutEntry (PublicKey : Type) where
  globalAmountIndex : UInt64
  outKey : PublicKey
  deriving DecidableEq, Repr

/-- The outputs found for an amount. -/
structure OutsForAmount (PublicKey : Type) where
  amount : UInt64
  outs : List (OutEntry PublicKey)
  deriving DecidableEq, Repr

/-- What the search meets. A fraction is drawn at each position of a stream. A lookup is made for
an index while the outputs of one of the requested amounts are looked for, which the first argument
counts; it answers with the outputs found, or fails. The variable of a key is not initialised, and
the language leaves open what a double of `2 ^ 64` becomes as an integer. -/
structure Core (PublicKey : Type) where
  random : Nat → ℚ
  random_nonneg : ∀ position, 0 ≤ random position
  random_le_one : ∀ position, random position ≤ 1
  getOutputHistogram : HistogramRequest → Option (List HistogramEntry)
  getOuts : Nat → UInt64 → UInt64 → Option (List PublicKey)
  uninitialised : Nat → UInt64 → PublicKey
  tooLarge : UInt64

/-- How many indices may be drawn for an amount before the search gives up. -/
def maxNoOfTrials : Nat := 100

/-- `1ull << 53`. -/
def shiftFactor : UInt64 := (1 : UInt64) <<< 53

/-- The fraction that a random number gives. Both operands of the quotient are doubles as they
are. -/
def fraction (rand : UInt64) : ℚ :=
  Doubles.sqrt (Doubles.div (rand % shiftFactor).toNat shiftFactor.toNat)

/-- The product of the fraction and the number of outputs, as doubles. -/
def scaled (frac : ℚ) (numOuts : UInt64) : ℚ :=
  Doubles.nearest (frac * Doubles.nearest numOuts.toNat)

section Search

variable {PublicKey : Type} (core : Core PublicKey) (outsCount : UInt64)

/-- `static_cast<uint64_t>`. -/
def toUInt64 (number : ℚ) : UInt64 :=
  if number < 2 ^ 64 then UInt64.ofNat ⌊number⌋₊ else core.tooLarge

/-- The index for a fraction: the number of outputs itself stands for the last one. -/
def getRandomOutputIndex (frac : ℚ) (numOuts : UInt64) : UInt64 :=
  let i := toUInt64 core (scaled frac numOuts)
  if i = numOuts then i - 1 else i

/-- The key that a lookup returns. -/
def getOutputPubKey (request : Nat) (amount globalOutputIndex : UInt64) : Option PublicKey :=
  match core.getOuts request amount globalOutputIndex with
  | none => none
  | some [] => none
  | some (key :: _) => some key

/-- The index at a position of the stream. -/
def drawn (numOuts : UInt64) (position : Nat) : UInt64 :=
  getRandomOutputIndex core (core.random position) numOuts

/-- The entry of an index: a failed lookup leaves the variable of the key as it is. -/
def outEntry (request : Nat) (amount index : UInt64) : OutEntry PublicKey where
  globalAmountIndex := index
  outKey := (getOutputPubKey core request amount index).getD (core.uninitialised request index)

/-- The loop for one amount, with the number of trials that are left, the position in the stream,
and the indices seen. -/
def fillOuts (request : Nat) (amount numOuts : UInt64) :
    Nat → Nat → Finset UInt64 → List (OutEntry PublicKey) →
      Option (List (OutEntry PublicKey)) × Nat
  | 0, position, seenIndices, outs =>
    if seenIndices.card < outsCount.toNat then (none, position) else (some outs, position)
  | trials + 1, position, seenIndices, outs =>
    if seenIndices.card < outsCount.toNat then
      let index := drawn core numOuts position
      if index ∈ seenIndices then
        fillOuts request amount numOuts trials (position + 1) seenIndices outs
      else
        fillOuts request amount numOuts trials (position + 1) (insert index seenIndices)
          (outs ++ [outEntry core request amount index])
    else (some outs, position)

/-- What the search returns, what it has found, and how many indices it has drawn. -/
structure Outcome (PublicKey : Type) where
  success : Bool
  foundOutputs : List (OutsForAmount PublicKey)
  draws : Nat
  deriving DecidableEq, Repr

/-- `std::find_if` in the histogram. -/
def histogramEntry (histogram : List HistogramEntry) (amount : UInt64) : Option HistogramEntry :=
  histogram.find? (amount = ·.amount)

/-- The loop over the amounts. -/
def findOuts (histogram : List HistogramEntry) :
    Nat → Nat → List UInt64 → List (OutsForAmount PublicKey) → Outcome PublicKey
  | _, position, [], found => ⟨true, found, position⟩
  | request, position, amount :: rest, found =>
    match histogramEntry histogram amount with
    | none => ⟨false, found, position⟩
    | some entry =>
      match fillOuts core outsCount request amount entry.unlockedInstances (maxNoOfTrials + 1)
        position ∅ [] with
      | (none, position) => ⟨false, found, position⟩
      | (some outs, position) =>
        findOuts histogram (request + 1) position rest (found ++ [⟨amount, outs⟩])

/-- The request for the unlocked outputs of the amounts. -/
def histogramRequest (amounts : List UInt64) : HistogramRequest where
  amounts := amounts
  unlocked := true
  recentCutoff := 0
  minCount := outsCount
  maxCount := 0

/-- The search, in an object that may have found outputs before. -/
def findRandomOutputs (amounts : List UInt64) (foundOutputs : List (OutsForAmount PublicKey)) :
    Outcome PublicKey :=
  match core.getOutputHistogram (histogramRequest outsCount amounts) with
  | none => ⟨false, foundOutputs, 0⟩
  | some histogram => findOuts core outsCount histogram 0 0 amounts []

/-! ### The promise -/

/-- The outputs found for a requested amount are as many as asked for, and different; each is below
the number of unlocked outputs, and has the key that the lookup has returned. -/
def RightOuts (histogram : List HistogramEntry) (requested : UInt64 × Nat)
    (found : OutsForAmount PublicKey) : Prop :=
  ∃ entry, histogramEntry histogram requested.1 = some entry ∧ found.amount = requested.1 ∧
    found.outs.length = outsCount.toNat ∧ (found.outs.map (·.globalAmountIndex)).Nodup ∧
    ∀ out ∈ found.outs, out.globalAmountIndex < entry.unlockedInstances ∧
      getOutputPubKey core requested.2 requested.1 out.globalAmountIndex = some out.outKey

/-- If the search succeeds, it has found the right outputs for every amount, in order. -/
def Right (amounts : List UInt64) (outcome : Outcome PublicKey) : Prop :=
  outcome.success = true →
    ∃ histogram, core.getOutputHistogram (histogramRequest outsCount amounts) = some histogram ∧
      List.Forall₂ (RightOuts core outsCount histogram) amounts.zipIdx outcome.foundOutputs

/-! ### When it is kept -/

/-- The positions at which the indices for an amount come up. -/
structure Picks where
  amount : UInt64
  numOuts : UInt64
  positions : List Nat
  deriving DecidableEq, Repr

/-- The first positions with different indices, if there are enough of them within the trials for
every amount. -/
def picks (histogram : List HistogramEntry) : Nat → List UInt64 → Option (List Picks)
  | _, [] => some []
  | start, amount :: rest =>
    match histogramEntry histogram amount with
    | none => none
    | some entry =>
      let numOuts := entry.unlockedInstances
      let positions :=
        (firsts (drawn core numOuts) ∅ (maxNoOfTrials + 1) start).take outsCount.toNat
      if positions.length = outsCount.toNat then
        (picks histogram (after start positions) rest).map (⟨amount, numOuts, positions⟩ :: ·)
      else none

/-- The number of outputs is rounded up as a double, and the fraction is so near to one that the
product is not rounded below it. (If the product is `2 ^ 64`, what becomes of it may by chance be no
larger than the number of outputs.) -/
def RoundedUp (frac : ℚ) (numOuts : UInt64) : Prop :=
  (numOuts.toNat : ℚ) < Doubles.nearest numOuts.toNat ∧
    scaled frac numOuts = Doubles.nearest numOuts.toNat ∧
    (Doubles.nearest numOuts.toNat = 2 ^ 64 → numOuts < core.tooLarge)

/-- Whatever is drawn for an amount, it has an unlocked output, the number of these is not rounded
up to the index, and the lookup succeeds. -/
def Succeeds (pick : Picks × Nat) : Prop :=
  ∀ position ∈ pick.1.positions, pick.1.numOuts ≠ 0 ∧
    ¬ RoundedUp core (core.random position) pick.1.numOuts ∧
    (getOutputPubKey core pick.2 pick.1.amount (drawn core pick.1.numOuts position)).isSome

/-- If the histogram is there, and enough indices come up for every amount, all of this goes
well. -/
def LookupsSucceed (amounts : List UInt64) : Prop :=
  ∀ histogram, core.getOutputHistogram (histogramRequest outsCount amounts) = some histogram →
    ∀ found, picks core outsCount histogram 0 amounts = some found →
      ∀ pick ∈ found.zipIdx, Succeeds core pick

end Search

/-! ### An index -/

/-- The largest double below one is the largest fraction. -/
theorem fraction_le (rand : UInt64) : fraction rand ≤ 1 - 1 / 2 ^ 53 := by
  have factor : shiftFactor.toNat = 2 ^ 53 := rfl
  have small : (rand % shiftFactor).toNat < 2 ^ 53 := by
    rw [UInt64.toNat_mod, factor]
    exact Nat.mod_lt _ (by positivity)
  have exact : Doubles.div (rand % shiftFactor).toNat shiftFactor.toNat =
      ((rand % shiftFactor).toNat : ℚ) / 2 ^ 53 := by
    have bounded : |((rand % shiftFactor).toNat : ℤ)| < 2 ^ 53 := by
      rw [Nat.abs_cast]
      exact_mod_cast small
    have quotient := Doubles.round_div_two_pow bounded 53
    unfold Doubles.round at quotient
    rw [Int.cast_natCast, if_neg (by rw [not_lt]; positivity)] at quotient
    rw [factor, Doubles.div, ← quotient]
    norm_num
  have below : ((rand % shiftFactor).toNat : ℚ) ≤ 2 ^ 53 - 1 := by
    have cast : ((rand % shiftFactor).toNat : ℚ) + 1 ≤ 2 ^ 53 := by exact_mod_cast small
    linarith
  unfold fraction
  rw [exact]
  refine Doubles.sqrt_le (by positivity) ?_
  rw [div_le_iff₀ (by positivity)]
  linarith

section Index

variable {frac : ℚ}

theorem scaled_nonneg (nonnegative : 0 ≤ frac) (numOuts : UInt64) : 0 ≤ scaled frac numOuts :=
  Doubles.nearest_nonneg
    (mul_nonneg nonnegative (Doubles.nearest_nonneg (Nat.cast_nonneg _)))

/-- The rounded product is no larger than the rounded number of outputs. -/
theorem scaled_le (nonnegative : 0 ≤ frac) (atMostOne : frac ≤ 1) (numOuts : UInt64) :
    scaled frac numOuts ≤ Doubles.nearest numOuts.toNat := by
  have factor : 0 ≤ Doubles.nearest numOuts.toNat := Doubles.nearest_nonneg (Nat.cast_nonneg _)
  rw [← Doubles.nearest_nearest (Nat.cast_nonneg numOuts.toNat)]
  exact Doubles.nearest_mono (mul_nonneg nonnegative factor)
    (mul_le_of_le_one_left factor atMostOne)

/-- A rounded product that is smaller is below the number of outputs too. -/
theorem scaled_lt (nonnegative : 0 ≤ frac) {numOuts : UInt64}
    (less : scaled frac numOuts < Doubles.nearest numOuts.toNat) :
    scaled frac numOuts < numOuts.toNat :=
  Doubles.lt_of_nearest_lt_nearest (Nat.cast_nonneg _)
    (mul_nonneg nonnegative (Doubles.nearest_nonneg (Nat.cast_nonneg _))) less

theorem nearest_toNat_le (numOuts : UInt64) : Doubles.nearest numOuts.toNat ≤ 2 ^ 64 := by
  have below : (numOuts.toNat : ℚ) ≤ 2 ^ 64 := by exact_mod_cast numOuts.toNat_lt.le
  rw [← Doubles.nearest_two_pow]
  exact Doubles.nearest_mono (Nat.cast_nonneg _) below

end Index

section Proofs

variable {PublicKey : Type} {core : Core PublicKey} {outsCount : UInt64}

/-- The fractions that are drawn are too small for a number of outputs that is rounded up. -/
theorem not_roundedUp_fraction (rand numOuts : UInt64) :
    ¬ RoundedUp core (fraction rand) numOuts := by
  rintro ⟨up, reached, -⟩
  have factor : 0 < Doubles.nearest numOuts.toNat := lt_of_le_of_lt (Nat.cast_nonneg _) up
  have nonnegative : 0 ≤ fraction rand * Doubles.nearest numOuts.toNat :=
    mul_nonneg (Doubles.sqrt_nonneg _) factor.le
  have product : fraction rand * Doubles.nearest numOuts.toNat ≤
      (1 - 1 / 2 ^ 53) * Doubles.nearest numOuts.toNat :=
    mul_le_mul_of_nonneg_right (fraction_le rand) factor.le
  have error := (abs_le.mp (Doubles.abs_nearest_sub_le nonnegative)).2
  unfold scaled at reached
  linarith

/-- The number of outputs itself is the only index that is lowered. -/
theorem lowered_lt_iff {index numOuts : UInt64} (some : numOuts ≠ 0) :
    (if index = numOuts then index - 1 else index) < numOuts ↔ ¬ numOuts < index := by
  have positive : 0 < numOuts.toNat :=
    Nat.pos_of_ne_zero fun zero => some (UInt64.toNat_inj.mp zero)
  rw [UInt64.not_lt]
  split
  · next last =>
    refine iff_of_true ?_ (UInt64.le_of_eq last)
    rw [last, UInt64.lt_iff_toNat_lt, UInt64.toNat_sub_of_le numOuts 1
      (UInt64.le_iff_toNat_le.mpr positive)]
    exact Nat.sub_lt positive Nat.one_pos
  · next other =>
    exact ⟨UInt64.le_of_lt, fun atMost => UInt64.lt_of_le_of_ne atMost other⟩

theorem toNat_toUInt64 {number : ℚ} (nonnegative : 0 ≤ number) (fits : number < 2 ^ 64) :
    (toUInt64 core number).toNat = ⌊number⌋₊ := by
  unfold toUInt64
  rw [if_pos fits]
  exact UInt64.toNat_ofNat_of_lt'
    ((Nat.floor_lt nonnegative).mpr (by push_cast [UInt64.size]; linarith))

/-- The product exceeds the number of outputs exactly when both are rounded up to the same double;
what it becomes as an integer exceeds it then as well, apart from the largest double. -/
theorem lt_toUInt64_scaled_iff {frac : ℚ} (nonnegative : 0 ≤ frac) (atMostOne : frac ≤ 1)
    (numOuts : UInt64) :
    numOuts < toUInt64 core (scaled frac numOuts) ↔ RoundedUp core frac numOuts := by
  have product := scaled_nonneg nonnegative numOuts
  rcases lt_or_ge (numOuts.toNat : ℚ) (scaled frac numOuts) with above | atMost
  · have reached : scaled frac numOuts = Doubles.nearest numOuts.toNat :=
      (scaled_le nonnegative atMostOne numOuts).eq_of_not_lt fun less =>
        absurd (scaled_lt nonnegative less) above.not_gt
    have up : (numOuts.toNat : ℚ) < Doubles.nearest numOuts.toNat := reached ▸ above
    rcases (nearest_toNat_le numOuts).eq_or_lt with largest | fits
    · have open' : toUInt64 core (scaled frac numOuts) = core.tooLarge := by
        unfold toUInt64
        rw [reached, largest, if_neg (lt_irrefl _)]
      rw [open']
      exact ⟨fun less => ⟨up, reached, fun _ => less⟩, fun rounded => rounded.2.2 largest⟩
    · obtain ⟨whole, same⟩ := Doubles.exists_nearest_natCast numOuts.toNat
      refine iff_of_true ?_ ⟨up, reached, fun largest => absurd largest fits.ne⟩
      rw [UInt64.lt_iff_toNat_lt, toNat_toUInt64 product (reached ▸ fits), reached, same,
        Nat.floor_natCast]
      rw [same] at up
      exact_mod_cast up
  · have fits : scaled frac numOuts < 2 ^ 64 :=
      atMost.trans_lt (by exact_mod_cast numOuts.toNat_lt)
    refine iff_of_false ?_ fun ⟨up, reached, _⟩ => ?_
    · rw [UInt64.lt_iff_toNat_lt, toNat_toUInt64 product fits]
      exact (Nat.floor_le_of_le atMost).not_gt
    · rw [reached] at atMost
      exact absurd up atMost.not_gt

/-- An index is below the number of outputs, unless there are none, or both are rounded up. -/
theorem getRandomOutputIndex_lt_iff {frac : ℚ} (nonnegative : 0 ≤ frac) (atMostOne : frac ≤ 1)
    (numOuts : UInt64) :
    getRandomOutputIndex core frac numOuts < numOuts ↔
      numOuts ≠ 0 ∧ ¬ RoundedUp core frac numOuts := by
  by_cases none : numOuts = 0
  · subst none
    refine iff_of_false (fun below => ?_) fun ⟨positive, _⟩ => positive rfl
    exact absurd (UInt64.lt_iff_toNat_lt.mp below) (Nat.not_lt_zero _)
  · rw [← lt_toUInt64_scaled_iff nonnegative atMostOne]
    exact (lowered_lt_iff none).trans (and_iff_right none).symm

/-! ### The loop for one amount -/

/-- The loop picks the first positions of different indices, as many as are wanted still. -/
theorem fillOuts_eq (request : Nat) (amount numOuts : UInt64) {trials position wanted : Nat}
    {seenIndices : Finset UInt64} (outs : List (OutEntry PublicKey))
    (counted : seenIndices.card + wanted = outsCount.toNat) :
    fillOuts core outsCount request amount numOuts trials position seenIndices outs =
      if wanted ≤ (firsts (drawn core numOuts) seenIndices trials position).length then
        (some (outs ++ ((firsts (drawn core numOuts) seenIndices trials position).take wanted).map
            fun position => outEntry core request amount (drawn core numOuts position)),
          after position ((firsts (drawn core numOuts) seenIndices trials position).take wanted))
      else (none, position + trials) := by
  induction trials generalizing position wanted seenIndices outs with
  | zero =>
    rcases wanted with _ | wanted
    · have full : ¬ seenIndices.card < outsCount.toNat := by rw [← counted]; exact Nat.lt_irrefl _
      simp [fillOuts, full, firsts, after]
    · have room : seenIndices.card < outsCount.toNat := by
        rw [← counted]
        exact Nat.lt_add_of_pos_right (Nat.succ_pos wanted)
      simp [fillOuts, room, firsts]
  | succ trials inductionHypothesis =>
    rcases wanted with _ | wanted
    · have full : ¬ seenIndices.card < outsCount.toNat := by rw [← counted]; exact Nat.lt_irrefl _
      simp [fillOuts, full, after]
    · have room : seenIndices.card < outsCount.toNat := by
        rw [← counted]
        exact Nat.lt_add_of_pos_right (Nat.succ_pos wanted)
      have next : position + 1 + trials = position + (trials + 1) := by
        rw [Nat.add_assoc, Nat.add_comm 1]
      rw [fillOuts, if_pos room]
      dsimp only
      by_cases repeated : drawn core numOuts position ∈ seenIndices
      · rw [if_pos repeated, Draws.firsts_repeated trials repeated,
          inductionHypothesis outs counted, next]
        cases firsts (drawn core numOuts) seenIndices trials (position + 1) with
        | nil => rfl
        | cons first rest => rfl
      · have counts : (insert (drawn core numOuts position) seenIndices).card + wanted =
            outsCount.toNat := by
          rw [Finset.card_insert_of_notMem repeated, Nat.add_right_comm, Nat.add_assoc]
          exact counted
        rw [if_neg repeated, Draws.firsts_new trials repeated, inductionHypothesis _ counts, next]
        simp only [List.length_cons, Nat.add_le_add_iff_right, List.take_succ_cons, List.map_cons,
          List.append_assoc, List.singleton_append]
        rfl

/-- No more indices are drawn than there are trials. -/
theorem fillOuts_draws_le (request : Nat) (amount numOuts : UInt64) (trials position : Nat) :
    (fillOuts core outsCount request amount numOuts trials position ∅ []).2 ≤
      position + trials := by
  rw [fillOuts_eq request amount numOuts [] (Finset.card_empty ▸ Nat.zero_add outsCount.toNat)]
  split
  · exact Draws.after_take_firsts_le ∅ trials position _
  · exact Nat.le_refl _

/-! ### The loop over the amounts -/

/-- What is found at the positions that are picked for an amount. -/
def outsFor (core : Core PublicKey) (pick : Picks × Nat) : OutsForAmount PublicKey where
  amount := pick.1.amount
  outs := pick.1.positions.map fun position =>
    outEntry core pick.2 pick.1.amount (drawn core pick.1.numOuts position)

variable (core outsCount) in
/-- The search succeeds exactly when there are enough positions to pick for every amount, and finds
what is there. -/
theorem findOuts_eq (histogram : List HistogramEntry) (request position : Nat)
    (amounts : List UInt64) (found : List (OutsForAmount PublicKey)) :
    match picks core outsCount histogram position amounts with
    | none => (findOuts core outsCount histogram request position amounts found).success = false
    | some picked =>
      (findOuts core outsCount histogram request position amounts found).success = true ∧
        (findOuts core outsCount histogram request position amounts found).foundOutputs =
          found ++ (picked.zipIdx request).map (outsFor core) := by
  induction amounts generalizing request position found with
  | nil => exact ⟨rfl, (List.append_nil found).symm⟩
  | cons amount rest inductionHypothesis =>
    unfold findOuts picks
    cases histogramEntry histogram amount with
    | none => rfl
    | some entry =>
      dsimp only
      rw [fillOuts_eq request amount entry.unlockedInstances []
        (Finset.card_empty ▸ Nat.zero_add outsCount.toNat)]
      by_cases enough : outsCount.toNat ≤
          (firsts (drawn core entry.unlockedInstances) ∅ (maxNoOfTrials + 1) position).length
      · rw [if_pos enough, if_pos (List.length_take_of_le enough)]
        dsimp only
        have later := inductionHypothesis (request + 1) (after position
          ((firsts (drawn core entry.unlockedInstances) ∅ (maxNoOfTrials + 1) position).take
            outsCount.toNat)) (found ++ [outsFor core (⟨amount, entry.unlockedInstances,
              (firsts (drawn core entry.unlockedInstances) ∅ (maxNoOfTrials + 1) position).take
                outsCount.toNat⟩, request)])
        cases planned : picks core outsCount histogram _ rest with
        | none =>
          rw [planned] at later
          exact later
        | some picked =>
          rw [planned] at later
          refine ⟨later.1, later.2.trans ?_⟩
          rw [List.append_assoc]
          rfl
      · have few : ¬ ((firsts (drawn core entry.unlockedInstances) ∅ (maxNoOfTrials + 1)
            position).take outsCount.toNat).length = outsCount.toNat := by
          rw [List.length_take]
          exact fun full => enough (min_eq_left_iff.mp full)
        rw [if_neg enough, if_neg few]

theorem findOuts_draws_le (histogram : List HistogramEntry) (request position : Nat)
    (amounts : List UInt64) (found : List (OutsForAmount PublicKey)) :
    (findOuts core outsCount histogram request position amounts found).draws ≤
      position + (maxNoOfTrials + 1) * amounts.length := by
  induction amounts generalizing request position found with
  | nil => exact Nat.le_refl _
  | cons amount rest inductionHypothesis =>
    have more : position + (maxNoOfTrials + 1) * (rest.length + 1) =
        position + (maxNoOfTrials + 1) + (maxNoOfTrials + 1) * rest.length := by
      rw [Nat.mul_succ, Nat.add_assoc, Nat.add_comm (_ * _)]
    rw [List.length_cons, more]
    unfold findOuts
    cases histogramEntry histogram amount with
    | none => exact Nat.le_trans (Nat.le_add_right _ _) (Nat.le_add_right _ _)
    | some entry =>
      have drawn : (fillOuts core outsCount request amount entry.unlockedInstances
          (maxNoOfTrials + 1) position ∅ []).2 ≤ position + (maxNoOfTrials + 1) :=
        fillOuts_draws_le request amount entry.unlockedInstances (maxNoOfTrials + 1) position
      dsimp only
      generalize fillOuts core outsCount request amount entry.unlockedInstances
        (maxNoOfTrials + 1) position ∅ [] = filled at drawn
      obtain ⟨outs | outs, next⟩ := filled
      · exact Nat.le_trans drawn (Nat.le_add_right _ _)
      · exact Nat.le_trans (inductionHypothesis (request + 1) next _)
          (Nat.add_le_add_right drawn _)

/-! ### The promise -/

/-- The outputs picked for an amount are right exactly when the amount has an unlocked output, the
number of these is not rounded up to an index, and the lookups succeed. -/
theorem rightOuts_iff {histogram : List HistogramEntry} {entry : HistogramEntry}
    (pick : Picks × Nat)
    (listed : histogramEntry histogram pick.1.amount = some entry)
    (unlocked : pick.1.numOuts = entry.unlockedInstances)
    (enough : pick.1.positions.length = outsCount.toNat)
    (distinct : (pick.1.positions.map (drawn core pick.1.numOuts)).Nodup) :
    RightOuts core outsCount histogram (pick.1.amount, pick.2) (outsFor core pick) ↔
      Succeeds core pick := by
  constructor
  · rintro ⟨other, found, -, -, -, right⟩ position member
    obtain rfl := Option.some.inj (listed.symm.trans found)
    obtain ⟨below, returned⟩ := right _ (List.mem_map.mpr ⟨position, member, rfl⟩)
    rw [← unlocked] at below
    obtain ⟨some, exact⟩ := (getRandomOutputIndex_lt_iff (core.random_nonneg position)
      (core.random_le_one position) _).mp below
    exact ⟨some, exact, Option.isSome_iff_exists.mpr ⟨_, returned⟩⟩
  · intro succeeds
    refine ⟨entry, listed, rfl, (List.length_map _).trans enough, ?_, fun out member => ?_⟩
    · show ((pick.1.positions.map _).map _).Nodup
      rw [List.map_map]
      exact distinct
    · obtain ⟨position, picked, rfl⟩ := List.mem_map.mp member
      obtain ⟨some, exact, returned⟩ := succeeds position picked
      obtain ⟨key, same⟩ := Option.isSome_iff_exists.mp returned
      refine ⟨?_, ?_⟩
      · rw [← unlocked]
        exact (getRandomOutputIndex_lt_iff (core.random_nonneg position)
          (core.random_le_one position) _).mpr ⟨some, exact⟩
      · show getOutputPubKey core pick.2 pick.1.amount (drawn core pick.1.numOuts position) = _
        unfold outEntry
        rw [same]
        rfl

theorem forall₂_rightOuts_iff (histogram : List HistogramEntry) (request start : Nat)
    (amounts : List UInt64) {picked : List Picks}
    (planned : picks core outsCount histogram start amounts = some picked) :
    List.Forall₂ (RightOuts core outsCount histogram) (amounts.zipIdx request)
        ((picked.zipIdx request).map (outsFor core)) ↔
      ∀ pick ∈ picked.zipIdx request, Succeeds core pick := by
  induction amounts generalizing request start picked with
  | nil =>
    cases planned
    exact iff_of_true .nil fun _ none => by cases none
  | cons amount rest inductionHypothesis =>
    unfold picks at planned
    cases listed : histogramEntry histogram amount with
    | none =>
      rw [listed] at planned
      cases planned
    | some entry =>
      rw [listed] at planned
      dsimp only at planned
      split at planned
      · next enough =>
        obtain ⟨others, plannedRest, rfl⟩ := Option.map_eq_some_iff.mp planned
        have distinct : (((firsts (drawn core entry.unlockedInstances) ∅ (maxNoOfTrials + 1)
            start).take outsCount.toNat).map (drawn core entry.unlockedInstances)).Nodup :=
          (Draws.firsts_nodup ∅ _ start).sublist ((List.take_sublist _ _).map _)
        rw [List.zipIdx_cons, List.zipIdx_cons, List.map_cons, List.forall₂_cons,
          List.forall_mem_cons, inductionHypothesis (request + 1) _ plannedRest]
        exact and_congr_left' (rightOuts_iff (⟨amount, _, _⟩, request) listed rfl enough distinct)
      · cases planned

/-- The search ends after at most a hundred and one draws for each amount. When it succeeds its
result is right, exactly if whatever is drawn for an amount has an unlocked output to be drawn
from, a number of these that is not rounded up to the index, and a lookup that succeeds. -/
theorem findRandomOutputs_right_iff (core : Core PublicKey) (outsCount : UInt64)
    (amounts : List UInt64) (foundOutputs : List (OutsForAmount PublicKey)) :
    (∀ request amount numOuts position,
      (fillOuts core outsCount request amount numOuts (maxNoOfTrials + 1) position ∅ []).2 ≤
        position + 101) ∧
    (findRandomOutputs core outsCount amounts foundOutputs).draws ≤ 101 * amounts.length ∧
    (Right core outsCount amounts (findRandomOutputs core outsCount amounts foundOutputs) ↔
      LookupsSucceed core outsCount amounts) := by
  refine ⟨fun request amount numOuts position =>
    fillOuts_draws_le request amount numOuts _ position, ?_, ?_⟩
  · unfold findRandomOutputs
    cases core.getOutputHistogram (histogramRequest outsCount amounts) with
    | none => exact Nat.zero_le _
    | some histogram =>
      exact Nat.le_trans (findOuts_draws_le histogram 0 0 amounts []) (Nat.zero_add _).le
  · unfold Right LookupsSucceed findRandomOutputs
    cases answered : core.getOutputHistogram (histogramRequest outsCount amounts) with
    | none => exact iff_of_true (fun success => by cases success) fun _ none => by cases none
    | some histogram =>
      have found := findOuts_eq core outsCount histogram 0 0 amounts []
      simp only [Option.some.injEq, exists_eq_left', forall_eq']
      cases planned : picks core outsCount histogram 0 amounts with
      | none =>
        rw [planned] at found
        rw [found]
        exact iff_of_true (fun success => by cases success) fun _ none => by cases none
      | some picked =>
        rw [planned] at found
        obtain ⟨success, outputs⟩ := found
        refine (forall_prop_of_true success).trans ?_
        rw [outputs, List.nil_append, forall₂_rightOuts_iff histogram 0 0 amounts planned]
        simp

end Proofs

/-! ### One output of one amount -/

/-- The same fraction is drawn each time, and every lookup answers the same. -/
def constant (frac : ℚ) (bounds : 0 ≤ frac ∧ frac ≤ 1) (unlocked : UInt64)
    (answer : Option (List String)) : Core String where
  random _ := frac
  random_nonneg _ := bounds.1
  random_le_one _ := bounds.2
  getOutputHistogram _ := some [{ amount := 100, unlockedInstances := unlocked }]
  getOuts _ _ _ := answer
  uninitialised _ _ := "ff"
  tooLarge := 9223372036854775808

theorem fraction_bounds (rand : UInt64) : 0 ≤ fraction rand ∧ fraction rand ≤ 1 :=
  ⟨Doubles.sqrt_nonneg _, (fraction_le rand).trans (by norm_num)⟩

/-- The random number `2 ^ 51` gives a half. -/
def half (unlocked : UInt64) (answer : Option (List String)) : Core String :=
  constant (fraction 2251799813685248) (fraction_bounds 2251799813685248) unlocked answer

theorem findRandomOutputs_right_iff_half :
    Right (half 5 (some ["4b"])) 1 [100] (findRandomOutputs (half 5 (some ["4b"])) 1 [100] []) := by
  refine (findRandomOutputs_right_iff (half 5 (some ["4b"])) 1 [100] []).2.2.mpr ?_
  rintro histogram answered found planned pick member
  obtain rfl := Option.some.inj answered
  have one : picks (half 5 (some ["4b"])) 1 [{ amount := 100, unlockedInstances := 5 }] 0 [100] =
      some [⟨100, 5, [0]⟩] := by decide +kernel
  obtain rfl := Option.some.inj (one.symm.trans planned)
  obtain rfl := List.mem_singleton.mp member
  exact fun position _ => ⟨by decide, not_roundedUp_fraction 2251799813685248 5, rfl⟩

/-- The fraction is one. -/
def whole (unlocked : UInt64) (answer : Option (List String)) : Core String :=
  constant 1 ⟨zero_le_one, le_rfl⟩ unlocked answer

/-- An output found whose index is too large. -/
theorem not_right_of_index {frac : ℚ} {bounds : 0 ≤ frac ∧ frac ≤ 1} {unlocked index : UInt64}
    {answer : Option (List String)} {key : String} {outcome : Outcome String}
    (found : outcome = ⟨true, [⟨100, [⟨index, key⟩]⟩], 1⟩) (tooLarge : ¬ index < unlocked) :
    ¬ Right (constant frac bounds unlocked answer) 1 [100] outcome := by
  intro right
  rw [found] at right
  obtain ⟨histogram, answered, outputs⟩ := right rfl
  obtain rfl := Option.some.inj answered
  obtain ⟨entry, listed, -, -, -, each⟩ := (List.forall₂_cons.mp outputs).1
  obtain rfl := Option.some.inj listed
  exact tooLarge (each _ List.mem_cons_self).1

/-- A lookup that fails leaves a key that was never set; an amount without unlocked outputs gets the
index below zero; and the last of `2 ^ 53 + 3` outputs is the one of index `2 ^ 53 + 4`. -/
theorem not_right :
    ¬ Right (half 5 none) 1 [100] (findRandomOutputs (half 5 none) 1 [100] []) ∧
      ¬ Right (half 0 (some ["4b"])) 1 [100]
        (findRandomOutputs (half 0 (some ["4b"])) 1 [100] []) ∧
      ¬ Right (whole 9007199254740995 (some ["4b"])) 1 [100]
        (findRandomOutputs (whole 9007199254740995 (some ["4b"])) 1 [100] []) := by
  have failed : findRandomOutputs (half 5 none) 1 [100] [] =
      ⟨true, [⟨100, [⟨2, "ff"⟩]⟩], 1⟩ := by decide +kernel
  have missing : findRandomOutputs (half 0 (some ["4b"])) 1 [100] [] =
      ⟨true, [⟨100, [⟨18446744073709551615, "4b"⟩]⟩], 1⟩ := by decide +kernel
  have last : findRandomOutputs (whole 9007199254740995 (some ["4b"])) 1 [100] [] =
      ⟨true, [⟨100, [⟨9007199254740996, "4b"⟩]⟩], 1⟩ := by decide +kernel
  refine ⟨fun right => ?_, not_right_of_index missing (by decide),
    not_right_of_index last (by decide)⟩
  rw [failed] at right
  obtain ⟨histogram, -, found⟩ := right rfl
  obtain ⟨entry, -, -, -, -, each⟩ := (List.forall₂_cons.mp found).1
  have returned : (none : Option String) = some "ff" := (each _ List.mem_cons_self).2
  cases returned

end LightWallet.RandomOutputs
