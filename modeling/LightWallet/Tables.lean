/-
This file holds the facts about tables that the store rests on. A table is a
list of rows. A unique key is a projection without repetitions; a foreign key
is a projection into the keys of another table. Rows are appended and filtered
out, so the file says what those two operations do to unique keys, to lookups by
key, and to sums grouped by a foreign key.
-/

import Mathlib.Algebra.BigOperators.Group.List.Basic
import Mathlib.Data.List.Nodup

namespace LightWallet.Tables

variable {Row Child Key : Type}

/-! ### Unique keys -/

/-- No two rows carry the same key. -/
def Unique (key : Row → Key) (rows : List Row) : Prop := (rows.map key).Nodup

instance [DecidableEq Key] (key : Row → Key) (rows : List Row) : Decidable (Unique key rows) :=
  inferInstanceAs (Decidable (rows.map key).Nodup)

theorem unique_nil (key : Row → Key) : Unique key ([] : List Row) := List.nodup_nil

theorem Unique.filter {key : Row → Key} {rows : List Row} (unique : Unique key rows)
    (keep : Row → Bool) : Unique key (rows.filter keep) :=
  List.Nodup.sublist (List.Sublist.map key List.filter_sublist) unique

theorem unique_append {key : Row → Key} {old new : List Row} :
    Unique key (old ++ new) ↔
      Unique key old ∧ Unique key new ∧ ∀ row ∈ old, ∀ row' ∈ new, key row ≠ key row' := by
  unfold Unique
  rw [List.map_append, List.nodup_append]
  simp only [List.mem_map, ne_eq, forall_exists_index, and_imp, forall_apply_eq_imp_iff₂]

theorem Unique.append_one {key : Row → Key} {rows : List Row} (unique : Unique key rows)
    {row : Row} (fresh : ∀ old ∈ rows, key old ≠ key row) : Unique key (rows ++ [row]) :=
  unique_append.mpr ⟨unique, List.nodup_singleton _, by
    intro old member new single
    rw [List.mem_singleton.mp single]
    exact fresh old member⟩

/-- A key names at most one row. -/
theorem Unique.eq_of_key {key : Row → Key} {rows : List Row} (unique : Unique key rows)
    {first second : Row} (memberFirst : first ∈ rows) (memberSecond : second ∈ rows)
    (same : key first = key second) : first = second :=
  List.inj_on_of_nodup_map unique memberFirst memberSecond same

/-- Changing rows without touching their key keeps the key unique. -/
theorem Unique.map {key : Row → Key} {rows : List Row} (unique : Unique key rows)
    {change : Row → Row} (fixed : ∀ row, key (change row) = key row) :
    Unique key (rows.map change) := by
  unfold Unique at unique ⊢
  rw [List.map_map]
  have same : key ∘ change = key := funext fixed
  rwa [same]

/-! ### Lookups -/

/-- Looking a row up by a predicate only it satisfies finds it. -/
theorem find?_eq_some_of_unique {rows : List Row} {test : Row → Bool} {row : Row}
    (member : row ∈ rows) (holds : test row = true)
    (only : ∀ other ∈ rows, test other = true → other = row) : rows.find? test = some row := by
  cases found : rows.find? test with
  | none => exact absurd holds (List.find?_eq_none.mp found row member)
  | some other =>
    rw [only other (List.mem_of_find?_eq_some found) (List.find?_some found)]

theorem find?_eq_none_of_forall {rows : List Row} {test : Row → Bool}
    (fails : ∀ row ∈ rows, test row = false) : rows.find? test = none := by
  rw [List.find?_eq_none]
  intro row member holds
  rw [fails row member] at holds
  exact absurd holds (by decide)

/-- Filtering rows out leaves exactly the kept rows with the key. -/
theorem filter_key_eq_singleton [DecidableEq Key] {key : Row → Key} {rows : List Row}
    (unique : Unique key rows) {row : Row} (member : row ∈ rows) :
    rows.filter (fun other => key other = key row) = [row] := by
  induction rows with
  | nil => cases member
  | cons head rest inductionHypothesis =>
    obtain ⟨absent, uniqueRest⟩ := List.nodup_cons.mp unique
    rcases List.mem_cons.mp member with rfl | inRest
    · rw [List.filter_cons_of_pos (by simp)]
      refine congrArg (row :: ·) (List.filter_eq_nil_iff.mpr ?_)
      intro other memberOther same
      exact absent (List.mem_map.mpr ⟨other, memberOther, of_decide_eq_true same⟩)
    · rw [List.filter_cons_of_neg, inductionHypothesis uniqueRest inRest]
      intro same
      exact absent (List.mem_map.mpr ⟨row, inRest, (of_decide_eq_true same).symm⟩)

/-! ### Sums grouped by a foreign key -/

section Sums

variable {Amount : Type} [AddCommMonoid Amount] [DecidableEq Key]

/-- The sum of the amounts of the rows of a table. -/
def total (amount : Row → Amount) (rows : List Row) : Amount := (rows.map amount).sum

@[simp] theorem total_nil (amount : Row → Amount) : total amount ([] : List Row) = 0 := rfl

@[simp] theorem total_cons (amount : Row → Amount) (row : Row) (rows : List Row) :
    total amount (row :: rows) = amount row + total amount rows := by
  simp [total]

@[simp] theorem total_append (amount : Row → Amount) (first second : List Row) :
    total amount (first ++ second) = total amount first + total amount second := by
  simp [total]

theorem total_map (amount : Row → Amount) (row : Child → Row) (children : List Child) :
    total amount (children.map row) = total (fun child => amount (row child)) children := by
  unfold total
  rw [List.map_map]
  rfl

theorem total_flatMap (amount : Row → Amount) (rows : Child → List Row) (children : List Child) :
    total amount (children.flatMap rows) =
      total (fun child => total amount (rows child)) children := by
  induction children with
  | nil => rfl
  | cons child rest inductionHypothesis =>
    rw [List.flatMap_cons, total_append, total_cons, inductionHypothesis]

theorem total_congr {amount amount' : Row → Amount} {rows : List Row}
    (same : ∀ row ∈ rows, amount row = amount' row) :
    total amount rows = total amount' rows := by
  unfold total
  rw [List.map_congr_left same]

/-- Adding a loop's contributions to an accumulator one by one adds their sum to it. -/
theorem foldl_add_eq (amount : Row → Amount) (rows : List Row) (start : Amount) :
    rows.foldl (fun sum row => sum + amount row) start = start + total amount rows := by
  induction rows generalizing start with
  | nil => simp
  | cons row rest inductionHypothesis =>
    rw [List.foldl_cons, inductionHypothesis, total_cons, add_assoc]

/-- A filtered sum counts every row that the filter drops as zero. -/
theorem total_filter (amount : Row → Amount) (keep : Row → Bool) (rows : List Row) :
    total amount (rows.filter keep) =
      total (fun row => if keep row then amount row else 0) rows := by
  induction rows with
  | nil => rfl
  | cons row rest inductionHypothesis =>
    by_cases kept : keep row = true
    · rw [List.filter_cons_of_pos kept, total_cons, total_cons, inductionHypothesis, if_pos kept]
    · rw [List.filter_cons_of_neg kept, total_cons, inductionHypothesis, if_neg kept, zero_add]

/-- Dropping rows keeps a sum of natural numbers exactly if their amounts are zero. -/
theorem total_filter_eq_iff (amount : Row → Nat) (keep : Row → Bool) (rows : List Row) :
    total amount (rows.filter keep) = total amount rows ↔
      ∀ row ∈ rows, keep row = false → amount row = 0 := by
  have le (rows : List Row) : total amount (rows.filter keep) ≤ total amount rows := by
    induction rows with
    | nil => exact Nat.le_refl _
    | cons row rest inductionHypothesis =>
      rw [List.filter_cons, total_cons]
      split
      · rw [total_cons]
        omega
      · omega
  induction rows with
  | nil => simp
  | cons row rest inductionHypothesis =>
    rw [total_cons, List.forall_mem_cons]
    refine Iff.trans ?_ (and_congr_right fun _ => inductionHypothesis)
    by_cases kept : keep row = true
    · rw [List.filter_cons_of_pos kept, total_cons, kept]
      simp
    · rw [List.filter_cons_of_neg kept, show keep row = false from eq_false_of_ne_true kept]
      have bound := le rest
      constructor
      · exact fun same => ⟨fun _ => by omega, by omega⟩
      · rintro ⟨zero, same⟩
        rw [zero rfl, same, Nat.zero_add]

theorem total_add (first second : Row → Amount) (rows : List Row) :
    total (fun row => first row + second row) rows = total first rows + total second rows := by
  induction rows with
  | nil => simp
  | cons row rest inductionHypothesis =>
    rw [total_cons, total_cons, total_cons, inductionHypothesis, add_add_add_comm]

/-- Summing, for every parent row, the child rows that refer to it sums the child rows that
refer to some parent: grouping by a foreign key neither loses nor repeats a row. -/
theorem total_group (key : Row → Key) (reference : Child → Key) (amount : Child → Amount)
    (parents : List Row) (children : List Child) (unique : Unique key parents) :
    total (fun parent =>
        total amount (children.filter fun child => reference child = key parent)) parents =
      total amount (children.filter fun child => reference child ∈ parents.map key) := by
  induction parents with
  | nil => simp
  | cons parent rest inductionHypothesis =>
    obtain ⟨absent, uniqueRest⟩ := List.nodup_cons.mp unique
    rw [total_cons, inductionHypothesis uniqueRest, total_filter, total_filter, total_filter,
      ← total_add]
    refine total_congr fun child _ => ?_
    by_cases here : reference child = key parent
    · simp [here, absent]
    · simp [here]

end Sums

end LightWallet.Tables
