/-
This file holds what the development uses about searching one list in another: where a
pattern stands for the first time and what stands behind it there.

A separator that the pattern does not have splits the search, since the pattern stands
before it or behind it and never across. A pattern that ends with a separator stands, in
a key and a value with that separator between them, at the end of the key or in the value.
-/

import Mathlib.Data.List.Infix

namespace LightWallet.Substrings

variable {Symbol : Type}

/-! ### Prefixes -/

theorem prefix_append_separator_iff {pattern : List Symbol} {separator : Symbol}
    (absent : separator ∉ pattern) (front back : List Symbol) :
    pattern <+: front ++ separator :: back ↔ pattern <+: front := by
  refine ⟨fun starts => ?_, fun starts => starts.trans (List.prefix_append _ _)⟩
  rcases List.prefix_or_prefix_of_prefix starts (List.prefix_append front (separator :: back)) with
    short | ⟨more, rfl⟩
  · exact short
  · cases more with
    | nil => rw [List.append_nil]
    | cons symbol others =>
      obtain ⟨same, _⟩ := List.cons_prefix_cons.mp ((List.prefix_append_right_inj front).mp starts)
      exact absurd (List.mem_append_right _ (same ▸ List.mem_cons_self)) absent

theorem name_prefix_iff {name key : List Symbol} {separator : Symbol}
    (inName : separator ∉ name) (inKey : separator ∉ key) (value : List Symbol) :
    name ++ [separator] <+: key ++ separator :: value ↔ name = key := by
  refine ⟨fun starts => ?_, fun same => ?_⟩
  · induction name generalizing key with
    | nil =>
      cases key with
      | nil => rfl
      | cons symbol key =>
        obtain ⟨same, _⟩ := List.cons_prefix_cons.mp starts
        exact absurd (same ▸ List.mem_cons_self) inKey
    | cons first name inductionHypothesis =>
      cases key with
      | nil =>
        obtain ⟨same, _⟩ := List.cons_prefix_cons.mp starts
        exact absurd (same ▸ List.mem_cons_self) inName
      | cons symbol key =>
        obtain ⟨same, rest⟩ := List.cons_prefix_cons.mp starts
        rw [same, inductionHypothesis (fun present => inName (List.mem_cons_of_mem _ present))
          (fun present => inKey (List.mem_cons_of_mem _ present)) rest]
  · rw [same, List.append_cons key separator value]
    exact List.prefix_append _ _

variable [DecidableEq Symbol]

/-! ### Searching -/

/-- Where the pattern stands for the first time. -/
def indexOf (pattern : List Symbol) : List Symbol → Option Nat
  | [] => if pattern = [] then some 0 else none
  | symbol :: rest =>
    if pattern <+: symbol :: rest then some 0 else (indexOf pattern rest).map (· + 1)

/-- What stands behind the pattern where it stands for the first time. -/
def behind (pattern text : List Symbol) : Option (List Symbol) :=
  (indexOf pattern text).map fun found => text.drop (found + pattern.length)

theorem behind_nil {pattern : List Symbol} (nonempty : pattern ≠ []) :
    behind pattern [] = none := by
  rw [behind, indexOf, if_neg nonempty, Option.map_none]

theorem behind_of_starts {pattern text : List Symbol} (nonempty : pattern ≠ [])
    (starts : pattern <+: text) : behind pattern text = some (text.drop pattern.length) := by
  cases text with
  | nil => exact absurd (List.prefix_nil.mp starts) nonempty
  | cons symbol rest => rw [behind, indexOf, if_pos starts, Option.map_some, Nat.zero_add]

theorem behind_cons_of_not_starts {pattern : List Symbol} {symbol : Symbol} {rest : List Symbol}
    (other : ¬ pattern <+: symbol :: rest) :
    behind pattern (symbol :: rest) = behind pattern rest := by
  rw [behind, indexOf, if_neg other, Option.map_map]
  refine congrArg (Option.map · (indexOf pattern rest)) (funext fun found => ?_)
  show (symbol :: rest).drop (found + 1 + pattern.length) = _
  rw [Nat.add_right_comm, List.drop_succ_cons]

theorem behind_suffix {pattern text rest : List Symbol} (found : behind pattern text = some rest) :
    rest <:+ text := by
  obtain ⟨position, _, rfl⟩ := Option.map_eq_some_iff.mp found
  exact List.drop_suffix _ _

/-- A pattern is not found without one of its symbols. -/
theorem behind_eq_none_of_notMem {pattern text : List Symbol} {symbol : Symbol}
    (needed : symbol ∈ pattern) (absent : symbol ∉ text) : behind pattern text = none := by
  induction text with
  | nil => exact behind_nil (List.ne_nil_of_mem needed)
  | cons first rest inductionHypothesis =>
    rw [behind_cons_of_not_starts fun starts => absent (starts.subset needed)]
    exact inductionHypothesis fun present => absent (List.mem_cons_of_mem _ present)

/-! ### Separators -/

/-- The pattern is looked for before a separator and then behind it. -/
theorem behind_append_separator {pattern : List Symbol} {separator : Symbol}
    (nonempty : pattern ≠ []) (absent : separator ∉ pattern) (front back : List Symbol) :
    behind pattern (front ++ separator :: back) =
      (behind pattern front).elim (behind pattern back)
        fun rest => some (rest ++ separator :: back) := by
  induction front with
  | nil =>
    have other : ¬ pattern <+: separator :: back := fun starts =>
      nonempty (List.prefix_nil.mp ((prefix_append_separator_iff absent [] back).mp starts))
    rw [List.nil_append, behind_cons_of_not_starts other, behind_nil nonempty, Option.elim_none]
  | cons symbol front inductionHypothesis =>
    by_cases starts : pattern <+: symbol :: front
    · rw [behind_of_starts nonempty ((prefix_append_separator_iff absent _ _).mpr starts),
        behind_of_starts nonempty starts, Option.elim_some,
        List.drop_append_of_le_length starts.length_le]
    · have other : ¬ pattern <+: symbol :: (front ++ separator :: back) :=
        (prefix_append_separator_iff absent (symbol :: front) back).not.mpr starts
      rw [List.cons_append, behind_cons_of_not_starts other, behind_cons_of_not_starts starts,
        inductionHypothesis]

theorem behind_replicate_append {pattern : List Symbol} {separator : Symbol}
    (nonempty : pattern ≠ []) (absent : separator ∉ pattern) (count : Nat) (back : List Symbol) :
    behind pattern (List.replicate count separator ++ back) = behind pattern back := by
  induction count with
  | zero => rfl
  | succ count inductionHypothesis =>
    have split := behind_append_separator nonempty absent []
      (List.replicate count separator ++ back)
    rw [behind_nil nonempty, Option.elim_none, inductionHypothesis] at split
    exact split

/-! ### Keys and values -/

/-- The name of a key is found at the end of the key, else in the value. -/
theorem behind_name {name key : List Symbol} {separator : Symbol} (nonempty : name ≠ [])
    (inName : separator ∉ name) (inKey : separator ∉ key) (value : List Symbol) :
    behind (name ++ [separator]) (key ++ separator :: value) =
      if name <:+ key then some value else behind (name ++ [separator]) value := by
  have pattern : name ++ [separator] ≠ [] := List.append_ne_nil_of_right_ne_nil _ (by simp)
  induction key with
  | nil =>
    have other : ¬ name ++ [separator] <+: separator :: value :=
      fun starts => nonempty ((name_prefix_iff inName inKey value).mp starts)
    rw [List.nil_append, behind_cons_of_not_starts other, if_neg fun ends =>
      nonempty (List.suffix_nil.mp ends)]
  | cons symbol key inductionHypothesis =>
    by_cases same : name = symbol :: key
    · have starts := (name_prefix_iff inName inKey value).mpr same
      rw [behind_of_starts pattern starts, if_pos (same ▸ List.suffix_refl _), same,
        List.append_cons (symbol :: key) separator value, List.drop_left]
    · have other : ¬ name ++ [separator] <+: symbol :: (key ++ separator :: value) :=
        (name_prefix_iff inName inKey value).not.mpr same
      have ends : name <:+ symbol :: key ↔ name <:+ key :=
        List.suffix_cons_iff.trans (or_iff_right same)
      rw [List.cons_append, behind_cons_of_not_starts other,
        inductionHypothesis fun present => inKey (List.mem_cons_of_mem _ present)]
      exact (if_congr ends rfl rfl).symm

/-! ### One separator -/

theorem indexOf_separator {front : List Symbol} {separator : Symbol} (absent : separator ∉ front)
    (back : List Symbol) :
    indexOf [separator] (front ++ separator :: back) = some front.length := by
  induction front with
  | nil => exact if_pos (List.cons_prefix_cons.mpr ⟨rfl, List.nil_prefix⟩)
  | cons symbol front inductionHypothesis =>
    have other : ¬ [separator] <+: symbol :: (front ++ separator :: back) :=
      fun starts => absent ((List.cons_prefix_cons.mp starts).1 ▸ List.mem_cons_self)
    rw [List.cons_append, indexOf, if_neg other,
      inductionHypothesis fun present => absent (List.mem_cons_of_mem _ present)]
    rfl

theorem indexOf_separator_eq_none {text : List Symbol} {separator : Symbol}
    (absent : separator ∉ text) : indexOf [separator] text = none := by
  induction text with
  | nil => rfl
  | cons symbol rest inductionHypothesis =>
    have other : ¬ [separator] <+: symbol :: rest :=
      fun starts => absent ((List.cons_prefix_cons.mp starts).1 ▸ List.mem_cons_self)
    rw [indexOf, if_neg other,
      inductionHypothesis fun present => absent (List.mem_cons_of_mem _ present)]
    rfl

end LightWallet.Substrings
