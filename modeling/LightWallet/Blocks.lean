/-
This file holds what the development uses about data that is handled one block of
a fixed size after the other: cutting a list into its blocks, putting blocks
together again, and a loop that writes the blocks of its result one after the
other into a buffer.
-/

import Mathlib.Data.List.Forall2
import Mathlib.Data.List.Induction

namespace LightWallet.Blocks

variable {Item Failure : Type}

/-! ### Cutting a list into blocks -/

/-- The block of a list that starts at the given multiple of the size. -/
def chunk (size : Nat) (data : List Item) (index : Nat) : List Item :=
  (data.drop (index * size)).take size

/-- The first blocks of a list. -/
def chunks (size count : Nat) (data : List Item) : List (List Item) :=
  (List.range count).map (chunk size data)

@[simp] theorem chunks_zero (size : Nat) (data : List Item) : chunks size 0 data = [] := rfl

theorem chunks_succ (size count : Nat) (data : List Item) :
    chunks size (count + 1) data = chunks size count data ++ [chunk size data count] := by
  unfold chunks
  rw [List.range_succ, List.map_append, List.map_singleton]

@[simp] theorem length_chunks (size count : Nat) (data : List Item) :
    (chunks size count data).length = count := by
  rw [chunks, List.length_map, List.length_range]

theorem length_chunk {size index : Nat} {data : List Item}
    (inside : (index + 1) * size ≤ data.length) : (chunk size data index).length = size := by
  rw [Nat.succ_mul] at inside
  rw [chunk, List.length_take, List.length_drop]
  omega

theorem length_of_mem_chunks {size count : Nat} {data : List Item}
    (inside : count * size ≤ data.length) {block : List Item}
    (member : block ∈ chunks size count data) : block.length = size := by
  obtain ⟨index, below, rfl⟩ := List.mem_map.mp member
  exact length_chunk (Nat.le_trans (Nat.mul_le_mul_right size (List.mem_range.mp below)) inside)

theorem flatten_chunks (size count : Nat) (data : List Item) :
    (chunks size count data).flatten = data.take (count * size) := by
  induction count with
  | zero => rw [chunks_zero, List.flatten_nil, Nat.zero_mul, List.take_zero]
  | succ count inductionHypothesis =>
    rw [chunks_succ, List.flatten_append, inductionHypothesis, List.flatten_singleton, chunk,
      Nat.succ_mul, List.take_add]

/-- The blocks of a list and what is left behind them make the list. -/
theorem flatten_chunks_append (size count : Nat) (data : List Item) :
    (chunks size count data).flatten ++ data.drop (count * size) = data := by
  rw [flatten_chunks, List.take_append_drop]

theorem length_flatten_of_sized {size : Nat} {blocks : List (List Item)}
    (sized : ∀ block ∈ blocks, block.length = size) :
    blocks.flatten.length = blocks.length * size := by
  induction blocks with
  | nil => simp
  | cons block rest inductionHypothesis =>
    rw [List.flatten_cons, List.length_append, sized block List.mem_cons_self,
      inductionHypothesis fun other member => sized other (List.mem_cons_of_mem _ member),
      List.length_cons, Nat.succ_mul, Nat.add_comm]

theorem chunks_append {size count : Nat} {data : List Item} (inside : count * size ≤ data.length)
    (rest : List Item) : chunks size count (data ++ rest) = chunks size count data := by
  refine List.map_congr_left fun index below => ?_
  have end_le : (index + 1) * size ≤ data.length :=
    Nat.le_trans (Nat.mul_le_mul_right size (List.mem_range.mp below)) inside
  rw [Nat.succ_mul] at end_le
  rw [chunk, chunk, List.drop_append_of_le_length (by omega),
    List.take_append_of_le_length (by rw [List.length_drop]; omega)]

/-- Cutting what was put together gives the blocks back, whatever follows them. -/
theorem chunks_flatten_append {size : Nat} {blocks : List (List Item)}
    (sized : ∀ block ∈ blocks, block.length = size) (rest : List Item) :
    chunks size blocks.length (blocks.flatten ++ rest) = blocks := by
  rw [chunks_append (Nat.le_of_eq (length_flatten_of_sized sized).symm)]
  induction blocks using List.reverseRecOn with
  | nil => rfl
  | append_singleton front block inductionHypothesis =>
    have frontSized : ∀ other ∈ front, other.length = size :=
      fun other member => sized other (List.mem_append_left _ member)
    have last : block.length = size := sized block (by simp)
    have start := length_flatten_of_sized frontSized
    rw [List.length_append, List.length_singleton, chunks_succ, List.flatten_append,
      List.flatten_singleton, chunks_append (Nat.le_of_eq start.symm),
      inductionHypothesis frontSized, chunk, ← start, List.drop_left, ← last, List.take_length]

/-- Blocks of one size are determined by what they make together. -/
theorem eq_of_flatten_eq {size : Nat} {first second : List (List Item)}
    (firstSized : ∀ block ∈ first, block.length = size)
    (secondSized : ∀ block ∈ second, block.length = size)
    (sameCount : first.length = second.length) {firstRest secondRest : List Item}
    (same : first.flatten ++ firstRest = second.flatten ++ secondRest) :
    first = second ∧ firstRest = secondRest := by
  have blocks : first = second := by
    rw [← chunks_flatten_append firstSized firstRest, same, sameCount,
      chunks_flatten_append secondSized]
  subst blocks
  exact ⟨rfl, List.append_cancel_left same⟩

/-! ### Writing block after block -/

/-- A loop that writes one block a round behind those it has written. A round writes what
`content` gives for it, or fails if that fails, and finds the rest of the buffer as it was. -/
theorem foldlM_range_write (size : Nat) (content : Nat → Except Failure (List Item))
    {write : List Item → Nat → Except Failure (List Item)} {count : Nat} {buffer : List Item}
    (writes : ∀ index < count, ∀ written : List Item, written.length = index * size →
      write (written ++ buffer.drop (index * size)) index =
        (content index).map fun block => written ++ block ++ buffer.drop ((index + 1) * size))
    (sized : ∀ index < count, ∀ block, content index = .ok block → block.length = size) :
    (List.range count).foldlM write buffer =
      ((List.range count).mapM content).map fun blocks =>
        blocks.flatten ++ buffer.drop (count * size) := by
  have along : ∀ rounds ≤ count,
      (List.range rounds).foldlM write buffer =
        ((List.range rounds).mapM content).map (fun blocks =>
          blocks.flatten ++ buffer.drop (rounds * size)) ∧
      ∀ blocks, (List.range rounds).mapM content = .ok blocks →
        blocks.flatten.length = rounds * size := by
    intro rounds
    induction rounds with
    | zero =>
      intro _
      refine ⟨by simp [Except.map, pure, Except.pure], fun blocks done => ?_⟩
      cases done
      simp
    | succ rounds inductionHypothesis =>
      intro bound
      obtain ⟨loop, lengths⟩ := inductionHypothesis (by omega)
      rw [List.range_succ, List.foldlM_append, loop, List.mapM_append]
      cases before : (List.range rounds).mapM content with
      | error failure => exact ⟨rfl, fun blocks done => by cases done⟩
      | ok blocks =>
        have written := writes rounds (by omega) blocks.flatten (lengths blocks before)
        simp only [Except.map, bind, Except.bind, List.foldlM_cons, List.foldlM_nil,
          List.mapM_cons, List.mapM_nil, pure, Except.pure, written]
        cases outcome : content rounds with
        | error failure => exact ⟨rfl, fun blocks done => by cases done⟩
        | ok block =>
          refine ⟨?_, fun all done => ?_⟩
          · simp only [List.flatten_append, List.flatten_singleton]
          · cases done
            rw [List.flatten_append, List.flatten_singleton, List.length_append,
              lengths blocks before, sized rounds (by omega) block outcome, Nat.succ_mul]
  exact (along count Nat.le.refl).1

/-- A round for each block of a list handles the blocks in turn. -/
theorem mapM_range_chunk {Result : Type} (size count : Nat) (data : List Item)
    (content : List Item → Except Failure Result) :
    (List.range count).mapM (fun index => content (chunk size data index)) =
      (chunks size count data).mapM content := by
  rw [chunks, List.mapM_map]
  rfl

/-! ### Handling every block -/

theorem bind_eq_ok_iff {First Second : Type} {first : Except Failure First}
    {next : First → Except Failure Second} {result : Second} :
    (first >>= next) = .ok result ↔ ∃ value, first = .ok value ∧ next value = .ok result := by
  cases first with
  | error failure =>
    constructor
    · intro done
      cases done
    · rintro ⟨_, done, _⟩
      cases done
  | ok value =>
    constructor
    · exact fun done => ⟨value, rfl, done⟩
    · rintro ⟨_, same, done⟩
      cases same
      exact done

/-- Handling all blocks succeeds just when every block can be handled. -/
theorem mapM_eq_ok_iff {First Second : Type} {content : First → Except Failure Second}
    {items : List First} {results : List Second} :
    items.mapM content = .ok results ↔
      List.Forall₂ (fun item result => content item = .ok result) items results := by
  induction items generalizing results with
  | nil =>
    rw [List.mapM_nil, List.forall₂_nil_left_iff]
    constructor
    · intro done
      cases done
      rfl
    · intro none
      rw [none]
      rfl
  | cons item rest inductionHypothesis =>
    rw [List.mapM_cons, bind_eq_ok_iff, List.forall₂_cons_left_iff]
    constructor
    · rintro ⟨result, one, done⟩
      obtain ⟨others, all, done⟩ := bind_eq_ok_iff.mp done
      cases done
      exact ⟨result, others, one, inductionHypothesis.mp all, rfl⟩
    · rintro ⟨result, others, one, all, rfl⟩
      exact ⟨result, one, bind_eq_ok_iff.mpr ⟨others, inductionHypothesis.mpr all, rfl⟩⟩

/-- Where every result is made from some value that belongs to its item, the results are made
from a list of such values. -/
theorem forall₂_exists_map {First Second Third : Type} {relation : First → Third → Prop}
    {make : Third → Second} {items : List First} {results : List Second} :
    List.Forall₂ (fun item result => ∃ value, relation item value ∧ result = make value) items
        results ↔
      ∃ values, List.Forall₂ relation items values ∧ results = values.map make := by
  constructor
  · intro all
    induction all with
    | nil => exact ⟨[], .nil, rfl⟩
    | cons one _ inductionHypothesis =>
      obtain ⟨value, related, rfl⟩ := one
      obtain ⟨values, others, rfl⟩ := inductionHypothesis
      exact ⟨value :: values, .cons related others, rfl⟩
  · rintro ⟨values, all, rfl⟩
    rw [List.forall₂_map_right_iff]
    exact all.imp fun item value related => ⟨value, related, rfl⟩

end LightWallet.Blocks
