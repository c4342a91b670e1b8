/-
This file holds what the development uses about loops that walk an array by an index,
delete the items that they do not keep and step the index back for them.

Such a loop is a walk over the items as they were at first: it examines each of them once
and in their order, and what it leaves of the array is what it keeps. A step that fails
ends the loop.
-/

import Mathlib.Data.List.Basic

namespace LightWallet.Splicing

variable {State Item Error : Type}

/-- The loop, with a step that takes the place of an item's examination: it fails, or tells
nothing of an item to be deleted, or the item to be written back. -/
def loop (examine : State → Item → State × Except Error (Option Item)) (state : State)
    (items : List Item) (index : Nat) : State × Except Error (List Item) :=
  if inside : index < items.length then
    match examine state (items.get ⟨index, inside⟩) with
    | (after, .error error) => (after, .error error)
    | (after, .ok none) => loop examine after (items.eraseIdx index) index
    | (after, .ok (some item)) => loop examine after (items.set index item) (index + 1)
  else (state, .ok items)
termination_by items.length - index
decreasing_by
  · rw [List.length_eraseIdx_of_lt inside]
    omega
  · rw [List.length_set]
    omega

/-- The walk over the items, with those that were kept so far. -/
def walk (examine : State → Item → State × Except Error (Option Item)) :
    State → List Item → List Item → State × Except Error (List Item)
  | state, kept, [] => (state, .ok kept)
  | state, kept, item :: rest =>
    match examine state item with
    | (after, .error error) => (after, .error error)
    | (after, .ok none) => walk examine after kept rest
    | (after, .ok (some other)) => walk examine after (kept ++ [other]) rest

/-- The step that also writes down what it examines. -/
def logged (examine : State → Item → State × Except Error (Option Item))
    (state : State × List Item) (item : Item) :
    (State × List Item) × Except Error (Option Item) :=
  (((examine state.1 item).1, state.2 ++ [item]), (examine state.1 item).2)

/-- The items that the loop examines, in the order in which it does. -/
def examined (examine : State → Item → State × Except Error (Option Item)) (state : State)
    (items : List Item) : List Item :=
  (loop (logged examine) (state, []) items 0).1.2

section

variable (examine : State → Item → State × Except Error (Option Item))

/-- With the items before the index kept, the loop is the walk over the others. -/
theorem loop_append (state : State) (kept rest : List Item) :
    loop examine state (kept ++ rest) kept.length = walk examine state kept rest := by
  induction rest generalizing state kept with
  | nil => rw [loop, dif_neg (by simp), walk, List.append_nil]
  | cons item rest inductionHypothesis =>
    have inside : kept.length < (kept ++ item :: rest).length := by simp
    have here : (kept ++ item :: rest).get ⟨kept.length, inside⟩ = item := by simp
    have erased : (kept ++ item :: rest).eraseIdx kept.length = kept ++ rest := by
      rw [List.eraseIdx_append_of_length_le (Nat.le_refl _), Nat.sub_self, List.eraseIdx_cons_zero]
    have written (other : Item) :
        (kept ++ item :: rest).set kept.length other = (kept ++ [other]) ++ rest := by simp
    have next (after : State) (other : Item) :
        loop examine after ((kept ++ item :: rest).set kept.length other) (kept.length + 1) =
          walk examine after (kept ++ [other]) rest := by
      rw [written, ← inductionHypothesis, List.length_append, List.length_singleton]
    rw [loop, dif_pos inside, here, walk, erased]
    simp only [next, inductionHypothesis]

theorem loop_eq_walk (state : State) (items : List Item) :
    loop examine state items 0 = walk examine state [] items :=
  loop_append examine state [] items

/-- Writing down what is examined changes nothing else, and a walk to the end examines every item
once and in order. -/
theorem walk_logged {state after : State} {kept rest result : List Item}
    (walked : walk examine state kept rest = (after, .ok result)) (log : List Item) :
    walk (logged examine) (state, log) kept rest = ((after, log ++ rest), .ok result) := by
  induction rest generalizing state kept log with
  | nil =>
    rw [walk] at walked ⊢
    cases walked
    rw [List.append_nil]
  | cons item rest inductionHypothesis =>
    cases step : examine state item with
    | mk next outcome =>
      have loggedStep : logged examine (state, log) item = ((next, log ++ [item]), outcome) := by
        unfold logged
        rw [step]
      rw [walk, step] at walked
      rw [walk, loggedStep, List.append_cons log item rest]
      cases outcome with
      | error error => cases walked
      | ok outcome =>
        cases outcome with
        | none => exact inductionHypothesis walked (log ++ [item])
        | some other => exact inductionHypothesis walked (log ++ [item])

theorem examined_of_ok {state after : State} {items result : List Item}
    (looped : loop examine state items 0 = (after, .ok result)) :
    examined examine state items = items := by
  unfold examined
  rw [loop_eq_walk] at looped ⊢
  rw [walk_logged examine looped, List.nil_append]

end

end LightWallet.Splicing
