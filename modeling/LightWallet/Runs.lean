/-
This file holds the induction rules the development uses for systems that take
one event after another. A run folds a step function over a list of events; a
condition is met along a run when every event is taken from a state in which the
condition holds. A property that one such step preserves holds wherever the run
gets to.
-/

import Mathlib.Data.List.Basic

namespace LightWallet.Runs

variable {State Event : Type}

/-- The state a run of events ends in. -/
def run (step : State → Event → State) (start : State) (events : List Event) : State :=
  events.foldl step start

/-- Every event of the run is taken from a state that meets the condition. -/
def Along (step : State → Event → State) (condition : State → Event → Prop) :
    State → List Event → Prop
  | _, [] => True
  | state, event :: rest => condition state event ∧ Along step condition (step state event) rest

instance along_decidable (step : State → Event → State) (condition : State → Event → Prop)
    [∀ state event, Decidable (condition state event)] :
    ∀ state events, Decidable (Along step condition state events)
  | _, [] => inferInstanceAs (Decidable True)
  | state, event :: rest =>
    have := along_decidable step condition (step state event) rest
    inferInstanceAs (Decidable (_ ∧ _))

@[simp] theorem run_nil (step : State → Event → State) (start : State) :
    run step start [] = start := rfl

@[simp] theorem run_cons (step : State → Event → State) (start : State) (event : Event)
    (rest : List Event) : run step start (event :: rest) = run step (step start event) rest := rfl

theorem run_append (step : State → Event → State) (start : State) (first second : List Event) :
    run step start (first ++ second) = run step (run step start first) second :=
  List.foldl_append

@[simp] theorem along_nil (step : State → Event → State) (condition : State → Event → Prop)
    (start : State) : Along step condition start [] := trivial

@[simp] theorem along_cons (step : State → Event → State) (condition : State → Event → Prop)
    (start : State) (event : Event) (rest : List Event) :
    Along step condition start (event :: rest) ↔
      condition start event ∧ Along step condition (step start event) rest := Iff.rfl

theorem along_append (step : State → Event → State) (condition : State → Event → Prop)
    (start : State) (first second : List Event) :
    Along step condition start (first ++ second) ↔
      Along step condition start first ∧ Along step condition (run step start first) second := by
  induction first generalizing start with
  | nil => simp
  | cons event rest inductionHypothesis =>
    simp only [List.cons_append, along_cons, run_cons, inductionHypothesis, and_assoc]

theorem along_and (step : State → Event → State) (first second : State → Event → Prop)
    (start : State) (events : List Event) :
    Along step (fun state event => first state event ∧ second state event) start events ↔
      Along step first start events ∧ Along step second start events := by
  induction events generalizing start with
  | nil => simp
  | cons event rest inductionHypothesis =>
    simp only [along_cons, inductionHypothesis]
    exact and_and_and_comm

/-- What holds of every event holds along the run. -/
theorem along_of_forall {step : State → Event → State} {holds : Event → Prop} {start : State}
    {events : List Event} (all : ∀ event ∈ events, holds event) :
    Along step (fun _ event => holds event) start events := by
  induction events generalizing start with
  | nil => trivial
  | cons event rest inductionHypothesis =>
    refine ⟨all event List.mem_cons_self, inductionHypothesis ?_⟩
    exact fun other member => all other (List.mem_cons_of_mem _ member)

/-- What holds of every event of a run may be added to the condition that the run meets. -/
theorem along_and_of_forall {step : State → Event → State} {holds : Event → Prop}
    {condition : State → Event → Prop} {start : State} {events : List Event}
    (all : ∀ event ∈ events, holds event) (met : Along step condition start events) :
    Along step (fun state event => holds event ∧ condition state event) start events :=
  (along_and step (fun _ event => holds event) condition start events).mpr
    ⟨along_of_forall all, met⟩

/-- A property that every step under the condition preserves holds at the end of every run
that meets the condition. -/
theorem run_invariant (step : State → Event → State) (condition : State → Event → Prop)
    (invariant : State → Prop)
    (preserved : ∀ state event, invariant state → condition state event →
      invariant (step state event))
    (events : List Event) (start : State) (initially : invariant start)
    (met : Along step condition start events) : invariant (run step start events) := by
  induction events generalizing start with
  | nil => exact initially
  | cons event rest inductionHypothesis =>
    exact inductionHypothesis (step start event) (preserved start event initially met.1) met.2

/-- What every step under the condition meets, and with it an invariant, is met along every run
that meets the condition. -/
theorem along_of_step (step : State → Event → State) (condition goal : State → Event → Prop)
    (invariant : State → Prop)
    (preserved : ∀ state event, invariant state → condition state event →
      invariant (step state event) ∧ goal state event)
    (events : List Event) (start : State) (initially : invariant start)
    (met : Along step condition start events) : Along step goal start events := by
  induction events generalizing start with
  | nil => trivial
  | cons event rest inductionHypothesis =>
    obtain ⟨kept, reached⟩ := preserved start event initially met.1
    exact ⟨reached, inductionHypothesis (step start event) kept met.2⟩

/-- Where a step that violates the condition spoils the state for good, a run that ends unspoilt
meets the condition. -/
theorem along_of_unspoilt (step : State → Event → State) (condition : State → Event → Prop)
    (invariant spoilt : State → Prop)
    (preserved : ∀ state event, invariant state → invariant (step state event))
    (stays : ∀ state event, spoilt state → spoilt (step state event))
    (spoils : ∀ state event, invariant state → ¬ condition state event →
      spoilt (step state event))
    (events : List Event) (start : State) (initially : invariant start)
    (unspoilt : ¬ spoilt (run step start events)) : Along step condition start events := by
  induction events generalizing start with
  | nil => trivial
  | cons event rest inductionHypothesis =>
    refine ⟨?_, inductionHypothesis (step start event) (preserved start event initially) unspoilt⟩
    by_contra violated
    refine unspoilt ?_
    have early := spoils start event initially violated
    clear unspoilt inductionHypothesis
    rw [run_cons]
    generalize step start event = state at early ⊢
    induction rest generalizing state with
    | nil => exact early
    | cons next rest later => exact later (step state next) (stays state next early)

/-- Two conditions that agree wherever an invariant holds are met along the same runs, if a step
under them keeps the invariant. -/
theorem along_iff_of_kept (step : State → Event → State) (first second : State → Event → Prop)
    (invariant : State → Prop)
    (agree : ∀ state event, invariant state → (first state event ↔ second state event))
    (kept : ∀ state event, invariant state → second state event → invariant (step state event))
    (events : List Event) (start : State) (initially : invariant start) :
    Along step first start events ↔ Along step second start events := by
  induction events generalizing start with
  | nil => exact Iff.rfl
  | cons event rest inductionHypothesis =>
    rw [along_cons, along_cons, agree start event initially]
    exact and_congr_right fun met =>
      inductionHypothesis (step start event) (kept start event initially met)

/-- Two conditions that agree wherever an invariant holds are met along the same runs. -/
theorem along_congr (step : State → Event → State) (first second : State → Event → Prop)
    (invariant : State → Prop)
    (agree : ∀ state event, invariant state →
      invariant (step state event) ∧ (first state event ↔ second state event))
    (events : List Event) (start : State) (initially : invariant start) :
    Along step first start events ↔ Along step second start events :=
  along_iff_of_kept step first second invariant
    (fun state event holds => (agree state event holds).2)
    (fun state event holds _ => (agree state event holds).1) events start initially

/-- Two conditions that agree on the events of a run wherever an invariant holds are met along it
alike. -/
theorem along_congr_of_mem (step : State → Event → State) (first second : State → Event → Prop)
    (invariant : State → Prop) (events : List Event)
    (agree : ∀ event ∈ events, ∀ state, invariant state →
      invariant (step state event) ∧ (first state event ↔ second state event))
    (start : State) (initially : invariant start) :
    Along step first start events ↔ Along step second start events := by
  induction events generalizing start with
  | nil => exact Iff.rfl
  | cons event rest inductionHypothesis =>
    obtain ⟨kept, same⟩ := agree event List.mem_cons_self start initially
    rw [along_cons, along_cons, same]
    exact and_congr_right fun _ => inductionHypothesis
      (fun other member => agree other (List.mem_cons_of_mem _ member)) (step start event) kept

/-- Where a step from a good state leads to a good state exactly when it meets the condition, all
states of a run are good exactly when the condition is met along it. -/
theorem reached_iff_along (step : State → Event → State) (condition : State → Event → Prop)
    (invariant good : State → Prop)
    (kept : ∀ state event, invariant state → invariant (step state event))
    (agree : ∀ state event, invariant state → good state →
      (good (step state event) ↔ condition state event))
    (events : List Event) (start : State) (initially : invariant start) (goodStart : good start) :
    (∀ first rest, first ++ rest = events → good (run step start first)) ↔
      Along step condition start events := by
  induction events generalizing start with
  | nil =>
    refine iff_of_true (fun first rest joined => ?_) trivial
    rw [(List.append_eq_nil_iff.mp joined).1]
    exact goodStart
  | cons event rest inductionHypothesis =>
    rw [along_cons]
    constructor
    · intro reached
      have next : good (step start event) := reached [event] rest rfl
      refine ⟨(agree start event initially goodStart).mp next, ?_⟩
      refine (inductionHypothesis _ (kept start event initially) next).mp ?_
      exact fun first last joined => reached (event :: first) last (congrArg (event :: ·) joined)
    · rintro ⟨met, later⟩ first last joined
      have next := (agree start event initially goodStart).mpr met
      cases first with
      | nil => exact goodStart
      | cons head tail =>
        obtain ⟨rfl, joinedTail⟩ := List.cons.inj joined
        exact (inductionHypothesis _ (kept start head initially) next).mpr later tail last
          joinedTail

/-- A property that every step preserves holds at the end of every run. -/
theorem run_invariant_of_step (step : State → Event → State) (invariant : State → Prop)
    (preserved : ∀ state event, invariant state → invariant (step state event))
    (events : List Event) (start : State) (initially : invariant start) :
    invariant (run step start events) := by
  induction events generalizing start with
  | nil => exact initially
  | cons event rest inductionHypothesis =>
    exact inductionHypothesis (step start event) (preserved start event initially)

end LightWallet.Runs
