/-
This file holds what the development uses to compare a system that takes one event after
another with a relation that says which steps are allowed and what each of them tells. The
system keeps a list of what it has told; where every event is matched by allowed steps, every
run is, and what a run has told can be taken apart at any of its entries.
-/

import LightWallet.Runs

namespace LightWallet.Traces

variable {Phase Label State Event : Type}

/-- Allowed steps one after another, and all that they tell. -/
inductive Trace (next : Phase → List Label → Phase → Prop) (start : Phase) :
    List Label → Phase → Prop where
  | start : Trace next start [] start
  | step {told entries : List Label} {middle final : Phase} (before : Trace next start told middle)
      (allowed : next middle entries final) : Trace next start (told ++ entries) final

variable {next : Phase → List Label → Phase → Prop}

theorem Trace.one {start final : Phase} {entries : List Label}
    (allowed : next start entries final) : Trace next start entries final :=
  Trace.start.step allowed

theorem Trace.append {start middle final : Phase} {told later : List Label}
    (first : Trace next start told middle) (second : Trace next middle later final) :
    Trace next start (told ++ later) final := by
  induction second with
  | start =>
    rw [List.append_nil]
    exact first
  | step before allowed inductionHypothesis =>
    rw [← List.append_assoc]
    exact inductionHypothesis.step allowed

/-- Where each step tells one thing at most, a trace can be taken apart at what it tells. -/
theorem Trace.split {start final : Phase} {told : List Label}
    (short : ∀ phase entries after, next phase entries after → entries.length ≤ 1)
    (trace : Trace next start told final) {before after : List Label} {label : Label}
    (parts : told = before ++ label :: after) :
    ∃ phase reached, Trace next start before phase ∧ next phase [label] reached ∧
      Trace next reached after final := by
  induction trace generalizing after with
  | start => simp at parts
  | @step told entries middle final earlier allowed inductionHypothesis =>
    have length := short _ _ _ allowed
    rcases entries with _ | ⟨entry, _ | ⟨_, _⟩⟩
    · rw [List.append_nil] at parts
      obtain ⟨phase, reached, first, told, last⟩ := inductionHypothesis parts
      refine ⟨phase, reached, first, told, ?_⟩
      have joined := last.step allowed
      rwa [List.append_nil] at joined
    · rcases List.eq_nil_or_concat' after with rfl | ⟨front, last, rfl⟩
      · obtain ⟨rfl, same⟩ := List.append_inj' parts rfl
        rw [← same]
        exact ⟨middle, final, earlier, allowed, .start⟩
      · rw [← List.cons_append, ← List.append_assoc] at parts
        obtain ⟨told, same⟩ := List.append_inj' parts rfl
        obtain ⟨phase, reached, first, allowedHere, rest⟩ := inductionHypothesis told
        rw [← same]
        exact ⟨phase, reached, first, allowedHere, rest.step allowed⟩
    · simp at length

/-- From a state that a phase stands for, a step tells what allowed steps tell, and the phase that
they lead to stands for its state. -/
def Simulated (next : Phase → List Label → Phase → Prop) (log : State → List Label)
    (stands : Phase → State → Prop) (phase : Phase) (state after : State) : Prop :=
  ∃ entries reached, log after = log state ++ entries ∧ Trace next phase entries reached ∧
    stands reached after

/-- Where every event is matched by allowed steps, a run is. -/
theorem run_trace (step : State → Event → State) (log : State → List Label)
    (stands : Phase → State → Prop)
    (simulated : ∀ phase state event, stands phase state →
      Simulated next log stands phase state (step state event))
    {start : State} {begun : Phase} (silent : log start = []) (initially : stands begun start)
    (events : List Event) : ∃ phase, Trace next begun (log (Runs.run step start events)) phase ∧
      stands phase (Runs.run step start events) := by
  refine Runs.run_invariant_of_step step
    (fun state => ∃ phase, Trace next begun (log state) phase ∧ stands phase state) ?_ events start
    ⟨begun, by rw [silent]; exact .start, initially⟩
  rintro state event ⟨phase, trace, standing⟩
  obtain ⟨entries, reached, told, steps, standingAfter⟩ := simulated phase state event standing
  refine ⟨reached, ?_, standingAfter⟩
  rw [told]
  exact trace.append steps

end LightWallet.Traces
