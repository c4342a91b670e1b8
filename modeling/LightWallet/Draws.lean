/-
This file describes what is drawn from a stream when values that were drawn before are skipped:
the positions at which a value comes up for the first time, and where the drawing stops that has
found as many values as it looks for. It names nothing of the wallet.
-/

import Mathlib.Data.Finset.Card

namespace LightWallet.Draws

variable {Value : Type} [DecidableEq Value] (draw : Nat → Value)

/-- The positions, as many as are tried from the first one on, at which a value comes up that was
not seen before. -/
def firsts : Finset Value → Nat → Nat → List Nat
  | _, 0, _ => []
  | seen, trials + 1, start =>
    if draw start ∈ seen then firsts seen trials (start + 1)
    else start :: firsts (insert (draw start) seen) trials (start + 1)

/-- The position after the last of the positions. -/
def after : Nat → List Nat → Nat
  | start, [] => start
  | _, position :: rest => after (position + 1) rest

variable {draw}

theorem firsts_repeated {seen : Finset Value} {start : Nat} (trials : Nat)
    (repeated : draw start ∈ seen) :
    firsts draw seen (trials + 1) start = firsts draw seen trials (start + 1) := if_pos repeated

theorem firsts_new {seen : Finset Value} {start : Nat} (trials : Nat) (new : draw start ∉ seen) :
    firsts draw seen (trials + 1) start =
      start :: firsts draw (insert (draw start) seen) trials (start + 1) := if_neg new

theorem draw_notMem_of_mem_firsts {seen : Finset Value} {trials start position : Nat}
    (member : position ∈ firsts draw seen trials start) : draw position ∉ seen := by
  induction trials generalizing seen start with
  | zero => cases member
  | succ trials inductionHypothesis =>
    by_cases repeated : draw start ∈ seen
    · rw [firsts_repeated trials repeated] at member
      exact inductionHypothesis member
    · rw [firsts_new trials repeated] at member
      rcases List.mem_cons.mp member with rfl | later
      · exact repeated
      · exact fun before => inductionHypothesis later (Finset.mem_insert_of_mem before)

/-- No value comes up twice at these positions. -/
theorem firsts_nodup (seen : Finset Value) (trials start : Nat) :
    ((firsts draw seen trials start).map draw).Nodup := by
  induction trials generalizing seen start with
  | zero => exact List.nodup_nil
  | succ trials inductionHypothesis =>
    by_cases repeated : draw start ∈ seen
    · rw [firsts_repeated trials repeated]
      exact inductionHypothesis seen (start + 1)
    · rw [firsts_new trials repeated, List.map_cons]
      refine List.nodup_cons.mpr ⟨fun again => ?_, inductionHypothesis _ (start + 1)⟩
      obtain ⟨position, later, same⟩ := List.mem_map.mp again
      exact draw_notMem_of_mem_firsts later (same ▸ Finset.mem_insert_self _ _)

/-- The drawing stops within the trials. -/
theorem after_take_firsts_le (seen : Finset Value) (trials start wanted : Nat) :
    after start ((firsts draw seen trials start).take wanted) ≤ start + trials := by
  induction trials generalizing seen start wanted with
  | zero => rw [firsts, List.take_nil, after, Nat.add_zero]
  | succ trials inductionHypothesis =>
    rcases wanted with _ | wanted
    · exact Nat.le_add_right start _
    · have next : start + 1 + trials = start + (trials + 1) := by
        rw [Nat.add_assoc, Nat.add_comm 1]
      rw [← next]
      by_cases repeated : draw start ∈ seen
      · rw [firsts_repeated trials repeated]
        have later := inductionHypothesis seen (start + 1) (wanted + 1)
        cases found : (firsts draw seen trials (start + 1)).take (wanted + 1) with
        | nil => exact Nat.le_trans (Nat.le_succ start) (Nat.le_add_right _ _)
        | cons position rest =>
          rw [found] at later
          exact later
      · rw [firsts_new trials repeated, List.take_succ_cons]
        exact inductionHypothesis _ (start + 1) wanted

end LightWallet.Draws
