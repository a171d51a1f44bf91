import Mathlib.Data.List.Induction
import Mathlib.Tactic.TypeStar

/-!
# Labelled runs

The finite runs of a step relation, with the list of labels they went through.  A run grows at its
end, so an invariant of a run is proved by what its last step preserves.  Conditions that a whole
run meets are imposed on the step relation itself: the runs of `step ⊓ condition` are the runs all
of whose steps meet the condition.
-/

/-- The finite runs of a labelled step relation. -/
inductive Runs {κ ℓ : Type*} (step : κ → ℓ → κ → Prop) (start : κ) : List ℓ → κ → Prop where
  /-- The run without steps. -/
  | nil : Runs step start [] start
  /-- A run followed by one more step. -/
  | snoc {labels : List ℓ} {here : κ} {label : ℓ} {there : κ} :
      Runs step start labels here → step here label there →
        Runs step start (labels ++ [label]) there

namespace Runs

variable {κ ℓ : Type*} {step step' : κ → ℓ → κ → Prop} {start here there : κ}
  {labels labels' : List ℓ} {label : ℓ}

/-- What holds at the start and is preserved by every step holds at the end of every run. -/
theorem invariant {J : κ → Prop} (hrun : Runs step start labels there) (hstart : J start)
    (hstep : ∀ c l c', step c l c' → J c → J c') : J there := by
  induction hrun with
  | nil => exact hstart
  | snoc _ h ih => exact hstep _ _ _ h ih

/-- What holds of the empty history and is preserved by every step holds of every run. -/
theorem invariant_with_labels {J : List ℓ → κ → Prop} (hrun : Runs step start labels there)
    (hstart : J [] start)
    (hstep : ∀ ls c l c', step c l c' → J ls c → J (ls ++ [l]) c') : J labels there := by
  induction hrun with
  | nil => exact hstart
  | snoc _ h ih => exact hstep _ _ _ _ h ih

/-- What holds at the start and is preserved by every step with a label of the run holds at its
end. -/
theorem invariant_of_mem {J : κ → Prop} (hrun : Runs step start labels there) (hstart : J start)
    (hstep : ∀ c l c', l ∈ labels → step c l c' → J c → J c') : J there := by
  induction hrun with
  | nil => exact hstart
  | snoc _ h ih =>
    exact hstep _ _ _ (by simp) h (ih fun c l c' hl => hstep c l c' (List.mem_append_left _ hl))

theorem mono (hrun : Runs step start labels there) (h : ∀ c l c', step c l c' → step' c l c') :
    Runs step' start labels there := by
  induction hrun with
  | nil => exact nil
  | snoc _ hlast ih => exact snoc ih (h _ _ _ hlast)

theorem single (h : step start label there) : Runs step start [label] there :=
  snoc nil h

theorem append (hrun : Runs step start labels here) (hrun' : Runs step here labels' there) :
    Runs step start (labels ++ labels') there := by
  induction hrun' with
  | nil => simpa using hrun
  | snoc _ h ih =>
    rw [← List.append_assoc]
    exact snoc ih h

theorem cons (h : step start label here) (hrun : Runs step here labels there) :
    Runs step start (label :: labels) there :=
  append (single h) hrun

theorem last (hrun : Runs step start (labels ++ [label]) there) :
    ∃ c, Runs step start labels c ∧ step c label there := by
  generalize hlabels : labels ++ [label] = all at hrun
  cases hrun with
  | nil => simp at hlabels
  | snoc hprev hstep =>
    obtain ⟨hfront, hlast⟩ := List.append_inj' hlabels rfl
    cases hfront
    cases hlast
    exact ⟨_, hprev, hstep⟩

theorem split (hrun : Runs step start (labels ++ labels') there) :
    ∃ c, Runs step start labels c ∧ Runs step c labels' there := by
  induction labels' using List.reverseRecOn generalizing there with
  | nil => exact ⟨there, by simpa using hrun, nil⟩
  | append_singleton front last ih =>
    rw [← List.append_assoc] at hrun
    obtain ⟨here, hprev, hstep⟩ := hrun.last
    obtain ⟨c, hbefore, hafter⟩ := ih hprev
    exact ⟨c, hbefore, snoc hafter hstep⟩

theorem first (hrun : Runs step start (label :: labels) there) :
    ∃ c, step start label c ∧ Runs step c labels there := by
  have hrun : Runs step start ([label] ++ labels) there := hrun
  obtain ⟨here, hfront, hrest⟩ := hrun.split
  have hfront : Runs step start ([] ++ [label]) here := hfront
  obtain ⟨c, hnone, hstep⟩ := hfront.last
  refine ⟨here, ?_, hrest⟩
  generalize hlabels : ([] : List ℓ) = none at hnone
  cases hnone with
  | nil => exact hstep
  | snoc => simp at hlabels

end Runs
