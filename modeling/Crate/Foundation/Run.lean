import Mathlib

/-!
# Runs of a state machine

A machine is a total step function; a run is the fold of a list of actions.
`StepsMeet` says that every action of a run satisfies a condition on the state
in which it is taken.  The rules below turn facts about one step into
facts about whole runs.
-/

namespace Crate.Foundation

variable {σ α : Type}

def run (step : σ → α → σ) (s : σ) (actions : List α) : σ :=
  actions.foldl step s

/-- Every action of the run meets `cond` in the state in which it is taken. -/
def StepsMeet (step : σ → α → σ) (cond : σ → α → Prop) : σ → List α → Prop
  | _, [] => True
  | s, a :: rest => cond s a ∧ StepsMeet step cond (step s a) rest

variable {step : σ → α → σ} {cond : σ → α → Prop} {good : σ → Prop}

/-- A property kept by every step holds at the end of every run. -/
theorem run_induct (hstep : ∀ s a, good s → good (step s a))
    {s : σ} (h : good s) (actions : List α) : good (run step s actions) := by
  induction actions generalizing s with
  | nil => exact h
  | cons a rest ih => exact ih (hstep s a h)

/-- A property kept by every step that meets the condition holds in every state of the run. -/
theorem forall_prefix_good (hstep : ∀ s a, good s → cond s a → good (step s a))
    {s : σ} (h : good s) {actions : List α} (hmeet : StepsMeet step cond s actions)
    {before : List α} (hbefore : before <+: actions) : good (run step s before) := by
  induction actions generalizing s before with
  | nil =>
      rw [List.prefix_nil.mp hbefore]
      exact h
  | cons a rest ih =>
      cases before with
      | nil => exact h
      | cons b before =>
          obtain ⟨rfl, htail⟩ := List.cons_prefix_cons.mp hbefore
          exact ih (hstep s b h hmeet.1) hmeet.2 htail

/-- Two conditions that agree wherever an invariant holds are met by the same runs. -/
theorem stepsMeet_congr {cond' : σ → α → Prop} (hstep : ∀ s a, good s → good (step s a))
    (hsame : ∀ s a, good s → (cond s a ↔ cond' s a)) {s : σ} (h : good s) (actions : List α) :
    StepsMeet step cond s actions ↔ StepsMeet step cond' s actions := by
  induction actions generalizing s with
  | nil => exact Iff.rfl
  | cons a rest ih => exact and_congr (hsame s a h) (ih (hstep s a h))

/-- What the condition gives in every good state holds of every step of the run. -/
theorem StepsMeet.imp_of_good {cond' : σ → α → Prop}
    (hstep : ∀ s a, good s → cond s a → good (step s a))
    (himp : ∀ s a, good s → cond s a → cond' s a) {s : σ} (h : good s) {actions : List α}
    (hmeet : StepsMeet step cond s actions) : StepsMeet step cond' s actions := by
  induction actions generalizing s with
  | nil => exact hmeet
  | cons a rest ih =>
      exact ⟨himp s a h hmeet.1, ih (hstep s a h hmeet.1) hmeet.2⟩

theorem stepsMeet_const_iff {cond : α → Prop} {s : σ} {actions : List α} :
    StepsMeet step (fun _ a => cond a) s actions ↔ ∀ a ∈ actions, cond a := by
  induction actions generalizing s with
  | nil => simp [StepsMeet]
  | cons a rest ih => simp [StepsMeet, ih]

/--
If, from a good state, a step leads to a good state exactly when it meets the
condition, then the states of a run are all good exactly when all its steps
meet the condition.
-/
theorem forall_prefix_good_iff
    (hstep : ∀ s a, good s → (good (step s a) ↔ cond s a))
    {s : σ} (h : good s) (actions : List α) :
    (∀ before, before <+: actions → good (run step s before)) ↔
      StepsMeet step cond s actions := by
  induction actions generalizing s with
  | nil =>
      simp only [StepsMeet, iff_true]
      intro before hbefore
      rw [List.prefix_nil.mp hbefore]
      exact h
  | cons a rest ih =>
      constructor
      · intro hall
        have hnext : good (step s a) :=
          hall [a] (by simp)
        refine ⟨(hstep s a h).mp hnext, (ih hnext).mp ?_⟩
        intro before hbefore
        exact hall (a :: before) (List.cons_prefix_cons.mpr ⟨rfl, hbefore⟩)
      · rintro ⟨hcond, hrest⟩ before hbefore
        have hnext := (hstep s a h).mpr hcond
        cases before with
        | nil => exact h
        | cons b before =>
            obtain ⟨rfl, htail⟩ := List.cons_prefix_cons.mp hbefore
            exact (ih hnext).mpr hrest before htail

/-- The same with an invariant that good states hand on. -/
theorem forall_prefix_good_iff_of_inv {inv : σ → Prop}
    (hinv : ∀ s a, inv s → good s → good (step s a) → inv (step s a))
    (hstep : ∀ s a, inv s → good s → (good (step s a) ↔ cond s a))
    {s : σ} (hs : inv s) (h : good s) (actions : List α) :
    (∀ before, before <+: actions → good (run step s before)) ↔
      StepsMeet step cond s actions := by
  have hboth : ∀ s a, (inv s ∧ good s) → ((inv (step s a) ∧ good (step s a)) ↔ cond s a) := by
    rintro s a ⟨hs, h⟩
    rw [← hstep s a hs h]
    exact ⟨And.right, fun hnext => ⟨hinv s a hs h hnext, hnext⟩⟩
  rw [← forall_prefix_good_iff hboth ⟨hs, h⟩ actions]
  constructor
  · intro hall before hbefore
    induction before using List.reverseRecOn with
    | nil => exact ⟨hs, h⟩
    | append_singleton before a ih =>
        obtain ⟨hs', h'⟩ := ih ((List.prefix_append before [a]).trans hbefore)
        have hnext := hall _ hbefore
        rw [run, List.foldl_append] at hnext ⊢
        exact ⟨hinv _ a hs' h' hnext, hnext⟩
  · exact fun hall before hbefore => (hall before hbefore).2

end Crate.Foundation
