import PahoClient.Transition.Run
import Mathlib.Algebra.BigOperators.Group.Finset.Piecewise
import Mathlib.Data.Fintype.Basic

/-!
# Products of labelled systems

The components of a product take their steps by turns.  A condition on the whole
state may forbid a step, which is all that the components have to do with each
other, so that a run of the product projects to a run of each of them.
-/

namespace PahoClient.Transition

universe u v w

variable {ι : Type u} {σ : Type v} {ℓ : Type w} [DecidableEq ι]

/-- A step of one component, where the condition allows it. -/
def product (next : ι → Step σ ℓ) (allowed : (ι → σ) → ι → ℓ → Bool) :
    Step (ι → σ) (ι × ℓ) := fun whole label =>
  if allowed whole label.1 label.2 then
    (next label.1 (whole label.1) label.2).map (Function.update whole label.1)
  else
    none

/-- The events of one component, newest first. -/
def project (i : ι) : List (Event (ι → σ) (ι × ℓ)) → List (Event σ ℓ)
  | [] => []
  | event :: earlier =>
      if event.label.1 = i then
        ⟨event.source i, event.label.2, event.target i⟩ :: project i earlier
      else
        project i earlier

section Steps

variable {next : ι → Step σ ℓ} {allowed : (ι → σ) → ι → ℓ → Bool} {whole whole' : ι → σ}
  {i : ι} {label : ℓ}

theorem product_eq_some_iff :
    product next allowed whole (i, label) = some whole' ↔
      allowed whole i label = true ∧
        ∃ target, next i (whole i) label = some target ∧
          whole' = Function.update whole i target := by
  unfold product
  dsimp only
  split
  · rename_i permitted
    rw [Option.map_eq_some_iff]
    constructor
    · rintro ⟨target, step, rfl⟩
      exact ⟨permitted, target, step, rfl⟩
    · rintro ⟨_, target, step, rfl⟩
      exact ⟨target, step, rfl⟩
  · rename_i forbidden
    simp [forbidden]

/-- The step of another component leaves a component alone. -/
theorem product_other (step : product next allowed whole (i, label) = some whole') {j : ι}
    (other : j ≠ i) : whole' j = whole j := by
  obtain ⟨_, target, _, rfl⟩ := product_eq_some_iff.mp step
  exact Function.update_of_ne other _ _

/-- The step of a component in the whole is its own step. -/
theorem product_own (step : product next allowed whole (i, label) = some whole') :
    allowed whole i label = true ∧ next i (whole i) label = some (whole' i) := by
  obtain ⟨permitted, target, moved, rfl⟩ := product_eq_some_iff.mp step
  rw [Function.update_self]
  exact ⟨permitted, moved⟩

end Steps

section Runs

variable {next : ι → Step σ ℓ} {allowed : (ι → σ) → ι → ℓ → Bool} {start whole : ι → σ}
  {history : List (Event (ι → σ) (ι × ℓ))}

/-- A run of the product is a run of each component, if what the condition
allows is a step of the component in its own right. -/
theorem Run.project (run : Run (product next allowed) start history whole)
    (own : ι → Step σ ℓ)
    (permits : ∀ before i label target, allowed before i label = true →
      next i (before i) label = some target → own i (before i) label = some target) (i : ι) :
    Run (own i) (start i) (Transition.project i history) (whole i) := by
  induction run with
  | refl => exact Run.refl
  | @tail history source target label earlier step ih =>
      obtain ⟨j, label⟩ := label
      by_cases moved : j = i
      · subst j
        obtain ⟨permitted, step⟩ := product_own step
        simp only [Transition.project, if_true]
        exact ih.tail (permits _ _ _ _ permitted step)
      · simp only [Transition.project, moved, if_false]
        rw [product_other step (Ne.symm moved)]
        exact ih

theorem mem_project {i : ι} {event : Event σ ℓ} (member : event ∈ project i history) :
    ∃ whole ∈ history, whole.label = (i, event.label) := by
  induction history with
  | nil => cases member
  | cons newest earlier ih =>
      simp only [project] at member
      split at member
      · rename_i own
        rcases List.mem_cons.mp member with rfl | older
        · exact ⟨newest, List.mem_cons_self, by rw [← own]⟩
        · obtain ⟨event, inside, labelEq⟩ := ih older
          exact ⟨event, List.mem_cons_of_mem _ inside, labelEq⟩
      · obtain ⟨event, inside, labelEq⟩ := ih member
        exact ⟨event, List.mem_cons_of_mem _ inside, labelEq⟩

theorem project_append (i : ι) (later earlier : List (Event (ι → σ) (ι × ℓ))) :
    project i (later ++ earlier) = project i later ++ project i earlier := by
  induction later with
  | nil => rfl
  | cons event later ih =>
      simp only [List.cons_append, project, ih]
      split <;> rfl

/-- The steps of one kind are those of all components together. -/
theorem countP_eq_sum_project [Fintype ι] (kind : ℓ → Bool)
    (history : List (Event (ι → σ) (ι × ℓ))) :
    history.countP (fun event => kind event.label.2) =
      ∑ i, (project i history).countP fun event => kind event.label := by
  induction history with
  | nil => simp [project]
  | cons event earlier ih =>
      have single : ∀ i, (project i (event :: earlier)).countP (fun event => kind event.label) =
          (project i earlier).countP (fun event => kind event.label) +
            if event.label.1 = i then (if kind event.label.2 then 1 else 0) else 0 := by
        intro i
        by_cases own : event.label.1 = i <;> simp [project, own, List.countP_cons]
      simp only [single, Finset.sum_add_distrib, ← ih, List.countP_cons]
      simp

end Runs

end PahoClient.Transition
