import PahoClient.Transition.Run

/-!
# Forward simulation with silent steps

A fine system refines a coarse one when each of its steps is either silent, so
that the coarse state stays as it is, or a step of the coarse system under the
label by which the step is seen.
-/

namespace PahoClient.Transition

universe u v w x

variable {σ : Type u} {ℓ : Type v} {τ : Type w} {κ : Type x}

/-- How the steps of a fine system are seen; a silent step is not. -/
abbrev View (σ : Type u) (ℓ : Type v) (κ : Type x) :=
  σ → ℓ → Option κ

/-- From related states every step is silent or matched, and leads to related
states again. -/
structure Simulates (fine : Step σ ℓ) (coarse : Step τ κ) (view : View σ ℓ κ)
    (related : σ → τ → Prop) : Prop where
  silent : ∀ {s s' : σ} {t : τ} {label : ℓ}, related s t → fine s label = some s' →
    view s label = none → related s' t
  visible : ∀ {s s' : σ} {t : τ} {label : ℓ} {seen : κ}, related s t →
    fine s label = some s' → view s label = some seen →
    ∃ t', coarse t seen = some t' ∧ related s' t'

/-- What is seen of a history, newest first. -/
def seenOf (view : View σ ℓ κ) (history : List (Event σ ℓ)) : List κ :=
  history.filterMap fun event => view event.source event.label

theorem seenOf_cons (view : View σ ℓ κ) (event : Event σ ℓ) (history : List (Event σ ℓ)) :
    seenOf view (event :: history) =
      (view event.source event.label).toList ++ seenOf view history := by
  cases seen : view event.source event.label <;> simp [seenOf, seen]

/-- A run of the fine system is seen as a run of the coarse one. -/
theorem Simulates.run {fine : Step σ ℓ} {coarse : Step τ κ} {view : View σ ℓ κ}
    {related : σ → τ → Prop} (simulates : Simulates fine coarse view related)
    {start s : σ} {history : List (Event σ ℓ)} (run : Run fine start history s)
    {coarseStart : τ} (initially : related start coarseStart) :
    ∃ coarseHistory t, Run coarse coarseStart coarseHistory t ∧ related s t ∧
      coarseHistory.map Event.label = seenOf view history := by
  induction run with
  | refl => exact ⟨[], coarseStart, Run.refl, initially, rfl⟩
  | @tail history source target label earlier step ih =>
      obtain ⟨coarseHistory, t, coarseRun, before, labels⟩ := ih
      cases seen : view source label with
      | none =>
          refine ⟨coarseHistory, t, coarseRun, simulates.silent before step seen, ?_⟩
          simp [seenOf, seen, labels]
      | some seenLabel =>
          obtain ⟨t', coarseStep, after⟩ := simulates.visible before step seen
          refine ⟨⟨t, seenLabel, t'⟩ :: coarseHistory, t', coarseRun.tail coarseStep, after, ?_⟩
          simp [seenOf, seen, labels]

end PahoClient.Transition
