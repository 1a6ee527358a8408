import Mathlib.Data.List.Induction

/-!
# Conditions on the positions of a list

A sequence of steps is a list, oldest first.  A position is a split of the list
into the steps before it, the step itself and the steps after it.
-/

namespace PahoClient.Transition

universe u

variable {α : Type u} {steps before after : List α} {last step : α}

/-- A position of an extended list is the new end or a position of the list. -/
theorem concat_eq_split_iff :
    steps ++ [last] = before ++ step :: after ↔
      (before = steps ∧ step = last ∧ after = []) ∨
        ∃ older, after = older ++ [last] ∧ steps = before ++ step :: older := by
  constructor
  · intro split
    cases after using List.reverseRecOn with
    | nil =>
        obtain ⟨sameBefore, sameStep⟩ := List.append_inj' split rfl
        cases sameStep
        exact Or.inl ⟨sameBefore.symm, rfl, rfl⟩
    | append_singleton older newest =>
        rw [← List.cons_append, ← List.append_assoc] at split
        obtain ⟨sameOlder, sameNewest⟩ := List.append_inj' split rfl
        cases sameNewest
        exact Or.inr ⟨older, rfl, sameOlder⟩
  · rintro (⟨rfl, rfl, rfl⟩ | ⟨older, rfl, rfl⟩)
    · rfl
    · simp

/-- A condition on every step and the steps before it. -/
theorem forall_split_concat_iff {holds : List α → α → Prop} :
    (∀ before step after, steps ++ [last] = before ++ step :: after → holds before step) ↔
      (∀ before step after, steps = before ++ step :: after → holds before step) ∧
        holds steps last := by
  simp only [concat_eq_split_iff]
  constructor
  · intro all
    constructor
    · rintro before step after split
      exact all before step (after ++ [last]) (Or.inr ⟨after, rfl, split⟩)
    · exact all steps last [] (Or.inl ⟨rfl, rfl, rfl⟩)
  · rintro ⟨all, final⟩ before step after (⟨rfl, rfl, rfl⟩ | ⟨older, rfl, split⟩)
    · exact final
    · exact all before step older split

/-- Some step starts a period in which every later step stays. -/
theorem exists_split_concat_iff (starts : List α → α → Prop) (stays : α → Prop) :
    (∃ before step after, steps ++ [last] = before ++ step :: after ∧ starts before step ∧
        ∀ later ∈ after, stays later) ↔
      starts steps last ∨
        (∃ before step after, steps = before ++ step :: after ∧ starts before step ∧
          ∀ later ∈ after, stays later) ∧ stays last := by
  simp only [concat_eq_split_iff]
  constructor
  · rintro ⟨before, step, after, ⟨rfl, rfl, rfl⟩ | ⟨older, rfl, split⟩, started, stayed⟩
    · exact Or.inl started
    · obtain ⟨earlier, final⟩ := List.forall_mem_append.mp stayed
      exact Or.inr ⟨⟨before, step, older, split, started, earlier⟩, by simpa using final⟩
  · rintro (started | ⟨⟨before, step, after, split, started, stayed⟩, final⟩)
    · exact ⟨steps, last, [], Or.inl ⟨rfl, rfl, rfl⟩, started, by simp⟩
    · exact ⟨before, step, after ++ [last], Or.inr ⟨after, rfl, split⟩, started,
        List.forall_mem_append.mpr ⟨stayed, by simpa using final⟩⟩

/-- What every step of a list keeps holds after the whole list. -/
theorem split_induction (holds : List α → Prop) (initially : holds [])
    (kept : ∀ before step after, steps = before ++ step :: after → holds before →
      holds (before ++ [step])) : holds steps := by
  induction steps using List.reverseRecOn with
  | nil => exact initially
  | append_singleton steps last ih =>
      obtain ⟨earlier, final⟩ := forall_split_concat_iff.mp kept
      exact final (ih earlier)

end PahoClient.Transition
