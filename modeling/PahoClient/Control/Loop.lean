import Mathlib.Data.List.Basic

/-!
# Counted loops with an early exit

A counted loop runs its body for consecutive indices and stops at the first one
at which the body fails.  A failing body leaves the state as it found it, so the
state of a stopped loop is the work of the indices before the failure.
-/

namespace PahoClient.Control

universe u v w

variable {σ : Type u} {ε : Type v} {α : Type w}

/-- Run the body for `count` indices from `first` on. -/
def forLoop (body : Nat → σ → Except ε σ) : Nat → Nat → σ → σ × Option ε
  | _, 0, state => (state, none)
  | first, count + 1, state =>
      match body first state with
      | .ok next => forLoop body (first + 1) count next
      | .error reason => (state, some reason)

/-- The loop whose body cannot fail. -/
def advance (update : Nat → σ → σ) : Nat → Nat → σ → σ
  | _, 0, state => state
  | first, count + 1, state => advance update (first + 1) count (update first state)

/-- The body that fails at the indices with a reason and updates the state at the
others. -/
def stopping (reason : Nat → Option ε) (update : Nat → σ → σ) (i : Nat) (state : σ) :
    Except ε σ :=
  match reason i with
  | none => .ok (update i state)
  | some stop => .error stop

/-- The update that processes the element of a list at the index. -/
def onElement (elements : List α) (process : σ → α → σ) (i : Nat) (state : σ) : σ :=
  match elements[i]? with
  | some element => process state element
  | none => state

/-- A loop stops for a reason that its body has at some index. -/
theorem exists_error_of_forLoop {body : Nat → σ → Except ε σ} {first count : Nat} {state : σ}
    {reason : ε} (stopped : (forLoop body first count state).2 = some reason) :
    ∃ i before, first ≤ i ∧ i < first + count ∧ body i before = .error reason := by
  induction count generalizing first state with
  | zero => cases stopped
  | succ count ih =>
      rw [forLoop] at stopped
      split at stopped
      · obtain ⟨i, before, low, high, failed⟩ := ih stopped
        exact ⟨i, before, by omega, by omega, failed⟩
      · rename_i other failed
        cases stopped
        exact ⟨first, state, by omega, by omega, failed⟩

/-- Bodies that agree on the indices of a loop give the same loop. -/
theorem forLoop_congr {body other : Nat → σ → Except ε σ} {first count : Nat} (state : σ)
    (same : ∀ i, first ≤ i → i < first + count → body i = other i) :
    forLoop body first count state = forLoop other first count state := by
  induction count generalizing first state with
  | zero => rfl
  | succ count ih =>
      rw [forLoop, forLoop, same first (by omega) (by omega)]
      cases other first state with
      | ok next => exact ih next fun i low high => same i (by omega) (by omega)
      | error reason => rfl

/-- Without a reason to stop the loop runs to its end. -/
theorem forLoop_of_none {reason : Nat → Option ε} (update : Nat → σ → σ) {first count : Nat}
    (state : σ) (none : ∀ i, first ≤ i → i < first + count → reason i = none) :
    forLoop (stopping reason update) first count state =
      (advance update first count state, .none) := by
  induction count generalizing first state with
  | zero => rfl
  | succ count ih =>
      have now : stopping reason update first state = .ok (update first state) := by
        rw [stopping, none first (by omega) (by omega)]
      simp only [forLoop, now, advance]
      exact ih _ fun i low high => none i (by omega) (by omega)

/-- The loop stops at the first index with a reason. -/
theorem forLoop_of_first {reason : Nat → Option ε} (update : Nat → σ → σ) {first count k : Nat}
    (state : σ) {stop : ε} (inside : k < count) (stops : reason (first + k) = some stop)
    (before : ∀ j, j < k → reason (first + j) = none) :
    forLoop (stopping reason update) first count state =
      (advance update first k state, some stop) := by
  induction count generalizing first k state with
  | zero => cases inside
  | succ count ih =>
      cases k with
      | zero =>
          have now : stopping reason update first state = .error stop := by
            rw [Nat.add_zero] at stops
            rw [stopping, stops]
          simp only [forLoop, now, advance]
      | succ k =>
          have now : stopping reason update first state = .ok (update first state) := by
            have go := before 0 (Nat.succ_pos k)
            rw [Nat.add_zero] at go
            rw [stopping, go]
          simp only [forLoop, now, advance]
          apply ih _ (by omega)
          · rw [← stops]
            congr 1
            omega
          · intro j small
            rw [← before (j + 1) (by omega)]
            congr 1
            omega

/-- Either no index has a reason to stop, or one is the first. -/
theorem none_or_first (reason : Nat → Option ε) (count : Nat) :
    (∀ i, i < count → reason i = none) ∨
      ∃ k stop, k < count ∧ reason k = some stop ∧ ∀ j, j < k → reason j = none := by
  induction count with
  | zero => exact Or.inl fun i small => absurd small (Nat.not_lt_zero i)
  | succ count ih =>
      rcases ih with none | ⟨k, stop, small, stops, before⟩
      · cases last : reason count with
        | none =>
            refine Or.inl fun i small => ?_
            by_cases same : i = count
            · rw [same, last]
            · exact none i (by omega)
        | some stop => exact Or.inr ⟨count, stop, by omega, last, none⟩
      · exact Or.inr ⟨k, stop, by omega, stops, before⟩

/-- The last turn of a loop. -/
theorem advance_succ (update : Nat → σ → σ) (first count : Nat) (state : σ) :
    advance update first (count + 1) state =
      update (first + count) (advance update first count state) := by
  induction count generalizing first state with
  | zero => rfl
  | succ count ih =>
      rw [advance, ih, advance, Nat.add_right_comm, Nat.add_assoc]

/-- A loop over the indices of a list folds over its elements. -/
theorem advance_onElement (elements : List α) (process : σ → α → σ) (first count : Nat)
    (state : σ) :
    advance (onElement elements process) first count state =
      ((elements.drop first).take count).foldl process state := by
  induction count generalizing first state with
  | zero => rfl
  | succ count ih =>
      rw [advance, ih, onElement]
      by_cases inside : first < elements.length
      · rw [List.drop_eq_getElem_cons inside, List.getElem?_eq_getElem inside]
        rfl
      · have outside : elements.length ≤ first := by omega
        rw [List.getElem?_eq_none outside, List.drop_eq_nil_of_le outside,
          List.drop_eq_nil_of_le (by omega)]
        simp

end PahoClient.Control
