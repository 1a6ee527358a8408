import Mathlib.Data.List.Basic

/-!
# Labelled partial transitions and their histories

A labelled step is an option-valued function: the label names the agent that
moves and carries every choice the environment makes for it.  A run keeps its
complete history, newest event first, so that statements about the order of
steps are statements about one list.
-/

namespace PahoClient.Transition

universe u v

variable {σ : Type u} {ℓ : Type v}

/-- A partial step function driven by labels. -/
abbrev Step (σ : Type u) (ℓ : Type v) :=
  σ → ℓ → Option σ

/-- One step of a run together with the states before and after it. -/
structure Event (σ : Type u) (ℓ : Type v) where
  source : σ
  label : ℓ
  target : σ

/-- `Run next start history state` holds when the events of `history`, newest
first, lead from `start` to `state`. -/
inductive Run (next : Step σ ℓ) (start : σ) : List (Event σ ℓ) → σ → Prop
  | refl : Run next start [] start
  | tail {history : List (Event σ ℓ)} {source target : σ} {label : ℓ} :
      Run next start history source →
      next source label = some target →
      Run next start (⟨source, label, target⟩ :: history) target

namespace Run

variable {next : Step σ ℓ} {start : σ}

theorem nil_iff {state : σ} : Run next start [] state ↔ state = start := by
  constructor
  · intro run
    cases run
    rfl
  · rintro rfl
    exact refl

theorem cons_iff {event : Event σ ℓ} {history : List (Event σ ℓ)} {state : σ} :
    Run next start (event :: history) state ↔
      Run next start history event.source ∧
        next event.source event.label = some event.target ∧ state = event.target := by
  constructor
  · intro run
    cases run with
    | tail earlier step => exact ⟨earlier, step, rfl⟩
  · rintro ⟨earlier, step, rfl⟩
    exact tail earlier step

/-- A run over a concatenated history is a run over its older part continued
by a run over its newer part. -/
theorem append_iff {later earlier : List (Event σ ℓ)} {state : σ} :
    Run next start (later ++ earlier) state ↔
      ∃ middle, Run next start earlier middle ∧ Run next middle later state := by
  induction later generalizing state with
  | nil => simp [nil_iff]
  | cons event later ih =>
      simp only [List.cons_append, cons_iff, ih]
      constructor
      · rintro ⟨⟨middle, first, second⟩, step, rfl⟩
        exact ⟨middle, first, second, step, rfl⟩
      · rintro ⟨middle, first, second, step, rfl⟩
        exact ⟨⟨middle, first, second⟩, step, rfl⟩

/-- Every event of a run splits it into the run before the event, the step
itself, and the run after it. -/
theorem split {later earlier : List (Event σ ℓ)} {event : Event σ ℓ} {state : σ}
    (run : Run next start (later ++ event :: earlier) state) :
    Run next start earlier event.source ∧
      next event.source event.label = some event.target ∧
      Run next event.target later state := by
  obtain ⟨middle, before, after⟩ := append_iff.mp run
  obtain ⟨older, step, rfl⟩ := cons_iff.mp before
  exact ⟨older, step, after⟩

theorem trans {earlier later : List (Event σ ℓ)} {middle state : σ}
    (first : Run next start earlier middle) (second : Run next middle later state) :
    Run next start (later ++ earlier) state :=
  append_iff.mpr ⟨middle, first, second⟩

/-- A predicate kept by every step of a run holds in its last state. -/
theorem preserves (holds : σ → Prop) {history : List (Event σ ℓ)} {state : σ}
    (run : Run next start history state) (initially : holds start)
    (kept : ∀ event ∈ history, next event.source event.label = some event.target →
      holds event.source → holds event.target) : holds state := by
  induction run with
  | refl => exact initially
  | tail _ step ih =>
      exact kept _ List.mem_cons_self step
        (ih fun event member => kept event (List.mem_cons_of_mem _ member))

/-- The invariant rule: a predicate preserved by the step function holds in
the last state of every run. -/
theorem invariant (holds : σ → Prop) {history : List (Event σ ℓ)} {state : σ}
    (run : Run next start history state) (initially : holds start)
    (kept : ∀ source label target, holds source → next source label = some target →
      holds target) : holds state :=
  run.preserves holds initially fun _ _ step before => kept _ _ _ before step

/-- An invariant also holds on both sides of every recorded event. -/
theorem invariant_of_mem (holds : σ → Prop) {history : List (Event σ ℓ)} {state : σ}
    (run : Run next start history state) (initially : holds start)
    (kept : ∀ source label target, holds source → next source label = some target →
      holds target) {event : Event σ ℓ} (member : event ∈ history) :
    holds event.source ∧ next event.source event.label = some event.target ∧
      holds event.target := by
  obtain ⟨later, earlier, rfl⟩ := List.append_of_mem member
  obtain ⟨before, step, _⟩ := run.split
  have source := before.invariant holds initially kept
  exact ⟨source, step, kept _ _ _ source step⟩

/-- A run of a restricted step function is a run of the unrestricted one. -/
theorem mono {weaker : Step σ ℓ} {history : List (Event σ ℓ)} {state : σ}
    (run : Run next start history state)
    (included : ∀ source label target, next source label = some target →
      weaker source label = some target) : Run weaker start history state := by
  induction run with
  | refl => exact refl
  | tail _ step ih => exact tail ih (included _ _ _ step)

end Run

/-- The newest event with a property splits a history. -/
theorem exists_newest {holds : Event σ ℓ → Prop} {history : List (Event σ ℓ)}
    (found : ∃ event ∈ history, holds event) :
    ∃ later event earlier, history = later ++ event :: earlier ∧ holds event ∧
      ∀ other ∈ later, ¬ holds other := by
  induction history with
  | nil =>
      obtain ⟨event, member, _⟩ := found
      cases member
  | cons newest history ih =>
      by_cases first : holds newest
      · exact ⟨[], newest, history, rfl, first, by simp⟩
      · have older : ∃ event ∈ history, holds event := by
          obtain ⟨event, member, held⟩ := found
          rcases List.mem_cons.mp member with rfl | member
          · exact absurd held first
          · exact ⟨event, member, held⟩
        obtain ⟨later, event, earlier, rfl, held, none⟩ := ih older
        refine ⟨newest :: later, event, earlier, rfl, held, ?_⟩
        intro other member
        rcases List.mem_cons.mp member with rfl | member
        · exact first
        · exact none other member

/-! ## Executable runs -/

/-- Execute a list of labels, oldest first. -/
def execute (next : Step σ ℓ) : σ → List ℓ → Option σ
  | state, [] => some state
  | state, label :: labels => (next state label).bind fun target => execute next target labels

/-- The events of an execution, oldest first; a refused label ends the list. -/
def eventsOf (next : Step σ ℓ) : σ → List ℓ → List (Event σ ℓ)
  | _, [] => []
  | state, label :: labels =>
      match next state label with
      | none => []
      | some target => ⟨state, label, target⟩ :: eventsOf next target labels

/-- A successful execution is a run over its own events. -/
theorem run_of_execute {next : Step σ ℓ} {start state : σ} {labels : List ℓ}
    (executed : execute next start labels = some state) :
    Run next start (eventsOf next start labels).reverse state := by
  induction labels generalizing start with
  | nil =>
      cases Option.some.inj executed
      exact Run.refl
  | cons label labels ih =>
      simp only [execute, Option.bind_eq_some_iff] at executed
      obtain ⟨target, step, rest⟩ := executed
      have first : Run next start [⟨start, label, target⟩] target := Run.refl.tail step
      have whole := first.trans (ih rest)
      simpa [eventsOf, step] using whole

/-- An execution whose last state is observed exhibits a run to that state. -/
theorem exists_run_of_execute {α : Type*} (next : Step σ ℓ) (start : σ) (labels : List ℓ)
    (view : σ → α) (value : α)
    (executed : (execute next start labels).map view = some value) :
    ∃ state, Run next start (eventsOf next start labels).reverse state ∧ view state = value := by
  obtain ⟨state, reached, viewed⟩ := Option.map_eq_some_iff.mp executed
  exact ⟨state, run_of_execute reached, viewed⟩

theorem execute_append (next : Step σ ℓ) (start : σ) (first second : List ℓ) :
    execute next start (first ++ second) =
      (execute next start first).bind fun middle => execute next middle second := by
  induction first generalizing start with
  | nil => rfl
  | cons label first ih =>
      cases stepped : next start label with
      | none => simp [execute, stepped]
      | some target => simp [execute, stepped, ih]

/-- An execution in two parts whose middle and last states are observed exhibits
a run to the middle and a run from there. -/
theorem exists_runs_of_execute {α β : Type*} (next : Step σ ℓ) (start : σ)
    (first second : List ℓ) (viewMiddle : σ → α) (valueMiddle : α) (view : σ → β) (value : β)
    (reached : (execute next start first).map viewMiddle = some valueMiddle)
    (executed : (execute next start (first ++ second)).map view = some value) :
    ∃ middle state, Run next start (eventsOf next start first).reverse middle ∧
      viewMiddle middle = valueMiddle ∧
      Run next middle (eventsOf next middle second).reverse state ∧ view state = value := by
  obtain ⟨middle, toMiddle, seen⟩ := Option.map_eq_some_iff.mp reached
  rw [execute_append, toMiddle, Option.bind_some] at executed
  obtain ⟨state, fromMiddle, viewed⟩ := Option.map_eq_some_iff.mp executed
  exact ⟨middle, state, run_of_execute toMiddle, seen, run_of_execute fromMiddle, viewed⟩

/-- The events of an execution carry its own labels. -/
theorem label_mem_of_mem_eventsOf {next : Step σ ℓ} {start : σ} {labels : List ℓ}
    {event : Event σ ℓ} (member : event ∈ (eventsOf next start labels).reverse) :
    event.label ∈ labels := by
  rw [List.mem_reverse] at member
  induction labels generalizing start with
  | nil => cases member
  | cons label labels ih =>
      simp only [eventsOf] at member
      split at member
      · cases member
      · rcases List.mem_cons.mp member with rfl | member
        · exact List.mem_cons_self
        · exact List.mem_cons_of_mem _ (ih member)

/-- A decidable test of all events of an execution. -/
theorem forall_mem_eventsOf (next : Step σ ℓ) (start : σ) (labels : List ℓ)
    (test : Event σ ℓ → Bool) (passed : (eventsOf next start labels).all test = true) :
    ∀ event ∈ (eventsOf next start labels).reverse, test event = true := by
  intro event member
  exact List.all_eq_true.mp passed event (List.mem_reverse.mp member)

/-- A decidable search through the events of an execution. -/
theorem exists_mem_eventsOf (next : Step σ ℓ) (start : σ) (labels : List ℓ)
    (test : Event σ ℓ → Bool) (found : (eventsOf next start labels).any test = true) :
    ∃ event ∈ (eventsOf next start labels).reverse, test event = true := by
  obtain ⟨event, member, passed⟩ := List.any_eq_true.mp found
  exact ⟨event, List.mem_reverse.mpr member, passed⟩

/-- A decidable test of the event at one place of an execution and of the list
of events after it. -/
theorem exists_split_eventsOf (next : Step σ ℓ) (start : σ) (labels : List ℓ) (i : Nat)
    (here : Event σ ℓ → Bool) (after : List (Event σ ℓ) → Bool)
    (passed : (match (eventsOf next start labels).drop i with
      | [] => false
      | event :: newer => here event && after newer.reverse) = true) :
    ∃ later event earlier, (eventsOf next start labels).reverse = later ++ event :: earlier ∧
      here event = true ∧ after later = true := by
  split at passed
  · cases passed
  · rename_i event newer dropped
    rw [Bool.and_eq_true] at passed
    refine ⟨newer.reverse, event, ((eventsOf next start labels).take i).reverse, ?_, passed⟩
    conv_lhs => rw [← List.take_append_drop i (eventsOf next start labels), dropped]
    simp

end PahoClient.Transition
