import PahoClient.Transition.Run
import Mathlib.Algebra.BigOperators.Group.Finset.Piecewise
import Mathlib.Algebra.Order.BigOperators.Group.Finset

/-!
# Potentials of a system of independent components

Each step belongs to one component at most.  A component has a level; its own
steps pay their cost out of it and may raise it by their price, and the steps of
the others do not raise it.  Over a run the costs are then bounded by the prices,
for each component and for all of them together.
-/

namespace PahoClient.Transition

universe u v w

variable {σ : Type u} {ℓ : Type v} {ι : Type w}

/-- What the labels of a history add up to. -/
def total (amount : ℓ → ℕ) : List (Event σ ℓ) → ℕ
  | [] => 0
  | event :: earlier => amount event.label + total amount earlier

section Total

variable {amount first second : ℓ → ℕ}

theorem total_append (later earlier : List (Event σ ℓ)) :
    total amount (later ++ earlier) = total amount later + total amount earlier := by
  induction later with
  | nil => simp [total]
  | cons event later ih => simp [total, ih, Nat.add_assoc]

theorem total_eq_zero {history : List (Event σ ℓ)}
    (free : ∀ event ∈ history, amount event.label = 0) : total amount history = 0 := by
  induction history with
  | nil => rfl
  | cons event earlier ih =>
      obtain ⟨newest, older⟩ := List.forall_mem_cons.mp free
      rw [total, newest, ih older]

theorem total_add (history : List (Event σ ℓ)) :
    total (fun label => first label + second label) history =
      total first history + total second history := by
  induction history with
  | nil => rfl
  | cons event earlier ih =>
      simp only [total, ih]
      omega

/-- A fixed amount for the labels that pass a test. -/
theorem total_ite (test : ℓ → Bool) (fixed : ℕ) (history : List (Event σ ℓ)) :
    total (fun label => if test label then fixed else 0) history =
      fixed * history.countP fun event => test event.label := by
  induction history with
  | nil => rfl
  | cons event earlier ih =>
      rw [total, ih, List.countP_cons]
      cases test event.label <;> simp [Nat.mul_add, Nat.add_comm]

/-- Only the labels count. -/
theorem total_eq_foldr (history : List (Event σ ℓ)) :
    total amount history =
      (history.map Event.label).foldr (fun label sum => amount label + sum) 0 := by
  induction history with
  | nil => rfl
  | cons event earlier ih => rw [total, ih, List.map_cons, List.foldr_cons]

end Total

section Share

variable [DecidableEq ι] (owner : ℓ → Option ι) (amount : ℓ → ℕ)

/-- The part of an amount that a component counts. -/
def ownedBy (i : ι) (label : ℓ) : ℕ :=
  if owner label = some i then amount label else 0

/-- What the steps of one component add up to. -/
def share (i : ι) (history : List (Event σ ℓ)) : ℕ :=
  total (ownedBy owner amount i) history

variable {owner amount}

/-- An amount of owned steps is the sum of the shares of their owners. -/
theorem sum_share_eq_total (components : Finset ι) {history : List (Event σ ℓ)}
    (covered : ∀ event ∈ history, amount event.label ≠ 0 →
      ∃ i ∈ components, owner event.label = some i) :
    ∑ i ∈ components, share owner amount i history = total amount history := by
  induction history with
  | nil => simp [share, total]
  | cons event earlier ih =>
      obtain ⟨newest, older⟩ := List.forall_mem_cons.mp covered
      have shares : ∑ i ∈ components, ownedBy owner amount i event.label =
          amount event.label := by
        by_cases free : amount event.label = 0
        · simp [ownedBy, free]
        · obtain ⟨i, member, owned⟩ := newest free
          simp [ownedBy, owned, member]
      rw [total, ← ih older, ← shares, ← Finset.sum_add_distrib]
      rfl

/-- The shares of some components do not exceed the whole. -/
theorem sum_share_le_total (components : Finset ι) (history : List (Event σ ℓ)) :
    ∑ i ∈ components, share owner amount i history ≤ total amount history := by
  induction history with
  | nil => simp [share, total]
  | cons event earlier ih =>
      have shares : ∑ i ∈ components, ownedBy owner amount i event.label ≤
          amount event.label := by
        cases owned : owner event.label with
        | none => simp [ownedBy, owned]
        | some i =>
            by_cases member : i ∈ components <;> simp [ownedBy, owned, member]
      have sums : ∑ i ∈ components, share owner amount i (event :: earlier) =
          ∑ i ∈ components, ownedBy owner amount i event.label +
            ∑ i ∈ components, share owner amount i earlier :=
        Finset.sum_add_distrib
      rw [sums, total]
      exact Nat.add_le_add shares ih

end Share

/-- Under an invariant, a step lowers the level of its component by its cost,
up to its price, and raises no other level. -/
structure Pays (next : Step σ ℓ) (holds : σ → Prop) (owner : ℓ → Option ι)
    (cost price : ℓ → ℕ) (level : σ → ι → ℕ) : Prop where
  kept : ∀ {s t : σ} {label : ℓ}, holds s → next s label = some t → holds t
  own : ∀ {s t : σ} {label : ℓ} {i : ι}, holds s → next s label = some t →
    owner label = some i → level t i + cost label ≤ level s i + price label
  other : ∀ {s t : σ} {label : ℓ} {i : ι}, holds s → next s label = some t →
    owner label ≠ some i → level t i ≤ level s i

section Runs

variable [DecidableEq ι] {next : Step σ ℓ} {holds : σ → Prop} {owner : ℓ → Option ι}
  {cost price : ℓ → ℕ} {level : σ → ι → ℕ} {start s : σ} {history : List (Event σ ℓ)}

/-- One component over a whole run. -/
theorem Pays.share (pays : Pays next holds owner cost price level)
    (run : Run next start history s) (initially : holds start) (i : ι) :
    level s i + share owner cost i history ≤ level start i + share owner price i history := by
  have bounded : holds s ∧
      level s i + Transition.share owner cost i history ≤
        level start i + Transition.share owner price i history := by
    induction run with
    | refl => exact ⟨initially, le_refl _⟩
    | @tail history source target label earlier step ih =>
        obtain ⟨before, ih⟩ := ih
        refine ⟨pays.kept before step, ?_⟩
        have moved : level target i + ownedBy owner cost i label ≤
            level source i + ownedBy owner price i label := by
          by_cases owned : owner label = some i
          · simpa [ownedBy, owned] using pays.own before step owned
          · simpa [ownedBy, owned] using pays.other before step owned
        simp only [Transition.share, total] at ih ⊢
        omega
  exact bounded.2

/-- All components together, from a state in which none has anything to do. -/
theorem Pays.total (pays : Pays next holds owner cost price level)
    (run : Run next start history s) (initially : holds start)
    (nothing : ∀ i, level start i = 0)
    (owned : ∀ label, cost label ≠ 0 → (owner label).isSome = true) :
    total cost history ≤ total price history := by
  let components := (history.filterMap fun event => owner event.label).toFinset
  have covered : ∀ event ∈ history, cost event.label ≠ 0 →
      ∃ i ∈ components, owner event.label = some i := by
    intro event member costly
    obtain ⟨i, belongs⟩ := Option.isSome_iff_exists.mp (owned _ costly)
    refine ⟨i, ?_, belongs⟩
    exact List.mem_toFinset.mpr (List.mem_filterMap.mpr ⟨event, member, belongs⟩)
  have each : ∀ i ∈ components,
      Transition.share owner cost i history ≤ Transition.share owner price i history := by
    intro i _
    have bounded := pays.share run initially i
    rw [nothing i] at bounded
    omega
  calc Transition.total cost history
      = ∑ i ∈ components, Transition.share owner cost i history :=
        (sum_share_eq_total components covered).symm
    _ ≤ ∑ i ∈ components, Transition.share owner price i history := Finset.sum_le_sum each
    _ ≤ Transition.total price history := sum_share_le_total components history

end Runs

/-- Where the runs of a kind of steps are bounded, one of them cannot be
continued. -/
theorem exists_maximal {next : Step σ ℓ} (kind : ℓ → Bool) {s : σ} (bound : ℕ)
    (bounded : ∀ later t, Run next s later t → (∀ event ∈ later, kind event.label = true) →
      later.length ≤ bound) :
    ∃ later t, Run next s later t ∧ (∀ event ∈ later, kind event.label = true) ∧
      ∀ label, kind label = true → next t label = none := by
  induction bound generalizing s with
  | zero =>
      refine ⟨[], s, Run.refl, by simp, ?_⟩
      intro label ofKind
      rw [Option.eq_none_iff_forall_ne_some]
      intro t step
      have short := bounded [⟨s, label, t⟩] t (Run.refl.tail step) (by simpa using ofKind)
      simp at short
  | succ bound ih =>
      by_cases stuck : ∀ label, kind label = true → next s label = none
      · exact ⟨[], s, Run.refl, by simp, stuck⟩
      · push Not at stuck
        obtain ⟨label, ofKind, enabled⟩ := stuck
        obtain ⟨t, step⟩ := Option.ne_none_iff_exists'.mp enabled
        have first : Run next s [⟨s, label, t⟩] t := Run.refl.tail step
        obtain ⟨later, last, run, allKind, final⟩ := ih (s := t) fun later last run allKind => by
          have longer := bounded (later ++ [⟨s, label, t⟩]) last (first.trans run) (by
            intro event member
            rcases List.mem_append.mp member with newer | oldest
            · exact allKind event newer
            · cases List.mem_singleton.mp oldest
              exact ofKind)
          simpa using longer
        refine ⟨later ++ [⟨s, label, t⟩], last, first.trans run, ?_, final⟩
        intro event member
        rcases List.mem_append.mp member with newer | oldest
        · exact allKind event newer
        · cases List.mem_singleton.mp oldest
          exact ofKind

end PahoClient.Transition
