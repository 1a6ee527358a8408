import Mathlib.Data.List.Nodup
import Mathlib.Logic.Function.Basic

/-!
# Keyed tables with insertion that never overwrites

A table is the extensional content of an associative container: the value found
under each key.  Insertion keeps an entry that is already present, and the bulk
operations run a list of insertions or erasures in order.
-/

namespace PahoClient.Store

universe u v

/-- The content of an associative container. -/
abbrev Table (κ : Type u) (β : Type v) :=
  κ → Option β

namespace Table

variable {κ : Type u} {β : Type v} [DecidableEq κ]

/-- Insert an entry unless its key is already present. -/
def insertNew (table : Table κ β) (key : κ) (value : β) : Table κ β :=
  Function.update table key ((table key).or (some value))

/-- Remove the entry of a key, if there is one. -/
def erase (table : Table κ β) (key : κ) : Table κ β :=
  Function.update table key none

/-- Insert a list of entries in order. -/
def insertAll (table : Table κ β) : List (κ × β) → Table κ β
  | [] => table
  | entry :: entries => insertAll (table.insertNew entry.1 entry.2) entries

/-- Erase a list of keys in order. -/
def eraseAll (table : Table κ β) : List κ → Table κ β
  | [] => table
  | key :: keys => eraseAll (table.erase key) keys

@[simp]
theorem insertAll_nil (table : Table κ β) : table.insertAll [] = table :=
  rfl

@[simp]
theorem eraseAll_nil (table : Table κ β) : table.eraseAll [] = table :=
  rfl

theorem insertAll_eq_foldl (table : Table κ β) (entries : List (κ × β)) :
    table.insertAll entries =
      entries.foldl (fun state entry => state.insertNew entry.1 entry.2) table := by
  induction entries generalizing table with
  | nil => rfl
  | cons entry entries ih => exact ih _

theorem eraseAll_eq_foldl (table : Table κ β) (keys : List κ) :
    table.eraseAll keys = keys.foldl erase table := by
  induction keys generalizing table with
  | nil => rfl
  | cons key keys ih => exact ih _

/-- A bulk insertion keeps what it finds and otherwise stores the first listed
value of the key. -/
theorem insertAll_apply (table : Table κ β) (entries : List (κ × β)) (key : κ) :
    table.insertAll entries key = (table key).or (entries.lookup key) := by
  induction entries generalizing table with
  | nil => simp
  | cons entry entries ih =>
      obtain ⟨first, value⟩ := entry
      rw [insertAll, ih, insertNew]
      by_cases same : key = first
      · subst key
        cases table first <;> simp
      · have differs : (key == first) = false := by simp [same]
        simp [Function.update_of_ne same, List.lookup_cons, differs]

/-- After a bulk erasure exactly the listed keys are gone. -/
theorem eraseAll_apply (table : Table κ β) (keys : List κ) (key : κ) :
    table.eraseAll keys key = if key ∈ keys then none else table key := by
  induction keys generalizing table with
  | nil => simp
  | cons first keys ih =>
      rw [eraseAll, ih, erase]
      by_cases same : key = first
      · subst key
        simp
      · simp [same]

theorem insertAll_of_present {table : Table κ β} {key : κ} {value : β}
    (entries : List (κ × β)) (present : table key = some value) :
    table.insertAll entries key = some value := by
  simp [insertAll_apply, present]

theorem insertAll_of_absent {table : Table κ β} {key : κ} (entries : List (κ × β))
    (absent : table key = none) : table.insertAll entries key = entries.lookup key := by
  simp [insertAll_apply, absent]

theorem eraseAll_of_mem {table : Table κ β} {keys : List κ} {key : κ} (member : key ∈ keys) :
    table.eraseAll keys key = none := by
  simp [eraseAll_apply, member]

theorem eraseAll_of_not_mem {table : Table κ β} {keys : List κ} {key : κ}
    (notMember : key ∉ keys) : table.eraseAll keys key = table key := by
  simp [eraseAll_apply, notMember]

/-- A bulk erasure changes nothing exactly when no listed key has an entry. -/
theorem eraseAll_eq_self_iff (table : Table κ β) (keys : List κ) :
    table.eraseAll keys = table ↔ ∀ key ∈ keys, table key = none := by
  constructor
  · intro same key member
    rw [← same]
    exact eraseAll_of_mem member
  · intro absent
    funext key
    by_cases member : key ∈ keys
    · rw [eraseAll_of_mem member, absent key member]
    · exact eraseAll_of_not_mem member

end Table

/-! ## First occurrence in a list of pairs -/

section Lookup

variable {κ : Type u} {β : Type v} [DecidableEq κ]

theorem lookup_zip_eq_none_iff {keys : List κ} {values : List β} {key : κ}
    (covered : keys.length ≤ values.length) :
    (keys.zip values).lookup key = none ↔ key ∉ keys := by
  induction keys generalizing values with
  | nil => simp
  | cons first keys ih =>
      cases values with
      | nil => simp at covered
      | cons value values =>
          have shorter : keys.length ≤ values.length := by simpa using covered
          by_cases same : key = first
          · subst key
            simp
          · have differs : (key == first) = false := by simp [same]
            simp [List.lookup_cons, differs, ih shorter, same]

/-- A value found under a key is listed at a place of that key. -/
theorem exists_getElem_of_lookup_zip {keys : List κ} {values : List β} {key : κ} {value : β}
    (found : (keys.zip values).lookup key = some value) :
    ∃ i : Nat, keys[i]? = some key ∧ values[i]? = some value := by
  induction keys generalizing values with
  | nil => simp at found
  | cons first keys ih =>
      cases values with
      | nil => simp at found
      | cons head values =>
          rw [List.zip_cons_cons, List.lookup_cons] at found
          by_cases same : key = first
          · subst key
            simp only [beq_self_eq_true, Option.some.injEq] at found
            exact ⟨0, rfl, congrArg some found⟩
          · have differs : (key == first) = false := by simp [same]
            rw [differs] at found
            obtain ⟨i, keyAt, valueAt⟩ := ih found
            exact ⟨i + 1, keyAt, valueAt⟩

/-- The value found under a key is the one at the first place of the key. -/
theorem lookup_zip_eq_some_iff {keys : List κ} {values : List β} {key : κ} {value : β} :
    (keys.zip values).lookup key = some value ↔
      ∃ i : Nat, keys[i]? = some key ∧ values[i]? = some value ∧
        ∀ j < i, keys[j]? ≠ some key := by
  induction keys generalizing values with
  | nil => simp
  | cons first keys ih =>
      cases values with
      | nil => simp
      | cons head values =>
          rw [List.zip_cons_cons, List.lookup_cons]
          by_cases same : key = first
          · subst key
            simp only [beq_self_eq_true, Option.some.injEq]
            constructor
            · rintro rfl
              exact ⟨0, rfl, rfl, by simp⟩
            · rintro ⟨i, _, valueAt, none⟩
              cases i with
              | zero => exact Option.some.inj valueAt
              | succ i => exact absurd rfl (none 0 (Nat.succ_pos i))
          · have differs : (key == first) = false := by simp [same]
            rw [differs, ih]
            constructor
            · rintro ⟨i, keyAt, valueAt, none⟩
              refine ⟨i + 1, keyAt, valueAt, ?_⟩
              intro j earlier
              cases j with
              | zero => simpa using fun equal : first = key => same equal.symm
              | succ j => exact none j (Nat.lt_of_succ_lt_succ earlier)
            · rintro ⟨i, keyAt, valueAt, none⟩
              cases i with
              | zero => exact absurd (Option.some.inj keyAt).symm same
              | succ i =>
                  refine ⟨i, keyAt, valueAt, ?_⟩
                  intro j earlier
                  exact none (j + 1) (Nat.succ_lt_succ earlier)

/-- With distinct keys the value found under the `i`-th key is the `i`-th
value. -/
theorem lookup_zip_getElem {keys : List κ} {values : List β} {i : Nat} {key : κ} {value : β}
    (distinct : keys.Nodup) (keyAt : keys[i]? = some key) (valueAt : values[i]? = some value) :
    (keys.zip values).lookup key = some value := by
  induction keys generalizing values i with
  | nil => simp at keyAt
  | cons first keys ih =>
      obtain ⟨notMember, distinct⟩ := List.nodup_cons.mp distinct
      cases values with
      | nil => simp at valueAt
      | cons head values =>
          cases i with
          | zero =>
              simp only [List.getElem?_cons_zero, Option.some.injEq] at keyAt valueAt
              subst key
              subst value
              simp
          | succ i =>
              simp only [List.getElem?_cons_succ] at keyAt valueAt
              have member : key ∈ keys := List.mem_of_getElem? keyAt
              have differs : (key == first) = false := by
                simp only [beq_eq_false_iff_ne, ne_eq]
                rintro rfl
                exact notMember member
              simpa [List.lookup_cons, differs] using ih distinct keyAt valueAt

end Lookup

end PahoClient.Store
