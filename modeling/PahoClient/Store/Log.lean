import PahoClient.Store.Table

/-!
# Logs of bulk updates

A log lists the bulk updates of a table together with their authors, newest
first.  The entry of a key after a replay depends only on the updates that name
the key, so updates of disjoint keys are independent.  The log also tells whose
insertion an entry goes back to.
-/

namespace PahoClient.Store

universe u v w

/-- A bulk update of a table. -/
inductive Edit (κ : Type u) (β : Type v) where
  | insert (entries : List (κ × β))
  | erase (keys : List κ)

namespace Edit

variable {κ : Type u} {β : Type v}

/-- The keys that an update names. -/
def keys : Edit κ β → List κ
  | insert entries => entries.map Prod.fst
  | erase keys => keys

variable [DecidableEq κ]

/-- The table after an update. -/
def apply : Edit κ β → Table κ β → Table κ β
  | insert entries, table => table.insertAll entries
  | erase keys, table => table.eraseAll keys

theorem apply_of_not_mem {edit : Edit κ β} {key : κ} (table : Table κ β)
    (unnamed : key ∉ edit.keys) : edit.apply table key = table key := by
  cases edit with
  | insert entries =>
      have absent : entries.lookup key = none := by
        rw [List.lookup_eq_none_iff]
        intro entry member
        simp only [bne_iff_ne, ne_eq]
        rintro rfl
        exact unnamed (List.mem_map_of_mem member)
      rw [apply, Table.insertAll_apply, absent, Option.or_none]
  | erase keys => exact Table.eraseAll_of_not_mem unnamed

theorem apply_erase_of_mem {keys : List κ} {key : κ} (table : Table κ β) (named : key ∈ keys) :
    (erase keys).apply table key = none :=
  Table.eraseAll_of_mem named

theorem apply_insert_of_present {table : Table κ β} {key : κ} {value : β}
    (entries : List (κ × β)) (present : table key = some value) :
    (insert entries).apply table key = some value :=
  Table.insertAll_of_present entries present

/-- After an insertion every named key has an entry. -/
theorem apply_insert_isSome {entries : List (κ × β)} {key : κ} (table : Table κ β)
    (named : key ∈ (insert entries).keys) : ((insert entries).apply table key).isSome = true := by
  rw [apply, Table.insertAll_apply, Option.isSome_or]
  obtain ⟨entry, member, rfl⟩ := List.mem_map.mp named
  have found : (entries.lookup entry.1).isSome = true := by
    rw [← Option.not_isNone, Bool.not_eq_true', ← Bool.not_eq_true, Option.isNone_iff_eq_none,
      List.lookup_eq_none_iff]
    intro absent
    simpa using absent entry member
  simp [found]

/-- An update treats every key on its own. -/
theorem apply_congr (edit : Edit κ β) {table other : Table κ β} {key : κ}
    (same : table key = other key) : edit.apply table key = edit.apply other key := by
  cases edit with
  | insert entries => simp only [apply, Table.insertAll_apply, same]
  | erase keys => simp only [apply, Table.eraseAll_apply, same]

end Edit

/-- Bulk updates with their authors, newest first. -/
abbrev Log (α : Type w) (κ : Type u) (β : Type v) :=
  List (α × Edit κ β)

namespace Log

variable {α : Type w} {κ : Type u} {β : Type v} [DecidableEq κ]

/-- The table after all updates of a log. -/
def replay (table : Table κ β) : Log α κ β → Table κ β
  | [] => table
  | entry :: log => entry.2.apply (replay table log)

@[simp]
theorem replay_nil (table : Table κ β) : replay table ([] : Log α κ β) = table :=
  rfl

@[simp]
theorem replay_cons (table : Table κ β) (entry : α × Edit κ β) (log : Log α κ β) :
    replay table (entry :: log) = entry.2.apply (replay table log) :=
  rfl

theorem replay_append (table : Table κ β) (later earlier : Log α κ β) :
    replay table (later ++ earlier) = replay (replay table earlier) later := by
  induction later with
  | nil => rfl
  | cons entry later ih => rw [List.cons_append, replay_cons, replay_cons, ih]

theorem replay_congr (log : Log α κ β) {table other : Table κ β} {key : κ}
    (same : table key = other key) : replay table log key = replay other log key := by
  induction log with
  | nil => exact same
  | cons entry log ih => exact entry.2.apply_congr ih

/-- Updates that do not name a key may be left out when only its entry is read. -/
theorem replay_filter (table : Table κ β) {log : Log α κ β} {key : κ}
    (keep : α × Edit κ β → Bool)
    (dropped : ∀ entry ∈ log, keep entry = false → key ∉ entry.2.keys) :
    replay table (log.filter keep) key = replay table log key := by
  induction log with
  | nil => rfl
  | cons entry log ih =>
      obtain ⟨first, rest⟩ := List.forall_mem_cons.mp dropped
      cases kept : keep entry with
      | true =>
          rw [List.filter_cons_of_pos kept]
          exact entry.2.apply_congr (ih rest)
      | false =>
          rw [List.filter_cons_of_neg (by simp [kept]), ih rest, replay_cons,
            Edit.apply_of_not_mem _ (first kept)]

theorem replay_of_unnamed (table : Table κ β) {log : Log α κ β} {key : κ}
    (unnamed : ∀ entry ∈ log, key ∉ entry.2.keys) : replay table log key = table key := by
  induction log with
  | nil => rfl
  | cons entry log ih =>
      obtain ⟨first, rest⟩ := List.forall_mem_cons.mp unnamed
      rw [replay_cons, Edit.apply_of_not_mem _ first, ih rest]

/-- An entry survives every log that does not erase its key. -/
theorem replay_of_present {table : Table κ β} {log : Log α κ β} {key : κ} {value : β}
    (present : table key = some value)
    (unerased : ∀ a keys, (a, Edit.erase keys) ∈ log → key ∉ keys) :
    replay table log key = some value := by
  induction log with
  | nil => exact present
  | cons entry log ih =>
      have before := ih fun a keys member => unerased a keys (List.mem_cons_of_mem _ member)
      obtain ⟨a, edit⟩ := entry
      cases edit with
      | insert entries => exact Edit.apply_insert_of_present entries before
      | erase keys =>
          rw [replay_cons, Edit.apply_of_not_mem _ (unerased a keys List.mem_cons_self), before]

/-- A key without an entry stays so in a log that inserts nothing under it. -/
theorem replay_of_absent {table : Table κ β} {log : Log α κ β} {key : κ}
    (absent : table key = none)
    (uninserted : ∀ a entries, (a, Edit.insert entries) ∈ log →
      key ∉ (Edit.insert entries).keys) : replay table log key = none := by
  induction log with
  | nil => exact absent
  | cons entry log ih =>
      have before := ih fun a entries member =>
        uninserted a entries (List.mem_cons_of_mem _ member)
      obtain ⟨a, edit⟩ := entry
      cases edit with
      | insert entries =>
          rw [replay_cons, Edit.apply_of_not_mem _ (uninserted a entries List.mem_cons_self),
            before]
      | erase keys =>
          rw [replay_cons, Edit.apply, Table.eraseAll_apply, before, ite_self]

/-! ## Owners of entries -/

/-- The author whose insertion put the current entry of a key, if the log did. -/
def owner (table : Table κ β) : Log α κ β → κ → Option α
  | [], _ => none
  | (a, .insert entries) :: log, key =>
      if key ∈ (Edit.insert entries).keys ∧ replay table log key = none then some a
      else owner table log key
  | (_, .erase keys) :: log, key => if key ∈ keys then none else owner table log key

/-- An owner inserted the key, and nobody has erased it since. -/
theorem exists_insert_of_owner {table : Table κ β} {log : Log α κ β} {key : κ} {a : α}
    (owned : owner table log key = some a) :
    ∃ later entries earlier, log = later ++ (a, Edit.insert entries) :: earlier ∧
      ∀ b keys, (b, Edit.erase keys) ∈ later → key ∉ keys := by
  induction log with
  | nil => cases owned
  | cons entry log ih =>
      obtain ⟨b, edit⟩ := entry
      cases edit with
      | insert entries =>
          rw [owner] at owned
          split at owned
          · cases owned
            refine ⟨[], entries, log, rfl, ?_⟩
            intro b keys member
            cases member
          · obtain ⟨later, inserted, earlier, rfl, unerased⟩ := ih owned
            refine ⟨(b, .insert entries) :: later, inserted, earlier, rfl, ?_⟩
            intro c keys member
            rcases List.mem_cons.mp member with equal | member
            · cases equal
            · exact unerased c keys member
      | erase keys =>
          rw [owner] at owned
          split at owned
          · cases owned
          · rename_i unnamed
            obtain ⟨later, inserted, earlier, rfl, unerased⟩ := ih owned
            refine ⟨(b, .erase keys) :: later, inserted, earlier, rfl, ?_⟩
            intro c others member
            rcases List.mem_cons.mp member with equal | member
            · cases equal
              exact unnamed
            · exact unerased c others member

/-- The owner of an entry does not change while the entry is not erased. -/
theorem owner_append_of_present {table : Table κ β} {later earlier : Log α κ β} {key : κ}
    {value : β} (present : replay table earlier key = some value)
    (unerased : ∀ a keys, (a, Edit.erase keys) ∈ later → key ∉ keys) :
    owner table (later ++ earlier) key = owner table earlier key := by
  induction later with
  | nil => rfl
  | cons entry later ih =>
      have rest : ∀ a keys, (a, Edit.erase keys) ∈ later → key ∉ keys :=
        fun a keys member => unerased a keys (List.mem_cons_of_mem _ member)
      have before := ih rest
      obtain ⟨a, edit⟩ := entry
      cases edit with
      | insert entries =>
          have still : replay table (later ++ earlier) key = some value := by
            rw [replay_append]
            exact replay_of_present present rest
          rw [List.cons_append, owner, if_neg (by simp [still]), before]
      | erase keys =>
          rw [List.cons_append, owner, if_neg (unerased a keys List.mem_cons_self), before]

end Log

end PahoClient.Store
