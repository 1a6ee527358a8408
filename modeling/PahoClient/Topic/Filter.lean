import Mathlib.Data.List.Basic

/-!
# Topic names and topic filters

A topic name is a sequence of levels.  A filter is a sequence of levels in which
a wildcard may stand for one level, or at the end for any number of levels.  The
symbols that separate levels and mark wildcards are parameters.
-/

namespace PahoClient.Topic

universe u

variable {α : Type u}

/-- The symbols with a meaning in names and filters. -/
structure Symbols (α : Type u) where
  separator : α
  single : α
  multi : α
  reserved : α

/-- A level of a filter. -/
inductive Level (α : Type u) where
  | name (text : List α)
  | single
  | multi

def Level.isWildcard : Level α → Bool
  | name _ => false
  | single | multi => true

variable [DecidableEq α]

/-- Whether the levels of a filter cover the levels of a name.  A final
multi-level wildcard also covers the parent level. -/
def covers : List (Level α) → List (List α) → Bool
  | [], [] => true
  | [.multi], _ => true
  | .single :: filter, _ :: name => covers filter name
  | .name text :: filter, level :: name => decide (text = level) && covers filter name
  | _, _ => false

namespace Symbols

variable (symbols : Symbols α)

/-- The levels of a name. -/
def levels (name : List α) : List (List α) :=
  name.splitOn symbols.separator

/-- A wildcard fills a whole level. -/
def level (text : List α) : Level α :=
  if text = [symbols.single] then .single
  else if text = [symbols.multi] then .multi
  else .name text

/-- The levels of a filter. -/
def parse (filter : List α) : List (Level α) :=
  (symbols.levels filter).map symbols.level

/-- A filter that starts with a wildcard does not match reserved names. -/
def hides (filter name : List α) : Bool :=
  ((symbols.parse filter).head?.any Level.isWildcard) && decide (name.head? = some symbols.reserved)

/-- The matching rules. -/
def accepts (filter name : List α) : Bool :=
  covers (symbols.parse filter) (symbols.levels name) && !symbols.hides filter name

/-- The text contains no wildcard symbol. -/
def Plain (text : List α) : Prop :=
  symbols.single ∉ text ∧ symbols.multi ∉ text

/-- Wildcards fill whole levels, and the multi-level wildcard is the last
level. -/
def WellFormedLevels : List (List α) → Prop
  | [] => True
  | [level] => symbols.Plain level ∨ level = [symbols.single] ∨ level = [symbols.multi]
  | level :: rest =>
      (symbols.Plain level ∨ level = [symbols.single]) ∧ WellFormedLevels rest

/-- A filter that a subscription may name. -/
def IsFilter (filter : List α) : Prop :=
  filter ≠ [] ∧ symbols.WellFormedLevels (symbols.levels filter)

variable {symbols}

theorem level_of_plain {text : List α} (plain : symbols.Plain text) :
    symbols.level text = .name text := by
  unfold level
  rw [if_neg, if_neg]
  · rintro rfl
    exact plain.2 List.mem_cons_self
  · rintro rfl
    exact plain.1 List.mem_cons_self

/-- Splitting adds no symbols. -/
theorem mem_of_mem_levels {name level : List α} {symbol : α}
    (listed : level ∈ symbols.levels name) (member : symbol ∈ level) : symbol ∈ name := by
  induction name generalizing level with
  | nil =>
      rw [levels, List.splitOn_nil, List.mem_singleton] at listed
      rwa [listed] at member
  | cons head name ih =>
      rw [levels, List.splitOn_cons_eq_if_modifyHead] at listed
      split at listed
      · rcases List.mem_cons.mp listed with rfl | listed
        · cases member
        · exact List.mem_cons_of_mem _ (ih listed member)
      · obtain ⟨first, rest, split⟩ :=
          List.exists_cons_of_ne_nil (List.splitOn_ne_nil symbols.separator name)
        rw [split, List.modifyHead_cons] at listed
        rcases List.mem_cons.mp listed with rfl | listed
        · rcases List.mem_cons.mp member with rfl | member
          · exact List.mem_cons_self
          · have firstListed : first ∈ symbols.levels name := by
              rw [levels, split]
              exact List.mem_cons_self
            exact List.mem_cons_of_mem _ (ih firstListed member)
        · have laterListed : level ∈ symbols.levels name := by
            rw [levels, split]
            exact List.mem_cons_of_mem _ listed
          exact List.mem_cons_of_mem _ (ih laterListed member)

theorem levels_injective {first second : List α}
    (same : symbols.levels first = symbols.levels second) : first = second := by
  have joined := congrArg [symbols.separator].intercalate same
  simpa [levels] using joined

/-- A filter without wildcards consists of names. -/
theorem parse_of_plain {filter : List α} (plain : symbols.Plain filter) :
    symbols.parse filter = (symbols.levels filter).map .name := by
  apply List.map_congr_left
  intro text listed
  apply level_of_plain
  exact ⟨fun member => plain.1 (mem_of_mem_levels listed member),
    fun member => plain.2 (mem_of_mem_levels listed member)⟩

end Symbols

theorem covers_names {filter name : List (List α)} :
    covers (filter.map Level.name) name = true ↔ filter = name := by
  induction filter generalizing name with
  | nil => cases name <;> simp [covers]
  | cons text filter ih =>
      cases name with
      | nil => simp [covers]
      | cons level name => simp [covers, ih]

/-- A filter without wildcards matches itself and nothing else. -/
theorem Symbols.accepts_of_plain {symbols : Symbols α} {filter name : List α}
    (plain : symbols.Plain filter) : symbols.accepts filter name = true ↔ filter = name := by
  have visible : symbols.hides filter name = false := by
    rw [hides, parse_of_plain plain]
    cases symbols.levels filter <;> simp [Level.isWildcard]
  rw [accepts, visible, parse_of_plain plain, Bool.not_false, Bool.and_true, covers_names]
  constructor
  · exact levels_injective
  · rintro rfl
    rfl

end PahoClient.Topic
